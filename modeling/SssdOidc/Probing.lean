import Mathlib.Logic.Basic
import Mathlib.Data.Finset.Card
import Mathlib.Data.List.Basic

/-! Open addressing over arbitrary probe paths. A key walks its own list of slots
and takes the first one that is free or already its own. Nothing is assumed of the
paths: they may cross, repeat a slot or stop early. -/
namespace SssdOidc.Probing

abbrev Owners (κ ς : Type) := ς → Option κ

variable {κ ς : Type}

def Held (owners : Owners κ ς) (k : κ) (s : ς) : Prop := ∃ other, owners s = some other ∧ other ≠ k

def Open (owners : Owners κ ς) (k : κ) (s : ς) : Prop := owners s = none ∨ owners s = some k

theorem openIffNotHeld {owners : Owners κ ς} {k s} : Open owners k s ↔ ¬Held owners k s := by
  unfold Open Held
  cases h : owners s with
  | none => simp
  | some other => simp

theorem openOwned {owners : Owners κ ς} {j k s} (free : Open owners k s) (own : owners s = some j) : j = k := by
  rcases free with none | mine
  · exact absurd (none.symm.trans own) (by simp)
  · exact Option.some.inj (own.symm.trans mine)

/- What a walk is told of a slot: nothing, or whether the owner is its own key. -/
section Answer
variable [BEq κ] [LawfulBEq κ] {owners : Owners κ ς} {k : κ} {s : ς}

theorem heldAnswer : (owners s).map (fun owner => owner == k) = some false ↔ Held owners k s := by
  simp [Held]

theorem openAnswer : (owners s).map (fun owner => owner == k) ≠ some false ↔ Open owners k s :=
  (not_congr heldAnswer).trans openIffNotHeld.symm

end Answer

/- The walk gets to the slot having passed only over slots that satisfy `passed`. -/
inductive Reaches (passed : ς → Prop) : List ς → ς → Prop where
  | here {s rest} : Reaches passed (s :: rest) s
  | skip {x rest s} (behind : passed x) (onward : Reaches passed rest s) : Reaches passed (x :: rest) s

theorem reachesMono {p q : ς → Prop} {path s} (weaker : ∀ x, p x → q x)
    (walk : Reaches p path s) : Reaches q path s := by
  induction walk with
  | here => exact .here
  | skip behind onward ih => exact .skip (weaker _ behind) ih

theorem reachesPast {p : ς → Prop} {front rest : List ς} {s} (behind : ∀ x ∈ front, p x)
    (walk : Reaches p rest s) : Reaches p (front ++ rest) s := by
  induction front with
  | nil => exact walk
  | cons x front ih =>
    exact .skip (behind x List.mem_cons_self) (ih fun y inside => behind y (List.mem_cons_of_mem _ inside))

theorem reachesMember {p : ς → Prop} {path s} (walk : Reaches p path s) : s ∈ path := by
  induction walk with
  | here => exact List.mem_cons_self
  | skip behind onward ih => exact List.mem_cons_of_mem _ ih

theorem reachesFirst {p : ς → Prop} {path s} (walk : Reaches p path s) :
    path.head? = some s ∨ ∃ x, path.head? = some x ∧ p x ∧ s ≠ x := by
  cases walk with
  | here => exact .inl rfl
  | @skip x rest s behind onward =>
    by_cases same : s = x
    · exact .inl (congrArg some same.symm)
    · exact .inr ⟨x, rfl, behind, same⟩

theorem reachesHead {p : ς → Prop} {path s} (walk : Reaches p path s) (never : ∀ x, ¬p x) : path.head? = some s := by
  rcases reachesFirst walk with first | ⟨x, -, behind, -⟩
  · exact first
  · exact absurd behind (never x)

theorem reachesIndex {p : ς → Prop} {path s} (walk : Reaches p path s) :
    ∃ n : Nat, path[n]? = some s ∧ ∀ j < n, ∃ x, path[j]? = some x ∧ p x := by
  induction walk with
  | here => exact ⟨0, rfl, by simp⟩
  | @skip x rest s behind onward ih =>
    obtain ⟨n, stop, passed⟩ := ih
    refine ⟨n + 1, stop, ?_⟩
    intro j below
    cases j with
    | zero => exact ⟨x, rfl, behind⟩
    | succ j => exact passed j (Nat.lt_of_succ_lt_succ below)

theorem reachesSame {p : ς → Prop} {path s t} (left : Reaches p path s) (right : Reaches p path t)
    (stopLeft : ¬p s) (stopRight : ¬p t) : s = t := by
  induction left with
  | here =>
    cases right with
    | here => rfl
    | skip behind onward => exact absurd behind stopLeft
  | skip behind onward ih =>
    cases right with
    | here => exact absurd behind stopRight
    | skip behind' onward' => exact ih onward' stopLeft

def before [DecidableEq ς] (path : List ς) (s : ς) : List ς := path.takeWhile (fun x => x ≠ s)

theorem reachesBefore [DecidableEq ς] {p q : ς → Prop} {path s} (walk : Reaches p path s)
    (ahead : ∀ x ∈ before path s, p x → q x) : Reaches q path s := by
  induction walk with
  | here => exact .here
  | @skip x rest s behind onward ih =>
    -- a walk may run over an earlier copy of `s`; the first copy is as good a stop
    by_cases same : x = s
    · subst same
      exact .here
    · have first : x ∈ before (x :: rest) s := by simp [before, same]
      refine .skip (ahead x first behind) (ih fun y inside => ahead y ?_)
      simpa [before, same] using Or.inr inside

theorem beforePassed [DecidableEq ς] {p : ς → Prop} {path s} (walk : Reaches p path s)
    (stop : ¬p s) : ∀ x ∈ before path s, p x := by
  induction walk with
  | here => simp [before]
  | @skip x rest s behind onward ih =>
    have different : x ≠ s := fun same => stop (same ▸ behind)
    intro y inside
    simp only [before, ne_eq, different, not_false_eq_true, decide_true, List.takeWhile_cons_of_pos,
      List.mem_cons] at inside
    rcases inside with rfl | later
    · exact behind
    · exact ih stop y later

structure Fits (owners : Owners κ ς) (path : List ς) (k : κ) (s : ς) : Prop where
  walk : Reaches (Held owners k) path s
  stop : Open owners k s

theorem fitsSame {owners : Owners κ ς} {path k s t} (left : Fits owners path k s)
    (right : Fits owners path k t) : s = t :=
  reachesSame left.walk right.walk (openIffNotHeld.mp left.stop) (openIffNotHeld.mp right.stop)

def firstFit [DecidableEq κ] (owners : Owners κ ς) (k : κ) : List ς → Option ς
  | [] => none
  | s :: rest =>
    match owners s with
    | none => some s
    | some other => if other = k then some s else firstFit owners k rest

theorem firstFitSome [DecidableEq κ] {owners : Owners κ ς} {k path s} :
    firstFit owners k path = some s ↔ Fits owners path k s := by
  constructor
  · intro found
    induction path with
    | nil => simp [firstFit] at found
    | cons x rest ih =>
      unfold firstFit at found
      cases own : owners x with
      | none =>
        simp only [own, Option.some.injEq] at found
        subst found
        exact ⟨.here, .inl own⟩
      | some other =>
        simp only [own] at found
        split at found
        · rename_i same
          cases Option.some.inj found
          exact ⟨.here, .inr (same ▸ own)⟩
        · rename_i different
          have tail := ih found
          exact ⟨.skip ⟨other, own, different⟩ tail.walk, tail.stop⟩
  · intro fits
    obtain ⟨walk, stop⟩ := fits
    induction walk with
    | here => rcases stop with free | mine <;> simp [firstFit, *]
    | skip behind onward ih =>
      obtain ⟨other, own, different⟩ := behind
      simp [firstFit, own, different, ih stop]

theorem firstFitIndex [DecidableEq κ] {owners : Owners κ ς} {k path s} :
    firstFit owners k path = some s ↔
      ∃ j : Nat, path[j]? = some s ∧ ¬Held owners k s ∧ ∀ i < j, ∀ x, path[i]? = some x → Held owners k x := by
  constructor
  · intro found
    obtain ⟨walk, stop⟩ := firstFitSome.mp found
    obtain ⟨j, here, passed⟩ := reachesIndex walk
    refine ⟨j, here, openIffNotHeld.mp stop, ?_⟩
    intro i before x at'
    obtain ⟨y, there, held⟩ := passed i before
    cases at'.symm.trans there
    exact held
  · rintro ⟨j, here, free, passed⟩
    refine firstFitSome.mpr ⟨?_, openIffNotHeld.mpr free⟩
    induction path generalizing j with
    | nil => cases here
    | cons x rest ih =>
      cases j with
      | zero =>
        cases here
        exact .here
      | succ j =>
        refine .skip (passed 0 (Nat.succ_pos j) x rfl) (ih j here ?_)
        exact fun i before y at' => passed (i + 1) (Nat.succ_lt_succ before) y at'

theorem firstFitNone [DecidableEq κ] {owners : Owners κ ς} {k path} :
    firstFit owners k path = none ↔ ∀ s ∈ path, Held owners k s := by
  induction path with
  | nil => simp [firstFit]
  | cons x rest ih =>
    cases own : owners x with
    | none => simp [firstFit, own, Held]
    | some other =>
      by_cases same : other = k
      · simp [firstFit, own, same, Held]
      · simp [firstFit, own, same, ih, Held]

theorem firstFitFree [DecidableEq κ] {owners : Owners κ ς} {k path} (free : ∀ s, owners s = none) :
    firstFit owners k path = path.head? := by
  cases path with
  | nil => rfl
  | cons x rest => simp [firstFit, free]

theorem firstFitStops [DecidableEq κ] {owners : Owners κ ς} {k path s} (inside : s ∈ path) (free : ¬Held owners k s) :
    ∃ x, firstFit owners k path = some x ∧ Open owners k x := by
  cases stops : firstFit owners k path with
  | none => exact absurd (firstFitNone.mp stops s inside) free
  | some x => exact ⟨x, rfl, (firstFitSome.mp stops).stop⟩

def Settled (path : κ → List ς) (owners : Owners κ ς) : Prop :=
  ∀ k s, owners s = some k → Reaches (Held owners k) (path k) s

theorem settledEmpty (path : κ → List ς) : Settled path (fun _ => none) := by
  intro k s own
  cases own

theorem settledFits {path : κ → List ς} {owners : Owners κ ς} (settled : Settled path owners)
    {k s} (own : owners s = some k) : Fits owners (path k) k s := ⟨settled k s own, .inr own⟩

theorem settledIffStable [DecidableEq κ] {path : κ → List ς} {owners : Owners κ ς} :
    Settled path owners ↔ ∀ k s, owners s = some k → firstFit owners k (path k) = some s := by
  constructor
  · intro settled k s own
    exact firstFitSome.mpr (settledFits settled own)
  · intro stable k s own
    exact (firstFitSome.mp (stable k s own)).walk

theorem settledOneSlot {path : κ → List ς} {owners : Owners κ ς} (settled : Settled path owners)
    {k s t} (here : Fits owners (path k) k s) (own : owners t = some k) : t = s :=
  fitsSame (settledFits settled own) here

def assign [DecidableEq κ] [DecidableEq ς] (owners : Owners κ ς) (k : κ) (s : ς) : Owners κ ς :=
  fun x => if x = s then some k else if owners x = some k then none else owners x

section Assign
variable [DecidableEq κ] [DecidableEq ς] {path : κ → List ς} {owners : Owners κ ς} {k : κ} {s : ς}

theorem assignSelf : assign owners k s s = some k := by simp [assign]

theorem assignOwned {j x} (own : assign owners k s x = some j) :
    (x = s ∧ j = k) ∨ (x ≠ s ∧ j ≠ k ∧ owners x = some j) := by
  unfold assign at own
  split at own
  · rename_i same
    exact .inl ⟨same, (Option.some.inj own).symm⟩
  · rename_i different
    split at own
    · cases own
    · rename_i foreign
      exact .inr ⟨different, fun same => foreign (same ▸ own), own⟩

theorem openAssign {j x} (free : Open owners j x) (apart : x = s → j = k) : Open (assign owners k s) j x := by
  unfold Open assign
  by_cases same : x = s
  · rw [if_pos same,apart same]
    exact .inr rfl
  · rw [if_neg same]
    split
    · exact .inl rfl
    · exact free

theorem assignOthers (free : Open owners k s) {j x} (own : owners x = some j) (foreign : j ≠ k) :
    assign owners k s x = some j := by
  have apart : x ≠ s := by
    rintro rfl
    exact foreign (openOwned free own)
  simp [assign,apart,own,foreign]

theorem fitsAgain (fits : Fits owners (path k) k s) : Fits (assign owners k s) (path k) k s := by
  refine ⟨reachesMono (fun x held => ?_) fits.walk,.inr assignSelf⟩
  obtain ⟨other,own,different⟩ := held
  exact ⟨other,assignOthers fits.stop own different,different⟩

theorem assignKeeps (settled : Settled path owners) (fits : Fits owners (path k) k s)
    {j x} (own : owners x = some j) : assign owners k s x = some j := by
  unfold assign
  split
  · rename_i same
    subst same
    rw [openOwned fits.stop own]
  · rename_i different
    split
    · rename_i mine
      exact absurd (settledOneSlot settled fits mine) different
    · exact own

theorem assignHeld (settled : Settled path owners) (fits : Fits owners (path k) k s)
    {j x} (held : Held owners j x) : Held (assign owners k s) j x := by
  obtain ⟨other, own, different⟩ := held
  exact ⟨other, assignKeeps settled fits own, different⟩

theorem settledAssign (settled : Settled path owners) (fits : Fits owners (path k) k s) :
    Settled path (assign owners k s) := by
  intro j x own
  rcases assignOwned own with ⟨rfl, rfl⟩ | ⟨-, -, old⟩
  · exact reachesMono (fun _ => assignHeld settled fits) fits.walk
  · exact reachesMono (fun _ => assignHeld settled fits) (settled j x old)

theorem fitsAssign (settled : Settled path owners) (fits : Fits owners (path k) k s)
    {j x} (other : Fits owners (path j) j x) (apart : x = s → j = k) :
    Fits (assign owners k s) (path j) j x := by
  refine ⟨reachesMono (fun _ => assignHeld settled fits) other.walk, ?_⟩
  by_cases same : x = s
  · subst same
    rw [apart rfl]
    exact .inr assignSelf
  · rcases other.stop with free | mine
    · exact .inl (by simp [assign, same, free])
    · exact .inr (assignKeeps settled fits mine)

end Assign

theorem openFreed {owners after : Owners κ ς} {k x} (fewer : ∀ j, after x = some j → owners x = some j)
    (free : Open owners k x) : Open after k x := by
  cases own : after x with
  | none => exact .inl own
  | some j => exact .inr (own.trans (congrArg some (openOwned free (fewer j own))))

/- Every slot in front of a key that stays is a slot that stays. -/
def PathsKept [DecidableEq ς] (path : κ → List ς) (owners after : Owners κ ς) : Prop :=
  ∀ k s, after s = some k → ∀ x ∈ before (path k) s, after x = owners x

theorem settledFreed [DecidableEq ς] {path : κ → List ς} {owners after : Owners κ ς}
    (settled : Settled path owners) (fewer : ∀ k s, after s = some k → owners s = some k)
    (kept : PathsKept path owners after) : Settled path after := by
  intro k s own
  refine reachesBefore (settled k s (fewer k s own)) ?_
  intro x ahead held
  obtain ⟨other, old, different⟩ := held
  exact ⟨other, (kept k s own x ahead).trans old, different⟩

theorem freedUnsettles [DecidableEq ς] {path : κ → List ς} {after : Owners κ ς} {k s x}
    (own : after s = some k) (ahead : x ∈ before (path k) s) (free : after x = none) :
    ¬Settled path after := by
  intro settled
  have stop : ¬Held after k s := openIffNotHeld.mp (.inr own)
  obtain ⟨other, taken, -⟩ := beforePassed (settled k s own) stop x ahead
  rw [free] at taken
  cases taken

def AtHome (path : κ → List ς) (keys : κ → Prop) (owners : Owners κ ς) : Prop :=
  ∀ k s, owners s = some k → keys k ∧ (path k).head? = some s

theorem atHomeOpen {path : κ → List ς} {keys : κ → Prop} {owners : Owners κ ς}
    (home : AtHome path keys owners)
    (distinct : ∀ j k s, keys j → keys k → (path j).head? = some s → (path k).head? = some s → j = k)
    {k s} (mine : keys k) (first : (path k).head? = some s) : Open owners k s := by
  cases own : owners s with
  | none => exact .inl own
  | some j =>
    have there := home j s own
    exact .inr (distinct j k s there.1 mine there.2 first ▸ own)

theorem heldCount [DecidableEq κ] {owners : Owners κ ς} {path : List ς} {k : κ} {keys : Finset κ} (distinct : path.Nodup)
    (held : ∀ s ∈ path, Held owners k s) (known : ∀ s j, owners s = some j → j ∈ keys)
    (once : ∀ s t j, owners s = some j → owners t = some j → s = t) : path.length ≤ (keys.erase k).card := by
  classical
  have named (s : ς) (inside : s ∈ path) : owners s = some ((owners s).getD k) ∧ (owners s).getD k ≠ k := by
    obtain ⟨j,own,other⟩ := held s inside
    rw [own]
    exact ⟨rfl,other⟩
  rw [← List.toFinset_card_of_nodup distinct]
  refine Finset.card_le_card_of_injOn (fun s => (owners s).getD k) (fun s inside => ?_) fun s left t right same => ?_
  · obtain ⟨own,other⟩ := named s (List.mem_toFinset.mp inside)
    exact Finset.mem_erase.mpr ⟨other,known s _ own⟩
  · have own := (named s (List.mem_toFinset.mp left)).1
    have own' := (named t (List.mem_toFinset.mp right)).1
    dsimp only at same
    rw [← same] at own'
    exact once s t _ own own'

end SssdOidc.Probing
