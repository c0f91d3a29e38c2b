import SssdOidc.ProbeChain

/-! Ids whose hash slots differ. Every one of them sits in its hash slot, so the first
probe always ends the walk: whoever moves in between, and whatever is purged. -/
namespace SssdOidc.Home
open Model Database Mapping Program Cache Service SssdOidc.System Protocol Conformance History Stability
open Probing (AtHome Open Reaches)
open Runs (Reach replay)

variable {b : Build} {config : Config} {c : Column} {D : String → Prop} {now0 : Int}

/- The ids of `D` have hash slots of their own. -/
def Apart (b : Build) (config : Config) (c : Column) (D : String → Prop) : Prop :=
  ∀ j k, D j → D k → (b.murmur3_32 j).toNat % (rangeSize config c).toNat =
    (b.murmur3_32 k).toNat % (rangeSize config c).toNat → j = k

def Within (c : Column) (D : String → Prop) (s : Sys) (l : Label) : Prop :=
  match issues s l with
  | some (.selectOwner c' _ k) => c' = c → D k
  | _ => True
instance [DecidablePred D] (s : Sys) (l : Label) : Decidable (Within c D s l) := by
  unfold Within; split <;> infer_instance

def home (b : Build) (config : Config) (c : Column) (k : String) : UInt32 :=
  ringSlot b (rangeMin config c) (rangeSize config c) k 0

theorem homeNat (bounds : InBounds (rangeMin config c) (rangeSize config c)) (k : String) :
    (home b config c k).toNat = (rangeMin config c).toNat + (b.murmur3_32 k).toNat % (rangeSize config c).toNat :=
  ringSlotNat bounds 0

theorem homeHead (bounds : InBounds (rangeMin config c) (rangeSize config c)) (k : String) :
    (slots b config c k).head? = some (home b config c k) := pathHead bounds

/- Nobody is ever told that a slot is somebody else's. -/
def Untaken (b : Build) (config : Config) (c : Column) (D : String → Prop) (s : Sys) : Prop :=
  ∀ p t x k r, Entry.call p ⟨t,.sql (.selectOwner c x k),.ok r⟩ ∈ s.log →
    D k ∧ x = home b config c k ∧ r ≠ some false

theorem firstProbe (bounds : InBounds (rangeMin config c) (rangeSize config c)) {s : Sys}
    (inv : Untaken b config c D s) {p tr k x} (inLog : ∀ e ∈ tr, Entry.call p e ∈ s.log)
    (walk : Reaches (Passed c k tr) (slots b config c k) x) : x = home b config c k := by
  have never : ∀ y, ¬Passed c k tr y := by
    rintro y ⟨t,inside⟩
    exact (inv p t y k _ (inLog _ (recentMember inside))).2.2 rfl
  exact Option.some.inj ((Probing.reachesHead walk never).symm.trans (homeHead bounds k))

theorem homeOpen (bounds : InBounds (rangeMin config c) (rangeSize config c)) (apart : Apart b config c D)
    {db : Db} (atHome : AtHome (slots b config c) D (db.owners c)) {k} (mine : D k) :
    Open (db.owners c) k (home b config c k) := by
  refine Probing.atHomeOpen atHome ?_ mine (homeHead bounds k)
  intro i j s left right here there
  refine apart i j left right ?_
  have same : home b config c i = home b config c j :=
    Option.some.inj ((homeHead bounds i).symm.trans (here.trans (there.symm.trans (homeHead bounds j))))
  have numbers := congrArg UInt32.toNat same
  rw [homeNat bounds,homeNat bounds] at numbers
  omega

theorem storesHome {s l t k x} {st : Stmt} (conf : Conforms b config s) (inLog : Logged s)
    (inv : Untaken b config c D s) (runs : executes s l = some (t,st)) (stores : st.stores c = some (k,x)) :
    D k ∧ x = home b config c k := by
  obtain ⟨op,tr,cont,at',allowed⟩ := executesAllowed conf runs
  obtain ⟨t',r,-,inside⟩ := (storesReserved allowed stores).claimed
  obtain ⟨mine,here,-⟩ := inv _ _ _ _ _ (inLog _ _ _ _ at' _ (recentMember inside))
  exact ⟨mine,here⟩

structure Homely (b : Build) (config : Config) (c : Column) (D : String → Prop) (s : Sys) : Prop where
  rows : AtHome (slots b config c) D (s.db.owners c)
  probes : Untaken b config c D s

theorem homelyStep {s l s'} (bounds : InBounds (rangeMin config c) (rangeSize config c)) (apart : Apart b config c D)
    (conf : Conforms b config s) (inLog : Logged s) (inv : Homely b config c D s) (within : Within c D s l)
    (move : Move b config s l s') : Homely b config c D s' := by
  constructor
  · intro k x own
    rcases ownersStep conf move c with ⟨t,st,key,slot,runs,stores,written⟩ | ⟨fewer,-⟩
    · rw [written] at own
      rcases Probing.assignOwned own with ⟨rfl,rfl⟩ | ⟨-,-,old⟩
      · obtain ⟨mine,here⟩ := storesHome conf inLog inv.probes runs stores
        exact ⟨mine,here ▸ homeHead bounds k⟩
      · exact inv.rows k x old
    · exact inv.rows k x (fewer x k own)
  · intro p t x k r inside
    rcases loggedProbe move inside with old | ⟨rfl,runs,answer⟩
    · exact inv.probes p t x k r old
    · obtain ⟨op,tr,cont,at',-,walk⟩ := executesAllowed conf runs
      have mine : D k := by simpa [Within,executesIssues runs] using within
      have here := firstProbe bounds inv.probes (inLog _ _ _ _ at') walk
      have free : Open (s.db.owners c) k x := here ▸ homeOpen bounds apart inv.rows mine
      exact ⟨mine,here,answer ▸ Probing.openAnswer.mpr free⟩

theorem homely (bounds : InBounds (rangeMin config c) (rangeSize config c)) (apart : Apart b config c D) {s}
    (run : Reach (step b config) (Within c D) (fresh empty now0) s) : Homely b config c D s := by
  refine moveInvariant (Homely b config c D) ?_ ?_ run
  · refine ⟨?_,by intro p t x k r inside; cases inside⟩
    intro k x own
    have none := congrFun (ownersEmpty c) x
    cases own.symm.trans none
  · intro s l s' before inv within move
    exact homelyStep bounds apart (conforms before) (logged before) inv within move

theorem resolveFirst {α : Type} (bounds : InBounds (rangeMin config c) (rangeSize config c)) (k : String)
    (cont : Except (Halt CacheError) UInt32 → Prog calls α) :
    ∃ next, (resolveColumn b config c k).run >>= cont = .call (.sql (.selectOwner c (home b config c k) k)) next ∧
      ∀ r, r ≠ some false → next (.ok r) = cont (.ok (home b config c k)) := by
  rw [resolveColumnWalk]
  obtain ⟨tail,path⟩ := List.head?_eq_some_iff.mp (homeHead (b := b) bounds k)
  rw [path]
  refine ⟨_,rfl,?_⟩
  intro r other
  match r with
  | none => rfl
  | some true => rfl
  | some false => exact absurd rfl other

theorem conversionResolves {α : Type} (su : ScimUser) (f : User → Act ServiceError α) :
    ∃ cont, (scimUserToModel b config su >>= f).run = (resolveColumn b config .uid su.id).run >>= cont :=
  ⟨_,(bindAssoc _ _ _).trans (bindAssoc _ _ _)⟩

theorem groupConversionResolves {α : Type} (sg : ScimGroup) (f : Group → Act ServiceError α) :
    ∃ cont, (scimGroupToModel b config sg >>= f).run = (resolveColumn b config .gid sg.id).run >>= cont :=
  ⟨_,(bindAssoc _ _ _).trans (bindAssoc _ _ _)⟩

theorem resolvesHome (bounds : InBounds (rangeMin config c) (rangeSize config c)) (apart : Apart b config c D) {s}
    (inv : Homely b config c D s) {p op tr k t s'} {cont : Except (Halt CacheError) UInt32 → Prog calls Outcome}
    (mine : D k) (at' : s.procs p = .running op tr ((resolveColumn b config c k).run >>= cont))
    (move : step b config s (.sql p t false) = some s') :
    ∃ e, s'.procs p = .running op (e :: tr) (cont (.ok (home b config c k))) := by
  obtain ⟨next,text,answers⟩ := resolveFirst bounds k cont
  rw [text] at at'
  simp only [step,at'] at move
  split at move <;> cases move
  have told : (s.db.owners c (home b config c k)).map (fun owner => owner == k) ≠ some false :=
    Probing.openAnswer.mpr (homeOpen bounds apart inv.rows mine)
  rw [← answers _ told]
  exact ⟨_,putSame s.procs p _⟩

theorem closedForm (b : Build) (config : Config) (c : Column) (D : String → Prop) (now0 : Int)
    (bounds : InBounds (rangeMin config c) (rangeSize config c)) (apart : Apart b config c D) (s : Sys)
    (run : Reach (step b config) (Within c D) (fresh empty now0) s) :
    (∀ p op tr k cont t s', D k → s.procs p = .running op tr ((resolveColumn b config c k).run >>= cont) →
      step b config s (.sql p t false) = some s' →
      ∃ e x, s'.procs p = .running op (e :: tr) (cont (.ok x)) ∧
        x.toNat = (rangeMin config c).toNat + (b.murmur3_32 k).toNat % (rangeSize config c).toNat) ∧
    (∀ l s' t st k x, step b config s l = some s' → executes s l = some (t,st) → st.stores c = some (k,x) →
      ∀ e ∈ s.db.entries c, e.1 ≠ k → e ∈ s'.db.entries c) := by
  have inv := homely bounds apart run
  constructor
  · intro p op tr k cont t s' mine at' move
    obtain ⟨e,there⟩ := resolvesHome bounds apart inv mine at' move
    exact ⟨e,home b config c k,there,homeNat bounds k⟩
  · intro l s' t st k x move runs stores e inside foreign
    obtain ⟨mine,here⟩ := storesHome (conforms run) (logged run) inv.probes runs stores
    have free : Open (s.db.owners c) k x := here ▸ homeOpen bounds apart inv.rows mine
    refine ownersEntries.mp ?_
    rw [ownersStored (stepMove b config move) runs stores]
    exact Probing.assignOthers free (ownersEntries.mpr inside) foreign

def twoZero (k : String) : Prop := k = "u2" ∨ k = "u0"
instance : DecidablePred twoZero := fun k => by unfold twoZero; infer_instance

def comeback : List Label := [
  .start 0 (.lookupUserByName "two"),.start 1 (.lookupUserByName "zero"),
  .scim 0 0 (.user (some (scimUser "u2" "two"))),.scim 1 0 (.user (some (scimUser "u0" "zero"))),
  .sql 0 1 false,.sql 1 1 false,.sql 0 2 false,.sql 1 2 false,
  .sql 0 3 false,.sql 1 3 false,.finish 0,.finish 1] ++
  whole 0 .new 4000 none 3 ++
  whole 1 (.lookupUserByName "two") 4001 (some (.user (some (scimUser "u2" "two")))) 3

theorem closedFormExample : ∃ s, replay (step release fourSlots) (Within .uid twoZero) (fresh empty 0) comeback = some s ∧
    s.db.entries .uid = [("u2",1001)] ∧
    (∀ p op tr k cont t s', twoZero k → s.procs p = .running op tr ((resolveColumn release fourSlots .uid k).run >>= cont) →
      step release fourSlots s (.sql p t false) = some s' →
      ∃ e x, s'.procs p = .running op (e :: tr) (cont (.ok x)) ∧
        x.toNat = (rangeMin fourSlots .uid).toNat +
          (release.murmur3_32 k).toNat % (rangeSize fourSlots .uid).toNat) := by
  have ends : (replay (step release fourSlots) (Within .uid twoZero) (fresh empty 0) comeback).map
      (fun s => s.db.entries .uid) = some [("u2",1001)] := by decide +kernel
  obtain ⟨s,reached,uids⟩ := Option.map_eq_some_iff.mp ends
  have slotsDiffer : (release.murmur3_32 "u2").toNat % (rangeSize fourSlots .uid).toNat ≠
      (release.murmur3_32 "u0").toNat % (rangeSize fourSlots .uid).toNat := by decide +kernel
  have apart : Apart release fourSlots .uid twoZero := by
    rintro j k (rfl | rfl) (rfl | rfl) same
    · rfl
    · exact absurd same slotsDiffer
    · exact absurd same.symm slotsDiffer
    · rfl
  have bounds : InBounds (rangeMin fourSlots .uid) (rangeSize fourSlots .uid) := ⟨by decide,by decide⟩
  exact ⟨s,reached,uids,(closedForm release fourSlots .uid twoZero 0 bounds apart s (Runs.replayReach reached)).1⟩

end SssdOidc.Home
