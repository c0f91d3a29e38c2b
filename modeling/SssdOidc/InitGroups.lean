import SssdOidc.Membership
import SssdOidc.Packing

/-! `_nss_oidc_initgroups_dyn` of crates/nss_oidc/src/ffi.rs. The caller passes
`0 ≤ start ≤ size`, so the casts to `usize` change nothing. The memory behind `*groupsp` is a
function of the index; what is read and written there is kept beside it. -/
namespace SssdOidc.InitGroups
open Model Mapping Program Cache Service Packing
open Solo (runTried)

inductive Access where
  | read (i start : Nat)
  | write (i start : Nat)
  deriving DecidableEq, Repr

structure Caller where
  groups : Nat → UInt32
  start : Nat
  size : Nat
  errno : Int
  accesses : List Access

/- `array[0..start)`. -/
def Caller.listed (c : Caller) : List UInt32 := (List.range c.start).map c.groups

def Caller.reading (c : Caller) (i : Nat) : Caller := { c with accesses := .read i c.start :: c.accesses }

def Caller.push (c : Caller) (gid : UInt32) : Caller where
  groups := fun i => if i = c.start then gid else c.groups i
  start := c.start + 1
  size := c.size
  errno := c.errno
  accesses := .write c.start c.start :: c.accesses

def scan (gid : UInt32) : List Nat → Caller → Bool × Caller
  | [], c => (false,c)
  | i :: rest, c => if c.groups i = gid then (true,c.reading i) else scan gid rest (c.reading i)

def addGids (group : UInt32) : List UInt32 → Caller → NssStatus × Caller
  | [], c => (.success,{ c with errno := 0 })
  | gid :: rest, c =>
      if gid = group then addGids group rest c
      else
        let scanned := scan gid (List.range c.start) c
        if scanned.1 then addGids group rest scanned.2
        else if scanned.2.size ≤ scanned.2.start then (.tryAgain,{ scanned.2 with errno := ERANGE })
        else addGids group rest (scanned.2.push gid)

/- What `get_state` and its mutex give: `Init` failed, `lock` poisoned, or a service. -/
inductive Shared where
  | missing
  | poisoned
  | service (config : Config)

def initgroupsDyn (b : Build) (shared : Shared) (user : List UInt8) (group : UInt32) (c : Caller) :
    Act ServiceError (NssStatus × Caller) :=
  match String.fromUTF8? ⟨user.toArray⟩ with
  | none => pure (.notFound,{ c with errno := 0 })
  | some userStr =>
      match shared with
      | .missing => pure (.unavail,{ c with errno := 0 })
      | .poisoned => pure (.unavail,{ c with errno := 0 })
      | .service config => do
          match ← attempt (lookupGroupsForUser b config userStr) with
          | .ok gids => pure (addGids group gids c)
          | .error _ => pure (.unavail,{ c with errno := 0 })

def fresh (group : UInt32) (listed gids : List UInt32) : List UInt32 :=
  (gids.filter fun gid => decide (gid ≠ group ∧ gid ∉ listed)).eraseDups

theorem freshKnown {group gid : UInt32} {listed gids : List UInt32} (known : gid = group ∨ gid ∈ listed) :
    fresh group listed (gid :: gids) = fresh group listed gids := by
  have out : ¬(gid ≠ group ∧ gid ∉ listed) := by
    intro h
    rcases known with same | inside
    · exact h.1 same
    · exact h.2 inside
  rw [fresh,List.filter_cons,decide_eq_false out]
  rfl

theorem freshNew {group gid : UInt32} {listed gids : List UInt32} (other : gid ≠ group) (absent : gid ∉ listed) :
    fresh group listed (gid :: gids) = gid :: fresh group (listed ++ [gid]) gids := by
  have in' : decide (gid ≠ group ∧ gid ∉ listed) = true := decide_eq_true ⟨other,absent⟩
  rw [fresh,List.filter_cons,in',if_pos rfl,List.eraseDups_cons,List.filter_filter,fresh]
  congr 2
  refine List.filter_congr fun x _ => ?_
  by_cases same : x = gid
  · simp [same]
  · simp [same]

/- Indices are read below the start of that moment, and written at that start and below the
size. -/
def Access.Within (low size : Nat) : Access → Prop
  | .read i start => i < start ∧ start ≤ size
  | .write i start => i = start ∧ low ≤ i ∧ i < size

structure OnlyRead (c c' : Caller) : Prop where
  groups : c'.groups = c.groups
  start : c'.start = c.start
  size : c'.size = c.size
  reads : ∀ a ∈ c'.accesses, a ∈ c.accesses ∨ ∃ i < c.start, a = .read i c.start

theorem scanReads {gid : UInt32} {is : List Nat} {c : Caller} (below : ∀ i ∈ is, i < c.start) :
    OnlyRead c (scan gid is c).2 := by
  induction is generalizing c with
  | nil => exact ⟨rfl,rfl,rfl,fun a inside => .inl inside⟩
  | cons i rest ih =>
    have here : i < c.start := below i List.mem_cons_self
    have once : ∀ a ∈ (c.reading i).accesses, a ∈ c.accesses ∨ ∃ j < c.start, a = .read j c.start := by
      intro a inside
      rcases List.mem_cons.mp inside with rfl | old
      · exact .inr ⟨i,here,rfl⟩
      · exact .inl old
    rw [scan]
    split
    · exact ⟨rfl,rfl,rfl,once⟩
    · obtain ⟨groups,start,size,reads⟩ := ih (c := c.reading i) fun j inside => below j (List.mem_cons_of_mem _ inside)
      refine ⟨groups,start,size,fun a inside => ?_⟩
      rcases reads a inside with old | new
      · exact once a old
      · exact .inr new

theorem scanFinds {gid : UInt32} {is : List Nat} {c : Caller} : (scan gid is c).1 = true ↔ gid ∈ is.map c.groups := by
  induction is generalizing c with
  | nil => simp [scan]
  | cons i rest ih =>
    rw [scan]
    split
    · rename_i hit
      simp [hit]
    · rename_i miss
      rw [ih,List.map_cons,List.mem_cons]
      have other : ¬gid = c.groups i := fun same => miss same.symm
      simp only [other,false_or]
      rfl

/- Where `c` has become `c'`, and `added` now follows the entries of before. -/
structure Appended (added : List UInt32) (c c' : Caller) : Prop where
  listed : c'.listed = c.listed ++ added
  start : c'.start = c.start + added.length
  size : c'.size = c.size
  fits : c'.start ≤ c'.size
  elsewhere : ∀ i, i < c.start ∨ c.size ≤ i → c'.groups i = c.groups i
  accesses : ∀ a ∈ c'.accesses, a ∈ c.accesses ∨ a.Within c.start c.size

theorem appendedRead {c c' : Caller} (read : OnlyRead c c') (fits : c.start ≤ c.size) : Appended [] c c' where
  listed := by rw [Caller.listed,Caller.listed,read.groups,read.start,List.append_nil]
  start := read.start
  size := read.size
  fits := by rw [read.start,read.size]; exact fits
  elsewhere := fun i _ => congrFun read.groups i
  accesses := by
    intro a inside
    rcases read.reads a inside with old | ⟨i,below,rfl⟩
    · exact .inl old
    · exact .inr ⟨below,fits⟩

theorem appendedPush {c : Caller} (gid : UInt32) (room : c.start < c.size) : Appended [gid] c (c.push gid) where
  listed := by
    rw [Caller.listed,Caller.listed]
    change (List.range (c.start + 1)).map (fun i => if i = c.start then gid else c.groups i) = _
    rw [List.range_succ,List.map_append]
    congr 1
    · refine List.map_congr_left fun i inside => if_neg ?_
      have := List.mem_range.mp inside
      omega
    · simp
  start := rfl
  size := rfl
  fits := room
  elsewhere := by
    intro i outside
    exact if_neg (by omega)
  accesses := by
    intro a inside
    rcases List.mem_cons.mp inside with rfl | old
    · exact .inr ⟨rfl,Nat.le_refl _,room⟩
    · exact .inl old

theorem appendedTrans {first second : List UInt32} {c c1 c2 : Caller} (before : Appended first c c1)
    (after : Appended second c1 c2) : Appended (first ++ second) c c2 where
  listed := by rw [after.listed,before.listed,List.append_assoc]
  start := by rw [after.start,before.start,List.length_append,Nat.add_assoc]
  size := after.size.trans before.size
  fits := after.fits
  elsewhere := by
    intro i outside
    have later : i < c1.start ∨ c1.size ≤ i := by
      rw [before.start,before.size]
      omega
    rw [after.elsewhere i later,before.elsewhere i outside]
  accesses := by
    intro a inside
    rcases after.accesses a inside with old | new
    · exact before.accesses a old
    · refine .inr ?_
      rw [before.start,before.size] at new
      cases a with
      | read i start => exact new
      | write i start => exact ⟨new.1,Nat.le_trans (Nat.le_add_right _ _) new.2.1,new.2.2⟩

structure Filled (new : List UInt32) (c : Caller) (status : NssStatus) (c' : Caller) : Prop where
  appended : Appended (new.take (c.size - c.start)) c c'
  room : c.start + new.length ≤ c.size → status = .success ∧ c'.errno = 0
  full : c.size < c.start + new.length → status = .tryAgain ∧ c'.errno = ERANGE

theorem filledAfter {first new : List UInt32} {c c1 c2 : Caller} {status : NssStatus} (before : Appended first c c1)
    (after : Filled new c1 status c2) : Filled (first ++ new) c status c2 := by
  have start := before.start
  have size := before.size
  have fits := before.fits
  refine ⟨?_,fun room => after.room ?_,fun full => after.full ?_⟩
  · have taken : (first ++ new).take (c.size - c.start) = first ++ new.take (c1.size - c1.start) := by
      have split : c.size - c.start = first.length + (c1.size - c1.start) := by omega
      rw [split,List.take_length_add_append]
    rw [taken]
    exact appendedTrans before after.appended
  · rw [List.length_append] at room
    omega
  · rw [List.length_append] at full
    omega

theorem addGidsFills (group : UInt32) (gids : List UInt32) {c : Caller} (fits : c.start ≤ c.size) :
    Filled (fresh group c.listed gids) c (addGids group gids c).1 (addGids group gids c).2 := by
  induction gids generalizing c with
  | nil =>
    have same : OnlyRead c { c with errno := 0 } := ⟨rfl,rfl,rfl,fun a inside => .inl inside⟩
    have none' : fresh group c.listed [] = [] := rfl
    rw [none',addGids]
    refine ⟨?_,fun _ => ⟨rfl,rfl⟩,fun full => absurd fits (Nat.not_le_of_lt full)⟩
    rw [List.take_nil]
    exact appendedRead same fits
  | cons gid rest ih =>
    rw [addGids]
    by_cases primary : gid = group
    · rw [if_pos primary,freshKnown (.inl primary)]
      exact ih fits
    · rw [if_neg primary]
      have read : OnlyRead c (scan gid (List.range c.start) c).2 := scanReads fun i inside => List.mem_range.mp inside
      have scanned := appendedRead read fits
      have finds : (scan gid (List.range c.start) c).1 = true ↔ gid ∈ c.listed := scanFinds
      generalize scan gid (List.range c.start) c = outcome at read scanned finds
      obtain ⟨present,c1⟩ := outcome
      have listed : c1.listed = c.listed := scanned.listed.trans (List.append_nil _)
      dsimp only at read scanned finds ⊢
      by_cases known : gid ∈ c.listed
      · rw [if_pos (finds.mpr known),freshKnown (.inr known),← listed]
        exact filledAfter scanned (ih scanned.fits)
      · rw [if_neg fun hit => known (finds.mp hit),freshNew primary known]
        by_cases full : c1.size ≤ c1.start
        · -- the gid needs a slot and there is none
          have at' : c.size - c.start = 0 := by rw [read.size,read.start] at full; omega
          rw [if_pos full]
          refine ⟨?_,fun room => ?_,fun _ => ⟨rfl,rfl⟩⟩
          · rw [at',List.take_zero]
            exact appendedRead ⟨read.groups,read.start,read.size,read.reads⟩ fits
          · rw [List.length_cons] at room
            omega
        · rw [if_neg full]
          have pushed := appendedPush gid (Nat.lt_of_not_le full)
          have grown : (c1.push gid).listed = c.listed ++ [gid] := by rw [pushed.listed,listed]
          have later := filledAfter pushed (ih (c := c1.push gid) pushed.fits)
          rw [grown] at later
          exact filledAfter scanned later

section Entry
variable {σ : Type} {answers : (c : calls.Call) → σ → calls.Resp c × σ} {b : Build} {config : Config}

theorem initgroupsLookup {user : List UInt8} {name : String} {group : UInt32} {c : Caller} {gids} {s s' : σ}
    (utf8 : String.fromUTF8? ⟨user.toArray⟩ = some name)
    (looked : run answers (lookupGroupsForUser b config name) s = (.ok gids,s')) :
    run answers (initgroupsDyn b (.service config) user group c) s = (.ok (addGids group gids c),s') := by
  rw [initgroupsDyn,utf8]
  exact runOk (runTried looked)

end Entry

theorem initgroupsDynExact {σ : Type} {answers : (c : calls.Call) → σ → calls.Resp c × σ} {b : Build} {config : Config}
    {user : List UInt8} {name : String} {group : UInt32} {c : Caller} {gids : List UInt32} {s s' : σ}
    (utf8 : String.fromUTF8? ⟨user.toArray⟩ = some name)
    (looked : run answers (lookupGroupsForUser b config name) s = (.ok gids,s'))
    (fits : c.start ≤ c.size) (untouched : c.accesses = []) :
    ∃ status c', run answers (initgroupsDyn b (.service config) user group c) s = (.ok (status,c'),s') ∧
      (c.start + (fresh group c.listed gids).length ≤ c.size → status = .success ∧ c'.errno = 0 ∧
        c'.start = c.start + (fresh group c.listed gids).length ∧ c'.listed = c.listed ++ fresh group c.listed gids) ∧
      (c.size < c.start + (fresh group c.listed gids).length → status = .tryAgain ∧ c'.errno = ERANGE ∧
        c'.start = c.size ∧
        c'.listed = c.listed ++ (fresh group c.listed gids).take (c.size - c.start)) ∧
      (∀ i, i < c.start ∨ c.size ≤ i → c'.groups i = c.groups i) ∧
      (∀ i start, .write i start ∈ c'.accesses → c.start ≤ i ∧ i < c.size) ∧
      ∀ i start, .read i start ∈ c'.accesses → i < start ∧ start ≤ c.size := by
  have filled := addGidsFills group gids fits
  refine ⟨_,_,initgroupsLookup utf8 looked,fun room => ?_,fun full => ?_,filled.appended.elsewhere,?_,?_⟩
  · have whole : (fresh group c.listed gids).take (c.size - c.start) = fresh group c.listed gids :=
      List.take_of_length_le (by omega)
    have appended := filled.appended
    rw [whole] at appended
    exact ⟨(filled.room room).1,(filled.room room).2,appended.start,appended.listed⟩
  · refine ⟨(filled.full full).1,(filled.full full).2,?_,filled.appended.listed⟩
    rw [filled.appended.start,List.length_take]
    omega
  · intro i start inside
    rcases filled.appended.accesses _ inside with old | within
    · rw [untouched] at old
      cases old
    · exact within.2
  · intro i start inside
    rcases filled.appended.accesses _ inside with old | within
    · rw [untouched] at old
      cases old
    · exact within

def twoGroups : (c : calls.Call) → Unit → calls.Resp c × Unit
  | .scim _, _ => (.error .http,())
  | .sql (.selectGroupsByMember _ _), _ => (.ok [⟨"g1","staff",1000,[]⟩,⟨"g2","wheel",1001,[]⟩],())
  | .sql (.selectMembers _), _ => (.ok ["bob"],())
  | .sql _, _ => (.error .failure,())

def oneListed : Caller := ⟨fun _ => 1000,1,2,0,[]⟩

theorem initgroupsDynOneNew : ∃ status c', run twoGroups
    (initgroupsDyn release (.service Stability.fourSlots) [98,111,98] 100 oneListed) () = (.ok (status,c'),()) ∧
      status = .success ∧ c'.listed = [1000,1001] := by
  have utf8 : String.fromUTF8? ⟨[98,111,98].toArray⟩ = some "bob" := by decide
  have looked : run twoGroups (lookupGroupsForUser release Stability.fourSlots "bob") () = (.ok [1000,1001],()) := by
    decide
  obtain ⟨status,c',ran,room,-⟩ : ∃ status c', run twoGroups
      (initgroupsDyn release (.service Stability.fourSlots) [98,111,98] 100 oneListed) () = (.ok (status,c'),()) ∧ _ :=
    initgroupsDynExact utf8 looked (by decide) rfl
  obtain ⟨done,-,-,listed⟩ := room (by decide)
  exact ⟨status,c',ran,done,listed⟩

end SssdOidc.InitGroups
