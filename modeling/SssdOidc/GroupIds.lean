import SssdOidc.ProbeChain

/-! Which gid stands for which external id. Users and groups both resolve gids, but only
`store_group` writes one down, so a probe may find a gid free that was handed out. -/
namespace SssdOidc.GroupIds
open Model Database Mapping Program Cache Service SssdOidc.System Protocol Conformance History Solo Stability
open Probing (Open Held Fits)
open ProbeChain (Calm calmSettled)
open Runs (Reach replay)

variable {b : Build} {config : Config} {may : Sys → Label → Prop} {db0 : Db} {now0 : Int}

/- A probe that is not told of another owner ends the walk, and `resolve_gid` returns. -/
def handsOut : Entry → Option (String × UInt32)
  | .call _ ⟨_,.sql (.selectOwner .gid gid externalId),.ok r⟩ =>
      if r = some false then none else some (externalId,gid)
  | _ => none

def handOuts (s : Sys) : List (String × UInt32) := s.log.filterMap handsOut

theorem handOutsLogged {s : Sys} {k x} : (k,x) ∈ handOuts s ↔
    ∃ p t r, r ≠ some false ∧ Entry.call p ⟨t,.sql (.selectOwner .gid x k),.ok r⟩ ∈ s.log := by
  constructor
  · intro inside
    obtain ⟨e,logged,here⟩ := List.mem_filterMap.mp inside
    unfold handsOut at here
    split at here <;> try contradiction
    split at here <;> cases here
    exact ⟨_,_,_,by assumption,logged⟩
  · rintro ⟨p,t,r,other,logged⟩
    exact List.mem_filterMap.mpr ⟨_,logged,by simp [handsOut,other]⟩

theorem reservedHanded {s : Sys} {p op tr prog k x} (inLog : Logged s) (at' : s.procs p = .running op tr prog)
    (reserved : Reserved b config .gid k tr x) : (k,x) ∈ handOuts s := by
  obtain ⟨t,r,other,inside⟩ := reserved.claimed
  exact handOutsLogged.mpr ⟨p,t,r,other,inLog _ _ _ _ at' _ (recentMember inside)⟩

/- Where the gids of the service come from: the converted user or group at its store, and
the groups of a user as they are returned. -/
structure Covered (config : Config) (s : Sys) : Prop where
  users : ∀ p op tr u k, s.procs p = .running op tr (.call (.sql (.insertOrReplaceUser u)) k) →
    ∃ su ∈ receivedUsers tr, u = userModel config su u.uid u.gid ∧ (gidExternal su,u.gid) ∈ handOuts s
  groups : ∀ p op tr g k, s.procs p = .running op tr (.call (.sql (.insertOrReplaceGroup g)) k) →
    ∃ sg ∈ receivedGroups tr, g = groupModel sg g.gid ∧ (sg.id,g.gid) ∈ handOuts s
  gids : ∀ p n tr gs su, s.procs p = .running (.lookupGroupsForUser n) tr (.ret (.ok (.gids gs))) →
    receivedUsers tr = [su] → List.Forall₂ (fun g gid => (g.value,gid) ∈ handOuts s) su.groups gs

theorem covered {s} (run : Reach (step b config) may (fresh db0 now0) s) : Covered config s where
  users p op tr u k at' := by
    obtain ⟨-,su,received,same,-,reserved⟩ := (conforms run _ _ _ _ at').1
    exact ⟨su,received,same,reservedHanded (logged run) at' reserved⟩
  groups p op tr g k at' := by
    obtain ⟨-,sg,received,same,reserved⟩ := (conforms run _ _ _ _ at').1
    exact ⟨sg,received,same,reservedHanded (logged run) at' reserved⟩
  gids p n tr gs su at' received := by
    have done : Done b config _ tr _ := conforms run _ _ _ _ at'
    refine (done.gids n gs su rfl rfl received).imp ?_
    intro g gid reserved
    exact reservedHanded (logged run) at' reserved

theorem handOutsOld {s l s' e} (move : Move b config s l s') (inside : e ∈ handOuts s) : e ∈ handOuts s' := by
  obtain ⟨news,grown⟩ := logGrows b config move
  rw [handOuts,grown,List.filterMap_append]
  exact List.mem_append_right _ inside

theorem handOutsStep {s l s' k x} (move : Move b config s l s') (inside : (k,x) ∈ handOuts s') :
    (k,x) ∈ handOuts s ∨ ∃ t, executes s l = some (t,.selectOwner .gid x k) ∧ Open (s.db.owners .gid) k x := by
  obtain ⟨p,t,r,other,logged⟩ := handOutsLogged.mp inside
  rcases loggedProbe move logged with old | ⟨rfl,runs,answer⟩
  · exact .inl (handOutsLogged.mpr ⟨p,t,r,other,old⟩)
  · exact .inr ⟨t,runs,Probing.openAnswer.mp (answer ▸ other)⟩

def Unclaimed (s : Sys) (l : Label) : Prop :=
  ∀ probe ∈ probed .gid s l, s.db.owners .gid probe.1 = none → ∀ e ∈ handOuts s, e.2 = probe.1 → e.1 = probe.2
instance (s : Sys) (l : Label) : Decidable (Unclaimed s l) := by unfold Unclaimed; infer_instance

structure Marked (b : Build) (config : Config) (s : Sys) : Prop where
  rows : ∀ k x, s.db.owners .gid x = some k → (k,x) ∈ handOuts s
  unique : ∀ j k x, (j,x) ∈ handOuts s → (k,x) ∈ handOuts s → j = k
  fits : ∀ k x, (k,x) ∈ handOuts s → Fits (s.db.owners .gid) (slots b config .gid k) k x

theorem storeHanded {s l t k x} {st : Stmt} (conf : Conforms b config s) (inLog : Logged s)
    (runs : executes s l = some (t,st)) (stores : st.stores .gid = some (k,x)) : (k,x) ∈ handOuts s := by
  obtain ⟨op,tr,cont,at',allowed⟩ := executesAllowed conf runs
  exact reservedHanded inLog at' (storesReserved allowed stores)

section Step
variable {s s' : Sys} {l : Label}

theorem markedRows (conf : Conforms b config s) (inLog : Logged s) (inv : Marked b config s)
    (move : Move b config s l s') {k x} (own : s'.db.owners .gid x = some k) : (k,x) ∈ handOuts s' := by
  rcases ownersStep conf move .gid with ⟨t,st,key,slot,runs,stores,written⟩ | ⟨fewer,-⟩
  · rw [written] at own
    rcases Probing.assignOwned own with ⟨rfl,rfl⟩ | ⟨-,-,old⟩
    · exact handOutsOld move (storeHanded conf inLog runs stores)
    · exact handOutsOld move (inv.rows k x old)
  · exact handOutsOld move (inv.rows k x (fewer x k own))

theorem markedOpen (inv : Marked b config s) (unclaimed : Unclaimed s l) {t j k x}
    (runs : executes s l = some (t,.selectOwner .gid x k)) (free : Open (s.db.owners .gid) k x)
    (old : (j,x) ∈ handOuts s) : j = k := by
  rcases free with none | mine
  · exact unclaimed (x,k) (executesProbed runs) none (j,x) old rfl
  · exact inv.unique j k x old (inv.rows k x mine)

theorem markedUnique (inv : Marked b config s) (unclaimed : Unclaimed s l) (move : Move b config s l s') {j k x}
    (left : (j,x) ∈ handOuts s') (right : (k,x) ∈ handOuts s') : j = k := by
  rcases handOutsStep move left with oldLeft | ⟨t,runs,free⟩
  · rcases handOutsStep move right with oldRight | ⟨t,runs,free⟩
    · exact inv.unique j k x oldLeft oldRight
    · exact markedOpen inv unclaimed runs free oldLeft
  · rcases handOutsStep move right with oldRight | ⟨t',runs',-⟩
    · exact (markedOpen inv unclaimed runs free oldRight).symm
    · rw [runs] at runs'
      cases runs'
      rfl

theorem markedFits (conf : Conforms b config s) (inLog : Logged s) (told : Reflected s)
    (settled : SettledColumn b config .gid s.db) (calm : Calm s l) (inv : Marked b config s)
    (move : Move b config s l s') {k x} (inside : (k,x) ∈ handOuts s') :
    Fits (s'.db.owners .gid) (slots b config .gid k) k x := by
  rcases handOutsStep move inside with old | ⟨t,runs,free⟩
  · rcases ownersStep conf move .gid with ⟨t,st,key,slot,runs,stores,written⟩ | ⟨-,same⟩
    · obtain ⟨op,tr,cont,at',allowed⟩ := executesAllowed conf runs
      rw [written]
      refine Probing.fitsAssign settled (singleStores calm.1 told at' allowed stores) (inv.fits k x old) ?_
      rintro rfl
      exact inv.unique k key x old (storeHanded conf inLog runs stores)
    · rw [same fun t st runs => purgeFree calm.2 runs]
      exact inv.fits k x old
  · obtain ⟨op,tr,cont,at',-,walk⟩ := executesAllowed conf runs
    rw [calm.1] at at'
    rw [executesDb move runs]
    exact ⟨Probing.reachesMono (fun _ => passedHeld (told _ _ _ at')) walk,free⟩

end Step

theorem marked {now s} (run : Reach (step b config) (fun s l => Calm s l ∧ Unclaimed s l) (fresh empty now) s) :
    Marked b config s := by
  refine moveInvariant (Marked b config) ?_ ?_ run
  · refine ⟨?_,by rintro j k x ⟨⟩,by rintro k x ⟨⟩⟩
    intro k x own
    have none := congrFun (ownersEmpty .gid) x
    cases own.symm.trans none
  · intro s l s' before inv chosen move
    have conf := conforms before
    have inLog := logged before
    have told := reflected (fun _ _ chosen => chosen.1.1) before
    have settled := calmSettled (Runs.reachMono (fun _ _ => And.left) before) .gid
    exact {
      rows := fun _ _ => markedRows conf inLog inv move
      unique := fun _ _ _ => markedUnique inv chosen.2 move
      fits := fun _ _ => markedFits conf inLog told settled chosen.1 inv move
    }

/- One gid, one id, and the group found under a gid is the one it was handed out for. -/
structure Identified (config : Config) (s : Sys) : Prop where
  same : ∀ e ∈ handOuts s, ∀ e' ∈ handOuts s, e.2 = e'.2 ↔ e.1 = e'.1
  getgrgid : ∀ e ∈ handOuts s, ∀ t reply g,
    (alone t reply (lookupGroupByGid config e.2) s.db).1 = .ok (some g) → g.externalId = e.1

theorem markedIdentified {s} (inv : Marked b config s) : Identified config s := by
  constructor
  · rintro ⟨k,x⟩ left ⟨k',x'⟩ right
    constructor
    · rintro (rfl : x = x')
      exact inv.unique k k' x left right
    · rintro (rfl : k = k')
      exact Probing.fitsSame (inv.fits k x left) (inv.fits k x' right)
  · rintro ⟨k,x⟩ inside t reply g found
    rw [aloneByGid] at found
    simp only [Except.ok.injEq,Option.map_eq_some_iff] at found
    obtain ⟨r,hit,rfl⟩ := found
    have here := List.find?_some hit
    simp only [Bool.and_eq_true,beq_iff_eq] at here
    have own : s.db.owners .gid x = some r.externalId :=
      UniqueTable.ownerSome.mpr ⟨r,List.mem_of_find?_eq_some hit,here.1,rfl⟩
    exact inv.unique r.externalId k x (inv.rows _ x own) inside

theorem claimedMisnames {s l s'} (move : Move b config s l s') (claimed : ¬Unclaimed s l) : ¬Identified config s' := by
  intro identified
  unfold Unclaimed at claimed
  push Not at claimed
  obtain ⟨⟨x,k⟩,probe,free,e,old,here,foreign⟩ := claimed
  obtain ⟨t,runs⟩ := probedExecutes probe
  have told : (execute t false s.db (.selectOwner .gid x k)).1 = .ok none := by simp [execute,exec,free]
  have now : (k,x) ∈ handOuts s' := by
    refine handOutsLogged.mpr ⟨l.pid,t,none,by simp,?_⟩
    rw [executesLog move runs,told]
    exact List.mem_cons_self
  exact foreign ((identified.same e (handOutsOld move old) (k,x) now).mp here)

theorem gidsIdentify (b : Build) (config : Config) (now : Int) :
    (∀ s, Reach (step b config) (fun s l => Calm s l ∧ Unclaimed s l) (fresh empty now) s → Identified config s) ∧
    (∀ s l s', Reach (step b config) (fun s l => Calm s l ∧ Unclaimed s l) (fresh empty now) s → Calm s l →
      step b config s l = some s' → ¬Unclaimed s l → ¬Identified config s') ∧
    (∀ s, Reach (step b config) Calm (fresh empty now) s → Covered config s) :=
  ⟨fun _ run => markedIdentified (marked run),
    fun _ _ _ _ _ move => claimedMisnames (stepMove b config move),fun _ run => covered run⟩

def inStaff : ScimUser := { scimUser "u2" "two" with groups := [⟨"g1",some "staff"⟩] }

def storedFirst : List Label :=
  whole 0 (.lookupGroupByName "staff") 0 (some (.group (some ⟨"g1","staff",[]⟩))) 3 ++
  whole 0 (.lookupUserByName "two") 10 (some (.user (some inStaff))) 3 ++
  whole 0 (.lookupGroupsForUser "two") 20 (some (.user (some inStaff))) 4

/- The user has no group, so its own id gets a gid, which nothing writes down; the group
`u3` has the same hash slot. -/
def neverStored : List Label :=
  whole 0 (.lookupUserByName "two") 0 (some (.user (some (scimUser "u2" "two")))) 3 ++
  whole 0 (.lookupGroupByName "wheel") 10 (some (.group (some ⟨"u3","wheel",[]⟩))) 3

theorem gidsIdentifyExamples :
    (∃ s, replay (step release fourSlots) (fun s l => Calm s l ∧ Unclaimed s l) (fresh empty 0) storedFirst = some s ∧
      handOuts s = [("g1",1002),("g1",1002),("g1",1002),("g1",1002)] ∧ Identified fourSlots s ∧ Covered fourSlots s) ∧
    (∃ s s', replay (step release fourSlots) (fun s l => Calm s l ∧ Unclaimed s l) (fresh empty 0)
        (neverStored.take 8) = some s ∧
      step release fourSlots s (.sql 0 10 false) = some s' ∧ ¬Identified fourSlots s') := by
  have first : (replay (step release fourSlots) (fun s l => Calm s l ∧ Unclaimed s l) (fresh empty 0) storedFirst).map
      handOuts = some [("g1",1002),("g1",1002),("g1",1002),("g1",1002)] := by decide +kernel
  have second : (replay (step release fourSlots) (fun s l => Calm s l ∧ Unclaimed s l) (fresh empty 0)
      (neverStored.take 8)).map (fun s => (decide (Calm s (.sql 0 10 false)),decide (Unclaimed s (.sql 0 10 false)),
        (step release fourSlots s (.sql 0 10 false)).isSome)) = some (true,false,true) := by decide +kernel
  constructor
  · obtain ⟨s,reached,given⟩ := Option.map_eq_some_iff.mp first
    have run := Runs.replayReach reached
    exact ⟨s,reached,given,(gidsIdentify release fourSlots 0).1 s run,
      (gidsIdentify release fourSlots 0).2.2 s (Runs.reachMono (fun _ _ => And.left) run)⟩
  · obtain ⟨s,reached,facts⟩ := Option.map_eq_some_iff.mp second
    simp only [Prod.mk.injEq,decide_eq_true_eq,decide_eq_false_iff_not] at facts
    obtain ⟨calm,claimed,moves⟩ := facts
    obtain ⟨s',move⟩ := Option.isSome_iff_exists.mp moves
    exact ⟨s,s',reached,move,(gidsIdentify release fourSlots 0).2.1 s (.sql 0 10 false) s'
      (Runs.replayReach reached) calm move claimed⟩

theorem gidsCollide : ∃ s, replay (step release fourSlots) Calm (fresh empty 0) neverStored = some s ∧
    handOuts s = [("u3",1001),("u2",1001)] ∧
    ¬(∀ e ∈ handOuts s, ∀ e' ∈ handOuts s, e.2 = e'.2 ↔ e.1 = e'.1) ∧
    (alone 20 offline (lookupUserByUid fourSlots 1001) s.db).1 =
      .ok (some ⟨"u2","two",1001,1001,"","/home/two","/bin/bash",true⟩) ∧
    (alone 20 offline (lookupGroupByGid fourSlots 1001) s.db).1 = .ok (some ⟨"u3","wheel",1001,[]⟩) := by
  have ends : (replay (step release fourSlots) Calm (fresh empty 0) neverStored).map (fun s => (handOuts s,
      (alone 20 offline (lookupUserByUid fourSlots 1001) s.db).1,
      (alone 20 offline (lookupGroupByGid fourSlots 1001) s.db).1)) =
      some ([("u3",1001),("u2",1001)],.ok (some ⟨"u2","two",1001,1001,"","/home/two","/bin/bash",true⟩),
        .ok (some ⟨"u3","wheel",1001,[]⟩)) := by decide +kernel
  obtain ⟨s,reached,facts⟩ := Option.map_eq_some_iff.mp ends
  simp only [Prod.mk.injEq] at facts
  obtain ⟨both,user,group⟩ := facts
  refine ⟨s,reached,both,?_,user,group⟩
  rw [both]
  decide

end SssdOidc.GroupIds
