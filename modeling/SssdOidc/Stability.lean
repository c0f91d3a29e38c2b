import SssdOidc.Solo

/-! Whether an id that is cached is found again. A single process keeps the table
settled; only a purge can break that, by freeing a slot in front of a row that stays. -/
namespace SssdOidc.Stability
open Model Database Mapping Program Cache Service SssdOidc.System Protocol Conformance History Solo
open Probing (Fits Held Settled PathsKept before firstFit)
open Runs (Reach replay)

variable {b : Build} {config : Config}

def SettledColumn (b : Build) (config : Config) (c : Column) (db : Db) : Prop :=
  Settled (slots b config c) (db.owners c)

theorem settledFresh (c : Column) : SettledColumn b config c empty := by
  rw [SettledColumn,ownersEmpty]
  exact Probing.settledEmpty _

theorem settledStored {s : Sys} {l op tr db'} {t : Int} {st : Stmt} {r : st.Resp} {k c key x} (single : Single l)
    (inv : Reflected s) (settled : SettledColumn b config c s.db)
    (at' : s.procs l.pid = .running op tr (.call (.sql st) k)) (allowed : Allowed b config op tr (.sql st))
    (ok : exec t s.db st = .ok (r,db')) (stores : st.stores c = some (key,x)) : SettledColumn b config c db' := by
  rw [SettledColumn,execStores stores ok]
  exact Probing.settledAssign settled (singleStores single inv at' allowed stores)

theorem settledEffect {s : Sys} {l c db'} (single : Single l) (inv : Reflected s)
    (settled : SettledColumn b config c s.db) (effect : Effect b config s l db')
    (purged : ∀ t st r, executes s l = some (t,st) → st.purges c = true → exec t s.db st = .ok (r,db') →
      SettledColumn b config c db') : SettledColumn b config c db' := by
  cases effect with
  | quiet same => exact same ▸ settled
  | ran op tr t st k r chosen at' allowed ok =>
    cases purges : st.purges c with
    | true => exact purged t st r (ranExecutes chosen at') purges ok
    | false =>
      cases stores : st.stores c with
      | some entry => exact settledStored single inv settled at' allowed ok stores
      | none => rwa [SettledColumn,execOwners stores purges ok]

/- No expired row lies in front of an unexpired one, on the path of the latter. -/
def PathsLive (b : Build) (config : Config) (db : Db) (t : Int) (ttl : Ttl) : Prop :=
  ∀ r ∈ db.users.rows, live t ttl r.cachedAt = true →
    ∀ g ∈ db.users.rows, g.uid ∈ before (slots b config .uid r.externalId) r.uid → live t ttl g.cachedAt = true
instance (db : Db) (t : Int) (ttl : Ttl) : Decidable (PathsLive b config db t ttl) := by
  unfold PathsLive; infer_instance

theorem ownersPurged {db : Db} {t : Int} {ttl : Ttl} {x k} :
    (db.deleteUsers (fun u => !live t ttl u.cachedAt)).owners .uid x = some k ↔
      ∃ r ∈ db.users.rows, live t ttl r.cachedAt = true ∧ r.uid = x ∧ r.externalId = k := by
  refine UniqueTable.ownerDelete.trans ?_
  simp only [Bool.not_eq_false']

theorem pathsLiveKept {db : Db} {t : Int} {ttl : Ttl} (alive : PathsLive b config db t ttl) :
    PathsKept (slots b config .uid) (db.owners .uid)
      ((db.deleteUsers (fun u => !live t ttl u.cachedAt)).owners .uid) := by
  intro k s own x ahead
  obtain ⟨r,inside,stays,rfl,rfl⟩ := ownersPurged.mp own
  apply Option.ext
  intro j
  constructor
  · exact UniqueTable.ownerDeleteOld
  · intro old
    obtain ⟨g,there,rfl,rfl⟩ := UniqueTable.ownerSome.mp old
    exact ownersPurged.mpr ⟨g,there,alive r inside stays g there ahead,rfl,rfl⟩

theorem settledPurged {db : Db} {t : Int} {ttl : Ttl} (settled : SettledColumn b config .uid db) :
    SettledColumn b config .uid (db.deleteUsers (fun u => !live t ttl u.cachedAt)) ↔
      PathsLive b config db t ttl := by
  constructor
  · intro still r inside stays g there ahead
    by_contra expired
    have free : (db.deleteUsers (fun u => !live t ttl u.cachedAt)).owners .uid g.uid = none := by
      refine Option.eq_none_iff_forall_ne_some.mpr fun k own => ?_
      obtain ⟨g',there',stays',same,-⟩ := ownersPurged.mp own
      rw [UniqueTable.sameSlot db.users there' there same] at stays'
      exact expired stays'
    exact Probing.freedUnsettles (ownersPurged.mpr ⟨r,inside,stays,rfl,rfl⟩) ahead free still
  · intro alive
    exact Probing.settledFreed settled (fun _ _ => UniqueTable.ownerDeleteOld) (pathsLiveKept alive)

def StableUids (b : Build) (config : Config) (db : Db) : Prop :=
  ∀ r ∈ db.users.rows, ∀ t reply,
    (alone t reply (resolveUid b r.externalId config.mapping.uidRangeMin config.mapping.uidRangeSize) db).1 = .ok r.uid

theorem stableIffSettled {db : Db} : StableUids b config db ↔ SettledColumn b config .uid db := by
  have resolves (r : UserRow) (t reply) :
      (alone t reply (resolveUid b r.externalId config.mapping.uidRangeMin config.mapping.uidRangeSize) db).1 =
        .ok r.uid ↔ firstFit (db.owners .uid) r.externalId (slots b config .uid r.externalId) = some r.uid := by
    have solo : alone t reply (resolveColumn b config .uid r.externalId) db = _ := aloneResolve .uid r.externalId
    simp only [resolveColumn] at solo
    rw [solo]
    cases firstFit (db.owners .uid) r.externalId (slots b config .uid r.externalId) with
    | none => simp [found]
    | some x => simp [found]
  rw [SettledColumn,Probing.settledIffStable]
  constructor
  · intro stable k x own
    obtain ⟨r,inside,rfl,rfl⟩ := UniqueTable.ownerSome.mp own
    exact (resolves r 0 offline).mp (stable r inside 0 offline)
  · intro settled r inside t reply
    exact (resolves r t reply).mpr (settled r.externalId r.uid (UniqueTable.ownerRow inside))

def SparesPaths (b : Build) (config : Config) (s : Sys) (l : Label) : Prop :=
  match executes s l with
  | some (t,.purgeUsers ttl) => PathsLive b config s.db t ttl
  | _ => True
instance (s : Sys) (l : Label) : Decidable (SparesPaths b config s l) := by
  unfold SparesPaths; split <;> infer_instance

theorem settledRun {now : Int} {s}
    (run : Reach (step b config) (fun s l => Single l ∧ SparesPaths b config s l) (fresh empty now) s) :
    SettledColumn b config .uid s.db := by
  refine moveInvariant (fun s => SettledColumn b config .uid s.db) ?_ ?_ run
  · exact settledFresh .uid
  · intro s l s' before settled chosen move
    have single := reflected (fun _ _ => And.left) before
    refine settledEffect chosen.1 single settled (effect (conforms before) move) ?_
    intro t st r runs purges ok
    cases st <;> cases purges
    case purgeUsers.refl ttl =>
      have alive : PathsLive b config s.db t ttl := by simpa only [SparesPaths,runs] using chosen.2
      have gone : s'.db = s.db.deleteUsers (fun u => !live t ttl u.cachedAt) := executesDb move runs
      rw [gone]
      exact (settledPurged settled).mpr alive

theorem stableUids (b : Build) (config : Config) (now : Int) :
    (∀ s, Reach (step b config) (fun s l => Single l ∧ SparesPaths b config s l) (fresh empty now) s →
      StableUids b config s.db) ∧
    (∀ s l s', Reach (step b config) (fun s l => Single l ∧ SparesPaths b config s l) (fresh empty now) s →
      Single l → step b config s l = some s' → ¬SparesPaths b config s l → ¬StableUids b config s'.db) := by
  constructor
  · intro s run
    exact stableIffSettled.mpr (settledRun run)
  · intro s l s' run single move breaks stable
    unfold SparesPaths at breaks
    split at breaks
    · rename_i t ttl runs
      have gone : s'.db = s.db.deleteUsers (fun u => !live t ttl u.cachedAt) :=
        executesDb (stepMove b config move) runs
      have settled := stableIffSettled.mp stable
      rw [gone] at settled
      exact breaks ((settledPurged (settledRun run)).mp settled)
    · exact breaks trivial

def fourSlots : Config := { mapping := ⟨1000,4,1000,4⟩ }

def scimUser (id userName : String) : ScimUser := ⟨id,userName,none,none,[]⟩

def sparing : List Label :=
  whole 0 (.lookupUserByName "two") 0 (some (.user (some (scimUser "u2" "two")))) 3 ++
  whole 0 (.lookupUserByName "three") 10 (some (.user (some (scimUser "u3" "three")))) 4 ++
  whole 0 .new 3610 none 3 ++
  whole 0 (.lookupUserByName "four") 3620 (some (.user (some (scimUser "u4" "four")))) 3 ++
  whole 0 (.lookupUserByName "three") 3630 (some (.user (some (scimUser "u3" "three")))) 4

/- The first row expires alone and leaves a hole in front of the second. -/
def punching : List Label :=
  whole 0 (.lookupUserByName "two") 0 (some (.user (some (scimUser "u2" "two")))) 3 ++
  whole 0 (.lookupUserByName "three") 10 (some (.user (some (scimUser "u3" "three")))) 4 ++
  whole 0 .new 3605 none 3

theorem stableUidsExamples :
    (∃ s, replay (step release fourSlots) (fun s l => Single l ∧ SparesPaths release fourSlots s l)
        (fresh empty 0) sparing = some s ∧
      s.db.entries .uid = [("u4",1001),("u3",1002)] ∧ StableUids release fourSlots s.db) ∧
    (∃ s s', replay (step release fourSlots) (fun s l => Single l ∧ SparesPaths release fourSlots s l)
        (fresh empty 0) punching.dropLast.dropLast = some s ∧
      step release fourSlots s (.sql 0 3605 false) = some s' ∧ ¬StableUids release fourSlots s'.db) := by
  have first : (replay (step release fourSlots) (fun s l => Single l ∧ SparesPaths release fourSlots s l)
      (fresh empty 0) sparing).map (fun s => s.db.entries .uid) = some [("u4",1001),("u3",1002)] := by decide +kernel
  have second : (replay (step release fourSlots) (fun s l => Single l ∧ SparesPaths release fourSlots s l)
      (fresh empty 0) punching.dropLast.dropLast).map (fun s =>
        (decide (SparesPaths release fourSlots s (.sql 0 3605 false)),
          (step release fourSlots s (.sql 0 3605 false)).isSome)) = some (false,true) := by decide +kernel
  constructor
  · obtain ⟨s,reached,uids⟩ := Option.map_eq_some_iff.mp first
    exact ⟨s,reached,uids,(stableUids release fourSlots 0).1 s (Runs.replayReach reached)⟩
  · obtain ⟨s,reached,facts⟩ := Option.map_eq_some_iff.mp second
    obtain ⟨breaks,moves⟩ := Prod.mk.inj facts
    obtain ⟨s',move⟩ := Option.isSome_iff_exists.mp moves
    exact ⟨s,s',reached,move,(stableUids release fourSlots 0).2 s (.sql 0 3605 false) s'
      (Runs.replayReach reached) rfl move (of_decide_eq_false breaks)⟩

theorem unstableUid : ∃ s, replay (step release fourSlots) (fun _ l => Single l) (fresh empty 0) punching = some s ∧
    s.db.entries .uid = [("u3",1002)] ∧
    (alone 3605 offline (resolveUid release "u3" 1000 4) s.db).1 = .ok 1001 ∧
    ¬StableUids release fourSlots s.db := by
  have ends : (replay (step release fourSlots) (fun _ l => Single l) (fresh empty 0) punching).map
      (fun s => (s.db.entries .uid,(alone 3605 offline (resolveUid release "u3" 1000 4) s.db).1)) =
      some ([("u3",1002)],.ok 1001) := by decide +kernel
  obtain ⟨s,reached,facts⟩ := Option.map_eq_some_iff.mp ends
  obtain ⟨uids,moved⟩ := Prod.mk.inj facts
  refine ⟨s,reached,uids,moved,?_⟩
  intro stable
  have row : ("u3",1002) ∈ s.db.entries .uid := uids ▸ List.mem_cons_self
  obtain ⟨r,inside,same⟩ := List.mem_map.mp row
  obtain ⟨named,held⟩ := Prod.mk.inj same
  have kept := stable r inside 3605 offline
  rw [named,held] at kept
  exact absurd (moved.symm.trans kept) (by decide)

end SssdOidc.Stability
