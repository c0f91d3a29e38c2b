import SssdOidc.Atomicity
import SssdOidc.LostWrites
import SssdOidc.OfflineGroups

/-! `list_all_groups` on an empty cache, over groups with any members: what one group whose
display names repeat does to the listing. -/
namespace SssdOidc.OddGroups
open Model Database Mapping Program Cache Service SssdOidc.System Protocol Solo Atomicity LostWrites
open Probing (Open firstFit)
open ProbeChain (Bounded)
open ReverseLookup (Holds)
open Stability (fourSlots)
open SssdOidc.Membership (displays Timed Stored timedStoreGroup holdsStoredOther holdsStoredWhole storedOwners)
open OfflineGroups (timedTicking)

/- One call as `Atomicity` counts its statements, when `n` writes went before. -/
def callFrom (w : Writes) (n : Nat) : Sqlite := ⟨fun i => w.clock (n + i),fun i => w.fails (n + i)⟩

section Store
variable {w : Writes} {reply : Replies}

abbrev OnlyWrites {α : Type} (p : Prog calls α) (tr : Trace calls) : Prop :=
  Follows (fun _ c => writes c = true) (fun _ _ => True) p tr

theorem runFrom {α : Type} {p : Prog calls α} {tr : Trace calls} (only : OnlyWrites p tr) (n i : Nat) (db : Db) :
    run (w.answer reply) p (db,n + i) =
      ((run (callFrom w n).answer p (db,i)).1,((run (callFrom w n).answer p (db,i)).2.1,
        n + (run (callFrom w n).answer p (db,i)).2.2)) := by
  induction p generalizing tr i db with
  | ret a => rfl
  | call c k ih =>
    cases c with
    | scim q => cases only.1
    | sql st =>
      have write : st.writes = true := only.1
      have answered : w.answer reply (.sql st) (db,n + i) = ((execute (w.clock (n + i)) (w.fails (n + i)) db st).1,
          ((execute (w.clock (n + i)) (w.fails (n + i)) db st).2,n + (i + 1))) := by
        simp only [Writes.answer,write,Bool.true_and,if_true,Nat.add_assoc]
      change run (w.answer reply) (k _) (w.answer reply (.sql st) (db,n + i)).2 = _
      rw [answered]
      exact ih _ (only.2 0 _) (i + 1) _

theorem onlySql {st : Stmt} (write : st.writes = true) (tr : Trace calls) : OnlyWrites (sql st) tr :=
  ⟨write,fun _ _ => trivial⟩

theorem onlyThen {α β : Type} {p : Act CacheError α} {f : α → Act CacheError β} (first : ∀ tr, OnlyWrites p tr)
    (later : ∀ a tr, OnlyWrites (f a) tr) (tr : Trace calls) : OnlyWrites (p >>= f : Act CacheError β) tr := by
  refine followsAttempt (followsMono (first tr) fun tr' r _ => ?_)
  cases r with
  | ok a => exact later a tr'
  | error e => trivial

theorem onlyStoreGroup (g : Group) (tr : Trace calls) : OnlyWrites (storeGroup g) tr := by
  have inserts (names : List String) (tr : Trace calls) : OnlyWrites (insertMembers g.externalId names) tr := by
    induction names generalizing tr with
    | nil => trivial
    | cons name rest ih => exact onlyThen (onlySql rfl) (fun _ => ih) tr
  exact onlyThen (onlySql rfl) (fun _ => onlyThen (onlySql rfl) fun _ => inserts g.members) tr

theorem storeGroupRun (g : Group) (n : Nat) (db : Db) : ∃ k, run (w.answer reply) (storeGroup g) (db,n) =
    ((within (callFrom w n) 0 (storeGroup g) db).1,((within (callFrom w n) 0 (storeGroup g) db).2,k)) :=
  ⟨_,runFrom (onlyStoreGroup g []) n 0 db⟩

end Store

section Listing
variable {config : Config} (b : Build) (clock : Nat → Int) (reply : Replies)

theorem storeGroupTicking {g : Group} {n : Nat} {db : Db} (distinct : g.members.Nodup) :
    ∃ db' k t, run ((ticking clock).answer reply) (storeGroup g) (db,n) = (.ok (),(db',k)) ∧ Stored g t db db' := by
  obtain ⟨k,ran⟩ : ∃ k, run ((ticking clock).answer reply) (storeGroup g) (db,n) = _ := storeGroupRun g n db
  have complete : Complete (callFrom (ticking clock) n) g := ⟨fun _ _ => rfl,distinct⟩
  rw [storeGroupOk.mpr complete] at ran
  have timed : Timed (fun _ => True) reply Prod.fst ((ticking clock).answer reply) := timedTicking fun _ => trivial
  obtain ⟨t,-,stored⟩ := timedStoreGroup timed ran
  exact ⟨_,k,t,ran,stored⟩

theorem storeGroupOdd {g : Group} {n : Nat} {db : Db} (repeated : ¬g.members.Nodup) :
    ∃ h s', run ((ticking clock).answer reply) (storeGroup g) (db,n) = (.error h,s') := by
  obtain ⟨k,ran⟩ : ∃ k, run ((ticking clock).answer reply) (storeGroup g) (db,n) = _ := storeGroupRun g n db
  rcases out : (within (callFrom (ticking clock) n) 0 (storeGroup g) db).1 with h | _
  · rw [out] at ran
    exact ⟨h,_,ran⟩
  · exact absurd (storeGroupOk.mp out).distinct repeated

structure Kept (gs : List Group) (db : Db) : Prop where
  holds : ∀ g ∈ gs, ∃ t, Holds (groupRow g t) g.members db
  known : ∀ x k, db.owners .gid x = some k → k ∈ gs.map Group.externalId

theorem keptEmpty : Kept [] empty where
  holds := fun _ never => nomatch never
  known := by
    intro x k own
    rw [ownersEmpty] at own
    cases own

theorem keptNext {gs : List Group} {g : Group} {t : Int} {db db' : Db} (kept : Kept gs db)
    (apart : g.externalId ∉ gs.map Group.externalId) (free : Open (db.owners .gid) g.externalId g.gid)
    (stored : Stored g t db db') : Kept (gs ++ [g]) db' := by
  constructor
  · intro other inside
    rcases List.mem_append.mp inside with before | last
    · obtain ⟨t',held⟩ := kept.holds other before
      have foreign : g.externalId ≠ other.externalId := fun same => apart (same ▸ List.mem_map_of_mem before)
      exact ⟨t',holdsStoredOther stored held foreign free⟩
    · rw [List.mem_singleton.mp last]
      exact ⟨t,holdsStoredWhole stored⟩
  · intro x k own
    rw [storedOwners stored] at own
    rw [List.map_append]
    rcases Probing.assignOwned own with ⟨-,rfl⟩ | ⟨-,-,old⟩
    · exact List.mem_append_right _ (by simp)
    · exact List.mem_append_left _ (kept.known x k old)

structure Remaining (config : Config) (gs : List Group) (sgs : List ScimGroup) : Prop where
  room : gs.length + sgs.length ≤ config.mapping.gidRangeSize.toNat
  ids : (sgs.map ScimGroup.id).Nodup
  apart : ∀ sg ∈ sgs, sg.id ∉ gs.map Group.externalId

theorem remainingNext {gs : List Group} {sg : ScimGroup} {sgs : List ScimGroup}
    (remaining : Remaining config gs (sg :: sgs)) (x : UInt32) : Remaining config (gs ++ [groupModel sg x]) sgs where
  room := by
    have room := remaining.room
    simp only [List.length_append,List.length_cons,List.length_nil] at room ⊢
    omega
  ids := (List.nodup_cons.mp remaining.ids).2
  apart := by
    intro later inside listed
    rw [List.map_append,List.mem_append] at listed
    rcases listed with before | last
    · exact remaining.apart later (List.mem_cons_of_mem _ inside) before
    · have same : later.id = sg.id := List.mem_singleton.mp last
      exact (List.nodup_cons.mp remaining.ids).1 (same ▸ List.mem_map_of_mem inside)

section Range
variable {gs : List Group} {sg : ScimGroup} {sgs : List ScimGroup} {n : Nat} {db : Db} (bounded : Bounded config .gid)
include bounded

theorem groupConverted (kept : Kept gs db) (remaining : Remaining config gs (sg :: sgs)) :
    ∃ x, Open (db.owners .gid) sg.id x ∧
      run ((ticking clock).answer reply) (scimGroupToModel b config sg) (db,n) = (.ok (groupModel sg x),(db,n)) := by
  have room : (gs.map Group.externalId).length < config.mapping.gidRangeSize.toNat := by
    have room := remaining.room
    rw [List.length_cons] at room
    rw [List.length_map]
    omega
  obtain ⟨x,fits⟩ := OfflineGroups.roomLeft (b := b) bounded kept.known room sg.id
  have gid : run ((ticking clock).answer reply) (cached (resolveColumn b config .gid sg.id)) (db,n) = _ :=
    resolved .gid sg.id
  rw [fits] at gid
  exact ⟨x,(Probing.firstFitSome.mp fits).stop,runOk gid⟩

theorem refreshGroupStores (kept : Kept gs db) (remaining : Remaining config gs (sg :: sgs)) (distinct : (displays sg).Nodup) :
    ∃ x db' k, run ((ticking clock).answer reply) (refreshGroup b config sg) (db,n) = (.ok (groupModel sg x),(db',k)) ∧
      Kept (gs ++ [groupModel sg x]) db' := by
  obtain ⟨x,free,converted⟩ := groupConverted b clock reply bounded kept remaining
  have members : (groupModel sg x).members.Nodup := distinct
  obtain ⟨db',k,t,ran,stored⟩ := storeGroupTicking clock reply members
  have done : run ((ticking clock).answer reply) (cached (storeGroup (groupModel sg x))) (db,n) = (.ok (),(db',k)) :=
    runCached ran
  exact ⟨x,db',k,(runOk converted).trans (runOk done),
    keptNext kept (remaining.apart sg List.mem_cons_self) free stored⟩

theorem refreshGroupStops (kept : Kept gs db) (remaining : Remaining config gs (sg :: sgs)) (repeated : ¬(displays sg).Nodup) :
    ∃ h s', run ((ticking clock).answer reply) (refreshGroup b config sg) (db,n) = (.error h,s') := by
  obtain ⟨x,-,converted⟩ := groupConverted b clock reply bounded kept remaining
  have members : ¬(groupModel sg x).members.Nodup := repeated
  obtain ⟨h,s',stopped⟩ := storeGroupOdd clock reply members
  have failed : run ((ticking clock).answer reply) (cached (storeGroup (groupModel sg x))) (db,n) =
    (.error (cacheHalt h),s') := runCached stopped
  exact ⟨_,s',(runOk converted).trans (runError failed)⟩

theorem refreshGroupsStore (kept : Kept gs db) (remaining : Remaining config gs sgs)
    (distinct : ∀ sg ∈ sgs, (displays sg).Nodup) :
    ∃ gs' db' k, run ((ticking clock).answer reply) (refreshGroups b config sgs) (db,n) = (.ok gs',(db',k)) ∧
      List.Forall₂ (fun sg g => ∃ x, g = groupModel sg x) sgs gs' ∧ Kept (gs ++ gs') db' := by
  induction sgs generalizing gs n db with
  | nil => exact ⟨[],db,n,rfl,.nil,by rwa [List.append_nil]⟩
  | cons sg sgs ih =>
    obtain ⟨x,db1,k1,first,kept⟩ :=
      refreshGroupStores b clock reply bounded kept remaining (distinct sg List.mem_cons_self)
    obtain ⟨gs',db',k,ran,each,kept⟩ :=
      ih kept (remainingNext remaining x) fun later inside => distinct later (List.mem_cons_of_mem _ inside)
    rw [List.append_assoc] at kept
    exact ⟨groupModel sg x :: gs',db',k,(runOk first).trans (runOk ran),.cons ⟨x,rfl⟩ each,kept⟩

theorem refreshGroupsStop (kept : Kept gs db) (remaining : Remaining config gs sgs)
    (odd : ∃ sg ∈ sgs, ¬(displays sg).Nodup) :
    ∃ h s', run ((ticking clock).answer reply) (refreshGroups b config sgs) (db,n) = (.error h,s') := by
  induction sgs generalizing gs n db with
  | nil =>
    obtain ⟨_,never,_⟩ := odd
    cases never
  | cons sg sgs ih =>
    by_cases distinct : (displays sg).Nodup
    · obtain ⟨x,db1,k1,first,kept⟩ := refreshGroupStores b clock reply bounded kept remaining distinct
      -- the odd group comes later
      obtain ⟨odd,inside,repeated⟩ := odd
      have later : odd ∈ sgs := (List.mem_cons.mp inside).resolve_left fun same => repeated (same ▸ distinct)
      obtain ⟨h,s',ran⟩ := ih kept (remainingNext remaining x) ⟨odd,later,repeated⟩
      exact ⟨h,s',(runOk first).trans (runError ran)⟩
    · obtain ⟨h,s',stopped⟩ := refreshGroupStops b clock reply bounded kept remaining distinct
      exact ⟨h,s',runError stopped⟩

end Range

end Listing

def ListsAll (b : Build) (config : Config) (clock : Nat → Int) (reply : Replies) (sgs : List ScimGroup) : Prop :=
  ∃ gs db k, run ((ticking clock).answer reply) (listAllGroups b config) (empty,0) = (.ok gs,(db,k)) ∧
    List.Forall₂ (fun sg g => g.externalId = sg.id ∧ g.name = sg.displayName ∧ g.members = displays sg) sgs gs ∧
    ∀ g ∈ gs, ∀ t, (∀ row ∈ db.groups.rows, live t config.cache.ttlSeconds row.cachedAt = true) →
      ∃ found, alone t reply (lookupGroupByGid config g.gid) db = (.ok (some found),db) ∧
        found.externalId = g.externalId ∧ found.gid = g.gid ∧ ∀ m, m ∈ found.members ↔ m ∈ g.members

theorem listsAllGroups {b : Build} {config : Config} {clock : Nat → Int} {reply : Replies} {sgs : List ScimGroup}
    (listed : reply .listGroups = .ok sgs) (ids : (sgs.map ScimGroup.id).Nodup) (bounded : Bounded config .gid)
    (room : sgs.length ≤ config.mapping.gidRangeSize.toNat) :
    ListsAll b config clock reply sgs ↔ ∀ sg ∈ sgs, (displays sg).Nodup := by
  have asked : run ((ticking clock).answer reply) (ask .listGroups) (empty,0) = (.ok (reply .listGroups),(empty,0)) := rfl
  have whole : run ((ticking clock).answer reply) (listAllGroups b config) (empty,0) =
      run ((ticking clock).answer reply) (refreshGroups b config sgs) (empty,0) := by
    rw [listAllGroups,runOk asked,listed]
  have remaining : Remaining config [] sgs := ⟨by simpa using room,ids,by simp⟩
  constructor
  · intro ⟨gs,db,k,ran,_⟩ sg inside
    by_contra repeated
    obtain ⟨h,s',stopped⟩ := refreshGroupsStop b clock reply bounded keptEmpty remaining ⟨sg,inside,repeated⟩
    rw [whole,stopped] at ran
    cases ran
  · intro distinct
    obtain ⟨gs,db,k,ran,each,kept⟩ := refreshGroupsStore b clock reply bounded keptEmpty remaining distinct
    refine ⟨gs,db,k,whole.trans ran,each.imp ?_,fun g inside t lives => ?_⟩
    · intro sg g ⟨x,made⟩
      rw [made]
      exact ⟨rfl,rfl,rfl⟩
    · obtain ⟨t',held⟩ := kept.holds g inside
      have young := lives _ held.present
      simp only [live,decide_eq_true_eq] at young
      have fresh : t < (groupRow g t').cachedAt + config.cache.ttlSeconds.seconds := by omega
      obtain ⟨ms,found,members⟩ : ∃ ms, alone t reply (lookupGroupByGid config (groupRow g t').gid) db =
          (.ok (some ⟨g.externalId,g.name,g.gid,ms⟩),db) ∧ ∀ m, m ∈ ms ↔ m ∈ g.members :=
        ReverseLookup.lookupByGid held fresh
      exact ⟨_,found,rfl,rfl,members⟩

def crew (members : List String) : ScimGroup := ⟨"g3","crew",members.map (fun m => ⟨m,some m⟩)⟩

def listing (sgs : List ScimGroup) : Replies
  | .listGroups => .ok sgs
  | _ => .error .http

def oddDirectory : List ScimGroup := [staff ["alice","alice"],crew ["bob"]]

theorem oddGroupStops :
    (oddDirectory.map ScimGroup.id).Nodup ∧ Bounded fourSlots .gid ∧
    oddDirectory.length ≤ fourSlots.mapping.gidRangeSize.toNat ∧
    (alone 0 (listing oddDirectory) (listAllGroups release fourSlots) empty).1 =
      .error (.error (.cache (.sqlite .constraint))) ∧
    (alone 0 (listing oddDirectory) (listAllGroups release fourSlots) empty).2.groups.rows.map GroupRow.name = ["staff"] ∧
    ¬ListsAll release fourSlots (fun _ => 0) (listing oddDirectory) oddDirectory := by
  refine ⟨by decide,ProbeChain.fourSlotsBounded .gid,by decide,by decide +kernel,by decide +kernel,?_⟩
  intro ⟨gs,db,k,ran,_⟩
  have stopped : (run ((ticking fun _ => 0).answer (listing oddDirectory)) (listAllGroups release fourSlots)
      (empty,0)).1.isOk = false := by decide +kernel
  rw [ran] at stopped
  cases stopped

theorem listsAllGroupsTwo :
    ListsAll release fourSlots (fun _ => 0) (listing [staff ["alice"],crew ["alice","bob"]])
        [staff ["alice"],crew ["alice","bob"]] ↔
      ∀ sg ∈ [staff ["alice"],crew ["alice","bob"]], (displays sg).Nodup :=
  listsAllGroups rfl (by decide) (ProbeChain.fourSlotsBounded .gid) (by decide)

end SssdOidc.OddGroups
