import SssdOidc.Offline

/-! A SCIM directory, what `list_all_groups` leaves of it in an empty cache, and what the two
ways of `lookup_groups_for_user` make of that. -/
namespace SssdOidc.Membership
open Model Database Mapping Program Cache Service SssdOidc.System Protocol Conformance History Solo Stability
open Probing (Fits Open firstFit)
open ReverseLookup (Holds holdsStored holdsReplaced)

def Contains (sg : ScimGroup) (userId : String) : Prop := ∃ m ∈ sg.members, m.value = userId

def displays (sg : ScimGroup) : List String := sg.members.filterMap ScimMemberRef.display

/- Membership goes by user id; each user lists the groups that contain it. -/
structure Directory where
  users : List ScimUser
  groups : List ScimGroup
  names : (users.map ScimUser.userName).Nodup
  ids : (groups.map ScimGroup.id).Nodup
  exact : ∀ su ∈ users, ∀ k, (∃ g ∈ su.groups, g.value = k) ↔ ∃ sg ∈ groups, sg.id = k ∧ Contains sg su.id

def Directory.serves (d : Directory) : Replies
  | .userByName n => .ok (d.users.find? (fun su => su.userName == n))
  | .groupByName n => .ok (d.groups.find? (fun sg => sg.displayName == n))
  | .listUsers => .ok d.users
  | .listGroups => .ok d.groups

theorem servesUser {d : Directory} {su : ScimUser} (inside : su ∈ d.users) :
    d.serves (.userByName su.userName) = .ok (some su) := by
  refine congrArg Except.ok ?_
  cases first : d.users.find? (fun other => other.userName == su.userName) with
  | none => exact absurd (List.find?_eq_none.mp first su inside) (by simp)
  | some other =>
    have same : other.userName = su.userName := by simpa using List.find?_some first
    rw [List.inj_on_of_nodup_map d.names (List.mem_of_find?_eq_some first) inside same]

variable {t : Int} {reply : Replies} {b : Build} {config : Config}

/- SCIM gives the answers of `reply`, SQLite does not fail, and its clock shows one of `stamps`. -/
structure Timed {σ : Type} (stamps : Int → Prop) (reply : Replies) (db : σ → Db)
    (answers : (c : calls.Call) → σ → calls.Resp c × σ) : Prop where
  asks : ∀ q s, answers (.scim q) s = (reply q,s)
  owns : ∀ c x k s, answers (.sql (.selectOwner c x k)) s = (.ok (((db s).owners c x).map (fun owner => owner == k)),s)
  runs : ∀ st s, ∃ t, stamps t ∧ (answers (.sql st) s).1 = (execute t false (db s) st).1 ∧
    db (answers (.sql st) s).2 = (execute t false (db s) st).2

theorem timedAlone : Timed (· = t) reply id (answer t reply) where
  asks _ _ := rfl
  owns _ _ _ _ := rfl
  runs _ _ := ⟨t,rfl,rfl,rfl⟩

theorem runPure {ε α σ : Type} {answers : (c : calls.Call) → σ → calls.Resp c × σ} {s s' : σ} {a a' : α}
    (ok : run answers (pure a : Act ε α) s = (.ok a',s')) : a' = a ∧ s' = s := by
  cases ok
  exact ⟨rfl,rfl⟩

structure Stored (g : Group) (t : Int) (db db' : Db) : Prop where
  users : db'.users = db.users
  groups : db'.groups = (db.insertOrReplaceGroup g t).groups
  members : ∀ m, m ∈ db'.members ↔ (m ∈ (db.insertOrReplaceGroup g t).members ∧ m.group ≠ g.externalId) ∨
    (m.group = g.externalId ∧ m.name ∈ g.members)

section Timed
variable {σ : Type} {stamps : Int → Prop} {db : σ → Db} {answers : (c : calls.Call) → σ → calls.Resp c × σ} {s s' : σ}
  (timed : Timed stamps reply db answers)
include timed

theorem timedSql {st : Stmt} {r} (ok : run answers (sql st) s = (.ok r,s')) :
    ∃ t, stamps t ∧ exec t (db s) st = .ok (r,db s') := by
  obtain ⟨t,stamped,result,left⟩ := timed.runs st s
  have unfolded : run answers (sql st) s = (sqlResult (answers (.sql st) s).1,(answers (.sql st) s).2) := rfl
  rw [unfolded,result] at ok
  obtain ⟨told,rfl⟩ := Prod.mk.inj ok
  refine ⟨t,stamped,?_⟩
  rcases History.executeCases t false (db s) st with ⟨e,failed⟩ | ⟨-,answer,db',ran,done⟩
  · rw [failed] at told
    cases told
  · rw [done] at told left
    cases told
    rw [ran,left]

theorem timedResolve {c : Column} {externalId : String} {x}
    (ok : run answers (resolveColumn b config c externalId) s = (.ok x,s')) :
    Fits ((db s).owners c) (slots b config c externalId) externalId x ∧ s = s' := by
  rw [runResolve (timed.owns c · externalId s)] at ok
  cases stops : firstFit ((db s).owners c) externalId (slots b config c externalId) with
  | none =>
    rw [stops] at ok
    cases ok
  | some y =>
    rw [stops] at ok
    cases ok
    exact ⟨Probing.firstFitSome.mp stops,rfl⟩

theorem timedInserts {externalId : String} {names : List String}
    (ok : run answers (insertMembers externalId names) s = (.ok (),s')) :
    (db s').users = (db s).users ∧ (db s').groups = (db s).groups ∧
      ∀ m, m ∈ (db s').members ↔ m ∈ (db s).members ∨ (m.group = externalId ∧ m.name ∈ names) := by
  induction names generalizing s with
  | nil =>
    cases ok
    exact ⟨rfl,rfl,by simp⟩
  | cons name names ih =>
    obtain ⟨_,s1,inserted,rest⟩ := runSplit ok
    obtain ⟨t,-,ran⟩ := timedSql timed inserted
    simp only [exec] at ran
    split at ran
    · obtain ⟨-,wrote⟩ := Prod.mk.inj (Except.ok.inj ran)
      obtain ⟨users,groups,members⟩ := ih rest
      rw [← wrote] at users groups members
      refine ⟨users,groups,fun m => ?_⟩
      rw [members m]
      obtain ⟨group,other⟩ := m
      simp only [Db.insertMember,List.mem_append,List.mem_cons,List.not_mem_nil,or_false,or_assoc,MemberRow.mk.injEq,
        and_or_left]
    · cases ran

theorem timedStoreGroup {g : Group} (ok : run answers (storeGroup g) s = (.ok (),s')) :
    ∃ t, stamps t ∧ Stored g t (db s) (db s') := by
  obtain ⟨_,s1,stored,rest⟩ := runSplit ok
  obtain ⟨_,s2,cleared,inserted⟩ := runSplit rest
  obtain ⟨t,stamped,replaced⟩ := timedSql timed stored
  obtain ⟨t',-,deleted⟩ := timedSql timed cleared
  have first : (db s).insertOrReplaceGroup g t = db s1 := (Prod.mk.inj (Except.ok.inj replaced)).2
  have second : (db s1).deleteMembers (fun m => m.group == g.externalId) = db s2 :=
    (Prod.mk.inj (Except.ok.inj deleted)).2
  obtain ⟨users,groups,members⟩ := timedInserts timed inserted
  rw [← second,← first] at users groups members
  refine ⟨t,stamped,users,groups,fun m => ?_⟩
  rw [members m]
  simp [Db.deleteMembers]

end Timed

theorem aloneSplit {ε α β : Type} {p : Act ε α} {f : α → Act ε β} {a} {db db' : Db}
    (ok : alone t reply (p >>= f) db = (.ok a,db')) :
    ∃ a1 db1, alone t reply p db = (.ok a1,db1) ∧ alone t reply (f a1) db1 = (.ok a,db') := runSplit ok

theorem aloneCachedOk {α : Type} {p : Act CacheError α} {a} {db db' : Db} (ok : alone t reply (cached p) db = (.ok a,db')) :
    alone t reply p db = (.ok a,db') := runCachedOk ok

theorem alonePure {ε α : Type} {a a' : α} {db db' : Db} (ok : alone t reply (pure a : Act ε α) db = (.ok a',db')) :
    a' = a ∧ db' = db := runPure ok

theorem aloneSqlOk {st : Stmt} {r} {db db' : Db} (ok : alone t reply (sql st) db = (.ok r,db')) :
    exec t db st = .ok (r,db') := by
  obtain ⟨_,rfl,ran⟩ := timedSql timedAlone ok
  exact ran

theorem aloneResolveOk {c : Column} {externalId : String} {x} {db db' : Db}
    (ok : alone t reply (resolveColumn b config c externalId) db = (.ok x,db')) :
    Fits (db.owners c) (slots b config c externalId) externalId x ∧ db = db' := timedResolve timedAlone ok

theorem aloneStoreGroup {g : Group} {db db' : Db} (ok : alone t reply (storeGroup g) db = (.ok (),db')) :
    Stored g t db db' := by
  obtain ⟨_,rfl,stored⟩ := timedStoreGroup timedAlone ok
  exact stored

theorem holdsStoredWhole {g : Group} {db db' : Db} (stored : Stored g t db db') : Holds (groupRow g t) g.members db' := by
  refine ⟨stored.groups ▸ (holdsStored db g t).present,fun m => ?_⟩
  rw [stored.members]
  simp [groupRow]

theorem holdsStoredOther {g : Group} {db db' : Db} {row names} (stored : Stored g t db db') (holds : Holds row names db)
    (foreign : g.externalId ≠ row.externalId) (free : Open (db.owners .gid) g.externalId g.gid) : Holds row names db' := by
  have replaced := holdsReplaced (t := t) holds foreign free
  refine ⟨stored.groups ▸ replaced.present,fun m => ?_⟩
  rw [stored.members,← replaced.members m]
  simp [foreign.symm]

theorem storedOwners {g : Group} {db db' : Db} (stored : Stored g t db db') :
    db'.owners .gid = Probing.assign (db.owners .gid) g.externalId g.gid := by
  have stores : (db.insertOrReplaceGroup g t).owners .gid = _ :=
    execStores (s := .insertOrReplaceGroup g) (c := .gid) rfl rfl
  have same : db'.owners .gid = (db.insertOrReplaceGroup g t).owners .gid := by simp only [Db.owners,stored.groups]
  exact same.trans stores

/- The cached groups are `sgs`, each with the names `shown` of it, stored at certain times. -/
structure Mirrors (b : Build) (config : Config) (stamps : Int → Prop) (shown : ScimGroup → List String)
    (sgs : List ScimGroup) (db : Db) : Prop where
  holds : ∀ sg ∈ sgs, ∃ gid t, stamps t ∧ Holds (groupRow (groupModel sg gid) t) (shown sg) db
  known : ∀ row ∈ db.groups.rows, ∃ sg ∈ sgs, sg.id = row.externalId
  settled : SettledColumn b config .gid db

structure Loaded (b : Build) (config : Config) (stamps : Int → Prop) (sgs : List ScimGroup) (db : Db) : Prop
    extends Mirrors b config stamps displays sgs db where
  nobody : db.users.rows = []

theorem loadedEmpty {stamps : Int → Prop} : Loaded b config stamps [] empty where
  nobody := rfl
  holds := by simp
  known := fun _ never => nomatch never
  settled := settledFresh .gid

section Listing
variable {σ : Type} {stamps : Int → Prop} {db : σ → Db} {answers : (c : calls.Call) → σ → calls.Resp c × σ} {s s' : σ}
  (timed : Timed stamps reply db answers)
include timed

theorem loadedNext {done : List ScimGroup} {sg : ScimGroup} {g : Group} (loaded : Loaded b config stamps done (db s))
    (apart : ∀ other ∈ done, other.id ≠ sg.id) (ok : run answers (refreshGroup b config sg) s = (.ok g,s')) :
    Loaded b config stamps (done ++ [sg]) (db s') := by
  obtain ⟨g1,s1,converted,rest⟩ := runSplit ok
  obtain ⟨_,s2,stored,last⟩ := runSplit rest
  obtain ⟨rfl,rfl⟩ := runPure last
  obtain ⟨gid,s3,resolved,made⟩ := runSplit converted
  obtain ⟨rfl,rfl⟩ := runPure made
  obtain ⟨fits,rfl⟩ := timedResolve timed (c := .gid) (runCachedOk resolved)
  obtain ⟨t,stamped,whole⟩ := timedStoreGroup timed (runCachedOk stored)
  refine ⟨⟨?_,?_,?_⟩,whole.users ▸ loaded.nobody⟩
  · intro other inside
    rcases List.mem_append.mp inside with before | last
    · obtain ⟨gid',t',stamped',held⟩ := loaded.holds other before
      exact ⟨gid',t',stamped',holdsStoredOther whole held (apart other before).symm fits.stop⟩
    · rw [List.mem_singleton.mp last]
      exact ⟨gid,t,stamped,holdsStoredWhole whole⟩
  · intro row inside
    rw [whole.groups] at inside
    rcases UniqueTable.memInsertOrReplace.mp inside with rfl | ⟨old,-⟩
    · exact ⟨sg,by simp,rfl⟩
    · obtain ⟨other,before,same⟩ := loaded.known row old
      exact ⟨other,List.mem_append_left _ before,same⟩
  · rw [SettledColumn,storedOwners whole]
    exact Probing.settledAssign loaded.settled fits

theorem loadedAll {done rest : List ScimGroup} {gs : List Group} (loaded : Loaded b config stamps done (db s))
    (ids : ((done ++ rest).map ScimGroup.id).Nodup) (ok : run answers (refreshGroups b config rest) s = (.ok gs,s')) :
    Loaded b config stamps (done ++ rest) (db s') := by
  induction rest generalizing done gs s with
  | nil =>
    obtain ⟨-,rfl⟩ := runPure ok
    rwa [List.append_nil]
  | cons sg rest ih =>
    obtain ⟨g,s1,first,others⟩ := runSplit ok
    obtain ⟨gs',s2,onward,last⟩ := runSplit others
    obtain ⟨-,rfl⟩ := runPure last
    rw [List.append_cons] at ids ⊢
    have apart : ∀ other ∈ done, other.id ≠ sg.id := by
      intro other inside same
      rw [List.append_assoc,List.map_append,List.nodup_append] at ids
      exact ids.2.2 _ (List.mem_map_of_mem inside) _ (List.mem_map_of_mem (by simp)) same
    exact ih (loadedNext timed loaded apart first) ids onward

theorem loadedBy {sgs : List ScimGroup} {gs : List Group} (served : reply .listGroups = .ok sgs)
    (ids : (sgs.map ScimGroup.id).Nodup) (first : db s = empty)
    (ok : run answers (listAllGroups b config) s = (.ok gs,s')) : Loaded b config stamps sgs (db s') := by
  obtain ⟨_,s1,asked,rest⟩ := runSplit ok
  have hears : run answers (ask .listGroups) s = (.ok (answers (.scim .listGroups) s).1,(answers (.scim .listGroups) s).2) :=
    rfl
  rw [timed.asks,served] at hears
  cases hears.symm.trans asked
  have start : Loaded b config stamps [] (db s) := first ▸ loadedEmpty
  have whole : Loaded b config stamps ([] ++ sgs) (db s') := loadedAll timed start (by simpa using ids) rest
  exact whole

end Listing

theorem loadedListing {d : Directory} {gs : List Group} {db : Db}
    (ok : alone t d.serves (listAllGroups b config) empty = (.ok gs,db)) : Loaded b config (· = t) d.groups db :=
  loadedBy timedAlone rfl d.ids rfl ok

variable {db : Db}

theorem aloneWithAllMembers (rows : List Group) :
    ∃ gs, alone t reply (withAllMembers rows) db = (.ok gs,db) ∧ gs.map Group.gid = rows.map Group.gid := by
  induction rows with
  | nil => exact ⟨[],rfl,rfl⟩
  | cons row rows ih =>
    obtain ⟨gs,ran,same⟩ := ih
    have read : alone t reply (getGroupMembers row.externalId) db = (.ok _,db) := aloneSql rfl
    have first : alone t reply (withMembers row) db = (.ok _,db) := aloneOk read
    exact ⟨_,(aloneOk first).trans (aloneOk ran),by simp [same]⟩

def cachedFor (config : Config) (t : Int) (name : String) (db : Db) : List UInt32 :=
  (db.groupsOf name (fun row => live t config.cache.ttlSeconds row.cachedAt)).map GroupRow.gid

theorem aloneDown {name : String} {e} (down : reply (.userByName name) = .error e)
    (short : ¬MAX_NAME_LEN < name.utf8ByteSize) :
    alone t reply (lookupGroupsForUser b config name) db = (.ok (cachedFor config t name db),db) := by
  have read : alone t reply (sql (.selectGroupsByMember name config.cache.ttlSeconds)) db = (.ok _,db) := aloneSql rfl
  obtain ⟨gs,ran,same⟩ : ∃ gs, alone t reply (withAllMembers _) db = (.ok gs,db) ∧ _ := aloneWithAllMembers
    ((db.groupsOf name (fun row => live t config.cache.ttlSeconds row.cachedAt)).map GroupRow.group)
  have whole : alone t reply (cached (getGroupsForMember config.cache.ttlSeconds name)) db = (.ok gs,db) :=
    aloneCached ((aloneOk read).trans ran)
  unfold lookupGroupsForUser
  rw [if_neg short]
  refine (aloneOk (aloneAsk (.userByName name))).trans ?_
  rw [down]
  refine (aloneOk whole).trans ?_
  rw [show (gs.map Group.gid) = cachedFor config t name db by
    rw [same,List.map_map]
    rfl]
  rfl

theorem aloneResolveGroups {refs : List ScimGroupRef}
    (known : ∀ g ∈ refs, ∃ x, firstFit (db.owners .gid) g.value (slots b config .gid g.value) = some x) :
    ∃ gids, alone t reply (resolveGroups b config refs) db = (.ok gids,db) ∧
      ∀ x, x ∈ gids ↔ ∃ g ∈ refs, firstFit (db.owners .gid) g.value (slots b config .gid g.value) = some x := by
  induction refs with
  | nil => exact ⟨[],rfl,by simp⟩
  | cons g refs ih =>
    obtain ⟨x,stops⟩ := known g List.mem_cons_self
    obtain ⟨gids,rest,members⟩ := ih fun other inside => known other (List.mem_cons_of_mem _ inside)
    have first : alone t reply (resolveColumn b config .gid g.value) db = (.ok x,db) := by
      rw [aloneResolve,stops]
      rfl
    refine ⟨x :: gids,(aloneOk (aloneCached first)).trans (aloneOk rest),fun y => ?_⟩
    rw [List.mem_cons,members y]
    simp [stops,eq_comm]

theorem aloneOnline {name : String} {su : ScimUser} {x g} (short : ¬MAX_NAME_LEN < name.utf8ByteSize)
    (listed : reply (.userByName name) = .ok (some su))
    (uid : firstFit (db.owners .uid) su.id (slots b config .uid su.id) = some x)
    (gid : firstFit (db.owners .gid) (gidExternal su) (slots b config .gid (gidExternal su)) = some g)
    (known : ∀ r ∈ su.groups, ∃ y, firstFit (db.owners .gid) r.value (slots b config .gid r.value) = some y) :
    ∃ gids db', alone t reply (lookupGroupsForUser b config name) db = (.ok gids,db') ∧
      ∀ y, y ∈ gids ↔ ∃ r ∈ su.groups, firstFit (db.owners .gid) r.value (slots b config .gid r.value) = some y := by
  -- the store of the user leaves the gid column alone
  obtain ⟨gids,resolved,members⟩ : ∃ gids, alone t reply (resolveGroups b config su.groups)
    (db.insertOrReplaceUser (userModel config su x g) t) = (.ok gids,_) ∧ _ := aloneResolveGroups known
  refine ⟨gids,db.insertOrReplaceUser (userModel config su x g) t,?_,members⟩
  unfold lookupGroupsForUser
  rw [if_neg short]
  refine (aloneOk (aloneAsk (.userByName name))).trans ?_
  rw [listed]
  exact (aloneOk (aloneRefreshUser uid gid)).trans resolved

theorem aloneResolveGroupsOk {refs : List ScimGroupRef} {gids : List UInt32} {db' : Db}
    (ok : alone t reply (resolveGroups b config refs) db = (.ok gids,db')) :
    ∀ x ∈ gids, ∃ g ∈ refs, firstFit (db.owners .gid) g.value (slots b config .gid g.value) = some x := by
  induction refs generalizing gids db db' with
  | nil =>
    obtain ⟨rfl,-⟩ := alonePure ok
    simp
  | cons g refs ih =>
    obtain ⟨x,db1,first,others⟩ := aloneSplit ok
    obtain ⟨xs,db2,rest,last⟩ := aloneSplit others
    obtain ⟨rfl,-⟩ := alonePure last
    obtain ⟨fits,rfl⟩ := aloneResolveOk (c := .gid) (aloneCachedOk first)
    intro y inside
    rcases List.mem_cons.mp inside with rfl | later
    · exact ⟨g,List.mem_cons_self,Probing.firstFitSome.mpr fits⟩
    · obtain ⟨g',here,stops⟩ := ih rest y later
      exact ⟨g',List.mem_cons_of_mem _ here,stops⟩

theorem onlineResolved {name : String} {su : ScimUser} {gids db'} (short : ¬MAX_NAME_LEN < name.utf8ByteSize)
    (listed : reply (.userByName name) = .ok (some su))
    (ok : alone t reply (lookupGroupsForUser b config name) db = (.ok gids,db')) :
    ∀ x ∈ gids, ∃ g ∈ su.groups, firstFit (db.owners .gid) g.value (slots b config .gid g.value) = some x := by
  unfold lookupGroupsForUser at ok
  rw [if_neg short] at ok
  obtain ⟨_,db1,asked,answered⟩ := aloneSplit ok
  have hears : alone t reply (ask (.userByName name)) db = _ := aloneAsk _
  cases hears.symm.trans asked
  rw [listed] at answered
  obtain ⟨u,db2,refreshed,rest⟩ := aloneSplit answered
  obtain ⟨u',db3,converted,stores⟩ := aloneSplit refreshed
  obtain ⟨uid,db4,first,more⟩ := aloneSplit converted
  obtain ⟨gid,db5,second,made⟩ := aloneSplit more
  obtain ⟨rfl,rfl⟩ := alonePure made
  obtain ⟨-,rfl⟩ := aloneResolveOk (c := .uid) (aloneCachedOk first)
  obtain ⟨-,rfl⟩ := aloneResolveOk (c := .gid) (aloneCachedOk second)
  obtain ⟨_,db6,stored,last⟩ := aloneSplit stores
  obtain ⟨rfl,rfl⟩ := alonePure last
  cases aloneSqlOk (aloneCachedOk stored)
  exact fun x inside => aloneResolveGroupsOk rest x inside

section Mirrors
variable {stamps : Int → Prop} {shown : ScimGroup → List String} {sgs : List ScimGroup} {sg : ScimGroup}

theorem heldSlot {gid t names} (settled : SettledColumn b config .gid db)
    (holds : Holds (groupRow (groupModel sg gid) t) names db) :
    firstFit (db.owners .gid) sg.id (slots b config .gid sg.id) = some gid :=
  Probing.firstFitSome.mpr (Probing.settledFits settled (UniqueTable.ownerRow holds.present))

theorem mirroredSlot (mirrors : Mirrors b config stamps shown sgs db) (inside : sg ∈ sgs) :
    ∃ gid, firstFit (db.owners .gid) sg.id (slots b config .gid sg.id) = some gid := by
  obtain ⟨gid,t,-,holds⟩ := mirrors.holds sg inside
  exact ⟨gid,heldSlot mirrors.settled holds⟩

theorem oneGroup {other : ScimGroup} {x} (mirrors : Mirrors b config stamps shown sgs db)
    (ids : (sgs.map ScimGroup.id).Nodup) (inside : sg ∈ sgs) (listed : other ∈ sgs)
    (here : firstFit (db.owners .gid) sg.id (slots b config .gid sg.id) = some x)
    (there : firstFit (db.owners .gid) other.id (slots b config .gid other.id) = some x) : sg = other := by
  obtain ⟨gid,t,-,holds⟩ := mirrors.holds sg inside
  obtain ⟨gid',t',-,holds'⟩ := mirrors.holds other listed
  cases (heldSlot mirrors.settled holds).symm.trans here
  cases (heldSlot mirrors.settled holds').symm.trans there
  have one := UniqueTable.sameSlot db.groups holds.present holds'.present rfl
  have same : sg.id = other.id := congrArg GroupRow.externalId one
  exact List.inj_on_of_nodup_map ids inside listed same

theorem memCachedFor {t' : Int} {name : String} {x} (mirrors : Mirrors b config stamps shown sgs db) :
    x ∈ cachedFor config t' name db ↔ ∃ sg ∈ sgs, name ∈ shown sg ∧
      ∃ t, stamps t ∧ live t' config.cache.ttlSeconds t = true ∧ Holds (groupRow (groupModel sg x) t) (shown sg) db := by
  rw [cachedFor,List.mem_map]
  constructor
  · rintro ⟨row,cached,rfl⟩
    obtain ⟨inside,member,young⟩ := memGroupsOf.mp cached
    obtain ⟨sg,listed,key⟩ := mirrors.known row inside
    obtain ⟨gid,t,stamped,holds⟩ := mirrors.holds sg listed
    have one : row = groupRow (groupModel sg gid) t := UniqueTable.sameKey db.groups inside holds.present key.symm
    subst one
    exact ⟨sg,listed,(holds.members name).mp member,t,stamped,young,holds⟩
  · intro mirrored
    obtain ⟨sg,listed,member,t,-,young,holds⟩ := mirrored
    exact ⟨_,memGroupsOf.mpr ⟨holds.present,(holds.members name).mpr member,young⟩,rfl⟩

theorem memCachedSlot {t' : Int} {name : String} {x} (mirrors : Mirrors b config stamps shown sgs db)
    (young : ∀ t, stamps t → live t' config.cache.ttlSeconds t = true) : x ∈ cachedFor config t' name db ↔
      ∃ sg ∈ sgs, name ∈ shown sg ∧ firstFit (db.owners .gid) sg.id (slots b config .gid sg.id) = some x := by
  rw [memCachedFor mirrors]
  constructor
  · intro cached
    obtain ⟨sg,listed,inside,stamp,-,-,holds⟩ := cached
    exact ⟨sg,listed,inside,heldSlot mirrors.settled holds⟩
  · intro cached
    obtain ⟨sg,listed,inside,stops⟩ := cached
    obtain ⟨gid,stamp,stamped,holds⟩ := mirrors.holds sg listed
    cases (heldSlot mirrors.settled holds).symm.trans stops
    exact ⟨sg,listed,inside,stamp,stamped,young stamp stamped,holds⟩

end Mirrors

end SssdOidc.Membership
