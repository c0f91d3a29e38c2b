import SssdOidc.Atomicity
import SssdOidc.Thinning

/-! `purge_expired` of src/cache.rs against no purge at all: what the lookups of the cache
can tell, at once and after the same stores in both databases. -/
namespace SssdOidc.Purging
open Model Database Program Cache SssdOidc.System Solo Atomicity Thinning

section Lookups
variable {t : Int} {db : Db} {ttl : Ttl}

theorem aloneGroupByName (name : String) : alone t offline (getGroupByName ttl name) db =
    (.ok ((db.groups.rows.find? fun r => r.name == name && live t ttl r.cachedAt).map (listed db)),db) := by
  have read : alone t offline (sql (.selectGroupByName name ttl)) db = (.ok _,db) := aloneSql rfl
  refine (aloneOk read).trans ?_
  cases db.groups.rows.find? (fun r => r.name == name && live t ttl r.cachedAt) with
  | none => rfl
  | some row => exact aloneMap (aloneMembers row)

theorem aloneAllMembers (rows : List GroupRow) :
    alone t offline (withAllMembers (rows.map GroupRow.group)) db = (.ok (rows.map (listed db)),db) := by
  induction rows with
  | nil => rfl
  | cons row rows ih => exact (aloneOk (aloneMembers row)).trans ((aloneOk ih).trans rfl)

theorem aloneGroupsForMember (member : String) : alone t offline (getGroupsForMember ttl member) db =
    (.ok ((db.groupsOf member fun r => live t ttl r.cachedAt).map (listed db)),db) := by
  have read : alone t offline (sql (.selectGroupsByMember member ttl)) db = (.ok _,db) := aloneSql rfl
  exact (aloneOk read).trans (aloneAllMembers _)

end Lookups

/- A row that no lookup from `t` on returns. -/
def Dead (t : Int) (ttl : Ttl) (cachedAt : Int) : Prop := live t ttl cachedAt = false

theorem deadLater {t t' : Int} {ttl : Ttl} {cachedAt : Int} (dead : Dead t ttl cachedAt) (later : t ≤ t') :
    Dead t' ttl cachedAt := by
  unfold Dead live at dead ⊢
  rw [decide_eq_false_iff_not] at dead ⊢
  omega

/- `db'` lacks some dead rows of `db`, and the members of their groups. -/
structure Thins (t : Int) (ttl : Ttl) (db db' : Db) : Prop where
  users : Thinned (fun r => Dead t ttl r.cachedAt) db.users.rows db'.users.rows
  groups : Thinned (fun r => Dead t ttl r.cachedAt) db.groups.rows db'.groups.rows
  members : db'.members = cascade db'.groups.rows db.members

section Simulation
variable {t : Int} {ttl : Ttl} {db db' : Db}

theorem thinsMembers (thins : Thins t ttl db db') {row : GroupRow} (inside : row ∈ db'.groups.rows) :
    listed db' row = listed db row := by
  have same : db'.members.filter (fun m => m.group == row.externalId) =
      db.members.filter (fun m => m.group == row.externalId) := by
    rw [thins.members,cascade,List.filter_filter]
    refine List.filter_congr fun m _ => ?_
    by_cases own : m.group = row.externalId
    · have parent : db'.groups.rows.any (fun g => g.externalId == m.group) = true :=
        List.any_eq_true.mpr ⟨row,inside,by simp [own]⟩
      rw [parent,Bool.and_true]
    · simp [own]
  rw [listed,listed,Db.membersOf,Db.membersOf,same]

theorem thinsFound (thins : Thins t ttl db db') {p : GroupRow → Bool}
    (living : ∀ r : GroupRow, Dead t ttl r.cachedAt → p r = false) :
    (db'.groups.rows.find? p).map (listed db') = (db.groups.rows.find? p).map (listed db) := by
  have same := thinnedFind living thins.groups
  rw [← same]
  cases found : db'.groups.rows.find? p with
  | none => rfl
  | some row => exact congrArg some (thinsMembers thins (List.mem_of_find?_eq_some found))

theorem thinsGroups (thins : Thins t ttl db db') (member : String) :
    (db'.groupsOf member fun r => live t ttl r.cachedAt) = db.groupsOf member fun r => live t ttl r.cachedAt := by
  have same (m : MemberRow) : db'.groups.rows.find? (fun g => g.externalId == m.group && live t ttl g.cachedAt) =
      db.groups.rows.find? (fun g => g.externalId == m.group && live t ttl g.cachedAt) := by
    refine thinnedFind (fun g gone => ?_) thins.groups
    rw [gone,Bool.and_false]
  rw [Db.groupsOf,Db.groupsOf,thins.members,cascade,List.filter_filter,List.filterMap_filter,List.filterMap_filter]
  refine List.filterMap_congr fun m _ => ?_
  rw [← same m]
  cases parent : db'.groups.rows.any (fun g => g.externalId == m.group) with
  | true => rw [Bool.and_true]
  | false =>
    have none' : db'.groups.rows.find? (fun g => g.externalId == m.group && live t ttl g.cachedAt) = none := by
      refine List.find?_eq_none.mpr fun g inside hit => ?_
      exact List.any_eq_false.mp parent g inside (Bool.and_eq_true_iff.mp hit).1
    rw [Bool.and_false,none',ite_self,ite_self]

structure SameLookups (t : Int) (ttl : Ttl) (db db' : Db) : Prop where
  byUid : ∀ uid, (alone t offline (getUserByUid ttl uid) db').1 = (alone t offline (getUserByUid ttl uid) db).1
  byLogin : ∀ name, (alone t offline (getUserByName ttl name) db').1 = (alone t offline (getUserByName ttl name) db).1
  byGid : ∀ gid, (alone t offline (getGroupByGid ttl gid) db').1 = (alone t offline (getGroupByGid ttl gid) db).1
  byName : ∀ name, (alone t offline (getGroupByName ttl name) db').1 = (alone t offline (getGroupByName ttl name) db).1
  forMember : ∀ member, (alone t offline (getGroupsForMember ttl member) db').1 =
    (alone t offline (getGroupsForMember ttl member) db).1

theorem thinsLookups (thins : Thins t ttl db db') : SameLookups t ttl db db' := by
  have dead {γ : Type} (column : γ → Int) (hit : γ → Bool) (r : γ) (gone : Dead t ttl (column r)) :
      (hit r && live t ttl (column r)) = false := by rw [gone,Bool.and_false]
  have user (hit : UserRow → Bool) : db'.users.rows.find? (fun r => hit r && live t ttl r.cachedAt) =
      db.users.rows.find? (fun r => hit r && live t ttl r.cachedAt) :=
    thinnedFind (dead UserRow.cachedAt hit) thins.users
  have group (hit : GroupRow → Bool) := thinsFound thins (dead GroupRow.cachedAt hit)
  refine ⟨fun uid => ?_,fun name => ?_,fun gid => ?_,fun name => ?_,fun member => ?_⟩
  · have read (db : Db) : alone t offline (getUserByUid ttl uid) db = (.ok _,db) := aloneSql rfl
    rw [read,read,user]
  · have read (db : Db) : alone t offline (getUserByName ttl name) db = (.ok _,db) := aloneSql rfl
    rw [read,read,user]
  · rw [aloneGroupByGid,aloneGroupByGid,group]
  · rw [aloneGroupByName,aloneGroupByName,group]
  · rw [aloneGroupsForMember,aloneGroupsForMember,← thinsGroups thins member]
    refine congrArg Except.ok (List.map_congr_left fun r inside => ?_)
    exact thinsMembers thins (memGroupsOf.mp inside).1

end Simulation

theorem withinLast {q : Sqlite} {n : Nat} {st : Stmt} {db : Db} {r db'} (sound : q.fails n = false)
    (ok : exec (q.clock n) db st = .ok (r,db')) : (within q n (sql st) db).2 = db' := by
  change (execute (q.clock n) (q.fails n) db st).2 = db'
  simp only [execute,sound,ok]
  rfl

theorem purgeCascade (db : Db) (ttl : Ttl) {t1 t2 : Int} (later : t1 ≤ t2) :
    cascade (UniqueTable.delete db.groups (fun g => !live t2 ttl g.cachedAt)).rows (db.members.filter fun m =>
      !db.groups.rows.any fun g => g.externalId == m.group && !live t1 ttl g.cachedAt) =
    cascade (UniqueTable.delete db.groups (fun g => !live t2 ttl g.cachedAt)).rows db.members := by
  rw [cascade,cascade,List.filter_filter]
  refine List.filter_congr fun m _ => ?_
  cases kept : (UniqueTable.delete db.groups (fun g => !live t2 ttl g.cachedAt)).rows.any (fun g => g.externalId == m.group) with
  | false => rfl
  | true =>
    obtain ⟨g,inside,own⟩ := List.any_eq_true.mp kept
    obtain ⟨here,lives⟩ := UniqueTable.memDelete.mp inside
    have none' : (db.groups.rows.any fun g => g.externalId == m.group && !live t1 ttl g.cachedAt) = false := by
      refine List.any_eq_false.mpr fun g' here' expired => ?_
      simp only [Bool.and_eq_true,beq_iff_eq,Bool.not_eq_true'] at expired own
      have same : g' = g := UniqueTable.sameKey db.groups here' here (expired.1.trans own.symm)
      rw [same] at expired
      rw [deadLater expired.2 later] at lives
      cases lives
    rw [none']
    rfl

theorem purgeThins {q : Sqlite} {ttl : Ttl} {db : Db} (sound : ∀ i < 3, q.fails i = false)
    (first : q.clock 0 ≤ q.clock 1) (second : q.clock 1 ≤ q.clock 2) :
    Thins (q.clock 2) ttl db (within q 0 (purgeExpired ttl) db).2 := by
  have members : exec (q.clock 0) db (.purgeMembers ttl) = .ok ((),_) := rfl
  have groups (db : Db) : exec (q.clock 1) db (.purgeGroups ttl) = .ok ((),_) := rfl
  have users (db : Db) : exec (q.clock 2) db (.purgeUsers ttl) = .ok ((),_) := rfl
  rw [purgeExpired,withinRuns (sound 0 (by decide)) members,withinRuns (sound 1 (by decide)) (groups _),
    withinLast (sound 2 (by decide)) (users _)]
  refine ⟨thinnedDelete fun r gone => ?_,thinnedDelete fun r gone => ?_,purgeCascade db ttl first⟩
  · simpa [Dead] using gone
  · exact deadLater (by simpa [Dead] using gone) second

inductive Store where
  | user (u : User)
  | group (g : Group)

def Store.call : Store → Act CacheError Unit
  | .user u => storeUser u
  | .group g => storeGroup g

/- Calls in a row, each under its own clock and with its own failures of SQLite. -/
def stored (db : Db) (stores : List (Sqlite × Store)) : Db :=
  stores.foldl (fun db store => (within store.1 0 store.2.call db).2) db

section Stores
variable {t : Int} {ttl : Ttl} {db db' : Db}

theorem thinsUser (thins : Thins t ttl db db') (u : User) (now : Int) :
    Thins t ttl (db.insertOrReplaceUser u now) (db'.insertOrReplaceUser u now) :=
  ⟨thinnedAppend (thinnedFilter _ thins.users) _,thins.groups,thins.members⟩

/- The replaced group loses its members in both, so none comes back with the new row. -/
theorem thinsReplaced (thins : Thins t ttl db db') (g : Group) (now : Int) (names : List String) :
    (db'.insertOrReplaceGroup g now).members ++ names.map (MemberRow.mk g.externalId) =
      cascade (UniqueTable.insertOrReplace db'.groups (groupRow g now)).rows
        ((db.insertOrReplaceGroup g now).members ++ names.map (MemberRow.mk g.externalId)) := by
  have new : (names.map (MemberRow.mk g.externalId)).filter
      (fun m => (UniqueTable.insertOrReplace db'.groups (groupRow g now)).rows.any fun r => r.externalId == m.group) =
        names.map (MemberRow.mk g.externalId) := by
    refine List.filter_eq_self.mpr fun m inside => ?_
    obtain ⟨name,-,rfl⟩ := List.mem_map.mp inside
    exact List.any_eq_true.mpr ⟨groupRow g now,UniqueTable.memInsertOrReplace.mpr (.inl rfl),by simp [groupRow]⟩
  have thinned : Thinned (fun r => Dead t ttl r.cachedAt)
      (UniqueTable.clear GroupRow.externalId GroupRow.gid db.groups.rows (groupRow g now))
      (UniqueTable.clear GroupRow.externalId GroupRow.gid db'.groups.rows (groupRow g now)) :=
    thinnedFilter _ thins.groups
  rw [cascade,List.filter_append,new]
  congr 1
  change cascade _ db'.members = (cascade _ db.members).filter _
  rw [thins.members,cascade,cascade,cascade,List.filter_filter,List.filter_filter]
  refine List.filter_congr fun m _ => ?_
  rw [Bool.eq_iff_iff]
  simp only [Bool.and_eq_true,List.any_eq_true,beq_iff_eq]
  constructor
  · rintro ⟨⟨r,kept,own⟩,-⟩
    exact ⟨⟨r,List.mem_append_left _ kept,own⟩,r,thinnedMem thinned kept,own⟩
  · rintro ⟨⟨r,there,own⟩,x,cleared,same⟩
    rcases List.mem_append.mp there with kept | last
    · exact ⟨⟨r,kept,own⟩,r,(UniqueTable.memClear.mp kept).1,own⟩
    · -- the new row is the group's own, and no other row of that id was left
      rw [List.mem_singleton.mp last] at own
      exact absurd (same.trans own.symm) (UniqueTable.memClear.mp cleared).2.1

theorem thinsStore (thins : Thins t ttl db db') (q : Sqlite) (store : Store) :
    Thins t ttl (within q 0 store.call db).2 (within q 0 store.call db').2 := by
  cases store with
  | user u =>
    cases fault : q.fails 0 with
    | true =>
      have refused (db : Db) : (within q 0 (storeUser u) db).2 = db := by
        change (execute (q.clock 0) (q.fails 0) db (.insertOrReplaceUser u)).2 = db
        simp [execute,fault]
      rw [Store.call,refused,refused]
      exact thins
    | false =>
      have replaced (db : Db) : exec (q.clock 0) db (.insertOrReplaceUser u) = .ok ((),db.insertOrReplaceUser u (q.clock 0)) := rfl
      rw [Store.call,storeUser,withinLast fault (replaced db),withinLast fault (replaced db')]
      exact thinsUser thins u (q.clock 0)
  | group g =>
    cases fault : q.fails 0 with
    | true =>
      rw [Store.call,storeGroupRefused fault,storeGroupRefused fault]
      exact thins
    | false =>
      obtain ⟨users,groups,members,-⟩ : (within q 0 (storeGroup g) db).2.users = _ ∧ _ := storeGroupLeaves fault
      obtain ⟨users',groups',members',-⟩ : (within q 0 (storeGroup g) db').2.users = _ ∧ _ := storeGroupLeaves fault
      rw [Store.call]
      refine ⟨?_,?_,?_⟩
      · rw [users,users']
        exact thins.users
      · rw [groups,groups']
        exact thinnedAppend (thinnedFilter _ thins.groups) _
      · rw [members,members',groups']
        exact thinsReplaced thins g (q.clock 0) (leaves q g)

theorem thinsStored (thins : Thins t ttl db db') (stores : List (Sqlite × Store)) :
    Thins t ttl (stored db stores) (stored db' stores) := by
  induction stores generalizing db db' with
  | nil => exact thins
  | cons store stores ih => exact ih (thinsStore thins store.1 store.2)

theorem thinsLater (thins : Thins t ttl db db') {t' : Int} (later : t ≤ t') : Thins t' ttl db db' :=
  ⟨thinnedMono (fun _ gone => deadLater gone later) thins.users,
    thinnedMono (fun _ gone => deadLater gone later) thins.groups,thins.members⟩

end Stores

/- The three statements of the purge run at `q.clock 0`, `q.clock 1` and `q.clock 2`. -/
theorem purgeInvisible {q : Sqlite} {ttl : Ttl} {db : Db} {t : Int} (sound : ∀ i < 3, q.fails i = false)
    (first : q.clock 0 ≤ q.clock 1) (second : q.clock 1 ≤ q.clock 2) (later : q.clock 2 ≤ t)
    (stores : List (Sqlite × Store)) :
    SameLookups t ttl (stored db stores) (stored (within q 0 (purgeExpired ttl) db).2 stores) :=
  thinsLookups (thinsLater (thinsStored (purgeThins sound first second) stores) later)

def sqliteAt (t : Int) : Sqlite := ⟨fun _ => t,fun _ => false⟩

def staffThen : Group := ⟨"g1","staff",1000,["bob"]⟩

def staffNow : Group := ⟨"g1","staff",1000,["alice"]⟩

theorem purgeInvisibleStaff : SameLookups 10001 Stability.fourSlots.cache.ttlSeconds
    (stored (stored empty [(sqliteAt 0,.group staffThen)]) [(sqliteAt 10000,.group staffNow)])
    (stored (within (sqliteAt 9000) 0 (purgeExpired Stability.fourSlots.cache.ttlSeconds)
      (stored empty [(sqliteAt 0,.group staffThen)])).2 [(sqliteAt 10000,.group staffNow)]) :=
  purgeInvisible (fun _ _ => rfl) (Int.le_refl _) (Int.le_refl _) (by decide) _

end SssdOidc.Purging
