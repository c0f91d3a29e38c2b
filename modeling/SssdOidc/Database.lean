import Mathlib.Data.List.Sort
import Mathlib.Data.String.Basic
import SssdOidc.Model
import SssdOidc.UniqueTable

/-! The SQLite database of src/cache.rs: its three tables with the constraints of the
schema as fields, and the statements the cache issues, each of them atomic. Rows are kept in
rowid order. The members of a group are answered by the primary key, in the order of their
names; the groups of a member by the index on `member_name`, in the order of the member
rows. Foreign keys are enforced, as in the bundled build. -/
namespace SssdOidc.Database
open Model
open Probing (Owners assign)
open UniqueTable (Table)

structure UserRow where
  externalId : String
  login : String
  uid : UInt32
  gecos : String
  home : String
  shell : String
  gid : UInt32
  active : Bool
  cachedAt : Int
  deriving DecidableEq, Repr

structure GroupRow where
  externalId : String
  name : String
  gid : UInt32
  cachedAt : Int
  deriving DecidableEq, Repr

structure MemberRow where
  group : String
  name : String
  deriving DecidableEq, Repr

def UserRow.user (r : UserRow) : User :=
  ⟨r.externalId,r.login,r.uid,r.gid,r.gecos,r.home,r.shell,r.active⟩

def userRow (u : User) (now : Int) : UserRow :=
  ⟨u.externalId,u.name,u.uid,u.gecos,u.home,u.shell,u.gid,u.active,now⟩

def GroupRow.group (r : GroupRow) : Group := ⟨r.externalId,r.name,r.gid,[]⟩

def groupRow (g : Group) (now : Int) : GroupRow := ⟨g.externalId,g.name,g.gid,now⟩

structure Db where
  users : Table UserRow String UInt32 UserRow.externalId UserRow.uid
  groups : Table GroupRow String UInt32 GroupRow.externalId GroupRow.gid
  members : List MemberRow
  memberKeys : members.Nodup
  parents : ∀ m ∈ members, ∃ g ∈ groups.rows, g.externalId = m.group

def empty : Db := ⟨UniqueTable.empty,UniqueTable.empty,[],List.nodup_nil,by simp⟩

inductive Column where
  | uid
  | gid
  deriving DecidableEq, Repr

def Db.owners (db : Db) : Column → Owners String UInt32
  | .uid => UniqueTable.owner db.users
  | .gid => UniqueTable.owner db.groups

def Db.entries (db : Db) : Column → List (String × UInt32)
  | .uid => db.users.rows.map (fun r => (r.externalId,r.uid))
  | .gid => db.groups.rows.map (fun r => (r.externalId,r.gid))

theorem ownersEntries {db : Db} {c k x} : db.owners c x = some k ↔ (k,x) ∈ db.entries c := by
  cases c with
  | uid =>
    refine UniqueTable.ownerSome.trans ?_
    simp only [Db.entries,List.mem_map,Prod.mk.injEq,and_comm]
  | gid =>
    refine UniqueTable.ownerSome.trans ?_
    simp only [Db.entries,List.mem_map,Prod.mk.injEq,and_comm]

theorem ownersEmpty (c : Column) : empty.owners c = fun _ => none := by cases c <;> rfl

theorem entriesKeys (db : Db) (c : Column) : ((db.entries c).map Prod.fst).Nodup := by
  cases c with
  | uid => simpa [Db.entries,Function.comp_def] using db.users.keys
  | gid => simpa [Db.entries,Function.comp_def] using db.groups.keys

theorem entriesSlots (db : Db) (c : Column) : ((db.entries c).map Prod.snd).Nodup := by
  cases c with
  | uid => simpa [Db.entries,Function.comp_def] using db.users.slots
  | gid => simpa [Db.entries,Function.comp_def] using db.groups.slots

/- `cached_at > strftime('%s', 'now') - ttl`; a purge deletes on the negation. -/
def live (now : Int) (ttl : Ttl) (cachedAt : Int) : Bool := decide (now - ttl.seconds < cachedAt)

/- ON DELETE CASCADE: a member row goes with its group row. -/
def cascade (kept : List GroupRow) (members : List MemberRow) : List MemberRow :=
  members.filter (fun m => kept.any (fun g => g.externalId == m.group))

theorem memCascade {kept members m} :
    m ∈ cascade kept members ↔ m ∈ members ∧ ∃ g ∈ kept, g.externalId = m.group := by
  simp [cascade]

def Db.insertOrReplaceUser (db : Db) (u : User) (now : Int) : Db :=
  ⟨UniqueTable.insertOrReplace db.users (userRow u now),db.groups,db.members,db.memberKeys,db.parents⟩

def Db.insertOrReplaceGroup (db : Db) (g : Group) (now : Int) : Db where
  users := db.users
  groups := UniqueTable.insertOrReplace db.groups (groupRow g now)
  members := cascade (UniqueTable.clear GroupRow.externalId GroupRow.gid db.groups.rows (groupRow g now)) db.members
  memberKeys := db.memberKeys.filter _
  parents := by
    intro m inside
    obtain ⟨-,row,kept,same⟩ := memCascade.mp inside
    exact ⟨row,List.mem_append_left _ kept,same⟩

def Db.deleteMembers (db : Db) (gone : MemberRow → Bool) : Db where
  users := db.users
  groups := db.groups
  members := db.members.filter (fun m => !gone m)
  memberKeys := db.memberKeys.filter _
  parents := fun m inside => db.parents m (List.mem_of_mem_filter inside)

def Db.deleteGroups (db : Db) (gone : GroupRow → Bool) : Db where
  users := db.users
  groups := UniqueTable.delete db.groups gone
  members := cascade (UniqueTable.delete db.groups gone).rows db.members
  memberKeys := db.memberKeys.filter _
  parents := fun _ inside => (memCascade.mp inside).2

def Db.deleteUsers (db : Db) (gone : UserRow → Bool) : Db :=
  ⟨UniqueTable.delete db.users gone,db.groups,db.members,db.memberKeys,db.parents⟩

def Db.MayInsertMember (db : Db) (m : MemberRow) : Prop :=
  m ∉ db.members ∧ ∃ g ∈ db.groups.rows, g.externalId = m.group
instance (db : Db) (m : MemberRow) : Decidable (db.MayInsertMember m) := by
  unfold Db.MayInsertMember; infer_instance

def Db.insertMember (db : Db) (m : MemberRow) (may : db.MayInsertMember m) : Db where
  users := db.users
  groups := db.groups
  members := db.members ++ [m]
  memberKeys := List.nodup_append.mpr
    ⟨db.memberKeys,by simp,fun _ old _ new same => may.1 (List.mem_singleton.mp new ▸ same ▸ old)⟩
  parents := by
    intro x inside
    rcases List.mem_append.mp inside with old | new
    · exact db.parents x old
    · exact List.mem_singleton.mp new ▸ may.2

/- The primary key of group_members has the names of a group in the order of their bytes,
which is that of their code points. -/
def Db.membersOf (db : Db) (externalId : String) : List String :=
  ((db.members.filter (fun m => m.group == externalId)).map MemberRow.name).insertionSort (· ≤ ·)

/- The join runs over the member rows that the index on the names finds, each with its group. -/
def Db.groupsOf (db : Db) (member : String) (shown : GroupRow → Bool) : List GroupRow :=
  (db.members.filter (fun m => m.name == member)).filterMap fun m =>
    db.groups.rows.find? (fun g => g.externalId == m.group && shown g)

theorem memMembersOf {db : Db} {externalId n} : n ∈ db.membersOf externalId ↔ ⟨externalId,n⟩ ∈ db.members := by
  rw [Db.membersOf,List.mem_insertionSort,List.mem_map]
  constructor
  · rintro ⟨m,inside,rfl⟩
    obtain ⟨there,own⟩ := List.mem_filter.mp inside
    rw [← beq_iff_eq.mp own]
    exact there
  · exact fun there => ⟨⟨externalId,n⟩,List.mem_filter.mpr ⟨there,beq_self_eq_true _⟩,rfl⟩

theorem memGroupsOf {db : Db} {member shown g} : g ∈ db.groupsOf member shown ↔
    g ∈ db.groups.rows ∧ ⟨g.externalId,member⟩ ∈ db.members ∧ shown g = true := by
  rw [Db.groupsOf,List.mem_filterMap]
  constructor
  · rintro ⟨m,inside,found⟩
    obtain ⟨there,named⟩ := List.mem_filter.mp inside
    have hit := List.find?_some found
    obtain ⟨own,shows⟩ := Bool.and_eq_true_iff.mp hit
    rw [← beq_iff_eq.mp named,beq_iff_eq.mp own]
    exact ⟨List.mem_of_find?_eq_some found,there,shows⟩
  · rintro ⟨here,listed,shows⟩
    refine ⟨⟨g.externalId,member⟩,List.mem_filter.mpr ⟨listed,beq_self_eq_true _⟩,?_⟩
    cases found : db.groups.rows.find? (fun r => r.externalId == g.externalId && shown r) with
    | none => exact absurd (List.find?_eq_none.mp found g here) (by simp [shows])
    | some r =>
      have hit := List.find?_some found
      obtain ⟨own,-⟩ := Bool.and_eq_true_iff.mp hit
      rw [UniqueTable.sameKey db.groups (List.mem_of_find?_eq_some found) here (beq_iff_eq.mp own)]

inductive SqlError where
  | constraint
  | failure
  deriving DecidableEq, Repr

inductive Stmt where
  | selectOwner (column : Column) (id : UInt32) (externalId : String)
  | insertOrReplaceUser (u : User)
  | selectUserByUid (uid : UInt32) (ttl : Ttl)
  | selectUserByLogin (name : String) (ttl : Ttl)
  | insertOrReplaceGroup (g : Group)
  | deleteMembers (externalId : String)
  | insertMember (externalId member : String)
  | selectGroupByGid (gid : UInt32) (ttl : Ttl)
  | selectGroupByName (name : String) (ttl : Ttl)
  | selectGroupsByMember (member : String) (ttl : Ttl)
  | selectMembers (externalId : String)
  | purgeMembers (ttl : Ttl)
  | purgeGroups (ttl : Ttl)
  | purgeUsers (ttl : Ttl)
  deriving DecidableEq, Repr

/- What the cache takes from the answer: of the rows of a SELECT the first, or all. -/
abbrev Stmt.Resp : Stmt → Type
  | .selectOwner _ _ _ => Option Bool
  | .selectUserByUid _ _ => Option User
  | .selectUserByLogin _ _ => Option User
  | .selectGroupByGid _ _ => Option Group
  | .selectGroupByName _ _ => Option Group
  | .selectGroupsByMember _ _ => List Group
  | .selectMembers _ => List String
  | _ => Unit

def exec (now : Int) (db : Db) : (s : Stmt) → Except SqlError (s.Resp × Db)
  | .selectOwner column id externalId => .ok ((db.owners column id).map (fun owner => owner == externalId),db)
  | .insertOrReplaceUser u => .ok ((),db.insertOrReplaceUser u now)
  | .selectUserByUid uid ttl =>
      .ok ((db.users.rows.find? (fun r => r.uid == uid && live now ttl r.cachedAt)).map UserRow.user,db)
  | .selectUserByLogin name ttl =>
      .ok ((db.users.rows.find? (fun r => r.login == name && live now ttl r.cachedAt)).map UserRow.user,db)
  | .insertOrReplaceGroup g => .ok ((),db.insertOrReplaceGroup g now)
  | .deleteMembers externalId => .ok ((),db.deleteMembers (fun m => m.group == externalId))
  | .insertMember externalId member =>
      if may : db.MayInsertMember ⟨externalId,member⟩ then .ok ((),db.insertMember ⟨externalId,member⟩ may)
      else .error .constraint
  | .selectGroupByGid gid ttl =>
      .ok ((db.groups.rows.find? (fun r => r.gid == gid && live now ttl r.cachedAt)).map GroupRow.group,db)
  | .selectGroupByName name ttl =>
      .ok ((db.groups.rows.find? (fun r => r.name == name && live now ttl r.cachedAt)).map GroupRow.group,db)
  | .selectGroupsByMember member ttl =>
      .ok ((db.groupsOf member (fun r => live now ttl r.cachedAt)).map GroupRow.group,db)
  | .selectMembers externalId => .ok (db.membersOf externalId,db)
  | .purgeMembers ttl =>
      .ok ((),db.deleteMembers (fun m => db.groups.rows.any (fun g =>
        g.externalId == m.group && !live now ttl g.cachedAt)))
  | .purgeGroups ttl => .ok ((),db.deleteGroups (fun g => !live now ttl g.cachedAt))
  | .purgeUsers ttl => .ok ((),db.deleteUsers (fun u => !live now ttl u.cachedAt))

def Stmt.writesUsers : Stmt → Bool
  | .insertOrReplaceUser _ => true
  | .purgeUsers _ => true
  | _ => false

def Stmt.writesGroups : Stmt → Bool
  | .insertOrReplaceGroup _ => true
  | .purgeGroups _ => true
  | _ => false

def Stmt.writesMembers : Stmt → Bool
  | .insertOrReplaceGroup _ => true
  | .deleteMembers _ => true
  | .insertMember _ _ => true
  | .purgeMembers _ => true
  | .purgeGroups _ => true
  | _ => false

def Stmt.writes (s : Stmt) : Bool := s.writesUsers || s.writesGroups || s.writesMembers

theorem execRead {now db db'} {s : Stmt} {r : s.Resp} (quiet : s.writes = false)
    (ok : exec now db s = .ok (r,db')) : db' = db := by
  cases s <;> simp_all [exec,Stmt.writes,Stmt.writesUsers,Stmt.writesGroups,Stmt.writesMembers]

theorem execUsers {now db db'} {s : Stmt} {r : s.Resp} (quiet : s.writesUsers = false)
    (ok : exec now db s = .ok (r,db')) : db'.users = db.users := by
  cases s <;> simp only [exec,Except.ok.injEq,Prod.mk.injEq] at ok
  case insertOrReplaceUser => cases quiet
  case purgeUsers => cases quiet
  case insertMember =>
    split at ok
    · cases ok; rfl
    · cases ok
  all_goals (obtain ⟨-,rfl⟩ := ok; rfl)

theorem execGroups {now db db'} {s : Stmt} {r : s.Resp} (quiet : s.writesGroups = false)
    (ok : exec now db s = .ok (r,db')) : db'.groups = db.groups := by
  cases s <;> simp only [exec,Except.ok.injEq,Prod.mk.injEq] at ok
  case insertOrReplaceGroup => cases quiet
  case purgeGroups => cases quiet
  case insertMember =>
    split at ok
    · cases ok; rfl
    · cases ok
  all_goals (obtain ⟨-,rfl⟩ := ok; rfl)

theorem execMembers {now db db'} {s : Stmt} {r : s.Resp} (quiet : s.writesMembers = false)
    (ok : exec now db s = .ok (r,db')) : db'.members = db.members := by
  cases s <;> simp only [exec,Except.ok.injEq,Prod.mk.injEq] at ok
  case insertOrReplaceGroup => cases quiet
  case deleteMembers => cases quiet
  case insertMember => cases quiet
  case purgeMembers => cases quiet
  case purgeGroups => cases quiet
  all_goals (obtain ⟨-,rfl⟩ := ok; rfl)

def Stmt.stores : Stmt → Column → Option (String × UInt32)
  | .insertOrReplaceUser u, .uid => some (u.externalId,u.uid)
  | .insertOrReplaceGroup g, .gid => some (g.externalId,g.gid)
  | _, _ => none

def Stmt.purges : Stmt → Column → Bool
  | .purgeUsers _, .uid => true
  | .purgeGroups _, .gid => true
  | _, _ => false

theorem execStores {now db db'} {s : Stmt} {r : s.Resp} {c k x} (stores : s.stores c = some (k,x))
    (ok : exec now db s = .ok (r,db')) : db'.owners c = assign (db.owners c) k x := by
  cases s <;> cases c <;> cases stores
  case insertOrReplaceUser.uid u =>
    cases ok
    exact UniqueTable.ownerInsertOrReplace db.users (userRow u now)
  case insertOrReplaceGroup.gid g =>
    cases ok
    exact UniqueTable.ownerInsertOrReplace db.groups (groupRow g now)

theorem execPurges {now db db'} {s : Stmt} {r : s.Resp} {c} (purges : s.purges c = true)
    (ok : exec now db s = .ok (r,db')) {k x} (own : db'.owners c x = some k) : db.owners c x = some k := by
  cases s <;> cases c <;> cases purges
  case purgeUsers.uid =>
    cases ok
    exact UniqueTable.ownerDeleteOld own
  case purgeGroups.gid =>
    cases ok
    exact UniqueTable.ownerDeleteOld own

theorem execOwners {now db db'} {s : Stmt} {r : s.Resp} {c} (quiet : s.stores c = none)
    (kept : s.purges c = false) (ok : exec now db s = .ok (r,db')) : db'.owners c = db.owners c := by
  cases c with
  | uid =>
    have same : db'.users = db.users := by
      refine execUsers ?_ ok
      cases s <;> simp_all [Stmt.stores,Stmt.purges,Stmt.writesUsers]
    simp only [Db.owners,same]
  | gid =>
    have same : db'.groups = db.groups := by
      refine execGroups ?_ ok
      cases s <;> simp_all [Stmt.stores,Stmt.purges,Stmt.writesGroups]
    simp only [Db.owners,same]

theorem storesUser {s : Stmt} {k x} (stores : s.stores .uid = some (k,x)) :
    ∃ u, s = .insertOrReplaceUser u ∧ u.externalId = k ∧ u.uid = x := by
  cases s <;> cases stores
  exact ⟨_,rfl,rfl,rfl⟩

end SssdOidc.Database
