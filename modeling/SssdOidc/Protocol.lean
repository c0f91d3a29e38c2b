import SssdOidc.System

/-! The order in which the operations make their calls. Everything here is about the
program text: it holds whatever the calls are answered and whoever moves in between. -/
namespace SssdOidc.Protocol
open Model Database Mapping Program Cache Service
open Probing (Reaches)

def writes : Call → Bool
  | .scim _ => false
  | .sql st => st.writes

/- The calls since the last write of this operation. -/
def recent (tr : Trace calls) : Trace calls := tr.takeWhile (fun e => !writes e.call)

theorem recentRead {e : Event calls} {tr} (quiet : writes e.call = false) :
    recent (e :: tr) = e :: recent tr := by simp [recent,quiet]

theorem recentWrite {e : Event calls} {tr} (loud : writes e.call = true) : recent (e :: tr) = [] := by
  simp [recent,loud]

theorem recentMember {e : Event calls} {tr} (inside : e ∈ recent tr) : e ∈ tr :=
  (List.takeWhile_sublist _).subset inside

/- What `store_group` still has to do. -/
def todo : Trace calls → List Stmt
  | ⟨_,.sql (.insertOrReplaceGroup g),.ok _⟩ :: _ =>
      .deleteMembers g.externalId :: g.members.map (.insertMember g.externalId)
  | ⟨_,.sql (.deleteMembers _),.ok _⟩ :: tr => (todo tr).tail
  | ⟨_,.sql (.insertMember _ _),.ok _⟩ :: tr => (todo tr).tail
  | _ => []

def receivedUsers : Trace calls → List ScimUser
  | ⟨_,.scim (.userByName _),.ok (some su)⟩ :: tr => su :: receivedUsers tr
  | ⟨_,.scim .listUsers,.ok us⟩ :: tr => us ++ receivedUsers tr
  | _ :: tr => receivedUsers tr
  | [] => []

def receivedGroups : Trace calls → List ScimGroup
  | ⟨_,.scim (.groupByName _),.ok (some sg)⟩ :: tr => sg :: receivedGroups tr
  | ⟨_,.scim .listGroups,.ok gs⟩ :: tr => gs ++ receivedGroups tr
  | _ :: tr => receivedGroups tr
  | [] => []

@[simp] theorem receivedUsersSql {t st r tr} :
    receivedUsers ((⟨t,.sql st,r⟩ : Event calls) :: tr) = receivedUsers tr := by
  simp [receivedUsers]

@[simp] theorem receivedGroupsSql {t st r tr} :
    receivedGroups ((⟨t,.sql st,r⟩ : Event calls) :: tr) = receivedGroups tr := by
  simp [receivedGroups]

section Reserving
variable (b : Build) (config : Config)

def rangeMin : Column → UInt32
  | .uid => config.mapping.uidRangeMin
  | .gid => config.mapping.gidRangeMin

def rangeSize : Column → UInt32
  | .uid => config.mapping.uidRangeSize
  | .gid => config.mapping.gidRangeSize

def slots (c : Column) (externalId : String) : List UInt32 :=
  path b (rangeMin config c) (rangeSize config c) externalId

def resolveColumn : Column → String → Act CacheError UInt32
  | .uid, externalId => resolveUid b externalId config.mapping.uidRangeMin config.mapping.uidRangeSize
  | .gid, externalId => resolveGid b externalId config.mapping.gidRangeMin config.mapping.gidRangeSize

def Passed (c : Column) (externalId : String) (tr : Trace calls) (x : UInt32) : Prop :=
  ∃ t, (⟨t,.sql (.selectOwner c x externalId),.ok (some false)⟩ : Event calls) ∈ recent tr

def Claimed (c : Column) (externalId : String) (tr : Trace calls) (x : UInt32) : Prop :=
  ∃ t r, r ≠ some false ∧ (⟨t,.sql (.selectOwner c x externalId),.ok r⟩ : Event calls) ∈ recent tr

/- `x` is what `resolve_id` came back with after the last write. -/
structure Reserved (c : Column) (externalId : String) (tr : Trace calls) (x : UInt32) : Prop where
  walk : Reaches (Passed c externalId tr) (slots b config c externalId) x
  claimed : Claimed c externalId tr x

def Exhausted (c : Column) (externalId : String) (tr : Trace calls) : Prop :=
  slots b config c externalId ≠ [] ∧ ∀ x ∈ slots b config c externalId, Passed c externalId tr x

def Failed (tr : Trace calls) : Prop := ∃ t st e, (⟨t,.sql st,.error e⟩ : Event calls) ∈ tr

end Reserving

def query : Op → Option ScimQuery
  | .lookupUserByName n => some (.userByName n)
  | .lookupGroupByName n => some (.groupByName n)
  | .listAllUsers => some .listUsers
  | .listAllGroups => some .listGroups
  | .checkUserActive n => some (.userByName n)
  | .lookupGroupsForUser n => some (.userByName n)
  | .setpwent => some .listUsers
  | .setgrent => some .listGroups
  | _ => none

def purged (config : Config) : Op → Option Ttl
  | .new => some config.cache.ttlSeconds
  | .purgeExpired ttl => some ttl
  | _ => none

def Allowed (b : Build) (config : Config) (op : Op) (tr : Trace calls) : Call → Prop
  | .scim q => query op = some q ∧ tr = []
  | .sql st =>
      match st with
      | .selectOwner c x externalId =>
          todo tr = [] ∧ Reaches (Passed c externalId tr) (slots b config c externalId) x
      | .insertOrReplaceUser u =>
          todo tr = [] ∧ ∃ su ∈ receivedUsers tr, u = userModel config su u.uid u.gid ∧
            Reserved b config .uid su.id tr u.uid ∧ Reserved b config .gid (gidExternal su) tr u.gid
      | .insertOrReplaceGroup g =>
          todo tr = [] ∧ ∃ sg ∈ receivedGroups tr, g = groupModel sg g.gid ∧
            Reserved b config .gid sg.id tr g.gid
      | .deleteMembers externalId => (todo tr).head? = some (.deleteMembers externalId)
      | .insertMember externalId member => (todo tr).head? = some (.insertMember externalId member)
      | .purgeMembers ttl => todo tr = [] ∧ purged config op = some ttl
      | .purgeGroups ttl => todo tr = [] ∧ purged config op = some ttl
      | .purgeUsers ttl => todo tr = [] ∧ purged config op = some ttl
      | .selectUserByUid _ ttl => todo tr = [] ∧ ttl = config.cache.ttlSeconds
      | .selectUserByLogin _ ttl => todo tr = [] ∧ ttl = config.cache.ttlSeconds
      | .selectGroupByGid _ ttl => todo tr = [] ∧ ttl = config.cache.ttlSeconds
      | .selectGroupByName _ ttl => todo tr = [] ∧ ttl = config.cache.ttlSeconds
      | .selectGroupsByMember _ ttl => todo tr = [] ∧ ttl = config.cache.ttlSeconds
      | .selectMembers _ => todo tr = []

end SssdOidc.Protocol
