import SssdOidc.Database
import SssdOidc.Mapping
import SssdOidc.Program

/-! src/cache.rs as programs over SQL statements. The calls include the SCIM requests
of the service, so that both layers share one interface; each answer is stamped with
the second in which it was given. -/
namespace SssdOidc.Cache
open Model Database Mapping Program

inductive ScimError where
  | http
  | json
  deriving DecidableEq, Repr

inductive ScimQuery where
  | userByName (name : String)
  | groupByName (name : String)
  | listUsers
  | listGroups
  deriving DecidableEq, Repr

abbrev ScimQuery.Resp : ScimQuery → Type
  | .userByName _ => Option ScimUser
  | .groupByName _ => Option ScimGroup
  | .listUsers => List ScimUser
  | .listGroups => List ScimGroup

inductive Call where
  | scim (q : ScimQuery)
  | sql (s : Stmt)
  deriving DecidableEq, Repr

abbrev Call.Resp : Call → Type
  | .scim q => Except ScimError q.Resp
  | .sql s => Except SqlError s.Resp

abbrev calls : Interface := ⟨Call,Call.Resp,Int⟩

abbrev Act (ε α : Type) := ExceptT (Halt ε) (Prog calls) α

inductive CacheError where
  | sqlite (e : SqlError)
  | rangeExhausted
  deriving DecidableEq, Repr

def sqlResult {α : Type} : Except SqlError α → Except (Halt CacheError) α
  | .ok a => .ok a
  | .error e => .error (.error (.sqlite e))

def sql (s : Stmt) : Act CacheError s.Resp :=
  ExceptT.mk (perform (I := calls) (Call.sql s) >>= fun r => pure (sqlResult r))

def uidOwner (uid : UInt32) (externalId : String) : Act CacheError (Option Bool) :=
  sql (.selectOwner .uid uid externalId)

def gidOwner (gid : UInt32) (externalId : String) : Act CacheError (Option Bool) :=
  sql (.selectOwner .gid gid externalId)

def resolveUid (b : Build) (externalId : String) (rangeMin rangeSize : UInt32) : Act CacheError UInt32 :=
  resolveId b .rangeExhausted rangeMin rangeSize (fun candidate => uidOwner candidate externalId) externalId

def resolveGid (b : Build) (externalId : String) (rangeMin rangeSize : UInt32) : Act CacheError UInt32 :=
  resolveId b .rangeExhausted rangeMin rangeSize (fun candidate => gidOwner candidate externalId) externalId

def storeUser (user : User) : Act CacheError Unit := sql (.insertOrReplaceUser user)

def getUserByUid (ttl : Ttl) (uid : UInt32) : Act CacheError (Option User) := sql (.selectUserByUid uid ttl)

def getUserByName (ttl : Ttl) (name : String) : Act CacheError (Option User) := sql (.selectUserByLogin name ttl)

def insertMembers (externalId : String) : List String → Act CacheError Unit
  | [] => pure ()
  | member :: rest => do
      sql (.insertMember externalId member)
      insertMembers externalId rest

def storeGroup (group : Group) : Act CacheError Unit := do
  sql (.insertOrReplaceGroup group)
  sql (.deleteMembers group.externalId)
  insertMembers group.externalId group.members

def getGroupMembers (externalId : String) : Act CacheError (List String) := sql (.selectMembers externalId)

def withMembers (group : Group) : Act CacheError Group := do
  let members ← getGroupMembers group.externalId
  pure { group with members := members }

def getGroupByGid (ttl : Ttl) (gid : UInt32) : Act CacheError (Option Group) := do
  match ← sql (.selectGroupByGid gid ttl) with
  | some row => some <$> withMembers row
  | none => pure none

def getGroupByName (ttl : Ttl) (name : String) : Act CacheError (Option Group) := do
  match ← sql (.selectGroupByName name ttl) with
  | some row => some <$> withMembers row
  | none => pure none

def withAllMembers : List Group → Act CacheError (List Group)
  | [] => pure []
  | row :: rest => do
      let group ← withMembers row
      let groups ← withAllMembers rest
      pure (group :: groups)

def getGroupsForMember (ttl : Ttl) (memberName : String) : Act CacheError (List Group) := do
  withAllMembers (← sql (.selectGroupsByMember memberName ttl))

def purgeExpired (ttl : Ttl) : Act CacheError Unit := do
  sql (.purgeMembers ttl)
  sql (.purgeGroups ttl)
  sql (.purgeUsers ttl)

end SssdOidc.Cache
