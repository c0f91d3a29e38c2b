import SssdOidc.Cache

/-! src/service.rs, and the enumeration entry points of crates/nss_oidc/src/ffi.rs that
call its conversions. -/
namespace SssdOidc.Service
open Model Database Mapping Program Cache

inductive ServiceError where
  | scim (e : ScimError)
  | cache (e : CacheError)
  | rangeExhausted
  deriving DecidableEq, Repr

def MAX_NAME_LEN : Nat := 256

def cacheHalt : Halt CacheError → Halt ServiceError
  | .error e => .error (.cache e)
  | .panic => .panic

def cacheResult {α : Type} : Except (Halt CacheError) α → Except (Halt ServiceError) α
  | .ok a => .ok a
  | .error h => .error (cacheHalt h)

def cached {α : Type} (p : Act CacheError α) : Act ServiceError α :=
  ExceptT.mk (p.run >>= fun r => pure (cacheResult r))

def ask (q : ScimQuery) : Act ServiceError (Except ScimError q.Resp) :=
  ExceptT.mk (perform (I := calls) (Call.scim q) >>= fun r => pure (.ok r))

/- An operation whose `Err` is looked at rather than passed on. A panic is not caught. -/
def caught {α : Type} : Except (Halt ServiceError) α → Except (Halt ServiceError) (Except ServiceError α)
  | .ok a => .ok (.ok a)
  | .error (.error e) => .ok (.error e)
  | .error .panic => .error .panic

def attempt {α : Type} (p : Act ServiceError α) : Act ServiceError (Except ServiceError α) :=
  ExceptT.mk (p.run >>= fun r => pure (caught r))

def expandUser (user : List Char) : List Char → List Char
  | '\x7b' :: 'u' :: 's' :: 'e' :: 'r' :: '\x7d' :: rest => user ++ expandUser user rest
  | c :: rest => c :: expandUser user rest
  | [] => []

def homeFor (config : Config) (userName : String) : String :=
  String.ofList (expandUser userName.toList config.userDefaults.homeTemplate.toList)

def gidExternal (scimUser : ScimUser) : String :=
  match scimUser.groups.head? with
  | some firstGroup => firstGroup.value
  | none => scimUser.id

def userModel (config : Config) (scimUser : ScimUser) (uid gid : UInt32) : User where
  externalId := scimUser.id
  name := scimUser.userName
  uid := uid
  gid := gid
  gecos := scimUser.displayName.getD ""
  home := homeFor config scimUser.userName
  shell := config.userDefaults.shell
  active := scimUser.active.getD true

def groupModel (scimGroup : ScimGroup) (gid : UInt32) : Group where
  externalId := scimGroup.id
  name := scimGroup.displayName
  gid := gid
  members := scimGroup.members.filterMap ScimMemberRef.display

section Operations
variable (b : Build) (config : Config)

def scimUserToModel (scimUser : ScimUser) : Act ServiceError User := do
  let mc := config.mapping
  let uid ← cached (resolveUid b scimUser.id mc.uidRangeMin mc.uidRangeSize)
  let gid ← cached (resolveGid b (gidExternal scimUser) mc.gidRangeMin mc.gidRangeSize)
  pure (userModel config scimUser uid gid)

def scimGroupToModel (scimGroup : ScimGroup) : Act ServiceError Group := do
  let mc := config.mapping
  let gid ← cached (resolveGid b scimGroup.id mc.gidRangeMin mc.gidRangeSize)
  pure (groupModel scimGroup gid)

def refreshUser (scimUser : ScimUser) : Act ServiceError User := do
  let user ← scimUserToModel b config scimUser
  cached (storeUser user)
  pure user

def refreshGroup (scimGroup : ScimGroup) : Act ServiceError Group := do
  let group ← scimGroupToModel b config scimGroup
  cached (storeGroup group)
  pure group

/- `Service::new`: a failed purge is only logged. -/
def new : Act ServiceError Unit := do
  let _ ← attempt (cached (purgeExpired config.cache.ttlSeconds))
  pure ()

def lookupUserByName (name : String) : Act ServiceError (Option User) := do
  if MAX_NAME_LEN < name.utf8ByteSize then
    pure none
  else
    match ← ask (.userByName name) with
    | .ok (some scimUser) => some <$> refreshUser b config scimUser
    | .ok none => cached (getUserByName config.cache.ttlSeconds name)
    | .error _ => cached (getUserByName config.cache.ttlSeconds name)

def lookupUserByUid (uid : UInt32) : Act ServiceError (Option User) :=
  cached (getUserByUid config.cache.ttlSeconds uid)

def lookupGroupByName (name : String) : Act ServiceError (Option Group) := do
  if MAX_NAME_LEN < name.utf8ByteSize then
    pure none
  else
    match ← ask (.groupByName name) with
    | .ok (some scimGroup) => some <$> refreshGroup b config scimGroup
    | .ok none => cached (getGroupByName config.cache.ttlSeconds name)
    | .error _ => cached (getGroupByName config.cache.ttlSeconds name)

def lookupGroupByGid (gid : UInt32) : Act ServiceError (Option Group) :=
  cached (getGroupByGid config.cache.ttlSeconds gid)

def refreshUsers : List ScimUser → Act ServiceError (List User)
  | [] => pure []
  | su :: rest => do
      let user ← refreshUser b config su
      let users ← refreshUsers rest
      pure (user :: users)

def refreshGroups : List ScimGroup → Act ServiceError (List Group)
  | [] => pure []
  | sg :: rest => do
      let group ← refreshGroup b config sg
      let groups ← refreshGroups rest
      pure (group :: groups)

def listAllUsers : Act ServiceError (List User) := do
  match ← ask .listUsers with
  | .ok scimUsers => refreshUsers b config scimUsers
  | .error e => throw (.error (.scim e))

def listAllGroups : Act ServiceError (List Group) := do
  match ← ask .listGroups with
  | .ok scimGroups => refreshGroups b config scimGroups
  | .error e => throw (.error (.scim e))

def checkUserActive (name : String) : Act ServiceError Bool := do
  if MAX_NAME_LEN < name.utf8ByteSize then
    pure false
  else
    match ← ask (.userByName name) with
    | .ok (some scimUser) => User.active <$> refreshUser b config scimUser
    | .ok none => pure false
    | .error _ =>
        match config.security.offlineAuthPolicy with
        | .cachedStatus =>
            match ← cached (getUserByName config.cache.ttlSeconds name) with
            | some user => pure user.active
            | none => pure false
        | .deny => pure false

def resolveGroups : List ScimGroupRef → Act ServiceError (List UInt32)
  | [] => pure []
  | g :: rest => do
      let gid ← cached (resolveGid b g.value config.mapping.gidRangeMin config.mapping.gidRangeSize)
      let gids ← resolveGroups rest
      pure (gid :: gids)

def lookupGroupsForUser (name : String) : Act ServiceError (List UInt32) := do
  if MAX_NAME_LEN < name.utf8ByteSize then
    pure []
  else
    match ← ask (.userByName name) with
    | .ok (some scimUser) => do
        let _ ← refreshUser b config scimUser
        resolveGroups b config scimUser.groups
    | .ok none => pure []
    | .error _ => do
        let groups ← cached (getGroupsForMember config.cache.ttlSeconds name)
        pure (groups.map Group.gid)

/- The loop of `setpwent`: a user that cannot be converted is skipped, a failed store is ignored. -/
def enumerateUsers : List ScimUser → Act ServiceError (List User)
  | [] => pure []
  | su :: rest => do
      match ← attempt (scimUserToModel b config su) with
      | .ok user =>
          let _ ← attempt (cached (storeUser user))
          let users ← enumerateUsers rest
          pure (user :: users)
      | .error _ => enumerateUsers rest

def enumerateGroups : List ScimGroup → Act ServiceError (List Group)
  | [] => pure []
  | sg :: rest => do
      match ← attempt (scimGroupToModel b config sg) with
      | .ok group =>
          let _ ← attempt (cached (storeGroup group))
          let groups ← enumerateGroups rest
          pure (group :: groups)
      | .error _ => enumerateGroups rest

/- `none` stands for NSS_STATUS_UNAVAIL. -/
def setpwent : Act ServiceError (Option (List User)) := do
  match ← ask .listUsers with
  | .ok scimUsers => some <$> enumerateUsers b config scimUsers
  | .error _ => pure none

def setgrent : Act ServiceError (Option (List Group)) := do
  match ← ask .listGroups with
  | .ok scimGroups => some <$> enumerateGroups b config scimGroups
  | .error _ => pure none

end Operations

inductive Op where
  | new
  | purgeExpired (ttl : Ttl)
  | lookupUserByName (name : String)
  | lookupUserByUid (uid : UInt32)
  | lookupGroupByName (name : String)
  | lookupGroupByGid (gid : UInt32)
  | listAllUsers
  | listAllGroups
  | checkUserActive (name : String)
  | lookupGroupsForUser (name : String)
  | setpwent
  | setgrent
  deriving DecidableEq, Repr

inductive Output where
  | done
  | unavail
  | user (u : Option User)
  | group (g : Option Group)
  | users (us : List User)
  | groups (gs : List Group)
  | active (a : Bool)
  | gids (gs : List UInt32)
  deriving DecidableEq, Repr

abbrev Outcome := Except (Halt ServiceError) Output

def listing {α : Type} (output : List α → Output) : Option (List α) → Output
  | some entries => output entries
  | none => .unavail

def operation (b : Build) (config : Config) : Op → Act ServiceError Output
  | .new => (fun _ => .done) <$> new config
  | .purgeExpired ttl => (fun _ => .done) <$> cached (purgeExpired ttl)
  | .lookupUserByName name => .user <$> lookupUserByName b config name
  | .lookupUserByUid uid => .user <$> lookupUserByUid config uid
  | .lookupGroupByName name => .group <$> lookupGroupByName b config name
  | .lookupGroupByGid gid => .group <$> lookupGroupByGid config gid
  | .listAllUsers => .users <$> listAllUsers b config
  | .listAllGroups => .groups <$> listAllGroups b config
  | .checkUserActive name => .active <$> checkUserActive b config name
  | .lookupGroupsForUser name => .gids <$> lookupGroupsForUser b config name
  | .setpwent => listing .users <$> setpwent b config
  | .setgrent => listing .groups <$> setgrent b config

end SssdOidc.Service
