import SssdOidc.InitGroups
import SssdOidc.RelyGuarantee

/-! The four lookups of crates/nss_oidc/src/ffi.rs, which are the `by_*` functions of
passwd.rs and group.rs. Their caller is glibc: it comes back with a larger buffer as long as
it is told ERANGE, and each time the whole lookup is made anew. -/
namespace SssdOidc.Nss
open Model Database Mapping Program Cache Service SssdOidc.System Protocol Packing Solo RelyGuarantee
open History (executeCases)
open InitGroups (Shared)
open SssdOidc.Membership (aloneSplit aloneCachedOk aloneSqlOk aloneResolveOk alonePure)
open Probing (Fits firstFit)

section Entry
variable {α ρ : Type} (fill : α → Caller ρ → NssStatus × Caller ρ) (caller : Caller ρ)

def answered : Except ServiceError (Option α) → NssStatus × Caller ρ
  | .ok (some entry) => fill entry caller
  | .ok none => (.notFound,{ caller with errno := 0 })
  | .error _ => (.unavail,{ caller with errno := 0 })

/- What all four have in common: the state, its mutex, a lookup, and its answer. -/
def looked (shared : Shared) (lookup : Config → Act ServiceError (Option α)) : Act ServiceError (NssStatus × Caller ρ) :=
  match shared with
  | .missing => pure (.unavail,{ caller with errno := 0 })
  | .poisoned => pure (.unavail,{ caller with errno := 0 })
  | .service config => do
      let found ← attempt (lookup config)
      pure (answered fill caller found)

/- The name is the C string up to its NUL. -/
def byName (shared : Shared) (lookup : Config → String → Act ServiceError (Option α)) (name : List UInt8) :
    Act ServiceError (NssStatus × Caller ρ) :=
  match String.fromUTF8? ⟨name.toArray⟩ with
  | none => pure (.notFound,{ caller with errno := 0 })
  | some nameStr => looked fill caller shared (fun config => lookup config nameStr)

end Entry

section Entries
variable (b : Build) (shared : Shared)

def getpwnamR (name : List UInt8) (caller : Caller Passwd) : Act ServiceError (NssStatus × Caller Passwd) :=
  byName fillPasswdBuf caller shared (lookupUserByName b) name

def getpwuidR (uid : UInt32) (caller : Caller Passwd) : Act ServiceError (NssStatus × Caller Passwd) :=
  looked fillPasswdBuf caller shared (fun config => lookupUserByUid config uid)

def getgrnamR (name : List UInt8) (caller : Caller GroupEntry) : Act ServiceError (NssStatus × Caller GroupEntry) :=
  byName fillGroupBuf caller shared (lookupGroupByName b) name

def getgrgidR (gid : UInt32) (caller : Caller GroupEntry) : Act ServiceError (NssStatus × Caller GroupEntry) :=
  looked fillGroupBuf caller shared (fun config => lookupGroupByGid config gid)

end Entries

section Retry
variable {ρ : Type}

def tooSmall : Except (Halt ServiceError) (NssStatus × Caller ρ) → Bool
  | .ok (status,caller) => status == .tryAgain && caller.errno == ERANGE
  | .error _ => false

/- glibc goes on while it is told that the buffer is too small; `none` is when it gives up. -/
def retry (reply : Replies) (enter : Caller ρ → Act ServiceError (NssStatus × Caller ρ)) :
    List (Int × Caller ρ) → Db → Option (Except (Halt ServiceError) (NssStatus × Caller ρ) × Db)
  | [], _ => none
  | (t,caller) :: rest, db =>
      let called := alone t reply (enter caller) db
      if tooSmall called.1 then retry reply enter rest called.2 else some called

def once (reply : Replies) (enter : Caller ρ → Act ServiceError (NssStatus × Caller ρ)) (db : Db)
    (attempts : List (Int × Caller ρ)) :
    List (Except (Halt ServiceError) (NssStatus × Caller ρ) × Db) :=
  attempts.map fun a => alone a.1 reply (enter a.2) db

/- With one server that answers all attempts alike, and nobody else at the cache: an attempt
with a buffer that was too small has no effect on the next. -/
def Transparent (reply : Replies) (enter : Caller ρ → Act ServiceError (NssStatus × Caller ρ)) : Prop :=
  ∀ attempts db, retry reply enter attempts db = (once reply enter db attempts).find? fun called => !tooSmall called.1

end Retry

def Repeats {ε α : Type} (reply : Replies) (p : Act ε α) : Prop :=
  ∀ t db a db1, alone t reply p db = (.ok a,db1) → ∀ t', alone t' reply p db1 = alone t' reply p db

section Entry
variable {α ρ : Type} {fill : α → Caller ρ → NssStatus × Caller ρ} {caller : Caller ρ} {config : Config}
  {lookup : Config → Act ServiceError (Option α)} {t : Int} {reply : Replies} {db db1 : Db}

def lookedResult (fill : α → Caller ρ → NssStatus × Caller ρ) (caller : Caller ρ) :
    Except (Halt ServiceError) (Option α) → Except (Halt ServiceError) (NssStatus × Caller ρ)
  | .ok found => .ok (answered fill caller (.ok found))
  | .error (.error e) => .ok (answered fill caller (.error e))
  | .error .panic => .error .panic

theorem aloneLooked {r : Except (Halt ServiceError) (Option α)} (done : alone t reply (lookup config) db = (r,db1)) :
    alone t reply (looked fill caller (.service config) lookup) db = (lookedResult fill caller r,db1) := by
  have tried : run (answer t reply) (attempt (lookup config)) db = (caught r,db1) := runTried done
  rcases r with (e | -) | found
  · exact runOk tried
  · exact runError tried
  · exact runOk tried

theorem tooSmallFound {r : Except (Halt ServiceError) (Option α)}
    (short : tooSmall (lookedResult fill caller r) = true) : ∃ found, r = .ok found := by
  rcases r with (e | -) | found
  · cases short
  · cases short
  · exact ⟨found,rfl⟩

theorem lookedTransparent (repeats : Repeats reply (lookup config)) :
    Transparent reply (fun caller => looked fill caller (.service config) lookup) := by
  intro attempts
  induction attempts with
  | nil => exact fun _ => rfl
  | cons a rest ih =>
    intro db
    obtain ⟨t,caller⟩ := a
    rcases done : alone t reply (lookup config) db with ⟨r,db1⟩
    simp only [retry,once,List.map_cons,aloneLooked done,List.find?_cons]
    cases short : tooSmall (lookedResult fill caller r) with
    | false => rfl
    | true =>
      obtain ⟨found,rfl⟩ := tooSmallFound short
      -- every later call finds the database as good as before this one
      have same (a : Int × Caller ρ) : alone a.1 reply (looked fill a.2 (.service config) lookup) db1 =
          alone a.1 reply (looked fill a.2 (.service config) lookup) db := by
        have again := repeats t db found db1 done a.1
        rcases later : alone a.1 reply (lookup config) db with ⟨r,db2⟩
        rw [later] at again
        exact (aloneLooked again).trans (aloneLooked later).symm
      have onward := ih db1
      simp only [once,same] at onward
      exact onward

theorem stillTransparent {enter : Caller ρ → Act ServiceError (NssStatus × Caller ρ)}
    (still : ∀ caller, ∃ status, status ≠ .tryAgain ∧ enter caller = pure (status,{ caller with errno := 0 })) :
    Transparent reply enter := by
  intro attempts db
  cases attempts with
  | nil => rfl
  | cons a rest =>
    obtain ⟨t,caller⟩ := a
    obtain ⟨status,other,same⟩ := still caller
    have called : alone t reply (enter caller) db = (.ok (status,{ caller with errno := 0 }),db) := by rw [same]; rfl
    have large : tooSmall (.ok (status,{ caller with errno := 0 }) : Except (Halt ServiceError) _) = false := by
      simp [tooSmall,other]
    simp only [retry,once,List.map_cons,called,List.find?_cons,large]
    rfl

theorem sharedTransparent {shared : Shared} (repeats : ∀ config, Repeats reply (lookup config)) :
    Transparent reply (fun caller => looked fill caller shared lookup) := by
  cases shared with
  | missing => exact stillTransparent fun caller => ⟨.unavail,by decide,rfl⟩
  | poisoned => exact stillTransparent fun caller => ⟨.unavail,by decide,rfl⟩
  | service config => exact lookedTransparent (repeats config)

theorem byNameTransparent {shared : Shared} {lookup : Config → String → Act ServiceError (Option α)} {name : List UInt8}
    (repeats : ∀ config nameStr, Repeats reply (lookup config nameStr)) :
    Transparent reply (fun caller => byName fill caller shared lookup name) := by
  unfold byName
  cases String.fromUTF8? ⟨name.toArray⟩ with
  | none => exact stillTransparent fun caller => ⟨.notFound,by decide,rfl⟩
  | some nameStr => exact sharedTransparent fun config => repeats config nameStr

end Entry

def quiet : Contract calls := ⟨fun c => writes c = false,fun _ _ => True⟩

theorem quietServes (t : Int) (reply : Replies) (db : Db) :
    Serves quiet (· = db) (fun s c r s' => answer t reply c s = (r,s')) := by
  rintro s c r s' rfl still answered
  refine ⟨trivial,?_⟩
  cases c with
  | scim q =>
    cases answered
    rfl
  | sql st =>
    have left : (execute t false s st).2 = s' := congrArg Prod.snd answered
    rcases executeCases t false s st with ⟨e,failed⟩ | ⟨-,r,db',ok,done⟩
    · rw [← left,failed]
    · rw [← left,done]
      exact execRead still ok

theorem quietAlone {ε α : Type} {reply : Replies} {p : Act ε α} (ok : Ensures quiet (fun _ => True) p) (t : Int) (db : Db) :
    (alone t reply p db).2 = db := (ensuresRun (quietServes t reply db) rfl ok).2

theorem quietRepeats {ε α : Type} {reply : Replies} {p : Act ε α} (ok : Ensures quiet (fun _ => True) p) :
    Repeats reply p := by
  intro t db a db1 done t'
  have same : (alone t reply p db).2 = db := quietAlone ok t db
  rw [done] at same
  rw [← same]

theorem aloneMapped {ε α β : Type} {t : Int} {reply : Replies} {db db' : Db} {p : Act ε α} {f : α → β} {r}
    (done : alone t reply p db = (r,db')) : alone t reply (f <$> p) db = (r.map f,db') := by
  cases r with
  | ok a => exact aloneMap done
  | error e => exact runError done

theorem repeatsMap {ε α β : Type} {reply : Replies} {p : Act ε α} {f : α → β} (repeats : Repeats reply p) :
    Repeats reply (f <$> p) := by
  intro t db y db1 done t'
  obtain ⟨a,mid,first,last⟩ := aloneSplit done
  cases last
  have again := repeats t db a db1 first t'
  rcases later : alone t' reply p db with ⟨r,db2⟩
  rw [later] at again
  exact (aloneMapped again).trans (aloneMapped later).symm

theorem repeatsAsk {α : Type} {reply : Replies} {q : ScimQuery} {f : Except ScimError q.Resp → Act ServiceError α}
    (repeats : Repeats reply (f (reply q))) : Repeats reply (ask q >>= f) := by
  have asked (t : Int) (db : Db) : alone t reply (ask q >>= f) db = alone t reply (f (reply q)) db := aloneOk (aloneAsk q)
  intro t db a db1 done t'
  rw [asked] at done
  rw [asked,asked]
  exact repeats t db a db1 done t'

section Refresh
variable {b : Build} {config : Config} {t t' : Int} {reply : Replies} {db db1 : Db}

theorem sameTables {db db' : Db} (users : db.users = db'.users) (groups : db.groups = db'.groups)
    (members : db.members = db'.members) : db = db' := by
  cases db
  cases db'
  cases users
  cases groups
  cases members
  rfl

theorem refreshedUser {su : ScimUser} {u : User} (done : alone t reply (refreshUser b config su) db = (.ok u,db1)) :
    ∃ x g, firstFit (db.owners .uid) su.id (slots b config .uid su.id) = some x ∧
      firstFit (db.owners .gid) (gidExternal su) (slots b config .gid (gidExternal su)) = some g ∧
      u = userModel config su x g ∧ db1 = db.insertOrReplaceUser u t := by
  obtain ⟨made,mid,converted,rest⟩ := aloneSplit done
  obtain ⟨_,last,stored,returned⟩ := aloneSplit rest
  obtain ⟨x,db2,uid,rest'⟩ := aloneSplit converted
  obtain ⟨g,db3,gid,made'⟩ := aloneSplit rest'
  obtain ⟨fits,rfl⟩ := aloneResolveOk (c := .uid) (aloneCachedOk uid)
  obtain ⟨fits',rfl⟩ := aloneResolveOk (c := .gid) (aloneCachedOk gid)
  obtain ⟨rfl,rfl⟩ := alonePure made'
  obtain ⟨rfl,rfl⟩ := alonePure returned
  have wrote := aloneSqlOk (aloneCachedOk stored)
  cases wrote
  exact ⟨x,g,Probing.firstFitSome.mpr fits,Probing.firstFitSome.mpr fits',rfl,rfl⟩

theorem storedUserAgain (u : User) :
    (db.insertOrReplaceUser u t).insertOrReplaceUser u t' = db.insertOrReplaceUser u t' :=
  sameTables (UniqueTable.insertOrReplaceAgain rfl rfl) rfl rfl

theorem repeatsRefreshUser (su : ScimUser) : Repeats reply (refreshUser b config su) := by
  intro t db u db1 done t'
  obtain ⟨x,g,uid,gid,rfl,rfl⟩ := refreshedUser done
  have owners : (db.insertOrReplaceUser (userModel config su x g) t).owners .uid =
      Probing.assign (db.owners .uid) su.id x := execStores (s := .insertOrReplaceUser _) (c := .uid) rfl rfl
  have uid' : firstFit ((db.insertOrReplaceUser (userModel config su x g) t).owners .uid) su.id
      (slots b config .uid su.id) = some x := by
    rw [owners]
    exact Probing.firstFitSome.mpr (Probing.fitsAgain (Probing.firstFitSome.mp uid))
  rw [aloneRefreshUser uid' gid,aloneRefreshUser uid gid,storedUserAgain]

theorem aloneInserted {externalId : String} {names : List String}
    (done : alone t reply (insertMembers externalId names) db = (.ok (),db1)) :
    db1.members = db.members ++ names.map (MemberRow.mk externalId) := by
  induction names generalizing db with
  | nil =>
    cases done
    exact (List.append_nil _).symm
  | cons name names ih =>
    obtain ⟨_,mid,inserted,rest⟩ := aloneSplit done
    have wrote := aloneSqlOk inserted
    simp only [exec] at wrote
    split at wrote <;> cases wrote
    rw [ih rest,Db.insertMember,List.append_assoc]
    rfl

def cleared (g : Group) (t : Int) (db : Db) : Db :=
  (db.insertOrReplaceGroup g t).deleteMembers (fun m => m.group == g.externalId)

theorem aloneStore (g : Group) : alone t reply (storeGroup g) db =
    alone t reply (insertMembers g.externalId g.members) (cleared g t db) :=
  (aloneOk (aloneSql rfl)).trans (aloneOk (aloneSql rfl))

theorem filteredAgain {α : Type} {p q : α → Bool} {old new : List α} (gone : ∀ m ∈ new, p m = false) :
    (((old.filter q).filter p ++ new).filter q).filter p = (old.filter q).filter p := by
  have none' : (new.filter q).filter p = [] :=
    List.filter_eq_nil_iff.mpr fun m inside => by simp [gone m (List.mem_of_mem_filter inside)]
  have still : ((old.filter q).filter p).filter q = (old.filter q).filter p :=
    List.filter_eq_self.mpr fun m inside => (List.mem_filter.mp (List.mem_of_mem_filter inside)).2
  rw [List.filter_append,List.filter_append,none',List.append_nil,still,List.filter_filter]
  simp

theorem clearedAgain {g : Group} (done : alone t reply (storeGroup g) db = (.ok (),db1)) :
    cleared g t' db1 = cleared g t' db := by
  obtain ⟨users,groups,-⟩ := SssdOidc.Membership.aloneStoreGroup done
  rw [aloneStore] at done
  have members := aloneInserted done
  have kept : UniqueTable.clear GroupRow.externalId GroupRow.gid db1.groups.rows (groupRow g t') =
      UniqueTable.clear GroupRow.externalId GroupRow.gid db.groups.rows (groupRow g t') := by
    rw [groups]
    exact UniqueTable.clearAgain rfl rfl
  have early : UniqueTable.clear GroupRow.externalId GroupRow.gid db.groups.rows (groupRow g t) =
      UniqueTable.clear GroupRow.externalId GroupRow.gid db.groups.rows (groupRow g t') := rfl
  refine sameTables users ?_ ?_
  · simp only [cleared,Db.deleteMembers,Db.insertOrReplaceGroup,groups]
    exact UniqueTable.insertOrReplaceAgain rfl rfl
  · simp only [cleared,Db.deleteMembers,Db.insertOrReplaceGroup,cascade,kept] at members ⊢
    rw [members,early]
    refine filteredAgain fun m inside => ?_
    obtain ⟨name,-,rfl⟩ := List.mem_map.mp inside
    simp

theorem storedGroupAgain {g : Group} (done : alone t reply (storeGroup g) db = (.ok (),db1)) :
    alone t' reply (storeGroup g) db1 = alone t' reply (storeGroup g) db := by
  rw [aloneStore,aloneStore,clearedAgain done]

theorem sameAfter {α β : Type} {p : Prog calls α} {f : α → Prog calls β} {db db' : Db}
    (same : run (answer t reply) p db = run (answer t reply) p db') :
    run (answer t reply) (p >>= f) db = run (answer t reply) (p >>= f) db' := by rw [runBind,runBind,same]

theorem repeatsRefreshGroup (sg : ScimGroup) : Repeats reply (refreshGroup b config sg) := by
  intro t db g db1 done t'
  obtain ⟨made,mid,converted,rest⟩ := aloneSplit done
  obtain ⟨_,last,stored,returned⟩ := aloneSplit rest
  obtain ⟨x,db2,gid,made'⟩ := aloneSplit converted
  obtain ⟨fits,rfl⟩ := aloneResolveOk (c := .gid) (aloneCachedOk gid)
  obtain ⟨rfl,rfl⟩ := alonePure made'
  obtain ⟨rfl,rfl⟩ := alonePure returned
  have stored' := aloneCachedOk stored
  obtain ⟨-,groups,-⟩ := SssdOidc.Membership.aloneStoreGroup stored'
  have owners : db1.owners .gid = Probing.assign (mid.owners .gid) sg.id x :=
    (congrArg UniqueTable.owner groups).trans (UniqueTable.ownerInsertOrReplace mid.groups (groupRow (groupModel sg x) t))
  have refreshed (db : Db) (stop : firstFit (db.owners .gid) sg.id (slots b config .gid sg.id) = some x) :
      alone t' reply (refreshGroup b config sg) db =
        alone t' reply (cached (storeGroup (groupModel sg x)) >>= fun _ => pure (groupModel sg x)) db := by
    have resolved : alone t' reply (resolveColumn b config .gid sg.id) db = (.ok x,db) := by rw [aloneResolve,stop]; rfl
    have converted : alone t' reply (scimGroupToModel b config sg) db = (.ok (groupModel sg x),db) :=
      aloneOk (aloneCached resolved)
    exact aloneOk converted
  have again : firstFit (db1.owners .gid) sg.id (slots b config .gid sg.id) = some x := by
    rw [owners]
    exact Probing.firstFitSome.mpr (Probing.fitsAgain fits)
  rw [refreshed db1 again,refreshed mid (Probing.firstFitSome.mpr fits)]
  exact sameAfter (sameAfter (storedGroupAgain stored'))

end Refresh

section Lookups
variable {b : Build} {config : Config} {reply : Replies}

theorem quietSql {st : Stmt} (still : st.writes = false) : Ensures quiet (fun _ => True) (sql st) :=
  ensuresCall still fun _ _ => trivial

theorem quietCached {α : Type} {p : Act CacheError α} (ok : Ensures quiet (fun _ => True) p) :
    Ensures quiet (fun _ => True) (cached p) := ensuresBind (ensuresMono (fun _ _ => trivial) ok)

theorem quietThen {ε α β : Type} {p : Act ε α} {f : α → Act ε β} (first : Ensures quiet (fun _ => True) p)
    (later : ∀ a, Ensures quiet (fun _ => True) (f a)) : Ensures quiet (fun _ => True) (p >>= f : Act ε β) := by
  refine ensuresBind (ensuresMono (fun r _ => ?_) first)
  cases r with
  | ok a => exact later a
  | error e => trivial

theorem quietMembers (g : Group) : Ensures quiet (fun _ => True) (some <$> withMembers g : Act CacheError (Option Group)) :=
  quietThen (quietThen (quietSql rfl) fun _ => trivial) fun _ => trivial

theorem quietGroupByGid (ttl : Ttl) (gid : UInt32) : Ensures quiet (fun _ => True) (getGroupByGid ttl gid) := by
  refine quietThen (quietSql rfl) fun row => ?_
  cases row with
  | none => trivial
  | some g => exact quietMembers g

theorem quietGroupByName (ttl : Ttl) (name : String) : Ensures quiet (fun _ => True) (getGroupByName ttl name) := by
  refine quietThen (quietSql rfl) fun row => ?_
  cases row with
  | none => trivial
  | some g => exact quietMembers g

theorem repeatsUserByName (name : String) : Repeats reply (lookupUserByName b config name) := by
  have cache : Repeats reply (cached (getUserByName config.cache.ttlSeconds name)) := quietRepeats (quietCached (quietSql rfl))
  unfold lookupUserByName
  split
  · exact quietRepeats trivial
  · refine repeatsAsk ?_
    rcases reply (.userByName name) with e | none | su
    · exact cache
    · exact cache
    · exact repeatsMap (repeatsRefreshUser su)

theorem repeatsGroupByName (name : String) : Repeats reply (lookupGroupByName b config name) := by
  have cache : Repeats reply (cached (getGroupByName config.cache.ttlSeconds name)) :=
    quietRepeats (quietCached (quietGroupByName _ name))
  unfold lookupGroupByName
  split
  · exact quietRepeats trivial
  · refine repeatsAsk ?_
    rcases reply (.groupByName name) with e | none | sg
    · exact cache
    · exact cache
    · exact repeatsMap (repeatsRefreshGroup sg)

theorem retriesTransparent (b : Build) (shared : Shared) (reply : Replies) :
    (∀ name, Transparent reply (getpwnamR b shared name)) ∧ (∀ uid, Transparent reply (getpwuidR shared uid)) ∧
    (∀ name, Transparent reply (getgrnamR b shared name)) ∧ (∀ gid, Transparent reply (getgrgidR shared gid)) := by
  refine ⟨fun name => ?_,fun uid => ?_,fun name => ?_,fun gid => ?_⟩
  · exact byNameTransparent fun config nameStr => repeatsUserByName nameStr
  · exact sharedTransparent fun config => quietRepeats (quietCached (quietSql rfl))
  · exact byNameTransparent fun config nameStr => repeatsGroupByName nameStr
  · exact sharedTransparent fun config => quietRepeats (quietCached (quietGroupByGid _ gid))

end Lookups

end SssdOidc.Nss
