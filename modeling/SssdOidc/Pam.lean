import SssdOidc.Agreement
import SssdOidc.Oidc

/-! `pam_sm_authenticate` of crates/pam_oidc/src/ffi.rs, on Linux. What libpam, the device
flow and the token validation come to are given; the service is asked as elsewhere. -/
namespace SssdOidc.Pam
open Model Database Mapping Program Cache Service SssdOidc.System Protocol Conformance Solo
open Oidc (OidcError TokenResponse IdTokenClaims)
open Runs (Reach)

def PAM_SUCCESS : Int := 0
def PAM_AUTH_ERR : Int := 7
def PAM_AUTHINFO_UNAVAIL : Int := 9

/- A discovered client, by what it comes to in one call. -/
structure Provider where
  authenticateDeviceFlow : Except OidcError TokenResponse
  validateIdToken : String → Except OidcError IdTokenClaims

section Authenticate
variable (b : Build) (config : Config)

def verdict (sub : String) : Except ServiceError (Option User) → Int
  | .ok (some user) => if user.externalId = sub then PAM_SUCCESS else PAM_AUTH_ERR
  | .ok none => PAM_AUTH_ERR
  | .error _ => PAM_AUTH_ERR

def authenticateImpl (getPamUser : Option String) (getOidcClient : Option Provider) (getService : Bool) :
    Act ServiceError Int :=
  match getPamUser with
  | none => pure PAM_AUTH_ERR
  | some username =>
      match getOidcClient with
      | none => pure PAM_AUTHINFO_UNAVAIL
      | some client =>
          match client.authenticateDeviceFlow with
          | .error _ => pure PAM_AUTH_ERR
          | .ok token =>
              match token.idToken with
              | none => pure PAM_AUTH_ERR
              | some idTokenRaw =>
                  match client.validateIdToken idTokenRaw with
                  | .error _ => pure PAM_AUTH_ERR
                  | .ok claims =>
                      if claims.sub = username then pure PAM_SUCCESS
                      else if getService then do
                        let user ← attempt (lookupUserByName b config username)
                        pure (verdict claims.sub user)
                      else pure PAM_AUTH_ERR

end Authenticate

/- `resp.resources.into_iter().next()` in `get_user_by_name`. -/
def firstResource (response : Except ScimError (List ScimUser)) : Except ScimError (Option ScimUser) :=
  response.map List.head?

/- The answers of SQLite to a process alone on its database; any statement may fail. -/
def Ran : Db → List (Event calls) → Prop
  | _, [] => True
  | db, ⟨t,.sql st,r⟩ :: rest => ∃ fault, r = (execute t fault db st).1 ∧ Ran (execute t fault db st).2 rest
  | db, ⟨_,.scim _,_⟩ :: rest => Ran db rest

def Heard (response : Except ScimError (List ScimUser)) (es : List (Event calls)) : Prop :=
  ∀ t n r, (⟨t,.scim (.userByName n),r⟩ : Event calls) ∈ es → r = firstResource response

section Plays
variable {b : Build} {config : Config} {username : String} {client : Option Provider} {service : Bool}
  {es : List (Event calls)}

def Validated (client : Option Provider) (claims : IdTokenClaims) : Prop :=
  ∃ provider token idTokenRaw, client = some provider ∧ provider.authenticateDeviceFlow = .ok token ∧
    token.idToken = some idTokenRaw ∧ provider.validateIdToken idTokenRaw = .ok claims

theorem verdictSuccess {sub : String} {r} (success : verdict sub r = PAM_SUCCESS) :
    ∃ user, r = .ok (some user) ∧ user.externalId = sub := by
  have apart : PAM_AUTH_ERR ≠ PAM_SUCCESS := by decide
  match r with
  | .ok (some user) =>
    simp only [verdict] at success
    split at success
    · exact ⟨user,rfl,by assumption⟩
    · exact absurd success apart
  | .ok none => exact absurd success apart
  | .error e => exact absurd success apart

theorem pureOk {α : Type} {a a' : α} {es : List (Event calls)} (played : Plays (pure a : Act ServiceError α) es (.ok a')) :
    es = [] ∧ a = a' := by
  cases played
  exact ⟨rfl,rfl⟩

theorem resolvedSlots {c : Column} {externalId : String} {x} (played : Plays (resolveColumn b config c externalId) es (.ok x)) :
    slots b config c externalId ≠ [] := by
  intro none
  rw [resolveColumnWalk,none] at played
  cases played

theorem refreshPlays {su : ScimUser} {user : User} (played : Plays (refreshUser b config su) es (.ok user)) :
    user.externalId = su.id ∧ slots b config .uid su.id ≠ [] ∧ slots b config .gid (gidExternal su) ≠ [] := by
  rcases playsAttempt played with ⟨front,converted,back,rfl,convert,store⟩ | ⟨e,-,never⟩
  · rcases playsAttempt convert with ⟨_,uid,_,rfl,first,convert⟩ | ⟨e,-,never⟩
    · rcases playsAttempt convert with ⟨_,gid,_,rfl,second,convert⟩ | ⟨e,-,never⟩
      · obtain ⟨-,rfl⟩ := pureOk convert
        obtain ⟨r,first,same⟩ := playsAfter first
        obtain ⟨r',second,same'⟩ := playsAfter second
        rcases playsAttempt store with ⟨_,_,_,rfl,-,last⟩ | ⟨e,-,never⟩
        · obtain ⟨-,rfl⟩ := pureOk last
          cases r <;> cases same
          cases r' <;> cases same'
          exact ⟨rfl,resolvedSlots (c := .uid) first,resolvedSlots (c := .gid) second⟩
        · cases never
      · cases never
    · cases never
  · cases never

inductive Found (b : Build) (config : Config) (name : String) (user : User) : List (Event calls) → Prop where
  | online {t su rest} (same : user.externalId = su.id) (uid : slots b config .uid su.id ≠ [])
      (gid : slots b config .gid (gidExternal su) ≠ []) :
      Found b config name user (⟨t,.scim (.userByName name),.ok (some su)⟩ :: rest)
  | cached {t t' r} (absent : ∀ su, r ≠ .ok (some su)) : Found b config name user
      [⟨t,.scim (.userByName name),r⟩,⟨t',.sql (.selectUserByLogin name config.cache.ttlSeconds),.ok (some user)⟩]

theorem cachedPlays {name : String} {user : User}
    (played : Plays (cached (getUserByName config.cache.ttlSeconds name)) es (.ok (some user))) :
    ∃ t, es = [⟨t,.sql (.selectUserByLogin name config.cache.ttlSeconds),.ok (some user)⟩] := by
  obtain ⟨r,read,same⟩ := playsAfter played
  obtain ⟨t,answer,rfl,rfl⟩ := playsPerform read
  cases answer <;> cases same
  exact ⟨t,rfl⟩

theorem lookupPlays {name : String} {user : User} (played : Plays (lookupUserByName b config name) es (.ok (some user))) :
    ¬MAX_NAME_LEN < name.utf8ByteSize ∧ Found b config name user es := by
  unfold lookupUserByName at played
  split at played
  · cases (pureOk played).2
  · refine ⟨by assumption,?_⟩
    cases played with
    | @call _ _ t r rest _ onward =>
      match r with
      | .ok (some su) =>
        obtain ⟨r,refreshed,same⟩ := playsMap onward
        cases r <;> cases same
        obtain ⟨same,uid,gid⟩ := refreshPlays refreshed
        exact .online same uid gid
      | .ok none =>
        obtain ⟨t',rfl⟩ := cachedPlays onward
        exact .cached (by simp)
      | .error e =>
        obtain ⟨t',rfl⟩ := cachedPlays onward
        exact .cached (by simp)

theorem authenticatePlays (played : Plays (authenticateImpl b config (some username) client service) es (.ok PAM_SUCCESS)) :
    ∃ claims, Validated client claims ∧ (claims.sub = username ∨
      ∃ user, Plays (lookupUserByName b config username) es (.ok (some user)) ∧ user.externalId = claims.sub) := by
  have refused {es' : List (Event calls)} (played : Plays (pure PAM_AUTH_ERR : Act ServiceError Int) es' (.ok PAM_SUCCESS)) :
      False := by
    cases played
  cases client with
  | none => cases played
  | some provider =>
    simp only [authenticateImpl] at played
    split at played
    · exact (refused played).elim
    · rename_i token flow
      split at played
      · exact (refused played).elim
      · rename_i idTokenRaw raw
        split at played
        · exact (refused played).elim
        · rename_i claims valid
          refine ⟨claims,⟨provider,token,idTokenRaw,rfl,flow,raw,valid⟩,?_⟩
          split at played
          · exact .inl (by assumption)
          · split at played
            · obtain ⟨front,r,back,rfl,tried,later⟩ := playsBind played
              obtain ⟨r,looked,rfl⟩ := playsAfter tried
              match r with
              | .error .panic => cases later
              | .error (.error e) => cases later
              | .ok user =>
                obtain ⟨rfl,success⟩ := pureOk later
                obtain ⟨user,found,bound⟩ := verdictSuccess success
                cases found
                exact .inr ⟨user,(List.append_nil front).symm ▸ looked,bound⟩
            · exact (refused played).elim

end Plays

section Binding
variable (b : Build) (config : Config) (username : String) (response : Except ScimError (List ScimUser))

def Recorded (db : Db) (es : List (Event calls)) (sub : String) : Prop :=
  (∃ sus, response = .ok sus ∧ ∃ su ∈ sus, su.userName = username ∧ su.id = sub) ∨
  ∃ row ∈ db.users.rows, row.login = username ∧ row.externalId = sub ∧
    ∃ e ∈ es, live e.stamp config.cache.ttlSeconds row.cachedAt = true

def Reachable (db : Db) : Prop := ∃ now s, Reach (step b config) (fun _ _ => True) (fresh empty now) s ∧ s.db = db

def Binds : Prop := ∀ db client service es, Reachable b config db → Ran db es → Heard response es →
  Plays (authenticateImpl b config (some username) client service) es (.ok PAM_SUCCESS) →
  ∃ claims, Validated client claims ∧
    (claims.sub = username ∨ Recorded config username response db es claims.sub)

/- The first resource is one that the login may be tied to, or it cannot be taken. -/
def Faithful : Except ScimError (List ScimUser) → Prop
  | .ok (first :: rest) => MAX_NAME_LEN < username.utf8ByteSize ∨ first.id = username ∨
      (∃ su ∈ first :: rest, su.userName = username ∧ su.id = first.id) ∨
      slots b config .uid first.id = [] ∨ slots b config .gid (gidExternal first) = []
  | _ => True

end Binding

section Exact
variable {b : Build} {config : Config} {username : String} {response : Except ScimError (List ScimUser)}

theorem heardFirst {t : Int} {su : ScimUser} {es : List (Event calls)} (heard : Heard response es)
    (inside : (⟨t,.scim (.userByName username),.ok (some su)⟩ : Event calls) ∈ es) :
    ∃ rest, response = .ok (su :: rest) := by
  have told := heard _ _ _ inside
  match response with
  | .ok (first :: rest) =>
    cases told
    exact ⟨rest,rfl⟩
  | .ok [] => cases told
  | .error e => cases told

theorem readRow {db : Db} {t : Int} {fault : Bool} {name : String} {ttl : Ttl} {user : User}
    (read : .ok (some user) = (execute t fault db (.selectUserByLogin name ttl)).1) :
    ∃ row ∈ db.users.rows, row.login = name ∧ row.externalId = user.externalId ∧ live t ttl row.cachedAt = true := by
  cases fault with
  | true => cases read
  | false =>
    have answer := Except.ok.inj read
    obtain ⟨row,first,rfl⟩ := Option.map_eq_some_iff.mp answer.symm
    have passes := List.find?_some first
    simp only [Bool.and_eq_true,beq_iff_eq] at passes
    exact ⟨row,List.mem_of_find?_eq_some first,passes.1,rfl,passes.2⟩

theorem faithfulBinds (faithful : Faithful b config username response) : Binds b config username response := by
  intro db client service es _ ran heard played
  obtain ⟨claims,valid,direct | ⟨user,looked,same⟩⟩ := authenticatePlays played
  · exact ⟨claims,valid,.inl direct⟩
  · refine ⟨claims,valid,?_⟩
    obtain ⟨short,found⟩ := lookupPlays looked
    cases found with
    | @online t su rest own uid gid =>
      obtain ⟨others,rfl⟩ := heardFirst heard List.mem_cons_self
      rcases faithful with long | direct | ⟨other,inside,named,id⟩ | none | none
      · exact absurd long short
      · exact .inl (same.symm.trans (own.trans direct))
      · exact .inr (.inl ⟨_,rfl,other,inside,named,id.trans (own.symm.trans same)⟩)
      · exact absurd none uid
      · exact absurd none gid
    | @cached t t' r absent =>
      obtain ⟨fault,read,-⟩ := ran
      obtain ⟨row,inside,login,id,young⟩ := readRow read
      exact .inr (.inr ⟨row,inside,login,id.trans same,_,List.mem_cons_of_mem _ List.mem_cons_self,young⟩)

theorem playsAlone {α : Type} {t : Int} {reply : Replies} (p : Prog calls α) (db : Db) :
    ∃ es, Plays p es (run (answer t reply) p db).1 ∧ Ran db es ∧
      ∀ t' q r, (⟨t',.scim q,r⟩ : Event calls) ∈ es → r = reply q := by
  induction p generalizing db with
  | ret a => exact ⟨[],.ret a,trivial,by simp⟩
  | call c k ih =>
    cases c with
    | scim q =>
      obtain ⟨es,played,ran,heard⟩ := ih (reply q) db
      refine ⟨⟨t,.scim q,reply q⟩ :: es,.call played,ran,?_⟩
      intro t' q' r inside
      rcases List.mem_cons.mp inside with same | later
      · cases same
        rfl
      · exact heard t' q' r later
    | sql st =>
      obtain ⟨es,played,ran,heard⟩ := ih (execute t false db st).1 (execute t false db st).2
      refine ⟨⟨t,.sql st,(execute t false db st).1⟩ :: es,.call played,⟨false,rfl,ran⟩,?_⟩
      intro t' q' r inside
      rcases List.mem_cons.mp inside with same | later
      · cases same
      · exact heard t' q' r later

def replies (response : Except ScimError (List ScimUser)) : Replies
  | .userByName _ => firstResource response
  | .groupByName _ => .error .http
  | .listUsers => .error .http
  | .listGroups => .error .http

def vouching (sub : String) : Provider where
  authenticateDeviceFlow := .ok ⟨"access",some "jwt","Bearer"⟩
  validateIdToken := fun _ => .ok ⟨sub,"https://idp",0,none⟩

theorem aloneTried {α : Type} {t : Int} {reply : Replies} {p : Act ServiceError α} {a db db'}
    (ok : alone t reply p db = (.ok a,db')) : alone t reply (attempt p) db = (.ok (.ok a),db') := by
  have split : run (answer t reply) (attempt p) db = _ := runBind p (fun r => pure (caught r)) db
  rw [alone] at ok
  rw [ok] at split
  exact split

theorem vouchedSuccess {first : ScimUser} (rest : List ScimUser) (short : ¬MAX_NAME_LEN < username.utf8ByteSize)
    (other : first.id ≠ username) (uid : slots b config .uid first.id ≠ [])
    (gid : slots b config .gid (gidExternal first) ≠ []) :
    (alone 0 (replies (.ok (first :: rest))) (authenticateImpl b config (some username) (some (vouching first.id)) true)
      empty).1 = .ok PAM_SUCCESS := by
  obtain ⟨x,xs,path⟩ := List.exists_cons_of_ne_nil uid
  obtain ⟨g,gs,path'⟩ := List.exists_cons_of_ne_nil gid
  have found : alone 0 (replies (.ok (first :: rest))) (lookupUserByName b config username) empty =
      (.ok (some (userModel config first x g)),empty.insertOrReplaceUser (userModel config first x g) 0) := by
    refine Agreement.aloneLookup short rfl ?_ ?_
    · rw [path,ownersEmpty]
      rfl
    · rw [path',ownersEmpty]
      rfl
  have tried : alone 0 (replies (.ok (first :: rest))) (attempt (lookupUserByName b config username)) empty =
      (.ok (.ok (some (userModel config first x g))),_) := aloneTried found
  have accepted : verdict first.id (.ok (some (userModel config first x g))) = PAM_SUCCESS := if_pos rfl
  have unfolded : authenticateImpl b config (some username) (some (vouching first.id)) true =
      (attempt (lookupUserByName b config username) >>= fun user => pure (verdict first.id user)) := by
    simp only [authenticateImpl,vouching,if_neg other,if_true]
  rw [unfolded,aloneOk tried,accepted]
  rfl

theorem vouchedPlays {first : ScimUser} (rest : List ScimUser) (short : ¬MAX_NAME_LEN < username.utf8ByteSize)
    (other : first.id ≠ username) (uid : slots b config .uid first.id ≠ [])
    (gid : slots b config .gid (gidExternal first) ≠ []) :
    ∃ es, Plays (authenticateImpl b config (some username) (some (vouching first.id)) true) es (.ok PAM_SUCCESS) ∧
      Ran empty es ∧ Heard (.ok (first :: rest)) es := by
  have success : (run (answer 0 (replies (.ok (first :: rest)))) _ empty).1 = _ := vouchedSuccess rest short other uid gid
  obtain ⟨es,played,ran,heard⟩ := playsAlone _ empty
  exact ⟨es,success ▸ played,ran,fun t n r inside => heard t _ r inside⟩

theorem bindsFaithful (binds : Binds b config username response) : Faithful b config username response := by
  match response with
  | .error e => trivial
  | .ok [] => trivial
  | .ok (first :: rest) =>
    by_contra never
    simp only [Faithful,not_or] at never
    obtain ⟨short,other,nobody,uid,gid⟩ := never
    obtain ⟨es,played,ran,heard⟩ := vouchedPlays rest short other uid gid
    obtain ⟨claims,⟨provider,token,raw,same,flow,carried,valid⟩,bound⟩ :=
      binds empty (some (vouching first.id)) true es ⟨0,_,.start,rfl⟩ ran heard played
    cases same
    cases flow
    cases valid
    rcases bound with direct | ⟨sus,same,listed⟩ | ⟨row,never,-⟩
    · exact other direct
    · cases same
      exact nobody listed
    · cases never

theorem authenticationBinds : Binds b config username response ↔ Faithful b config username response :=
  ⟨bindsFaithful,faithfulBinds⟩

end Exact

theorem otherLogin : ¬Binds release {} "Bob" (.ok [Stability.scimUser "u7" "bob"]) := by
  intro binds
  rcases bindsFaithful binds with long | same | ⟨su,inside,named,-⟩ | none | none
  · exact absurd long (by decide)
  · exact absurd same (by decide)
  · rw [List.mem_singleton.mp inside] at named
    exact absurd named (by decide)
  · exact Agreement.slotsWithin (c := .uid) ⟨by decide,by decide⟩ none
  · exact Agreement.slotsWithin (c := .gid) ⟨by decide,by decide⟩ none

end SssdOidc.Pam
