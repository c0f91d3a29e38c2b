import SssdOidc.ConfigFile
import SssdOidc.DeviceFlow
import SssdOidc.Discovery
import SssdOidc.Interfaces
import SssdOidc.Pam
import SssdOidc.Provenance

/-! The PAM module whole: the entry points of crates/pam_oidc/src/ffi.rs on Linux, over the
singletons of its state.rs. A call of one talks to the identity provider and the user by one
interface, and to the SCIM server and the cache by another. -/
namespace SssdOidc.Login
open Model Mapping Program Service Interfaces RelyGuarantee
open Oidc (Flow OidcError OidcClient OidcEndpoints DiscoveryDocument DeviceAuthResponse TokenResponse IdTokenClaims Jwk Jwt Agent oidcCalls)
open Cache (calls Act)
open Pam (PAM_SUCCESS PAM_AUTH_ERR PAM_AUTHINFO_UNAVAIL verdict)
open Discovery (HttpsEndpoints)
open DeviceFlow (sendPlays sampleClient sampleDevice)
open Database (Db empty)
open SssdOidc.System (execute)
open Stability (fourSlots)
open Provenance (ann)

def PAM_PERM_DENIED : Int := 6
def PAM_AUTHTOK_ERR : Int := 20

abbrev loginCalls := both oidcCalls calls

/- A call that does not return: it panics, or has not left the loop of the device flow. -/
inductive Stop where
  | panic
  | polling
  deriving DecidableEq, Repr

abbrev Session (α : Type) := ExceptT Stop (Prog loginCalls) α

def looked {ε α : Type} : Except (Halt ε) α → Except Stop (Except ε α)
  | .ok a => .ok (.ok a)
  | .error (.error e) => .ok (.error e)
  | .error .panic => .error .panic

def provider {α : Type} (p : Flow α) : Session (Except OidcError α) :=
  ExceptT.mk (left p.run >>= fun r => pure (looked r))

def service {α : Type} (p : Act ServiceError α) : Session (Except ServiceError α) :=
  ExceptT.mk (right p.run >>= fun r => pure (looked r))

/- OIDC_CLIENT and SERVICE of state.rs: each set once, with or without success. -/
structure State where
  oidcClient : Option (Option OidcClient)
  service : Option Bool

def unset : State := ⟨none,none⟩

/- What the initialisers find. Each loads the configuration for itself. -/
structure Host where
  agent : Agent
  jwt : Jwt
  loaded : Except ConfigFile.ConfigError ConfigFile.Config
  -- the configuration of the service loads, and its cache opens
  opened : Bool

section Module
variable (b : Build) (config : Config) (host : Host) (rounds : Nat)

def getOidcClient : State → Session (Option OidcClient)
  | ⟨some client,_⟩ => pure client
  | ⟨none,_⟩ =>
      match host.loaded with
      | .error _ => pure none
      | .ok loaded => do
          let discover :=
            if loaded.oidc.allowInsecure then Oidc.discoverInsecure host.agent else Oidc.discover host.agent
          match ← provider (discover loaded.oidc.issuerUrl loaded.oidc.clientId loaded.oidc.clientSecret) with
          | .ok client => pure (some client)
          | .error _ => pure none

def getService : State → Session Bool
  | ⟨_,some opened⟩ => pure opened
  | ⟨_,none⟩ =>
      if host.opened then do
        let _ ← service (Service.new config)
        pure true
      else pure false

def authenticateDeviceFlow (client : OidcClient) : Session (Except OidcError TokenResponse) := do
  match ← provider (Oidc.authenticateDeviceFlow b client "openid" rounds) with
  | .ok (some token) => pure (.ok token)
  | .ok none => throw .polling
  | .error e => pure (.error e)

def matchSubject (username : String) (claims : IdTokenClaims) (s : State) : Session (State × Int) :=
  if claims.sub = username then pure (s,PAM_SUCCESS)
  else do
    let opened ← getService config host s
    let s := { s with service := some opened }
    if opened then do
      let user ← service (lookupUserByName b config username)
      pure (s,verdict claims.sub user)
    else pure (s,PAM_AUTH_ERR)

def authenticateWith (client : OidcClient) (username : String) (s : State) : Session (State × Int) := do
  match ← authenticateDeviceFlow b rounds client with
  | .error _ => pure (s,PAM_AUTH_ERR)
  | .ok token =>
      match token.idToken with
      | none => pure (s,PAM_AUTH_ERR)
      | some idTokenRaw => do
          match ← provider (Oidc.validateIdToken host.jwt client idTokenRaw) with
          | .error _ => pure (s,PAM_AUTH_ERR)
          | .ok claims => matchSubject b config host username claims s

def authenticateImpl (getPamUser : Option String) (s : State) : Session (State × Int) :=
  match getPamUser with
  | none => pure (s,PAM_AUTH_ERR)
  | some username => do
      let client ← getOidcClient host s
      let s := { s with oidcClient := some client }
      match client with
      | none => pure (s,PAM_AUTHINFO_UNAVAIL)
      | some client => authenticateWith b config host rounds client username s

def permitted : Except ServiceError Bool → Int
  | .ok true => PAM_SUCCESS
  | .ok false => PAM_PERM_DENIED
  | .error _ => PAM_AUTHINFO_UNAVAIL

def acctMgmtImpl (getPamUser : Option String) (s : State) : Session (State × Int) :=
  match getPamUser with
  | none => pure (s,PAM_AUTH_ERR)
  | some username => do
      let opened ← getService config host s
      let s := { s with service := some opened }
      if opened then do
        let active ← service (checkUserActive b config username)
        pure (s,permitted active)
      else pure (s,PAM_AUTHINFO_UNAVAIL)

def pamSmSetcred (s : State) : Session (State × Int) := pure (s,PAM_SUCCESS)

def chauthtokImpl (s : State) : Session (State × Option String × Int) := do
  let client ← getOidcClient host s
  let s := { s with oidcClient := some client }
  match client with
  | none => pure (s,none,PAM_AUTHTOK_ERR)
  | some client =>
      pure (s,some ("Password changes are not supported via PAM for OIDC accounts.\n" ++
        "Please change your password at your identity provider:\n  " ++ client.endpoints.issuer),PAM_AUTHTOK_ERR)

end Module

section Contracts
variable {mine : Contract oidcCalls} {theirs : Contract calls} {b : Build} {config : Config} {host : Host} {rounds : Nat}
  {s : State}

theorem keepsProvider {α : Type} {p : Flow α} (keeps : Keeps mine p) : Keeps (onBoth mine theirs) (provider p) :=
  keepsResult (ensuresOnLeft (keepsAny keeps))

theorem keepsService {α : Type} {p : Act ServiceError α} (keeps : Keeps theirs p) :
    Keeps (onBoth mine theirs) (service p) :=
  keepsResult (ensuresOnRight (keepsAny keeps))

structure ServiceKeeps (theirs : Contract calls) (b : Build) (config : Config) : Prop where
  new : Keeps theirs (Service.new config)
  user : ∀ name, Keeps theirs (lookupUserByName b config name)
  active : ∀ name, Keeps theirs (checkUserActive b config name)

structure ProviderKeeps (mine : Contract oidcCalls) (b : Build) (host : Host) (rounds : Nat) (client : OidcClient) : Prop where
  flow : Keeps mine (Oidc.authenticateDeviceFlow b client "openid" rounds)
  validate : ∀ idToken, Keeps mine (Oidc.validateIdToken host.jwt client idToken)

theorem keepsGetService (kept : ServiceKeeps theirs b config) : Keeps (onBoth mine theirs) (getService config host s) := by
  unfold getService
  split
  · exact keepsPure _
  · split
    · exact keepsThen (keepsService kept.new) fun _ => keepsPure _
    · exact keepsPure _

theorem keepsMatch (kept : ServiceKeeps theirs b config) {username : String} {claims : IdTokenClaims} :
    Keeps (onBoth mine theirs) (matchSubject b config host username claims s) := by
  unfold matchSubject
  by_cases direct : claims.sub = username
  · rw [if_pos direct]
    exact keepsPure _
  · rw [if_neg direct]
    refine keepsThen (keepsGetService kept) fun opened => ?_
    dsimp only
    split
    · exact keepsThen (keepsService (kept.user username)) fun _ => keepsPure _
    · exact keepsPure _

theorem keepsAuthenticate {client : OidcClient} {username : String} (asked : ProviderKeeps mine b host rounds client)
    (kept : ServiceKeeps theirs b config) :
    Keeps (onBoth mine theirs) (authenticateWith b config host rounds client username s) := by
  refine keepsThen (keepsThen (keepsProvider asked.flow) fun r => ?_) fun result => ?_
  · rcases r with e | none | token <;> trivial
  · cases result with
    | error e => exact keepsPure _
    | ok token =>
      dsimp only
      split
      · exact keepsPure _
      · refine keepsThen (keepsProvider (asked.validate _)) fun r => ?_
        cases r with
        | error e => exact keepsPure _
        | ok claims => exact keepsMatch kept

theorem keepsAcctMgmt (kept : ServiceKeeps theirs b config) {getPamUser : Option String} :
    Keeps (onBoth mine theirs) (acctMgmtImpl b config host getPamUser s) := by
  cases getPamUser with
  | none => exact keepsPure _
  | some username =>
    refine keepsThen (keepsGetService kept) fun opened => ?_
    dsimp only
    split
    · exact keepsThen (keepsService (kept.active username)) fun _ => keepsPure _
    · exact keepsPure _

end Contracts

abbrev Events := List (Event loginCalls)

def met (es : Events) : List (Event oidcCalls) := es.filterMap leftOf

def served (es : Events) : List (Event calls) := es.filterMap rightOf

@[simp] theorem metAppend (front back : Events) : met (front ++ back) = met front ++ met back := List.filterMap_append ..

@[simp] theorem servedAppend (front back : Events) : served (front ++ back) = served front ++ served back :=
  List.filterMap_append ..

section Plays
variable {α β ε : Type} {es : Events} {out : β}

theorem lookedOk {r : Except (Halt ε) α} {a} (same : looked r = .ok a) : r = a.mapError Halt.error := by
  rcases r with (e | -) | a
  · cases same
    rfl
  · cases same
  · cases same
    rfl

theorem providerPlays {p : Flow α} {f : Except OidcError α → Session β}
    (played : Plays (provider p >>= f : Session β) es (.ok out)) : ∃ front back r, es = front ++ back ∧
      Plays p (met front) (r.mapError Halt.error) ∧ served front = [] ∧ Plays (f r) back (.ok out) := by
  rcases playsAttempt played with ⟨front,r,back,rfl,first,later⟩ | ⟨e,-,never⟩
  · obtain ⟨result,inner,same⟩ := playsAfter first
    obtain ⟨mine,theirs⟩ := leftPlays inner
    exact ⟨front,back,r,rfl,lookedOk same.symm ▸ mine,theirs,later⟩
  · cases never

theorem servicePlays {p : Act ServiceError α} {f : Except ServiceError α → Session β}
    (played : Plays (service p >>= f : Session β) es (.ok out)) : ∃ front back r, es = front ++ back ∧
      Plays p (served front) (r.mapError Halt.error) ∧ met front = [] ∧ Plays (f r) back (.ok out) := by
  rcases playsAttempt played with ⟨front,r,back,rfl,first,later⟩ | ⟨e,-,never⟩
  · obtain ⟨result,inner,same⟩ := playsAfter first
    obtain ⟨mine,theirs⟩ := rightPlays inner
    exact ⟨front,back,r,rfl,lookedOk same.symm ▸ mine,theirs,later⟩
  · cases never

theorem purePlays {a : β} (played : Plays (pure a : Session β) es (.ok out)) : es = [] ∧ out = a := by
  cases played
  exact ⟨rfl,rfl⟩

end Plays

theorem sentPlays {agent : Agent} {request : Oidc.Request} {es body}
    (played : Plays (Oidc.send agent request) es (.ok body)) : ∃ t, es = [⟨t,.http request,.ok body⟩] := by
  rcases sendPlays played with ⟨t,answer,rfl,same⟩ | ⟨-,never⟩
  · cases answer <;> cases same
    exact ⟨t,rfl⟩
  · cases never

def naming (endpoints : OidcEndpoints) : DiscoveryDocument :=
  ⟨some endpoints.issuer,some endpoints.tokenEndpoint,some endpoints.deviceAuthorizationEndpoint,some endpoints.jwksUri⟩

/- The endpoints of the client are those that the configured issuer has named. -/
structure Discovered (loaded : ConfigFile.OidcConfig) (client : OidcClient) (es : List (Event oidcCalls)) : Prop where
  fetched : ∃ t, (⟨t,.http (.discovery (Oidc.discoveryUrl loaded.issuerUrl)),.ok (naming client.endpoints)⟩ :
    Event oidcCalls) ∈ es
  issuer : Oidc.trimSlashes client.endpoints.issuer = Oidc.trimSlashes loaded.issuerUrl
  https : loaded.allowInsecure = false → HttpsEndpoints client
  credentials : client.clientId = loaded.clientId ∧ client.clientSecret = loaded.clientSecret

theorem discoveredMono {loaded client} {es es' : List (Event oidcCalls)} (grows : es ⊆ es')
    (discovered : Discovered loaded client es) : Discovered loaded client es' := by
  obtain ⟨⟨t,fetched⟩,issuer,https,credentials⟩ := discovered
  exact ⟨⟨t,grows fetched⟩,issuer,https,credentials⟩

theorem requiredPlays {α : Type} {name : String} {value : Option String} {f : String → Flow α} {es out}
    (played : Plays (Oidc.required name value >>= f : Flow α) es (.ok out)) :
    ∃ v, value = some v ∧ Plays (f v) es (.ok out) := by
  cases value with
  | some v => exact ⟨v,rfl,played⟩
  | none => cases played

theorem endpointsPlays {endpoints : List (String × String)} {es}
    (played : Plays (Oidc.checkEndpoints endpoints) es (.ok ())) :
    es = [] ∧ ∀ endpoint ∈ endpoints, Oidc.startsWith "https://" endpoint.2 = true := by
  induction endpoints with
  | nil =>
    cases played
    exact ⟨rfl,fun _ never => nomatch never⟩
  | cons endpoint rest ih =>
    rw [Oidc.checkEndpoints] at played
    split at played
    · rename_i https
      obtain ⟨quiet,others⟩ := ih played
      exact ⟨quiet,List.forall_mem_cons.mpr ⟨https,others⟩⟩
    · cases played

theorem discoverPlays {agent : Agent} {issuerUrl clientId : String} {clientSecret : Option String} {requireHttps : Bool}
    {es client} (played : Plays (Oidc.discoverWithOptions agent issuerUrl clientId clientSecret requireHttps) es (.ok client)) :
    Discovered ⟨issuerUrl,clientId,clientSecret,!requireHttps⟩ client es := by
  rcases playsAttempt played with ⟨front,doc,back,rfl,sent,later⟩ | ⟨e,-,never⟩
  · obtain ⟨t,rfl⟩ := sentPlays sent
    obtain ⟨issuer,hasIssuer,later⟩ := requiredPlays later
    obtain ⟨tokenEndpoint,hasToken,later⟩ := requiredPlays later
    obtain ⟨deviceEndpoint,hasDevice,later⟩ := requiredPlays later
    obtain ⟨jwksUri,hasJwks,later⟩ := requiredPlays later
    have named : doc = naming ⟨deviceEndpoint,tokenEndpoint,issuer,jwksUri⟩ := by
      cases doc
      simp only [naming,DiscoveryDocument.mk.injEq]
      exact ⟨hasIssuer,hasToken,hasDevice,hasJwks⟩
    have fetched : (⟨t,.http (.discovery (Oidc.discoveryUrl issuerUrl)),
        .ok (naming ⟨deviceEndpoint,tokenEndpoint,issuer,jwksUri⟩)⟩ : Event oidcCalls) ∈
        [⟨t,.http (.discovery (Oidc.discoveryUrl issuerUrl)),.ok doc⟩] ++ back := named ▸ List.mem_cons_self
    dsimp only at later
    split at later
    · cases later
    · rename_i matches'
      cases requireHttps with
      | true =>
        rcases playsAttempt later with ⟨_,_,_,rfl,checked,last⟩ | ⟨e,-,never⟩
        · obtain ⟨-,https⟩ := endpointsPlays checked
          cases last
          simp only [List.forall_mem_cons] at https
          exact ⟨⟨t,fetched⟩,not_not.mp matches',fun _ => ⟨https.2.1,https.1,https.2.2.1⟩,rfl,rfl⟩
        · cases never
      | false =>
        rw [if_neg Bool.false_ne_true] at later
        cases later
        exact ⟨⟨t,fetched⟩,not_not.mp matches',fun never => (nomatch never),rfl,rfl⟩
  · cases never

def Polled (client : OidcClient) (deviceCode : String) (token : TokenResponse) (es : List (Event oidcCalls)) : Prop :=
  ∃ t form answer, (⟨t,.http (.token client.endpoints.tokenEndpoint form),.ok answer⟩ : Event oidcCalls) ∈ es ∧
    ("device_code",deviceCode) ∈ form ∧ Oidc.pollResult answer = .ok token

theorem polledMono {client deviceCode token} {es es' : List (Event oidcCalls)} (grows : es ⊆ es')
    (polled : Polled client deviceCode token es) : Polled client deviceCode token es' := by
  obtain ⟨t,form,answer,inside,rest⟩ := polled
  exact ⟨t,form,answer,grows inside,rest⟩

theorem polledLater {client deviceCode token} {es : List (Event oidcCalls)} (front : List (Event oidcCalls))
    (polled : Polled client deviceCode token es) : Polled client deviceCode token (front ++ es) :=
  polledMono (List.subset_append_right front es) polled

/- The code that was polled for is the one that the user was shown. -/
structure Granted (client : OidcClient) (device : DeviceAuthResponse) (token : TokenResponse)
    (es : List (Event oidcCalls)) : Prop where
  issued : ∃ t form, (⟨t,.http (.deviceCode client.endpoints.deviceAuthorizationEndpoint form),.ok device⟩ :
    Event oidcCalls) ∈ es
  shown : ∃ t, (⟨t,.display device.userCode device.verificationUri,()⟩ : Event oidcCalls) ∈ es
  polled : Polled client device.deviceCode token es

theorem grantedMono {client device token} {es es' : List (Event oidcCalls)} (grows : es ⊆ es')
    (granted : Granted client device token es) : Granted client device token es' := by
  obtain ⟨⟨t,form,issued⟩,⟨t',shown⟩,polled⟩ := granted
  exact ⟨⟨t,form,grows issued⟩,⟨t',grows shown⟩,polledMono grows polled⟩

theorem pollTokenPlays {client : OidcClient} {deviceCode : String} {token es}
    (played : Plays (Oidc.pollForToken client deviceCode) es (.ok token)) : Polled client deviceCode token es := by
  rcases playsAttempt played with ⟨front,answer,back,rfl,sent,later⟩ | ⟨e,-,never⟩
  · obtain ⟨t,rfl⟩ := sentPlays sent
    split at later
    · rename_i ok
      cases later
      exact ⟨t,_,answer,List.mem_cons_self,by simp,ok⟩
    · cases later
  · cases never

theorem attemptOk {α : Type} {p : Flow α} {es a} (played : Plays (Oidc.attempt p) es (.ok (.ok a))) : Plays p es (.ok a) := by
  obtain ⟨r,inner,same⟩ := playsAfter played
  rcases r with (e | -) | a'
  · cases same
  · cases same
  · cases same
    exact inner

theorem loopPolled {b : Build} {client : OidcClient} {deviceCode : String} {deadline rounds : Nat} {interval : UInt64}
    {token es} (played : Plays (Oidc.pollLoop b client deviceCode deadline rounds interval) es (.ok (some token))) :
    Polled client deviceCode token es := by
  induction rounds generalizing interval es with
  | zero => cases played
  | succ rounds ih =>
    obtain ⟨slept,rest,rfl,awake⟩ := DeviceFlow.sleepPlays played
    obtain ⟨t,instant,rest,rfl,turn⟩ := DeviceFlow.nowPlays awake
    refine polledLater [⟨slept,.sleep interval,()⟩,⟨t,.now,instant⟩] ?_
    split at turn
    · cases turn
    · rcases playsAttempt turn with ⟨front,outcome,back,rfl,tried,later⟩ | ⟨e,-,never⟩
      · rcases outcome with e | found
        · cases e with
          | authorizationPending => exact polledLater front (ih later)
          | slowDown =>
            rcases playsAttempt later with ⟨first,next,last,rfl,-,onward⟩ | ⟨e,-,never⟩
            · exact polledLater front (polledLater first (ih onward))
            · cases never
          | _ => cases later
        · cases later
          exact (List.append_nil front).symm ▸ pollTokenPlays (attemptOk tried)
      · cases never

theorem flowGranted {b : Build} {client : OidcClient} {scope : String} {rounds : Nat} {token es}
    (played : Plays (Oidc.authenticateDeviceFlow b client scope rounds) es (.ok (some token))) :
    ∃ device, Granted client device token es := by
  rcases playsAttempt played with ⟨front,device,back,rfl,sent,later⟩ | ⟨e,-,never⟩
  · obtain ⟨t,rfl⟩ := sentPlays sent
    obtain ⟨t',rest,rfl,told⟩ := DeviceFlow.displayPlays later
    obtain ⟨t'',start,rest,rfl,started⟩ := DeviceFlow.nowPlays told
    rcases playsAttempt started with ⟨first,deadline,last,rfl,-,looped⟩ | ⟨e,-,never⟩
    · refine ⟨device,⟨t,_,List.mem_cons_self⟩,⟨t',by simp⟩,?_⟩
      exact polledLater (_ :: _ :: _ :: first) (loopPolled looped)
    · cases never
  · cases never

def Verified (jwt : Jwt) (client : OidcClient) (idToken : String) (claims : IdTokenClaims)
    (es : List (Event oidcCalls)) : Prop :=
  ∃ t keys header jwk, (⟨t,.http (.jwks client.endpoints.jwksUri),.ok keys⟩ : Event oidcCalls) ∈ es ∧
    jwt.decodeHeader idToken = some header ∧ jwk ∈ keys ∧ (∀ kid ∈ header.kid, jwk.keyId = some kid) ∧
    jwt.decode idToken jwk ⟨header.alg,client.endpoints.issuer,client.clientId⟩ = some claims

theorem verifiedMono {jwt client idToken claims} {es es' : List (Event oidcCalls)} (grows : es ⊆ es')
    (verified : Verified jwt client idToken claims es) : Verified jwt client idToken claims es' := by
  obtain ⟨t,keys,header,jwk,inside,valid⟩ := verified
  exact ⟨t,keys,header,jwk,grows inside,valid⟩

theorem orThrowPlays {α : Type} {e : OidcError} {value : Option α} {es a}
    (played : Plays (Oidc.orThrow e value) es (.ok a)) : es = [] ∧ value = some a := by
  cases value with
  | some v =>
    cases played
    exact ⟨rfl,rfl⟩
  | none => cases played

theorem keyFound {keys : List Jwk} {kid : Option String} {es jwk} (played : Plays (Oidc.findKey keys kid) es (.ok jwk)) :
    es = [] ∧ jwk ∈ keys ∧ ∀ k ∈ kid, jwk.keyId = some k := by
  cases kid with
  | some kid =>
    obtain ⟨quiet,found⟩ := orThrowPlays played
    refine ⟨quiet,List.mem_of_find?_eq_some found,fun k same => ?_⟩
    cases same
    simpa using List.find?_some found
  | none =>
    obtain ⟨quiet,first⟩ := orThrowPlays played
    exact ⟨quiet,List.mem_of_mem_head? first,fun _ never => nomatch never⟩

theorem validatedPlays {jwt : Jwt} {client : OidcClient} {idToken : String} {claims es}
    (played : Plays (Oidc.validateIdToken jwt client idToken) es (.ok claims)) : Verified jwt client idToken claims es := by
  rcases playsAttempt played with ⟨_,header,_,rfl,decoded,fetching⟩ | ⟨e,-,never⟩
  · obtain ⟨rfl,decodes⟩ := orThrowPlays decoded
    rcases playsAttempt fetching with ⟨_,keys,_,rfl,sent,choosing⟩ | ⟨e,-,never⟩
    · obtain ⟨t,rfl⟩ := sentPlays sent
      rcases playsAttempt choosing with ⟨_,jwk,_,rfl,chosen,checking⟩ | ⟨e,-,never⟩
      · obtain ⟨rfl,inside,named⟩ := keyFound chosen
        split at checking
        · obtain ⟨rfl,valid⟩ := orThrowPlays checking
          exact ⟨t,keys,header,jwk,List.mem_cons_self,decodes,inside,named,valid⟩
        · cases checking
      · cases never
    · cases never
  · cases never

def Vouched (jwt : Jwt) (client : OidcClient) (claims : IdTokenClaims) (es : List (Event oidcCalls)) : Prop :=
  ∃ front back device token idToken, es = front ++ back ∧ Granted client device token front ∧
    token.idToken = some idToken ∧ Verified jwt client idToken claims back

theorem vouchedLater {jwt client claims} {es : List (Event oidcCalls)} (earlier : List (Event oidcCalls))
    (vouched : Vouched jwt client claims es) : Vouched jwt client claims (earlier ++ es) := by
  obtain ⟨front,back,device,token,idToken,rfl,granted,valid⟩ := vouched
  refine ⟨earlier ++ front,back,device,token,idToken,(List.append_assoc ..).symm,?_,valid⟩
  exact grantedMono (List.subset_append_right ..) granted

def Matched (b : Build) (config : Config) (username sub : String) (es : List (Event calls)) : Prop :=
  sub = username ∨ ∃ front back user, es = front ++ back ∧
    Plays (lookupUserByName b config username) back (.ok (some user)) ∧ user.externalId = sub

theorem matchedLater {b : Build} {config : Config} {username sub : String} {es : List (Event calls)}
    (earlier : List (Event calls)) (matched : Matched b config username sub es) :
    Matched b config username sub (earlier ++ es) := by
  obtain direct | ⟨front,back,user,rfl,found⟩ := matched
  · exact .inl direct
  · exact .inr ⟨earlier ++ front,back,user,(List.append_assoc ..).symm,found⟩

section Entries
variable {b : Build} {config : Config} {host : Host} {rounds : Nat} {s s' : State} {es : Events} {code : Int}

theorem matchedPlays {username : String} {claims : IdTokenClaims}
    (played : Plays (matchSubject b config host username claims s) es (.ok (s',code))) :
    s'.oidcClient = s.oidcClient ∧ (code = PAM_SUCCESS → Matched b config username claims.sub (served es)) := by
  have refused : PAM_AUTH_ERR ≠ PAM_SUCCESS := by decide
  unfold matchSubject at played
  split at played
  · rename_i same
    obtain ⟨-,last⟩ := purePlays played
    cases last
    exact ⟨rfl,fun _ => .inl same⟩
  · obtain ⟨front,opened,back,rfl,-,later⟩ := bindPlaysOk played
    dsimp only at later
    split at later
    · obtain ⟨looking,rest,r,rfl,found,-,last⟩ := servicePlays later
      obtain ⟨rfl,last⟩ := purePlays last
      cases last
      refine ⟨rfl,fun success => ?_⟩
      obtain ⟨user,rfl,bound⟩ := Pam.verdictSuccess success
      exact .inr ⟨served front,served looking,user,by simp,found,bound⟩
    · obtain ⟨-,last⟩ := purePlays later
      cases last
      exact ⟨rfl,fun success => absurd success refused⟩

theorem flowPlays {client : OidcClient} {token : TokenResponse}
    (played : Plays (authenticateDeviceFlow b rounds client) es (.ok (.ok token))) :
    ∃ device, Granted client device token (met es) := by
  obtain ⟨front,back,r,rfl,flow,-,later⟩ := providerPlays played
  rcases r with e | none | token
  · cases (purePlays later).2
  · cases later
  · obtain ⟨rfl,same⟩ := purePlays later
    cases same
    rw [List.append_nil]
    exact flowGranted flow

theorem authenticatedPlays {client : OidcClient} {username : String}
    (played : Plays (authenticateWith b config host rounds client username s) es (.ok (s',code))) :
    s'.oidcClient = s.oidcClient ∧ (code = PAM_SUCCESS → ∃ claims, Vouched host.jwt client claims (met es) ∧
      Matched b config username claims.sub (served es)) := by
  have refused {es' : Events} (last : Plays (pure (s,PAM_AUTH_ERR) : Session (State × Int)) es' (.ok (s',code))) :
      s'.oidcClient = s.oidcClient ∧ (code = PAM_SUCCESS → ∃ claims, Vouched host.jwt client claims (met es) ∧
        Matched b config username claims.sub (served es)) := by
    obtain ⟨-,same⟩ := purePlays last
    cases same
    exact ⟨rfl,fun never => absurd never (by decide)⟩
  obtain ⟨front,result,back,rfl,flow,later⟩ := bindPlaysOk played
  cases result with
  | error e => exact refused later
  | ok token =>
    obtain ⟨device,granted⟩ := flowPlays flow
    dsimp only at later
    split at later
    · exact refused later
    · rename_i idToken raw
      obtain ⟨validating,rest,r,rfl,valid,-,last⟩ := providerPlays later
      cases r with
      | error e => exact refused last
      | ok claims =>
        obtain ⟨kept,matched⟩ := matchedPlays last
        refine ⟨kept,fun success => ⟨claims,⟨met front,_,device,token,idToken,metAppend ..,granted,raw,?_⟩,?_⟩⟩
        · rw [metAppend]
          exact verifiedMono (List.subset_append_left ..) (validatedPlays valid)
        · rw [servedAppend,servedAppend]
          exact matchedLater _ (matchedLater _ (matched success))

theorem clientPlays {client : Option OidcClient} (played : Plays (getOidcClient host s) es (.ok client)) :
    (s.oidcClient = some client ∧ es = []) ∨ (s.oidcClient = none ∧ ∀ c, client = some c →
      ∃ loaded, host.loaded = .ok loaded ∧ Discovered loaded.oidc c (met es)) := by
  rcases s with ⟨- | cell,opened⟩
  · refine .inr ⟨rfl,?_⟩
    rintro c rfl
    rw [getOidcClient] at played
    split at played
    · cases (purePlays played).2
    · rename_i loaded found
      refine ⟨loaded,found,?_⟩
      obtain ⟨front,back,r,rfl,asked,-,later⟩ := providerPlays played
      cases r with
      | error e => cases (purePlays later).2
      | ok c' =>
        obtain ⟨rfl,same⟩ := purePlays later
        cases same
        rw [List.append_nil]
        split at asked
        · rename_i insecure
          have plain := discoverPlays asked
          exact ⟨plain.fetched,plain.issuer,fun secure => absurd (secure.symm.trans insecure) (by decide),plain.credentials⟩
        · have checked := discoverPlays asked
          exact ⟨checked.fetched,checked.issuer,fun _ => checked.https rfl,checked.credentials⟩
  · obtain ⟨quiet,same⟩ := purePlays played
    exact .inl ⟨congrArg some same.symm,quiet⟩

end Entries

inductive Entry where
  | authenticate (getPamUser : Option String)
  | acctMgmt (getPamUser : Option String)
  | setcred
  | chauthtok

def enter (b : Build) (config : Config) (host : Host) (rounds : Nat) : Entry → State → Session (State × Int)
  | .authenticate getPamUser, s => authenticateImpl b config host rounds getPamUser s
  | .acctMgmt getPamUser, s => acctMgmtImpl b config host getPamUser s
  | .setcred, s => pamSmSetcred s
  | .chauthtok, s => (fun reply => (reply.1,reply.2.2)) <$> chauthtokImpl host s

inductive Life (b : Build) (config : Config) (start : State) : List Host → Events → State → Prop where
  | idle : Life b config start [] [] start
  | call {hosts past s} (before : Life b config start hosts past s) (host : Host) (rounds : Nat) (entry : Entry)
      {es s' code} (played : Plays (enter b config host rounds entry s) es (.ok (s',code))) :
      Life b config start (host :: hosts) (past ++ es) s'

/- The client in the module, if there is one, was discovered with a configuration of one of the hosts. -/
def Founded (hosts : List Host) (s : State) (es : Events) : Prop := ∀ client, s.oidcClient = some (some client) →
  ∃ host ∈ hosts, ∃ loaded, host.loaded = .ok loaded ∧ Discovered loaded.oidc client (met es)

section Life
variable {b : Build} {config : Config} {host : Host} {hosts : List Host} {rounds : Nat} {s s' : State} {past es : Events}
  {code : Int}

theorem foundedMono (founded : Founded hosts s past) (same : s'.oidcClient = s.oidcClient) :
    Founded (host :: hosts) s' (past ++ es) := by
  intro client cell
  obtain ⟨host',inside,loaded,found,discovered⟩ := founded client (same.symm.trans cell)
  refine ⟨host',List.mem_cons_of_mem _ inside,loaded,found,?_⟩
  rw [metAppend]
  exact discoveredMono (List.subset_append_left ..) discovered

theorem clientFounded {client : Option OidcClient} {back : Events} (founded : Founded hosts s past)
    (played : Plays (getOidcClient host s) es (.ok client)) (same : s'.oidcClient = some client) :
    Founded (host :: hosts) s' (past ++ (es ++ back)) := by
  obtain ⟨cell,rfl⟩ | ⟨-,fresh⟩ := clientPlays played
  · exact foundedMono founded (same.trans cell.symm)
  · intro c cell
    obtain ⟨loaded,found,discovered⟩ := fresh c (Option.some.inj (same.symm.trans cell))
    refine ⟨host,List.mem_cons_self,loaded,found,discoveredMono ?_ discovered⟩
    rw [metAppend,metAppend]
    exact List.subset_append_of_subset_right _ (List.subset_append_left ..)

theorem acctMgmtPlays {getPamUser : Option String}
    (played : Plays (acctMgmtImpl b config host getPamUser s) es (.ok (s',code))) : s'.oidcClient = s.oidcClient := by
  cases getPamUser with
  | none =>
    cases (purePlays played).2
    rfl
  | some username =>
    obtain ⟨front,opened,back,rfl,-,later⟩ := bindPlaysOk played
    dsimp only at later
    split at later
    · obtain ⟨_,_,_,rfl,-,-,last⟩ := servicePlays later
      cases (purePlays last).2
      rfl
    · cases (purePlays later).2
      rfl

theorem chauthtokPlays {reply : Option String × Int} (played : Plays (chauthtokImpl host s) es (.ok (s',reply))) :
    ∃ client, Plays (getOidcClient host s) es (.ok client) ∧ s' = { s with oidcClient := some client } := by
  obtain ⟨front,client,back,rfl,first,later⟩ := bindPlaysOk played
  dsimp only at later
  split at later
  all_goals
    obtain ⟨rfl,last⟩ := purePlays later
    cases last
    rw [List.append_nil]
    exact ⟨_,first,rfl⟩

theorem authenticatePlays {username : String}
    (played : Plays (authenticateImpl b config host rounds (some username) s) es (.ok (s',code))) :
    ∃ front back client, es = front ++ back ∧ Plays (getOidcClient host s) front (.ok client) ∧
      s'.oidcClient = some client ∧ (code = PAM_SUCCESS → ∃ c claims, client = some c ∧
        Vouched host.jwt c claims (met es) ∧ Matched b config username claims.sub (served es)) := by
  obtain ⟨front,client,back,rfl,first,later⟩ := bindPlaysOk played
  refine ⟨front,back,client,rfl,first,?_⟩
  cases client with
  | none =>
    obtain ⟨-,last⟩ := purePlays later
    cases last
    exact ⟨rfl,fun never => absurd never (by decide)⟩
  | some c =>
    obtain ⟨kept,success⟩ := authenticatedPlays later
    refine ⟨kept,fun ok => ?_⟩
    obtain ⟨claims,vouched,matched⟩ := success ok
    refine ⟨c,claims,rfl,?_,?_⟩
    · rw [metAppend]
      exact vouchedLater _ vouched
    · rw [servedAppend]
      exact matchedLater _ matched

theorem entryFounded {entry : Entry} (founded : Founded hosts s past)
    (played : Plays (enter b config host rounds entry s) es (.ok (s',code))) :
    Founded (host :: hosts) s' (past ++ es) := by
  cases entry with
  | authenticate getPamUser =>
    cases getPamUser with
    | none =>
      cases (purePlays played).2
      exact foundedMono founded rfl
    | some username =>
      obtain ⟨front,back,client,rfl,first,cell,-⟩ := authenticatePlays played
      exact clientFounded founded first cell
  | acctMgmt getPamUser => exact foundedMono founded (acctMgmtPlays played)
  | setcred =>
    cases (purePlays played).2
    exact foundedMono founded rfl
  | chauthtok =>
    obtain ⟨r,inner,same⟩ := playsMap played
    cases r <;> cases same
    obtain ⟨client,first,set⟩ := chauthtokPlays inner
    rw [← List.append_nil es]
    exact clientFounded founded first (congrArg State.oidcClient set)

theorem lifeFounded (life : Life b config unset hosts past s) : Founded hosts s past := by
  induction life with
  | idle => exact fun _ never => nomatch never
  | call before host rounds entry played ih => exact entryFounded ih played

theorem loginAuthentic (life : Life b config unset hosts past s) (username : String)
    (played : Plays (authenticateImpl b config host rounds (some username) s) es (.ok (s',PAM_SUCCESS))) :
    ∃ found ∈ host :: hosts, ∃ loaded client claims, found.loaded = .ok loaded ∧
      Discovered loaded.oidc client (met (past ++ es)) ∧ Vouched host.jwt client claims (met es) ∧
      Matched b config username claims.sub (served es) := by
  obtain ⟨front,back,client,rfl,first,cell,success⟩ := authenticatePlays played
  obtain ⟨c,claims,rfl,vouched,matched⟩ := success rfl
  obtain ⟨found,inside,loaded,same,discovered⟩ := clientFounded (lifeFounded life) first cell c cell
  exact ⟨found,inside,loaded,c,claims,same,discovered,vouched,matched⟩

end Life

section Example

def reply : (c : loginCalls.Call) → Db → loginCalls.Resp c × Db
  | .inl (.http (.discovery _)), db =>
      (.ok ⟨some "https://idp",some "https://idp/token",some "https://idp/device",some "https://idp/jwks"⟩,db)
  | .inl (.http (.deviceCode _ _)), db => (.ok sampleDevice,db)
  | .inl (.http (.token _ _)), db => (.ok ⟨200,.ok ⟨"access",some "jwt","Bearer"⟩,.ok "",none⟩,db)
  | .inl (.http (.jwks _)), db => (.ok [⟨none,"key"⟩],db)
  | .inl (.display _ _), db => ((),db)
  | .inl (.sleep _), db => ((),db)
  | .inl .now, db => (show Nat from 0,db)
  | .inr (.scim (.userByName name)), db => (.ok (if name = "ann" then some ann else none),db)
  | .inr (.scim (.groupByName _)), db => (.error .http,db)
  | .inr (.scim .listUsers), db => (.error .http,db)
  | .inr (.scim .listGroups), db => (.error .http,db)
  | .inr (.sql st), db => execute 0 false db st

def sampleHost : Host where
  agent := ⟨fun _ => true⟩
  jwt := ⟨fun _ => some ⟨none,"RS256"⟩,fun _ => true,fun _ _ _ => some ⟨"u2","https://idp",0,none⟩⟩
  loaded := .ok {
    scim := ⟨"https://scim","/etc/sssd-oidc/scim-token","token"⟩
    oidc := ⟨"https://idp","nss",none,false⟩
    cache := ⟨⟨3600,ConfigFile.hourFits⟩⟩ }
  opened := true

def redirected : State := ⟨some (some sampleClient),none⟩

theorem firstCall : (run reply (enter release fourSlots sampleHost 1 .chauthtok unset) empty).1 =
    .ok (redirected,PAM_AUTHTOK_ERR) := by
  rfl

theorem secondCall : (run reply (authenticateImpl release fourSlots sampleHost 1 (some "ann") redirected) empty).1 =
    .ok (⟨some (some sampleClient),some true⟩,PAM_SUCCESS) := by
  rfl

theorem annLogsIn : ∃ past es s, Life release fourSlots unset [sampleHost] past redirected ∧
    Plays (authenticateImpl release fourSlots sampleHost 1 (some "ann") redirected) es (.ok (s,PAM_SUCCESS)) ∧
    ∃ found ∈ [sampleHost,sampleHost], ∃ loaded client claims, found.loaded = .ok loaded ∧
      Discovered loaded.oidc client (met (past ++ es)) ∧ Vouched sampleHost.jwt client claims (met es) ∧
      Matched release fourSlots "ann" claims.sub (served es) := by
  have all (c : loginCalls.Call) (db : Db) (_ : True) : True := trivial
  obtain ⟨past,first,-⟩ := runPlays (0,0) all (enter release fourSlots sampleHost 1 .chauthtok unset) trivial
  obtain ⟨es,second,-⟩ := runPlays (0,0) all (authenticateImpl release fourSlots sampleHost 1 (some "ann") redirected) trivial
  rw [firstCall] at first
  rw [secondCall] at second
  have life : Life release fourSlots unset [sampleHost] past redirected := .call .idle sampleHost 1 .chauthtok first
  exact ⟨past,es,_,life,second,loginAuthentic life "ann" second⟩

end Example

end SssdOidc.Login
