import SssdOidc.Login

/-! What a process asks of its identity provider, over the life of its PAM module: the
discovery document of the configured issuer, once, and what the client that came of it asks
for. -/
namespace SssdOidc.Requests
open Model Mapping Program Service Interfaces RelyGuarantee Login
open Oidc (Flow OidcError OidcClient IdTokenClaims Jwt Agent Request oidcCalls)
open Cache (calls Act)
open Pam (PAM_AUTH_ERR PAM_AUTHINFO_UNAVAIL)
open DeviceFlow (sendPlays)
open Stability (fourSlots)

def Own (client : OidcClient) : Request → Prop
  | .discovery _ => False
  | .deviceCode url form => url = client.endpoints.deviceAuthorizationEndpoint ∧
      form = [("client_id",client.clientId),("scope","openid")] ++ client.secret
  | .token url form => url = client.endpoints.tokenEndpoint ∧ ∃ deviceCode, form = [("client_id",client.clientId),
      ("grant_type","urn:ietf:params:oauth:grant-type:device_code"),("device_code",deviceCode)] ++ client.secret
  | .jwks url => url = client.endpoints.jwksUri

def requesting (may : Request → Prop) : Contract oidcCalls := ⟨fun c => ∀ r, c = .http r → may r,fun _ _ => True⟩

section Flows
variable {α : Type} {may : Request → Prop} {b : Build} {client : OidcClient}

theorem keepsAttempt {p : Flow α} (inner : Keeps (requesting may) p) : Keeps (requesting may) (Oidc.attempt p) :=
  keepsResult (keepsAny inner)

theorem keepsOrThrow (e : OidcError) (a : Option α) : Keeps (requesting may) (Oidc.orThrow e a) := by
  cases a with
  | none => exact keepsThrow _
  | some a => exact keepsPure a

theorem keepsArith (a : Option α) : Keeps (requesting may) (Mapping.arith a : Flow α) := by
  cases a with
  | none => exact keepsThrow _
  | some a => exact keepsPure a

theorem keepsQuiet {c : Oidc.Call} {f : oidcCalls.Resp c → Except (Halt OidcError) α} (quiet : ∀ r, c ≠ .http r) :
    Keeps (requesting may) (ExceptT.mk (perform (I := oidcCalls) c >>= fun a => pure (f a)) : Flow α) :=
  keepsCall fun r same => absurd same (quiet r)

theorem keepsSend {agent : Agent} {r : Request} (allowed : may r) : Keeps (requesting may) (Oidc.send agent r) := by
  unfold Oidc.send
  split
  · refine keepsCall fun r' same => ?_
    cases same
    exact allowed
  · exact keepsThrow _

theorem keepsRequired {name : String} {value : Option String} {f : String → Flow α}
    (later : ∀ v, Keeps (requesting may) (f v)) : Keeps (requesting may) (Oidc.required name value >>= f) := by
  refine keepsThen ?_ later
  cases value with
  | some v => exact keepsPure v
  | none => exact keepsThrow _

theorem keepsEndpoints (endpoints : List (String × String)) : Keeps (requesting may) (Oidc.checkEndpoints endpoints) := by
  induction endpoints with
  | nil => exact keepsPure ()
  | cons endpoint rest ih =>
    rw [Oidc.checkEndpoints]
    split
    · exact ih
    · exact keepsThrow _

theorem ownPoll (deviceCode : String) : Keeps (requesting (Own client)) (Oidc.pollForToken client deviceCode) := by
  refine keepsThen (keepsSend ⟨rfl,deviceCode,rfl⟩) fun answer => ?_
  cases Oidc.pollResult answer with
  | ok token => exact keepsPure token
  | error e => exact keepsThrow _

theorem ownLoop (deviceCode : String) (deadline rounds : Nat) (interval : UInt64) :
    Keeps (requesting (Own client)) (Oidc.pollLoop b client deviceCode deadline rounds interval) := by
  induction rounds generalizing interval with
  | zero => exact keepsPure none
  | succ rounds ih =>
    refine keepsThen (keepsQuiet (by simp)) fun _ => keepsThen (keepsQuiet (by simp)) fun t => ?_
    split
    · exact keepsThrow _
    · refine keepsThen (keepsAttempt (ownPoll deviceCode)) fun poll => ?_
      split
      · exact keepsPure _
      · exact ih interval
      · exact keepsThen (keepsArith _) fun next => ih next
      · exact keepsThrow _

theorem ownFlow (rounds : Nat) :
    Keeps (requesting (Own client)) (Oidc.authenticateDeviceFlow b client "openid" rounds) :=
  keepsThen (keepsSend ⟨rfl,rfl⟩) fun device => keepsThen (keepsQuiet (by simp)) fun _ =>
    keepsThen (keepsQuiet (by simp)) fun _ => keepsThen (keepsArith _) fun deadline =>
      ownLoop device.deviceCode deadline rounds _

theorem ownValidate {jwt : Jwt} (idToken : String) :
    Keeps (requesting (Own client)) (Oidc.validateIdToken jwt client idToken) := by
  refine keepsThen (keepsOrThrow _ _) fun header => keepsThen (keepsSend rfl) fun keys => keepsThen ?_ fun jwk => ?_
  · cases header.kid with
    | some kid => exact keepsOrThrow _ _
    | none => exact keepsOrThrow _ _
  · split
    · exact keepsOrThrow _ _
    · exact keepsThrow _

theorem quietDocument {agent : Agent} {issuerUrl clientId : String} {clientSecret : Option String} {requireHttps : Bool}
    {doc : Oidc.DiscoveryDocument} :
    Keeps (requesting may) (Oidc.fromDocument agent issuerUrl clientId clientSecret requireHttps doc) := by
  refine keepsRequired fun issuer => keepsRequired fun token => keepsRequired fun device => keepsRequired fun jwks => ?_
  dsimp only
  split
  · exact keepsThrow _
  · split
    · exact keepsThen (keepsEndpoints _) fun _ => keepsPure _
    · exact keepsPure _

end Flows

def requested (es : List (Event oidcCalls)) : List Request :=
  es.filterMap fun e => match e.call with
    | .http r => some r
    | _ => none

@[simp] theorem requestedAppend (front back : List (Event oidcCalls)) :
    requested (front ++ back) = requested front ++ requested back := List.filterMap_append ..

theorem mayRequest {may : Request → Prop} {es : List (Event oidcCalls)}
    (promised : ∀ e ∈ es, (requesting may).guarantee e.call) : ∀ r ∈ requested es, may r := by
  intro r inside
  obtain ⟨e,within,same⟩ := List.mem_filterMap.mp inside
  split at same
  · rename_i call
    cases same
    exact promised e within _ call
  · cases same

theorem flowRequests {α : Type} {may : Request → Prop} {p : Flow α} {es r} (keeps : Keeps (requesting may) p)
    (played : Plays p es r) : ∀ q ∈ requested es, may q :=
  mayRequest (ensuresPlays keeps played fun _ _ => trivial).2

theorem discoverRequests {agent : Agent} {issuerUrl clientId : String} {clientSecret : Option String}
    {requireHttps : Bool} {es r}
    (played : Plays (Oidc.discoverWithOptions agent issuerUrl clientId clientSecret requireHttps) es r) :
    requested es = [] ∨ requested es = [.discovery (Oidc.discoveryUrl issuerUrl)] := by
  have sent {es' r'} (asked : Plays (Oidc.send agent (.discovery (Oidc.discoveryUrl issuerUrl))) es' r') :
      requested es' = [] ∨ requested es' = [.discovery (Oidc.discoveryUrl issuerUrl)] := by
    rcases sendPlays asked with ⟨t,answer,rfl,-⟩ | ⟨rfl,-⟩
    · exact .inr rfl
    · exact .inl rfl
  rcases playsAttempt played with ⟨front,doc,back,rfl,asked,later⟩ | ⟨e,failed,-⟩
  · have never : ∀ q ∈ requested back, False := flowRequests quietDocument later
    rw [requestedAppend,List.eq_nil_iff_forall_not_mem.mpr never,List.append_nil]
    exact sent asked
  · exact sent failed

section Sessions
variable {may : Request → Prop} {b : Build} {config : Config} {host : Host} {rounds : Nat} {s s' : State} {es : Events}
  {code : Int}

theorem serviceFree : ServiceKeeps (anyContract calls) b config :=
  ⟨keepsFree,fun _ => keepsFree,fun _ => keepsFree⟩

theorem ownAuthenticate {client : OidcClient} {username : String} :
    Keeps (onLeft (requesting (Own client))) (authenticateWith b config host rounds client username s) :=
  keepsAuthenticate ⟨ownFlow rounds,ownValidate⟩ serviceFree

theorem sessionRequests {α : Type} {p : Session α} {r} (keeps : Keeps (onLeft (requesting may)) p)
    (played : Plays p es r) : ∀ q ∈ requested (met es), may q := by
  have relied : ∀ e ∈ es, (onLeft (requesting may)).rely e.call e.resp := by
    rintro ⟨t,c | c,r⟩ _ <;> trivial
  exact mayRequest (leftPromised (ensuresPlays keeps played relied).2)

theorem nothingRequested {α : Type} {p : Session α} {r} (keeps : Keeps (onLeft (requesting fun _ => False)) p)
    (played : Plays p es r) : requested (met es) = [] :=
  List.eq_nil_iff_forall_not_mem.mpr (sessionRequests keeps played)

theorem clientRequests {client : Option OidcClient} (played : Plays (getOidcClient host s) es (.ok client)) :
    requested (met es) = [] ∨ ∃ loaded, host.loaded = .ok loaded ∧
      requested (met es) = [.discovery (Oidc.discoveryUrl loaded.oidc.issuerUrl)] := by
  rcases s with ⟨- | cell,opened⟩
  · rw [getOidcClient] at played
    split at played
    · rw [(purePlays played).1]
      exact .inl rfl
    · rename_i loaded found
      obtain ⟨front,back,r,rfl,asked,-,later⟩ := providerPlays played
      have last : back = [] := by
        cases r with
        | error e => exact (purePlays later).1
        | ok c => exact (purePlays later).1
      have requests : requested (met front) = [] ∨
          requested (met front) = [.discovery (Oidc.discoveryUrl loaded.oidc.issuerUrl)] := by
        split at asked
        · exact discoverRequests asked
        · exact discoverRequests asked
      rw [last,List.append_nil]
      exact requests.imp id fun same => ⟨loaded,found,same⟩
  · rw [(purePlays played).1]
    exact .inl rfl

/- One call of an entry point: the cell stays, and only its client asks; or it was empty and
is set now, after the document was asked for at most. -/
inductive Asked (host : Host) (s s' : State) (es : Events) : Prop where
  | kept (same : s'.oidcClient = s.oidcClient)
      (own : ∀ r ∈ requested (met es), ∃ client, s.oidcClient = some (some client) ∧ Own client r)
  | set {front : List Request} (empty : s.oidcClient = none) (set : s'.oidcClient.isSome)
      (first : front = [] ∨ ∃ loaded, host.loaded = .ok loaded ∧
        front = [.discovery (Oidc.discoveryUrl loaded.oidc.issuerUrl)])
      {back : List Request} (split : requested (met es) = front ++ back)
      (own : ∀ r ∈ back, ∃ client, s'.oidcClient = some (some client) ∧ Own client r)

theorem clientAsked {client : Option OidcClient} {back : Events} (played : Plays (getOidcClient host s) es (.ok client))
    (same : s'.oidcClient = some client)
    (own : ∀ r ∈ requested (met back), ∃ c, client = some c ∧ Own c r) : Asked host s s' (es ++ back) := by
  obtain ⟨cell,rfl⟩ | ⟨empty,-⟩ := clientPlays played
  · refine .kept (same.trans cell.symm) fun r inside => ?_
    obtain ⟨c,rfl,mine⟩ := own r inside
    exact ⟨c,cell,mine⟩
  · refine .set empty (by rw [same,Option.isSome_some]) (clientRequests played) (metAppend .. ▸ requestedAppend ..)
      fun r inside => ?_
    obtain ⟨c,rfl,mine⟩ := own r inside
    exact ⟨c,same,mine⟩

theorem entryAsked {entry : Entry} (played : Plays (enter b config host rounds entry s) es (.ok (s',code))) :
    Asked host s s' es := by
  have quiet {es' : Events} (none : requested (met es') = []) : Asked host s s es' :=
    .kept rfl fun r inside => absurd inside (by simp [none])
  cases entry with
  | authenticate getPamUser =>
    cases getPamUser with
    | none =>
      obtain ⟨rfl,same⟩ := purePlays played
      cases same
      exact quiet rfl
    | some username =>
      obtain ⟨front,client,back,rfl,first,later⟩ := bindPlaysOk played
      cases client with
      | none =>
        obtain ⟨rfl,same⟩ := purePlays later
        cases same
        exact clientAsked first rfl fun r never => nomatch never
      | some client =>
        exact clientAsked first (authenticatedPlays later).1
          fun r inside => ⟨client,rfl,sessionRequests ownAuthenticate later r inside⟩
  | acctMgmt getPamUser =>
    refine .kept (acctMgmtPlays played) fun r inside => ?_
    rw [nothingRequested (keepsAcctMgmt serviceFree) played] at inside
    exact nomatch inside
  | setcred =>
    obtain ⟨rfl,same⟩ := purePlays played
    cases same
    exact quiet rfl
  | chauthtok =>
    obtain ⟨r,inner,same⟩ := playsMap played
    cases r <;> cases same
    obtain ⟨client,first,set⟩ := chauthtokPlays inner
    rw [← List.append_nil es]
    exact clientAsked first (congrArg State.oidcClient set) fun r never => nomatch never

end Sessions

def isDiscovery : Request → Bool
  | .discovery _ => true
  | _ => false

theorem ownOther {client : OidcClient} {r : Request} (own : Own client r) : isDiscovery r = false := by
  cases r with
  | discovery url => exact own.elim
  | deviceCode url form => rfl
  | token url form => rfl
  | jwks url => rfl

def discoveries (es : Events) : Nat := (requested (met es)).countP isDiscovery

theorem discoveriesAppend (front back : Events) : discoveries (front ++ back) = discoveries front + discoveries back := by
  rw [discoveries,metAppend,requestedAppend]
  exact List.countP_append

theorem ownUncounted {cell : Option (Option OidcClient)} {rs : List Request}
    (own : ∀ r ∈ rs, ∃ client, cell = some (some client) ∧ Own client r) : rs.countP isDiscovery = 0 := by
  refine List.countP_eq_zero.mpr fun r inside => ?_
  obtain ⟨client,-,mine⟩ := own r inside
  rw [ownOther mine]
  exact Bool.false_ne_true

section Life
variable {b : Build} {config : Config} {host : Host} {hosts : List Host} {s s' : State} {past es : Events}

theorem askedOnce (asked : Asked host s s' es) : (s'.oidcClient = s.oidcClient ∧ discoveries es = 0) ∨
    (s.oidcClient = none ∧ s'.oidcClient.isSome ∧ discoveries es ≤ 1) := by
  cases asked with
  | kept same own => exact .inl ⟨same,ownUncounted own⟩
  | set empty set first split own =>
    refine .inr ⟨empty,set,?_⟩
    rw [discoveries,split,List.countP_append,ownUncounted own]
    obtain rfl | ⟨loaded,-,rfl⟩ := first
    · exact Nat.zero_le 1
    · exact Nat.le_refl 1

theorem lifeKeeps {start : State} {client : Option OidcClient} (set : start.oidcClient = some client)
    (life : Life b config start hosts past s) : s.oidcClient = some client := by
  induction life with
  | idle => exact set
  | call before host rounds entry played ih =>
    obtain ⟨same,-⟩ | ⟨empty,-⟩ := askedOnce (entryAsked played)
    · exact same.trans ih
    · exact nomatch empty.symm.trans ih

theorem lifeOnce (life : Life b config unset hosts past s) :
    discoveries past ≤ if s.oidcClient.isSome then 1 else 0 := by
  induction life with
  | idle => exact Nat.le_refl 0
  | call before host rounds entry played ih =>
    rw [discoveriesAppend]
    obtain ⟨same,silent⟩ | ⟨empty,set,once⟩ := askedOnce (entryAsked played)
    · rw [same,silent]
      exact ih
    · rw [if_pos set]
      rw [empty] at ih
      exact Nat.add_le_add ih once

/- A process asks for the discovery document once, and a failure is as final as a success:
whoever then has a user name is told that the provider is not there. -/
theorem oneDiscovery (life : Life b config unset hosts past s) : discoveries past ≤ 1 ∧
    (s.oidcClient = some none → ∀ later events s', Life b config s later events s' →
      ∀ host rounds username es out, Plays (authenticateImpl b config host rounds (some username) s') es (.ok out) →
        es = [] ∧ out = (s',PAM_AUTHINFO_UNAVAIL)) := by
  constructor
  · refine Nat.le_trans (lifeOnce life) ?_
    split
    · exact Nat.le_refl 1
    · exact Nat.zero_le 1
  · intro failed later events s' onward host rounds username es out played
    have held := lifeKeeps failed onward
    obtain ⟨front,client,back,rfl,first,last⟩ := bindPlaysOk played
    obtain ⟨same,rfl⟩ | ⟨empty,-⟩ := clientPlays first
    · cases Option.some.inj (same.symm.trans held)
      obtain ⟨rfl,rfl⟩ := purePlays last
      refine ⟨rfl,?_⟩
      rw [← held]
    · exact nomatch empty.symm.trans held

def Accounted (hosts : List Host) (s : State) (r : Request) : Prop :=
  (∃ host ∈ hosts, ∃ loaded, host.loaded = .ok loaded ∧ r = .discovery (Oidc.discoveryUrl loaded.oidc.issuerUrl)) ∨
  ∃ client, s.oidcClient = some (some client) ∧ Own client r

theorem accountedLater {r : Request} (kept : s.oidcClient = none ∨ s'.oidcClient = s.oidcClient)
    (accounted : Accounted hosts s r) : Accounted (host :: hosts) s' r := by
  obtain ⟨host',inside,found⟩ | ⟨client,cell,own⟩ := accounted
  · exact .inl ⟨host',List.mem_cons_of_mem _ inside,found⟩
  · obtain empty | same := kept
    · exact nomatch empty.symm.trans cell
    · exact .inr ⟨client,same.trans cell,own⟩

theorem askedAccounted {r : Request} (asked : Asked host s s' es) (inside : r ∈ requested (met es)) :
    Accounted (host :: hosts) s' r := by
  cases asked with
  | kept same own =>
    obtain ⟨client,cell,mine⟩ := own r inside
    exact .inr ⟨client,same.trans cell,mine⟩
  | set empty set first split own =>
    rw [split] at inside
    obtain early | late := List.mem_append.mp inside
    · obtain rfl | ⟨loaded,found,rfl⟩ := first
      · exact nomatch early
      · exact .inl ⟨host,List.mem_cons_self,loaded,found,List.mem_singleton.mp early⟩
    · exact .inr (own r late)

theorem lifeAccounted (life : Life b config unset hosts past s) : ∀ r ∈ requested (met past), Accounted hosts s r := by
  induction life with
  | idle => exact fun _ never => nomatch never
  | call before host rounds entry played ih =>
    intro r inside
    rw [metAppend,requestedAppend] at inside
    have asked := entryAsked played
    obtain old | new := List.mem_append.mp inside
    · refine accountedLater ?_ (ih r old)
      obtain ⟨same,-⟩ | ⟨empty,-⟩ := askedOnce asked
      · exact .inr same
      · exact .inl empty
    · exact askedAccounted asked new

theorem ownHttps {loaded : ConfigFile.OidcConfig} {client : OidcClient} {es : List (Event oidcCalls)} {r : Request}
    (discovered : Discovered loaded client es) (own : Own client r) (strict : loaded.allowInsecure = false) :
    Oidc.startsWith "https://" r.url = true := by
  have https := discovered.https strict
  cases r with
  | discovery url => exact own.elim
  | deviceCode url form =>
    obtain ⟨rfl,-⟩ := own
    exact https.device
  | token url form =>
    obtain ⟨rfl,-⟩ := own
    exact https.token
  | jwks url =>
    cases own
    exact https.jwks

theorem requestsAccounted (life : Life b config unset hosts past s) (r : Request) (inside : r ∈ requested (met past)) :
    ∃ host ∈ hosts, ∃ loaded, host.loaded = .ok loaded ∧
      (r = .discovery (Oidc.discoveryUrl loaded.oidc.issuerUrl) ∨
        ∃ client, Discovered loaded.oidc client (met past) ∧ Own client r ∧
          (loaded.oidc.allowInsecure = false → Oidc.startsWith "https://" r.url = true)) := by
  obtain ⟨host,known,loaded,found,same⟩ | ⟨client,cell,own⟩ := lifeAccounted life r inside
  · exact ⟨host,known,loaded,found,.inl same⟩
  · obtain ⟨host,known,loaded,found,discovered⟩ := lifeFounded life client cell
    exact ⟨host,known,loaded,found,.inr ⟨client,discovered,own,ownHttps discovered own⟩⟩

end Life

section Example

def unreached : Event loginCalls :=
  ⟨(0,0),.inl (.http (.discovery "https://idp/.well-known/openid-configuration")),.error .io⟩

theorem failedOnce : discoveries [unreached] ≤ 1 ∧
    (State.oidcClient ⟨some none,none⟩ = some none → ∀ later events s', Life release fourSlots ⟨some none,none⟩ later events s' →
      ∀ host rounds username es out, Plays (authenticateImpl release fourSlots host rounds (some username) s') es (.ok out) →
        es = [] ∧ out = (s',PAM_AUTHINFO_UNAVAIL)) := by
  have first : Plays (enter release fourSlots sampleHost 1 (.authenticate (some "ann")) unset) [unreached]
      (.ok (⟨some none,none⟩,PAM_AUTHINFO_UNAVAIL)) := .call (.ret _)
  exact oneDiscovery (.call .idle sampleHost 1 (.authenticate (some "ann")) first)

def deviceRequest : Request := .deviceCode "https://idp/device" [("client_id","nss"),("scope","openid")]

def turnedAway : Events :=
  [⟨(0,0),.inl (.http (.discovery "https://idp/.well-known/openid-configuration")),
    .ok ⟨some "https://idp",some "https://idp/token",some "https://idp/device",some "https://idp/jwks"⟩⟩,
   ⟨(1,0),.inl (.http deviceRequest),.error .http⟩]

theorem turnedAwayAccounted : ∃ host ∈ [sampleHost], ∃ loaded, host.loaded = .ok loaded ∧
    (deviceRequest = .discovery (Oidc.discoveryUrl loaded.oidc.issuerUrl) ∨
      ∃ client, Discovered loaded.oidc client (met turnedAway) ∧ Own client deviceRequest ∧
        (loaded.oidc.allowInsecure = false → Oidc.startsWith "https://" deviceRequest.url = true)) := by
  have refused : Plays (enter release fourSlots sampleHost 1 (.authenticate (some "ann")) unset) turnedAway
      (.ok (redirected,PAM_AUTH_ERR)) := .call (.call (.ret _))
  exact requestsAccounted (.call .idle sampleHost 1 (.authenticate (some "ann")) refused) deviceRequest (.tail _ (.head _))

end Example

end SssdOidc.Requests
