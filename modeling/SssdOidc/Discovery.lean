import Mathlib.Data.List.Infix
import SssdOidc.Oidc

/-! Where a discovered client goes: the endpoints that `discover` has checked, and the
discovery document itself, which it fetches before any check. -/
namespace SssdOidc.Discovery
open Mapping Program Oidc

def Https (c : Oidc.Call) : Prop := ∀ r, c = .http r → startsWith "https://" r.url = true

def Secure {α : Type} (p : Flow α) : Prop := ∀ tr, Follows (fun _ c => Https c) (fun _ _ => True) p tr

section Secure
variable {α β : Type}

theorem securePure (a : α) : Secure (pure a) := fun _ => trivial

theorem secureThrow (h : Halt OidcError) : Secure (throw h : Flow α) := fun _ => trivial

theorem secureBind {p : Flow α} {f : α → Flow β} (first : Secure p) (then' : ∀ a, Secure (f a)) :
    Secure (p >>= f) := by
  intro tr
  refine followsAttempt (followsMono (first tr) ?_)
  intro tr' r _
  cases r with
  | ok a => exact then' a tr'
  | error e => trivial

theorem secureAttempt {p : Flow α} (inner : Secure p) : Secure (attempt p) := by
  intro tr
  exact followsBind (followsMono (inner tr) fun _ _ _ => trivial)

theorem secureOrThrow (e : OidcError) (a : Option α) : Secure (orThrow e a) := by
  cases a with
  | none => exact secureThrow _
  | some a => exact securePure a

theorem secureArith (a : Option α) : Secure (arith a : Flow α) := by
  cases a with
  | none => exact secureThrow _
  | some a => exact securePure a

theorem secureSend {agent : Agent} {r : Request} (https : startsWith "https://" r.url = true) : Secure (send agent r) := by
  intro tr
  unfold send
  split
  · exact ⟨fun _ same => by cases same; exact https,fun _ _ => trivial⟩
  · trivial

theorem secureQuiet {c : Oidc.Call} (quiet : ∀ r, c ≠ .http r) (f : oidcCalls.Resp c → Except (Halt OidcError) α) :
    Secure (ExceptT.mk (perform (I := oidcCalls) c >>= fun a => pure (f a))) :=
  fun _ => ⟨fun r same => absurd same (quiet r),fun _ _ => trivial⟩

end Secure

structure HttpsEndpoints (client : OidcClient) : Prop where
  device : startsWith "https://" client.endpoints.deviceAuthorizationEndpoint = true
  token : startsWith "https://" client.endpoints.tokenEndpoint = true
  jwks : startsWith "https://" client.endpoints.jwksUri = true

structure Confined (b : Build) (jwt : Jwt) (client : OidcClient) : Prop where
  requestDeviceCode : ∀ scope, Secure (requestDeviceCode client scope)
  pollForToken : ∀ deviceCode, Secure (pollForToken client deviceCode)
  authenticateDeviceFlow : ∀ scope rounds, Secure (authenticateDeviceFlow b client scope rounds)
  validateIdToken : ∀ idToken, Secure (validateIdToken jwt client idToken)

section Client
variable {b : Build} {jwt : Jwt} {client : OidcClient}

theorem securePoll (https : HttpsEndpoints client) (deviceCode : String) : Secure (pollForToken client deviceCode) := by
  refine secureBind (secureSend https.token) fun answer => ?_
  cases pollResult answer with
  | ok token => exact securePure token
  | error e => exact secureThrow _

theorem secureLoop (https : HttpsEndpoints client) (deviceCode : String) (deadline rounds : Nat) (interval : UInt64) :
    Secure (pollLoop b client deviceCode deadline rounds interval) := by
  induction rounds generalizing interval with
  | zero => exact securePure none
  | succ rounds ih =>
    refine secureBind (secureQuiet (by simp) _) fun _ => secureBind (secureQuiet (by simp) _) fun t => ?_
    split
    · exact secureThrow _
    · refine secureBind (secureAttempt (securePoll https deviceCode)) fun poll => ?_
      split
      · exact securePure _
      · exact ih interval
      · exact secureBind (secureArith _) fun next => ih next
      · exact secureThrow _

theorem confined (https : HttpsEndpoints client) : Confined b jwt client where
  requestDeviceCode := fun _ => secureSend https.device
  pollForToken := securePoll https
  authenticateDeviceFlow := fun _ rounds =>
    secureBind (secureSend https.device) fun device => secureBind (secureQuiet (by simp) _) fun _ =>
      secureBind (secureQuiet (by simp) _) fun _ => secureBind (secureArith _) fun deadline =>
        secureLoop https device.deviceCode deadline rounds _
  validateIdToken := fun _ =>
    secureBind (secureOrThrow _ _) fun _ => secureBind (secureSend https.jwks) fun keys => by
      refine secureBind ?_ fun jwk => ?_
      · unfold findKey
        split
        · exact secureOrThrow _ _
        · exact secureOrThrow _ _
      · split
        · exact secureOrThrow _ _
        · exact secureThrow _

end Client

theorem startsIff {pattern s : String} : startsWith pattern s = true ↔ pattern.toList <+: s.toList :=
  List.isPrefixOf_iff_prefix

theorem trimSlashesLast (s : String) : (trimSlashes s).toList.getLast? ≠ some '/' := by
  rw [trimSlashes,String.toList_ofList,List.getLast?_reverse]
  intro first
  have slash := List.head?_dropWhile_not (fun c : Char => decide (c = '/')) s.toList.reverse
  rw [first] at slash
  simp at slash

/- The path behind the issuer begins with a single slash, which cannot complete the scheme. -/
theorem schemeBefore {c : List Char} (trimmed : c.getLast? ≠ some '/') :
    "https://".toList <+: c ++ "/.well-known/openid-configuration".toList ↔ "https://".toList <+: c := by
  constructor
  · intro starts
    rcases Nat.lt_or_ge c.length 8 with short | long
    · have inside : c <+: "https://".toList :=
        List.prefix_of_prefix_length_le (List.prefix_append c _) starts (by simpa using Nat.le_of_lt short)
      have cut := List.prefix_iff_eq_take.mp inside
      have rest : ("https://".toList.drop c.length) <+: "/.well-known/openid-configuration".toList := by
        rw [← List.take_append_drop c.length "https://".toList,← cut] at starts
        exact (List.prefix_append_right_inj c).mp starts
      have slash : ∀ n < 8, ("https://".toList.drop n) <+: "/.well-known/openid-configuration".toList →
          ("https://".toList.take n).getLast? = some '/' := by decide
      rw [cut] at trimmed
      exact absurd (slash c.length short rest) trimmed
    · exact List.prefix_of_prefix_length_le starts (List.prefix_append c _) (by simpa using long)
  · intro starts
    exact starts.trans (List.prefix_append c _)

theorem discoveryUrlHttps (issuerUrl : String) :
    startsWith "https://" (discoveryUrl issuerUrl) = true ↔ startsWith "https://" (trimSlashes issuerUrl) = true := by
  rw [startsIff,startsIff,discoveryUrl,String.toList_append]
  exact schemeBefore (trimSlashesLast issuerUrl)

section Discover
variable {agent : Agent} {issuerUrl clientId : String} {clientSecret : Option String}

structure Discovered (agent : Agent) (issuerUrl : String) (tr : Trace oidcCalls) (client : OidcClient) : Prop where
  sent : agent.sends (discoveryUrl issuerUrl) = true
  fetched : ∃ t doc, tr = [⟨t,.http (.discovery (discoveryUrl issuerUrl)),.ok doc⟩]
  https : HttpsEndpoints client
  issuer : trimSlashes client.endpoints.issuer = trimSlashes issuerUrl

theorem followsRequired {α : Type} {done : Trace oidcCalls → Except (Halt OidcError) α → Prop} {name : String}
    {value : Option String} {f : String → Flow α} {tr} (present : ∀ v, Follows (fun _ _ => True) done (f v) tr)
    (fails : ∀ e, done tr (.error e)) : Follows (fun _ _ => True) done (required name value >>= f : Flow α) tr := by
  refine followsAttempt ?_
  cases value with
  | none => exact fails _
  | some v => exact present v

theorem followsEndpoints {endpoints : List (String × String)} {tr} :
    Follows (fun _ _ => True) (fun tr' r => tr' = tr ∧ (r = .ok () →
      ∀ endpoint ∈ endpoints, startsWith "https://" endpoint.2 = true)) (checkEndpoints endpoints) tr := by
  induction endpoints with
  | nil => exact ⟨rfl,by simp⟩
  | cons first rest ih =>
    unfold checkEndpoints
    split
    · rename_i https
      refine followsMono ih ?_
      intro tr' r known
      obtain ⟨same,later⟩ := known
      exact ⟨same,fun ok => List.forall_mem_cons.mpr ⟨https,later ok⟩⟩
    · exact ⟨rfl,fun never => by cases never⟩

def Checked (issuerUrl : String) (r : Except (Halt OidcError) OidcClient) : Prop := ∀ client, r = .ok client →
  HttpsEndpoints client ∧ trimSlashes client.endpoints.issuer = trimSlashes issuerUrl

theorem checkedError (e : Halt OidcError) : Checked issuerUrl (.error e) := fun _ never => nomatch never

theorem fromDocumentFollows {doc : DiscoveryDocument} {tr} :
    Follows (fun _ _ => True) (fun tr' r => tr' = tr ∧ Checked issuerUrl r)
      (fromDocument agent issuerUrl clientId clientSecret true doc) tr := by
  have fails (e : Halt OidcError) : tr = tr ∧ Checked issuerUrl (.error e) := ⟨rfl,checkedError e⟩
  unfold fromDocument
  refine followsRequired (fun issuer => ?_) fails
  refine followsRequired (fun tokenEndpoint => ?_) fails
  refine followsRequired (fun deviceAuthorizationEndpoint => ?_) fails
  refine followsRequired (fun jwksUri => ?_) fails
  dsimp only
  split
  · exact fails _
  · rename_i same
    rw [if_pos rfl]
    refine followsAttempt (followsMono followsEndpoints ?_)
    intro tr' r known
    obtain ⟨rfl,checked⟩ := known
    cases r with
    | error e => exact fails e
    | ok u =>
      obtain ⟨token,device,jwks⟩ : _ ∧ _ ∧ _ := by simpa using checked rfl
      refine ⟨rfl,fun client made => ?_⟩
      cases made
      exact ⟨⟨device,token,jwks⟩,not_not.mp same⟩

theorem discoverFollows : Follows (fun _ _ => True)
    (fun tr r => ∀ client, r = .ok client → Discovered agent issuerUrl tr client)
    (discover agent issuerUrl clientId clientSecret) [] := by
  refine followsAttempt ?_
  unfold send
  cases sent : agent.sends (Request.discovery (discoveryUrl issuerUrl)).url with
  | false => exact fun client never => nomatch never
  | true =>
    refine ⟨trivial,fun t answer => ?_⟩
    cases answer with
    | error e => exact fun client never => nomatch never
    | ok doc =>
      refine followsMono (p := fromDocument agent issuerUrl clientId clientSecret true doc) fromDocumentFollows ?_
      intro tr r known client made
      obtain ⟨rfl,checked⟩ := known
      obtain ⟨https,issuer⟩ := checked client made
      exact ⟨sent,⟨t,doc,rfl⟩,https,issuer⟩

structure Confining (b : Build) (jwt : Jwt) (issuerUrl : String) (tr : Trace oidcCalls) (client : OidcClient) : Prop where
  fetched : ∀ e ∈ tr, Https e.call
  endpoints : HttpsEndpoints client
  onward : Confined b jwt client
  issuer : trimSlashes client.endpoints.issuer = trimSlashes issuerUrl

def DiscoverConfines (b : Build) (jwt : Jwt) (agent : Agent) (issuerUrl clientId : String)
    (clientSecret : Option String) : Prop :=
  Follows (fun _ _ => True) (fun tr r => ∀ client, r = .ok client → Confining b jwt issuerUrl tr client)
    (discover agent issuerUrl clientId clientSecret) []

def passing (issuerUrl : String) : DiscoveryDocument :=
  ⟨some issuerUrl,some "https://idp.example.com/token",some "https://idp.example.com/device",
    some "https://idp.example.com/jwks"⟩

def passed (agent : Agent) (issuerUrl clientId : String) (clientSecret : Option String) : OidcClient :=
  ⟨agent,⟨"https://idp.example.com/device","https://idp.example.com/token",issuerUrl,"https://idp.example.com/jwks"⟩,
    clientId,clientSecret⟩

theorem followsSent {α : Type} {allowed : Trace oidcCalls → Oidc.Call → Prop}
    {done : Trace oidcCalls → Except (Halt OidcError) α → Prop} {r : Request} {f : r.Body → Flow α} {tr}
    (sent : agent.sends r.url = true) (ok : Follows allowed done (send agent r >>= f : Flow α) tr) (t : Nat)
    (body : r.Body) : Follows allowed done (f body) (⟨t,.http r,.ok body⟩ :: tr) := by
  unfold send at ok
  rw [if_pos sent] at ok
  exact ok.2 t (.ok body)

theorem fromPassing : fromDocument agent issuerUrl clientId clientSecret true (passing issuerUrl) =
    pure (passed agent issuerUrl clientId clientSecret) := by
  have token : startsWith "https://" "https://idp.example.com/token" = true := by decide
  have device : startsWith "https://" "https://idp.example.com/device" = true := by decide
  have jwks : startsWith "https://" "https://idp.example.com/jwks" = true := by decide
  simp [fromDocument,passing,passed,required,checkEndpoints,token,device,jwks]

theorem discoverConfines (b : Build) (jwt : Jwt) (agent : Agent) (issuerUrl clientId : String)
    (clientSecret : Option String) :
    DiscoverConfines b jwt agent issuerUrl clientId clientSecret ↔
      startsWith "https://" (trimSlashes issuerUrl) = true ∨ agent.sends (discoveryUrl issuerUrl) = false := by
  constructor
  · intro confines
    cases sent : agent.sends (discoveryUrl issuerUrl) with
    | false => exact .inr rfl
    | true =>
      have rest := followsSent sent confines 0 (passing issuerUrl)
      rw [fromPassing] at rest
      have all := rest (passed agent issuerUrl clientId clientSecret) rfl
      have first := all.fetched _ (List.mem_singleton.mpr rfl)
      exact .inl ((discoveryUrlHttps issuerUrl).mp (first (.discovery (discoveryUrl issuerUrl)) rfl))
  · intro condition
    refine followsMono discoverFollows ?_
    intro tr r known client made
    obtain ⟨sent,⟨t,doc,rfl⟩,https,issuer⟩ := known client made
    refine ⟨?_,https,confined https,issuer⟩
    intro e inside request same
    rw [List.mem_singleton.mp inside] at same
    cases same
    rcases condition with safe | refused
    · exact (discoveryUrlHttps issuerUrl).mpr safe
    · rw [sent] at refused
      cases refused

end Discover

def plainAgent : Agent := ⟨fun url => startsWith "http://" url || startsWith "https://" url⟩

def noJwt : Jwt := ⟨fun _ => none,fun _ => false,fun _ _ _ => none⟩

theorem plainDiscovery :
    ¬DiscoverConfines release noJwt plainAgent "http://idp.example.com" "sssd" none := by
  intro confines
  have sent : plainAgent.sends (discoveryUrl "http://idp.example.com") = true := by decide
  have rest := followsSent sent confines 0 (passing "http://idp.example.com")
  rw [fromPassing] at rest
  have all := rest (passed plainAgent "http://idp.example.com" "sssd" none) rfl
  have first := all.fetched _ (List.mem_singleton.mpr rfl)
  have https := first (.discovery (discoveryUrl "http://idp.example.com")) rfl
  exact absurd https (by decide)

end SssdOidc.Discovery
