import SssdOidc.Mapping
import SssdOidc.Program

/-! src/oidc.rs as programs over HTTP requests, the display, the monotonic clock and sleep.
A JSON body is answered as the value that its decoder makes of it. Each answer is stamped
with the instant at which it came, in nanoseconds. -/
namespace SssdOidc.Oidc
open Mapping Program

inductive HttpError where
  | http
  | io
  deriving DecidableEq, Repr

inductive OidcError where
  | http
  | io
  | missingField (name : String)
  | issuerMismatch (expected actual : String)
  | insecureEndpoint (endpoint : String)
  | authorizationPending
  | slowDown
  | expiredToken
  | tokenError (e : String)
  | idTokenDecode (e : String)
  | jwtValidation
  deriving DecidableEq, Repr

structure OidcEndpoints where
  deviceAuthorizationEndpoint : String
  tokenEndpoint : String
  issuer : String
  jwksUri : String
  deriving DecidableEq, Repr

structure DeviceAuthResponse where
  deviceCode : String
  userCode : String
  verificationUri : String
  expiresIn : UInt64
  interval : UInt64 := 5
  deriving DecidableEq, Repr

structure TokenResponse where
  accessToken : String
  idToken : Option String
  tokenType : String
  deriving DecidableEq, Repr

structure DiscoveryDocument where
  issuer : Option String
  tokenEndpoint : Option String
  deviceAuthorizationEndpoint : Option String
  jwksUri : Option String
  deriving DecidableEq, Repr

/- A response of the token endpoint: the token is read from a 2xx body; of any other body
the text is read, and `error` is what `TokenErrorResponse` parses to: that string field of a
JSON object, or the one string of a JSON array. -/
structure TokenAnswer where
  status : UInt16
  token : Except HttpError TokenResponse
  text : Except HttpError String
  error : Option String
  deriving DecidableEq, Repr

structure Jwk where
  keyId : Option String
  key : String
  deriving DecidableEq, Repr

abbrev Form := List (String × String)

inductive Request where
  | discovery (url : String)
  | deviceCode (url : String) (form : Form)
  | token (url : String) (form : Form)
  | jwks (url : String)
  deriving DecidableEq, Repr

abbrev Request.Body : Request → Type
  | .discovery _ => DiscoveryDocument
  | .deviceCode _ _ => DeviceAuthResponse
  | .token _ _ => TokenAnswer
  | .jwks _ => List Jwk

def Request.url : Request → String
  | .discovery url => url
  | .deviceCode url _ => url
  | .token url _ => url
  | .jwks url => url

inductive Call where
  | http (r : Request)
  | display (userCode verificationUri : String)
  | sleep (secs : UInt64)
  -- `Instant::now()`
  | now
  deriving DecidableEq, Repr

abbrev Call.Resp : Call → Type
  | .http r => Except HttpError r.Body
  | .display _ _ => Unit
  | .sleep _ => Unit
  | .now => Nat

abbrev oidcCalls : Interface := ⟨Call,Call.Resp,Nat⟩

abbrev Flow (α : Type) := ExceptT (Halt OidcError) (Prog oidcCalls) α

/- `ureq` refuses by itself what is not a URL it can fetch; the rest it sends. -/
structure Agent where
  sends : String → Bool

def HttpError.oidc : HttpError → OidcError
  | .http => .http
  | .io => .io

def answered {α : Type} : Except HttpError α → Except (Halt OidcError) α
  | .ok a => .ok a
  | .error e => .error (.error e.oidc)

def send (agent : Agent) (r : Request) : Flow r.Body :=
  if agent.sends r.url then ExceptT.mk (perform (I := oidcCalls) (Call.http r) >>= fun a => pure (answered a))
  else throw (.error .http)

def display (userCode verificationUri : String) : Flow Unit :=
  ExceptT.mk (perform (I := oidcCalls) (Call.display userCode verificationUri) >>= fun a => pure (.ok a))

def sleep (secs : UInt64) : Flow Unit :=
  ExceptT.mk (perform (I := oidcCalls) (Call.sleep secs) >>= fun a => pure (.ok a))

def now : Flow Nat := ExceptT.mk (perform (I := oidcCalls) Call.now >>= fun a => pure (.ok a))

def startsWith (pattern s : String) : Bool := pattern.toList.isPrefixOf s.toList

def trimSlashes (s : String) : String := String.ofList (s.toList.reverse.dropWhile (· = '/')).reverse

structure OidcClient where
  http : Agent
  endpoints : OidcEndpoints
  clientId : String
  clientSecret : Option String

def required (name : String) : Option String → Flow String
  | some value => pure value
  | none => throw (.error (.missingField name))

def checkEndpoints : List (String × String) → Flow Unit
  | [] => pure ()
  | (name,endpoint) :: rest =>
      if startsWith "https://" endpoint then checkEndpoints rest
      else throw (.error (.insecureEndpoint (name ++ ": " ++ endpoint)))

def discoveryUrl (issuerUrl : String) : String := trimSlashes issuerUrl ++ "/.well-known/openid-configuration"

section Client
variable (agent : Agent)

def fromDocument (issuerUrl clientId : String) (clientSecret : Option String) (requireHttps : Bool)
    (doc : DiscoveryDocument) : Flow OidcClient := do
  let canonicalIssuer := trimSlashes issuerUrl
  let issuer ← required "issuer" doc.issuer
  let tokenEndpoint ← required "token_endpoint" doc.tokenEndpoint
  let deviceAuthorizationEndpoint ← required "device_authorization_endpoint" doc.deviceAuthorizationEndpoint
  let jwksUri ← required "jwks_uri" doc.jwksUri
  let canonicalDiscovered := trimSlashes issuer
  if canonicalDiscovered ≠ canonicalIssuer then
    throw (.error (.issuerMismatch canonicalIssuer issuer))
  else do
    if requireHttps then
      checkEndpoints [("token_endpoint",tokenEndpoint),
        ("device_authorization_endpoint",deviceAuthorizationEndpoint),("jwks_uri",jwksUri)]
    pure ⟨agent,⟨deviceAuthorizationEndpoint,tokenEndpoint,issuer,jwksUri⟩,clientId,clientSecret⟩

def discoverWithOptions (issuerUrl clientId : String) (clientSecret : Option String) (requireHttps : Bool) :
    Flow OidcClient := do
  let doc ← send agent (.discovery (discoveryUrl issuerUrl))
  fromDocument agent issuerUrl clientId clientSecret requireHttps doc

def discover (issuerUrl clientId : String) (clientSecret : Option String) : Flow OidcClient :=
  discoverWithOptions agent issuerUrl clientId clientSecret true

def discoverInsecure (issuerUrl clientId : String) (clientSecret : Option String) : Flow OidcClient :=
  discoverWithOptions agent issuerUrl clientId clientSecret false

end Client

def OidcClient.secret (client : OidcClient) : Form :=
  match client.clientSecret with
  | some secret => [("client_secret",secret)]
  | none => []

def requestDeviceCode (client : OidcClient) (scope : String) : Flow DeviceAuthResponse :=
  send client.http (.deviceCode client.endpoints.deviceAuthorizationEndpoint
    ([("client_id",client.clientId),("scope",scope)] ++ client.secret))

def pollError : String → OidcError
  | "authorization_pending" => .authorizationPending
  | "slow_down" => .slowDown
  | "expired_token" => .expiredToken
  | other => .tokenError other

def pollResult (answer : TokenAnswer) : Except OidcError TokenResponse :=
  if 200 ≤ answer.status ∧ answer.status < 300 then answer.token.mapError HttpError.oidc
  else match answer.text with
    | .error e => .error e.oidc
    | .ok body =>
        match answer.error with
        | some e => .error (pollError e)
        | none => .error (.tokenError body)

def pollForToken (client : OidcClient) (deviceCode : String) : Flow TokenResponse := do
  let answer ← send client.http (.token client.endpoints.tokenEndpoint
    ([("client_id",client.clientId),("grant_type","urn:ietf:params:oauth:grant-type:device_code"),
      ("device_code",deviceCode)] ++ client.secret))
  match pollResult answer with
  | .ok token => pure token
  | .error e => throw (.error e)

def polled {α : Type} : Except (Halt OidcError) α → Except (Halt OidcError) (Except OidcError α)
  | .ok a => .ok (.ok a)
  | .error (.error e) => .ok (.error e)
  | .error .panic => .error .panic

def attempt {α : Type} (p : Flow α) : Flow (Except OidcError α) :=
  ExceptT.mk (p.run >>= fun r => pure (polled r))

def MIN_POLL_INTERVAL_SECS : UInt64 := 5

def addU64 (b : Build) (x y : UInt64) : Option UInt64 :=
  if b.overflowChecks ∧ 2^64 ≤ x.toNat + y.toNat then none else some (x + y)

def nanosPerSec : Nat := 1000000000

/- An `Instant` holds its seconds in an i64; the sum panics when they do not fit. -/
def deadlineAfter (start : Nat) (secs : UInt64) : Option Nat :=
  if 2^63 ≤ start / nanosPerSec + secs.toNat then none else some (start + secs.toNat * nanosPerSec)

section Loop
variable (b : Build) (client : OidcClient)

/- The loop of `authenticate_device_flow`; `none` is a loop that is still running after
`rounds` rounds. -/
def pollLoop (deviceCode : String) (deadline : Nat) : (rounds : Nat) → (interval : UInt64) →
    Flow (Option TokenResponse)
  | 0, _ => pure none
  | rounds+1, interval => do
      sleep interval
      let t ← now
      if deadline ≤ t then
        throw (.error .expiredToken)
      else
        match ← attempt (pollForToken client deviceCode) with
        | .ok token => pure (some token)
        | .error .authorizationPending => pollLoop deviceCode deadline rounds interval
        | .error .slowDown => do
            let next ← arith (addU64 b interval 5)
            pollLoop deviceCode deadline rounds next
        | .error e => throw (.error e)

def authenticateDeviceFlow (scope : String) (rounds : Nat) : Flow (Option TokenResponse) := do
  let deviceAuth ← requestDeviceCode client scope
  display deviceAuth.userCode deviceAuth.verificationUri
  let interval := max deviceAuth.interval MIN_POLL_INTERVAL_SECS
  let start ← now
  let deadline ← arith (deadlineAfter start deviceAuth.expiresIn)
  pollLoop b client deviceAuth.deviceCode deadline rounds interval

end Loop

structure Header where
  kid : Option String
  alg : String

structure Validation where
  alg : String
  issuer : String
  audience : String

structure IdTokenClaims where
  sub : String
  iss : String
  exp : UInt64
  iat : Option UInt64
  deriving DecidableEq, Repr

/- The `jsonwebtoken` library: `decode` checks signature, expiry, issuer and audience. -/
structure Jwt where
  decodeHeader : String → Option Header
  usable : Jwk → Bool
  decode : String → Jwk → Validation → Option IdTokenClaims

def orThrow {α : Type} (e : OidcError) : Option α → Flow α
  | some a => pure a
  | none => throw (.error e)

def findKey (keys : List Jwk) : Option String → Flow Jwk
  | some kid => orThrow (.idTokenDecode ("no JWK with kid \"" ++ kid ++ "\"")) (keys.find? (fun k => k.keyId == some kid))
  | none => orThrow (.idTokenDecode "JWKS is empty") keys.head?

def validateIdToken (jwt : Jwt) (client : OidcClient) (idToken : String) : Flow IdTokenClaims := do
  let header ← orThrow .jwtValidation (jwt.decodeHeader idToken)
  let jwks ← send client.http (.jwks client.endpoints.jwksUri)
  let jwk ← findKey jwks header.kid
  if jwt.usable jwk then
    orThrow .jwtValidation (jwt.decode idToken jwk ⟨header.alg,client.endpoints.issuer,client.clientId⟩)
  else
    throw (.error .jwtValidation)

end SssdOidc.Oidc
