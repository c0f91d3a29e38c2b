import SssdOidc.Model

/-! `Config::load_from` of src/config.rs. The files and the TOML grammar are the
environment's; the sections are read as serde derives it: a table by field, with the defaults
of the source, unknown keys ignored, and an array as the fields in their order. -/
namespace SssdOidc.ConfigFile
open Model

def DEFAULT_BEARER_TOKEN_PATH : String := "/etc/sssd-oidc/scim-token"

structure ScimConfig where
  baseUrl : String
  bearerTokenFile : String := DEFAULT_BEARER_TOKEN_PATH
  bearerToken : String := ""
  deriving DecidableEq, Repr

structure OidcConfig where
  issuerUrl : String
  clientId : String
  clientSecret : Option String := none
  allowInsecure : Bool := false
  deriving DecidableEq, Repr

structure Config extends Model.Config where
  scim : ScimConfig
  oidc : OidcConfig
  dbPath : String := "/var/lib/sssd-oidc/cache.db"
  deriving DecidableEq, Repr

inductive Toml where
  | string (s : String)
  | integer (n : Int64)
  | boolean (b : Bool)
  | table (fields : List (String × Toml))
  | array (items : List Toml)
  | other

def asString : Toml → Option String
  | .string s => some s
  | _ => none

def asBool : Toml → Option Bool
  | .boolean b => some b
  | _ => none

def asU32 : Toml → Option UInt32
  | .integer n => if 0 ≤ n.toInt ∧ n.toInt < 4294967296 then some (UInt32.ofNat n.toInt.toNat) else none
  | _ => none

def ttlOf (n : Int64) : Ttl where
  seconds := n.toInt.toNat
  fits := by
    have below := n.toInt_lt
    omega

def asTtl : Toml → Option Ttl
  | .integer n => if 0 ≤ n.toInt then some (ttlOf n) else none
  | _ => none

def policyNamed : String → Option OfflineAuthPolicy
  | "cached_status" => some .cachedStatus
  | "deny" => some .deny
  | _ => none

/- A variant without data: its name, or a table that has the name for its only key, with
nothing in it. -/
def asPolicy : Toml → Option OfflineAuthPolicy
  | .string name => policyNamed name
  | .table [(name,.table [])] => policyNamed name
  | .table [(name,.array [])] => policyNamed name
  | _ => none

def asSection (names : List String) : Toml → Option (List (String × Toml))
  | .table fields => some fields
  | .array items => some (names.zip items)
  | _ => none

section Field
variable {α : Type} (read : Toml → Option α) (fields : List (String × Toml)) (name : String)

def required : Option α := (fields.lookup name).bind read

def optional (default : α) : Option α := (fields.lookup name).elim (some default) read

end Field

def scimNames : List String := ["base_url","bearer_token_file"]

def scimConfig (fields : List (String × Toml)) : Option ScimConfig := do
  let baseUrl ← required asString fields "base_url"
  let bearerTokenFile ← optional asString fields "bearer_token_file" DEFAULT_BEARER_TOKEN_PATH
  pure { baseUrl, bearerTokenFile }

def oidcNames : List String := ["issuer_url","client_id","client_secret","allow_insecure"]

def oidcConfig (fields : List (String × Toml)) : Option OidcConfig := do
  let issuerUrl ← required asString fields "issuer_url"
  let clientId ← required asString fields "client_id"
  let clientSecret ← optional (fun value => (asString value).map some) fields "client_secret" none
  let allowInsecure ← optional asBool fields "allow_insecure" false
  pure { issuerUrl, clientId, clientSecret, allowInsecure }

def mappingNames : List String := ["uid_range_min","uid_range_size","gid_range_min","gid_range_size"]

def mappingConfig (fields : List (String × Toml)) : Option MappingConfig := do
  let uidRangeMin ← optional asU32 fields "uid_range_min" 200000
  let uidRangeSize ← optional asU32 fields "uid_range_size" 200000
  let gidRangeMin ← optional asU32 fields "gid_range_min" 200000
  let gidRangeSize ← optional asU32 fields "gid_range_size" 200000
  pure { uidRangeMin, uidRangeSize, gidRangeMin, gidRangeSize }

def userDefaultsNames : List String := ["shell","home_template"]

def userDefaultsConfig (fields : List (String × Toml)) : Option UserDefaultsConfig := do
  let shell ← optional asString fields "shell" "/bin/bash"
  let homeTemplate ← optional asString fields "home_template" "/home/\x7buser\x7d"
  pure { shell, homeTemplate }

theorem hourFits : 3600 < 2^63 := by decide

def cacheNames : List String := ["db_path","ttl_seconds"]

def cacheConfig (fields : List (String × Toml)) : Option (CacheConfig × String) := do
  let dbPath ← optional asString fields "db_path" "/var/lib/sssd-oidc/cache.db"
  let ttlSeconds ← optional asTtl fields "ttl_seconds" ⟨3600,hourFits⟩
  pure ({ ttlSeconds },dbPath)

def securityNames : List String := ["offline_auth_policy"]

def securityConfig (fields : List (String × Toml)) : Option SecurityConfig := do
  let offlineAuthPolicy ← optional asPolicy fields "offline_auth_policy" .cachedStatus
  pure { offlineAuthPolicy }

/- A section that is absent is read as an empty one: each of its fields has a default. -/
def config (document : List (String × Toml)) : Option Config := do
  let scim ← scimConfig (← required (asSection scimNames) document "scim")
  let oidc ← oidcConfig (← required (asSection oidcNames) document "oidc")
  let mapping ← mappingConfig (← optional (asSection mappingNames) document "mapping" [])
  let userDefaults ← userDefaultsConfig (← optional (asSection userDefaultsNames) document "user_defaults" [])
  let (cache,dbPath) ← cacheConfig (← optional (asSection cacheNames) document "cache" [])
  let security ← securityConfig (← optional (asSection securityNames) document "security" [])
  pure { mapping, userDefaults, cache, security, scim, oidc, dbPath }

inductive IoError where
  | notFound
  | permissionDenied
  | invalidData
  deriving DecidableEq, Repr

inductive ConfigError where
  | read (path : String) (source : IoError)
  -- the text of the error is the parser's own
  | parse
  | insecurePermissions (path detail : String)
  deriving DecidableEq, Repr

structure Metadata where
  isFile : Bool
  mode : UInt32
  uid : UInt32

structure Host where
  readToString : String → Except IoError String
  symlinkMetadata : String → Except IoError Metadata
  euid : UInt32
  -- the TOML grammar
  parse : String → Option (List (String × Toml))

def octal (n : UInt32) : String :=
  let digits := Nat.toDigits 8 n.toNat
  String.ofList (List.replicate (4 - digits.length) '0' ++ digits)

/- The characters that `str::trim` removes. -/
def whitespace (c : Char) : Bool :=
  (9 ≤ c.toNat && c.toNat ≤ 13) || (0x2000 ≤ c.toNat && c.toNat ≤ 0x200a) ||
    [0x20,0x85,0xa0,0x1680,0x2028,0x2029,0x202f,0x205f,0x3000].contains c.toNat

def trim (s : String) : String :=
  String.ofList ((s.toList.dropWhile whitespace).reverse.dropWhile whitespace).reverse

def readFile (host : Host) (path : String) : Except ConfigError String :=
  (host.readToString path).mapError (ConfigError.read path)

def checkSecretFilePermissions (host : Host) (path : String) : Except ConfigError Unit := do
  let found ← (host.symlinkMetadata path).mapError (ConfigError.read path)
  if !found.isFile then
    throw (.insecurePermissions path "not a regular file")
  if found.mode &&& 0o077 != 0 then
    throw (.insecurePermissions path ("permissions " ++ octal (found.mode &&& 0o777) ++
      " are too open; must not be accessible by group or others. Run: chmod 600 " ++ path))
  if host.euid = 0 ∧ found.uid ≠ 0 then
    throw (.insecurePermissions path ("owned by uid " ++ toString found.uid.toNat ++
      " but must be owned by root (uid 0)"))

def loadFrom (host : Host) (path : String) : Except ConfigError Config := do
  let contents ← readFile host path
  let config ← ((host.parse contents).bind config).elim (.error .parse) .ok
  checkSecretFilePermissions host config.scim.bearerTokenFile
  let token ← readFile host config.scim.bearerTokenFile
  pure { config with scim := { config.scim with bearerToken := trim token } }

def integer (x : UInt32) : Toml := .integer (Int64.ofInt x.toNat)

theorem integerU32 (x : UInt32) : asU32 (integer x) = some x := by
  have below : x.toNat < 4294967296 := x.toNat_lt
  have exact' : (Int64.ofInt x.toNat).toInt = x.toNat := Int64.toInt_ofInt_of_le (by omega) (by omega)
  simp only [integer,asU32,exact']
  rw [if_pos ⟨by omega,by omega⟩]
  simp

def mappingText (m : MappingConfig) : String :=
  "[scim]\nbase_url = \"https://example.okta.com/scim/v2\"\n" ++
  "[oidc]\nissuer_url = \"https://example.okta.com\"\nclient_id = \"my-client\"\n" ++
  "[mapping]\nuid_range_min = " ++ toString m.uidRangeMin.toNat ++
  "\nuid_range_size = " ++ toString m.uidRangeSize.toNat ++
  "\ngid_range_min = " ++ toString m.gidRangeMin.toNat ++
  "\ngid_range_size = " ++ toString m.gidRangeSize.toNat ++ "\n"

def mappingDocument (m : MappingConfig) : List (String × Toml) :=
  [("scim",.table [("base_url",.string "https://example.okta.com/scim/v2")]),
   ("oidc",.table [("issuer_url",.string "https://example.okta.com"),("client_id",.string "my-client")]),
   ("mapping",.table [("uid_range_min",integer m.uidRangeMin),("uid_range_size",integer m.uidRangeSize),
      ("gid_range_min",integer m.gidRangeMin),("gid_range_size",integer m.gidRangeSize)])]

def mappingHost (m : MappingConfig) : Host where
  readToString := fun path => .ok (if path = DEFAULT_BEARER_TOKEN_PATH then "secret\n" else mappingText m)
  symlinkMetadata := fun _ => .ok ⟨true,0o100600,0⟩
  euid := 0
  parse := fun contents => if contents = mappingText m then some (mappingDocument m) else none

theorem mappingDocumentConfig (m : MappingConfig) : config (mappingDocument m) = some
    { mapping := m, scim := ⟨"https://example.okta.com/scim/v2",DEFAULT_BEARER_TOKEN_PATH,""⟩,
      oidc := ⟨"https://example.okta.com","my-client",none,false⟩ } := by
  have ranges : mappingConfig [("uid_range_min",integer m.uidRangeMin),
      ("uid_range_size",integer m.uidRangeSize),("gid_range_min",integer m.gidRangeMin),
      ("gid_range_size",integer m.gidRangeSize)] = some m := by
    simp [mappingConfig,optional,List.lookup_cons,integerU32]
  have scim : required (asSection scimNames) (mappingDocument m) "scim" = some _ := rfl
  have oidc : required (asSection oidcNames) (mappingDocument m) "oidc" = some _ := rfl
  have mapping : optional (asSection mappingNames) (mappingDocument m) "mapping" [] = some _ := rfl
  simp only [config,scim,oidc,mapping,Option.bind_eq_bind,Option.bind_some,ranges]
  rfl

theorem everyMapping (m : MappingConfig) :
    ∃ config, loadFrom (mappingHost m) "/etc/sssd-oidc/config.toml" = .ok config ∧ config.mapping = m := by
  have read : readFile (mappingHost m) "/etc/sssd-oidc/config.toml" = .ok (mappingText m) := rfl
  have parsed : (mappingHost m).parse (mappingText m) = some (mappingDocument m) := by simp only [mappingHost,if_true]
  have permitted : checkSecretFilePermissions (mappingHost m) DEFAULT_BEARER_TOKEN_PATH = .ok () := rfl
  have token : readFile (mappingHost m) DEFAULT_BEARER_TOKEN_PATH = .ok "secret\n" := rfl
  simp only [loadFrom,read,parsed,mappingDocumentConfig,Option.bind_some,Option.elim_some,bind,Except.bind,
    permitted,token]
  exact ⟨_,rfl,rfl⟩

end SssdOidc.ConfigFile
