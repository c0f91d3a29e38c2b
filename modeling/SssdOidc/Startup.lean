import SssdOidc.ConfigFile
import SssdOidc.Database
import SssdOidc.Program

/-! How a process comes to its service: `Config::load`, `Cache::open`, and the initialisers
of state.rs in both crates, as programs over the file system. Other processes may change it
between any two calls. -/
namespace SssdOidc.Startup
open Program ConfigFile
open Database (SqlError)

def CONFIG_ENV_VAR : String := "SSSD_OIDC_CONFIG"
def DEFAULT_CONFIG_PATH : String := "/etc/sssd-oidc/config.toml"

inductive Batch where
  | journalMode
  | schema
  deriving DecidableEq, Repr

inductive Call where
  -- a variable that is not Unicode counts as unset
  | var (name : String)
  | readToString (path : String)
  | symlinkMetadata (path : String)
  | geteuid
  | connect (path : String)
  | setPermissions (path : String) (mode : UInt32)
  | executeBatch (path : String) (sql : Batch)
  deriving DecidableEq, Repr

abbrev Call.Resp : Call → Type
  | .var _ => Option String
  | .readToString _ => Except IoError String
  | .symlinkMetadata _ => Except IoError Metadata
  | .geteuid => UInt32
  | .connect _ => Except SqlError Unit
  | .setPermissions _ _ => Except IoError Unit
  | .executeBatch _ _ => Except SqlError Unit

abbrev hostCalls : Interface := ⟨Call,Call.Resp,Unit⟩

abbrev Act (ε α : Type) := ExceptT ε (Prog hostCalls) α

section Calls
variable {ε ε' α : Type}

def ask (c : Call) : Act ε c.Resp := ExceptT.mk (perform (I := hostCalls) c >>= fun r => pure (.ok r))

def under (wrap : ε' → ε) (r : Except ε' α) : Act ε α := ExceptT.mk (pure (r.mapError wrap))

end Calls

def readFile (path : String) : Act ConfigError String := do
  let contents ← ask (.readToString path)
  under (ConfigError.read path) contents

def checkSecretFilePermissions (path : String) : Act ConfigError Unit := do
  let found ← ask (.symlinkMetadata path)
  let found ← under (ConfigError.read path) found
  if !found.isFile then
    throw (.insecurePermissions path "not a regular file")
  else if found.mode &&& 0o077 ≠ 0 then
    throw (.insecurePermissions path ("permissions " ++ octal (found.mode &&& 0o777) ++
      " are too open; must not be accessible by group or others. Run: chmod 600 " ++ path))
  else do
    let euid ← ask .geteuid
    if euid = 0 ∧ found.uid ≠ 0 then
      throw (.insecurePermissions path ("owned by uid " ++ toString found.uid.toNat ++
        " but must be owned by root (uid 0)"))

section Load
variable (parse : String → Option (List (String × Toml)))

def parsed (contents : String) : Act ConfigError Config :=
  match (parse contents).bind config with
  | some config => pure config
  | none => throw .parse

def loadFrom (path : String) : Act ConfigError Config := do
  let contents ← readFile path
  let config ← parsed parse contents
  checkSecretFilePermissions config.scim.bearerTokenFile
  let token ← readFile config.scim.bearerTokenFile
  pure { config with scim := { config.scim with bearerToken := trim token } }

def load : Act ConfigError Config := do
  let path ← ask (.var CONFIG_ENV_VAR)
  loadFrom parse (path.getD DEFAULT_CONFIG_PATH)

end Load

inductive CacheError where
  | sqlite (e : SqlError)
  | insecurePermissions (path detail : String)
  deriving DecidableEq, Repr

section Open
-- the text of an I/O error
variable (display : IoError → String)

def hardenCacheFile (path : String) : Act CacheError Unit := do
  let found ← ask (.symlinkMetadata path)
  let found ← under (fun e => .insecurePermissions path ("cannot stat file: " ++ display e)) found
  if !found.isFile then
    throw (.insecurePermissions path "not a regular file")
  else if found.uid ≠ 0 then
    throw (.insecurePermissions path ("owned by uid " ++ toString found.uid.toNat ++ " but must be owned by root (uid 0)"))
  else
    let mode := found.mode &&& 0o777
    if mode ≠ 0o600 then do
      let done ← ask (.setPermissions path 0o600)
      under (fun e => .insecurePermissions path ("permissions " ++ octal mode ++
        " are too open and could not be corrected: " ++ display e ++ ". Run: chmod 600 " ++ path)) done

def executeBatch (path : String) (sql : Batch) : Act CacheError Unit := do
  let done ← ask (.executeBatch path sql)
  under CacheError.sqlite done

def openCache (path : String) : Act CacheError Unit := do
  let conn ← ask (.connect path)
  under CacheError.sqlite conn
  (if path ≠ ":memory:" then hardenCacheFile display path else pure ())
  executeBatch path .journalMode
  executeBatch path .schema

def initialise (parse : String → Option (List (String × Toml))) : Prog hostCalls (Option Config) := do
  match ← (load parse).run with
  | .error _ => pure none
  | .ok config =>
      match ← (openCache display config.dbPath).run with
      | .error _ => pure none
      | .ok () => pure (some config)

end Open

def onHost (host : ConfigFile.Host) : (c : Call) → Unit → hostCalls.Resp c × Unit
  | .var _, s => (none,s)
  | .readToString path, s => (host.readToString path,s)
  | .symlinkMetadata path, s => (host.symlinkMetadata path,s)
  | .geteuid, s => (host.euid,s)
  | .connect _, s => (.ok (),s)
  | .setPermissions _ _, s => (.ok (),s)
  | .executeBatch _ _, s => (.ok (),s)

section OnHost
variable {host : ConfigFile.Host} {α β ε : Type}

def result (host : ConfigFile.Host) (p : Act ε α) : Except ε α := (run (onHost host) (p : Prog hostCalls (Except ε α)) ()).1

theorem resultBind {p : Act ε α} {f : α → Act ε β} :
    result host (p >>= f) = result host p >>= fun a => result host (f a) := by
  refine (congrArg Prod.fst (runAttempt p f ())).trans ?_
  generalize ran : run (onHost host) p () = out
  rcases out with ⟨e | a,u⟩
  · rw [result,ran]
    rfl
  · rw [result,ran]
    rfl

theorem resultRead (path : String) : result host (readFile path) = ConfigFile.readFile host path := by
  rw [readFile,resultBind]
  rfl

theorem resultParsed (contents : String) : result host (parsed host.parse contents) =
    ((host.parse contents).bind config).elim (.error .parse) .ok := by
  rw [parsed]
  cases (host.parse contents).bind config <;> rfl

theorem resultIte {c : Prop} [Decidable c] {p q : Act ε α} :
    result host (if c then p else q) = if c then result host p else result host q := by
  split
  · rfl
  · rfl

theorem resultThrow (e : ε) : result host (throw e : Act ε α) = .error e := rfl

theorem resultPure (a : α) : result host (pure a : Act ε α) = .ok a := rfl

theorem resultCheck (path : String) : result host (checkSecretFilePermissions path) =
    ConfigFile.checkSecretFilePermissions host path := by
  have euid : result host (ask .geteuid : Act ConfigError UInt32) = .ok host.euid := rfl
  have stat : result host (ask (.symlinkMetadata path) : Act ConfigError (Except IoError Metadata)) =
      .ok (host.symlinkMetadata path) := rfl
  have same : result host (under (ConfigError.read path) (host.symlinkMetadata path)) =
      (host.symlinkMetadata path).mapError (ConfigError.read path) := rfl
  simp only [checkSecretFilePermissions,ConfigFile.checkSecretFilePermissions,resultBind,stat]
  show (result host (under _ (host.symlinkMetadata path)) >>= _) = _
  rw [same]
  refine congrArg (Except.bind _) (funext fun found => ?_)
  simp only [resultIte,resultThrow,resultBind,euid,resultPure]
  cases found.isFile with
  | false => rfl
  | true =>
    by_cases private' : found.mode &&& 0o077 = 0
    · simp only [private']
      rfl
    · simp only [if_pos private',bne_iff_ne.mpr private']
      rfl

/- `ConfigFile.loadFrom` is this program on a host that nobody else changes meanwhile. -/
theorem loadFromResult (path : String) : result host (loadFrom host.parse path) = ConfigFile.loadFrom host path := by
  simp only [loadFrom,ConfigFile.loadFrom,resultBind,resultRead,resultParsed,resultCheck,resultPure]
  rfl

end OnHost

/- The secret has just been found to be a file that no group and nobody else can open. -/
def Vetted (path : String) (tr : Trace hostCalls) : Prop := ∃ found euid rest,
  tr = ⟨(),.geteuid,euid⟩ :: ⟨(),.symlinkMetadata path,.ok found⟩ :: rest ∧
  found.isFile = true ∧ found.mode &&& 0o077 = 0 ∧ (euid = 0 → found.uid = 0)

def Owned (path : String) (found : Metadata) (tr : Trace hostCalls) : Prop :=
  (∃ rest, tr = ⟨(),.symlinkMetadata path,.ok found⟩ :: rest) ∧ found.isFile = true ∧ found.uid = 0

inductive Hardened (path : String) : Trace hostCalls → Prop where
  | already {found tr} (owned : Owned path found tr) (tight : found.mode &&& 0o777 = 0o600) : Hardened path tr
  | tightened {found tr} (owned : Owned path found tr) : Hardened path (⟨(),.setPermissions path 0o600,.ok ()⟩ :: tr)
  | batch {sql r tr} (before : Hardened path tr) : Hardened path (⟨(),.executeBatch path sql,r⟩ :: tr)

def Ready (path : String) (tr : Trace hostCalls) : Prop := path = ":memory:" ∨ Hardened path tr

def Allowed (tr : Trace hostCalls) : Call → Prop
  | .readToString path =>
      (∃ r, tr = [⟨(),.var CONFIG_ENV_VAR,r⟩] ∧ path = r.getD DEFAULT_CONFIG_PATH) ∨ Vetted path tr
  | .setPermissions path mode => mode = 0o600 ∧ ∃ found, Owned path found tr
  | .executeBatch path _ => Ready path tr
  | .var _ => tr = []
  | _ => True

def Guarded (config : Config) (tr : Trace hostCalls) : Prop := ∃ front token rest,
  tr = front ++ ⟨(),.readToString config.scim.bearerTokenFile,.ok token⟩ :: rest ∧
  Vetted config.scim.bearerTokenFile rest ∧ config.scim.bearerToken = trim token

section Follows
variable {ε ε' α β : Type} {allowed : Trace hostCalls → Call → Prop} {tr : Trace hostCalls}

theorem followsAsk {done : Trace hostCalls → Except ε α → Prop} {c : Call} {f : c.Resp → Act ε α} (may : allowed tr c)
    (ok : ∀ r, Follows allowed done (f r) (⟨(),c,r⟩ :: tr)) : Follows allowed done (ask c >>= f : Act ε α) tr :=
  ⟨may,fun _ r => ok r⟩

theorem followsUnder {done : Trace hostCalls → Except ε α → Prop} {wrap : ε' → ε} {r : Except ε' β} {f : β → Act ε α}
    (fails : ∀ e, done tr (.error e)) (ok : ∀ a, r = .ok a → Follows allowed done (f a) tr) :
    Follows allowed done (under wrap r >>= f : Act ε α) tr := by
  cases r with
  | ok a => exact ok a rfl
  | error e => exact fails (wrap e)

def OnSuccess (done : Trace hostCalls → α → Prop) (tr : Trace hostCalls) : Except ε α → Prop
  | .ok a => done tr a
  | .error _ => True

theorem followsSuccess {m : Trace hostCalls → α → Prop} {done : Trace hostCalls → β → Prop} {p : Act ε α} {f : α → Act ε β}
    (first : Follows allowed (OnSuccess m) p tr) (later : ∀ tr a, m tr a → Follows allowed (OnSuccess done) (f a) tr) :
    Follows allowed (OnSuccess done) (p >>= f : Act ε β) tr := by
  refine followsAttempt (followsMono first fun tr r holds => ?_)
  cases r with
  | ok a => exact later tr a holds
  | error e => trivial

theorem followsThrow {done : Trace hostCalls → α → Prop} (e : ε) : Follows allowed (OnSuccess done) (throw e : Act ε α) tr :=
  trivial

end Follows

section Rules
variable {tr : Trace hostCalls}

theorem readFollows {path : String} (may : Allowed tr (.readToString path)) : Follows Allowed
    (OnSuccess fun tr' contents => tr' = ⟨(),.readToString path,.ok contents⟩ :: tr) (readFile path) tr := by
  refine followsAsk may fun r => ?_
  cases r with
  | ok contents => exact rfl
  | error e => trivial

theorem checkFollows {path : String} :
    Follows Allowed (OnSuccess fun tr' _ => Vetted path tr') (checkSecretFilePermissions path) tr := by
  refine ⟨trivial,fun _ r => followsUnder (fun _ => trivial) fun found told => ?_⟩
  subst told
  split
  · exact followsThrow _
  · rename_i file
    split
    · exact followsThrow _
    · rename_i private'
      refine ⟨trivial,fun _ euid => ?_⟩
      show Follows _ _ (ite _ _ _) _
      split
      · exact followsThrow _
      · rename_i other
        refine ⟨found,euid,tr,rfl,by simpa using file,not_not.mp private',fun root => ?_⟩
        by_contra stranger
        exact other ⟨root,stranger⟩

theorem loadFollows {parse : String → Option (List (String × Toml))} :
    Follows Allowed (OnSuccess fun tr' config => Guarded config tr') (load parse) [] := by
  refine ⟨rfl,fun _ r => followsSuccess (readFollows (.inl ⟨r,rfl,rfl⟩)) fun tr' contents _ => ?_⟩
  have read : Follows Allowed (OnSuccess fun tr'' _ => tr'' = tr') (parsed parse contents) tr' := by
    unfold parsed
    split
    · exact rfl
    · exact followsThrow _
  refine followsSuccess read fun tr'' config _ => followsSuccess checkFollows fun vetted _ looked => ?_
  refine followsSuccess (readFollows (.inr looked)) fun last token same => ?_
  exact ⟨[],token,vetted,same,looked,rfl⟩

theorem hardenFollows {display : IoError → String} {path : String} :
    Follows Allowed (OnSuccess fun tr' _ => Hardened path tr') (hardenCacheFile display path) tr := by
  refine ⟨trivial,fun _ r => followsUnder (fun _ => trivial) fun found told => ?_⟩
  subst told
  split
  · exact followsThrow _
  · rename_i file
    split
    · exact followsThrow _
    · rename_i root
      have owned : Owned path found (⟨(),.symlinkMetadata path,.ok found⟩ :: tr) :=
        ⟨⟨tr,rfl⟩,by simpa using file,not_not.mp root⟩
      dsimp only
      split
      · refine ⟨⟨rfl,found,owned⟩,fun _ done => ?_⟩
        cases done with
        | ok done => exact Hardened.tightened owned
        | error e => trivial
      · rename_i tight
        exact Hardened.already owned (not_not.mp tight)

theorem batchFollows {path : String} {sql : Batch} (ready : Ready path tr) :
    Follows Allowed (OnSuccess fun tr' _ => Ready path tr') (executeBatch path sql) tr := by
  refine followsAsk ready fun r => ?_
  cases r with
  | ok done => exact ready.imp id .batch
  | error e => trivial

theorem openFollows {display : IoError → String} {path : String} :
    Follows Allowed (OnSuccess fun tr' _ => Ready path tr') (openCache display path) tr := by
  refine ⟨trivial,fun _ r => followsUnder (fun _ => trivial) fun _ _ => ?_⟩
  have ready : Follows Allowed (OnSuccess fun tr' _ => Ready path tr')
      (if path ≠ ":memory:" then hardenCacheFile display path else pure () : Act CacheError Unit)
      (⟨(),.connect path,r⟩ :: tr) := by
    split
    · refine followsMono hardenFollows fun tr' out hardened => ?_
      cases out with
      | ok done => exact .inr hardened
      | error e => trivial
    · rename_i memory
      exact .inl (not_not.mp memory)
  exact followsSuccess ready fun _ _ first => followsSuccess (batchFollows first) fun _ _ second => batchFollows second

theorem guardedLater {config : Config} (more : Trace hostCalls) (guarded : Guarded config tr) : Guarded config (more ++ tr) := by
  obtain ⟨front,token,rest,rfl,vetted⟩ := guarded
  exact ⟨more ++ front,token,rest,(List.append_assoc ..).symm,vetted⟩

end Rules

theorem startupGuarded (display : IoError → String) (parse : String → Option (List (String × Toml))) :
    Follows Allowed (fun tr out => ∀ config, out = some config → Guarded config tr ∧ Ready config.dbPath tr)
      (initialise display parse) [] := by
  refine followsBind (followsMono loadFollows fun tr loaded guarded => ?_)
  cases loaded with
  | error e => exact fun _ never => nomatch never
  | ok config =>
    refine followsBind (followsMono (followsExtends openFollows) ?_)
    rintro tr' opened ⟨ready,more,rfl⟩
    cases opened with
    | error e => exact fun _ never => nomatch never
    | ok done =>
      rintro config' ⟨⟩
      exact ⟨guardedLater more guarded,ready⟩

def chmod (mode : UInt32) (file : Metadata) : Metadata := { file with mode := (file.mode &&& ~~~0o7777) ||| mode }

/- What a call of the process does to it. SQLite creates a file, and changes no metadata of one. -/
inductive Acts (path : String) : Option Metadata → (c : Call) → c.Resp → Option Metadata → Prop where
  | stat {file r} (told : ∀ found, r = .ok found → file = some found) : Acts path file (.symlinkMetadata path) r file
  | chmod {found mode} : Acts path (some found) (.setPermissions path mode) (.ok ()) (some (chmod mode found))
  | unchanged {file mode e} : Acts path file (.setPermissions path mode) (.error e) file
  | batch {file sql r} : Acts path file (.executeBatch path sql) r file
  | connect {file r} : Acts path file (.connect path) r file
  | create {found r} : Acts path none (.connect path) r (some found)

/- Up to a point of a process, among others that start up at the same time. -/
inductive Lived (path : String) (start : Option Metadata) : Trace hostCalls → Option Metadata → Prop where
  | start : Lived path start [] start
  | act {tr file file'} {c : Call} {r : c.Resp} (before : Lived path start tr file) (acts : Acts path file c r file') :
      Lived path start (⟨(),c,r⟩ :: tr) file'
  | created {tr} (before : Lived path start tr none) (found : Metadata) : Lived path start tr (some found)
  | tightened {tr found} (before : Lived path start tr (some found)) : Lived path start tr (some (chmod 0o600 found))

structure RootOnly (file : Metadata) : Prop where
  isFile : file.isFile = true
  uid : file.uid = 0
  mode : file.mode &&& 0o777 = 0o600

section Lived
variable {path : String} {start file : Option Metadata} {tr : Trace hostCalls}

theorem chmodMode (found : Metadata) : (chmod 0o600 found).mode &&& 0o777 = 0o600 := by
  have apart : (~~~0o7777 : UInt32) &&& 0o777 = 0 := by decide
  have inside : (0o600 : UInt32) &&& 0o777 = 0o600 := by decide
  have spread : ((found.mode &&& ~~~0o7777) ||| 0o600) &&& 0o777 =
      (found.mode &&& (~~~0o7777 &&& 0o777)) ||| (0o600 &&& 0o777) := by
    rw [← UInt32.toBitVec_inj]
    simp only [UInt32.toBitVec_and,UInt32.toBitVec_or,BitVec.and_or_distrib_right,BitVec.and_assoc]
  exact spread.trans (by rw [apart,inside,UInt32.and_zero,UInt32.zero_or])

theorem ownedLived {found : Metadata} (lived : Lived path start tr file) (owned : Owned path found tr) :
    ∃ now, file = some now ∧ now.isFile = true ∧ now.uid = 0 := by
  induction lived with
  | start =>
    obtain ⟨⟨rest,never⟩,-⟩ := owned
    cases never
  | act before acts ih =>
    obtain ⟨⟨rest,same⟩,regular,root⟩ := owned
    cases same
    cases acts with
    | stat told => exact ⟨found,told found rfl,regular,root⟩
  | created before found' ih =>
    obtain ⟨now,never,-⟩ := ih owned
    cases never
  | tightened before ih =>
    obtain ⟨now,same,regular,root⟩ := ih owned
    cases same
    exact ⟨_,rfl,regular,root⟩

theorem hardenedLived (lived : Lived path start tr file) (hardened : Hardened path tr) :
    ∃ now, file = some now ∧ RootOnly now := by
  induction lived with
  | start =>
    cases hardened with
    | already owned tight =>
      obtain ⟨⟨rest,never⟩,-⟩ := owned
      cases never
  | act before acts ih =>
    cases hardened with
    | already owned tight =>
      obtain ⟨⟨rest,same⟩,regular,root⟩ := owned
      cases same
      cases acts with
      | stat told => exact ⟨_,told _ rfl,regular,root,tight⟩
    | tightened owned =>
      obtain ⟨now,same,regular,root⟩ := ownedLived before owned
      cases same
      cases acts with
      | chmod => exact ⟨_,rfl,regular,root,chmodMode _⟩
    | batch hardened =>
      cases acts with
      | batch => exact ih hardened
  | created before found ih =>
    obtain ⟨now,never,-⟩ := ih hardened
    cases never
  | tightened before ih =>
    obtain ⟨now,same,tight⟩ := ih hardened
    cases same
    exact ⟨_,rfl,tight.isFile,tight.uid,chmodMode _⟩

end Lived

theorem cacheHardened (display : IoError → String) (path : String) (onDisk : path ≠ ":memory:") (start file : Option Metadata)
    (es : List (Event hostCalls)) (opened : Plays (openCache display path) es (.ok ()))
    (lived : Lived path start es.reverse file) : ∃ now, file = some now ∧ RootOnly now := by
  have ready : Ready path (es.reverse ++ []) := playsFollow (@openFollows [] display path) opened
  rw [List.append_nil] at ready
  obtain memory | hardened := ready
  · exact absurd memory onDisk
  · exact hardenedLived lived hardened

section Example

def looseFile : Metadata := ⟨true,0o100644,0⟩

def opening : List (Event hostCalls) :=
  [⟨(),.connect "/var/lib/sssd-oidc/cache.db",.ok ()⟩,⟨(),.symlinkMetadata "/var/lib/sssd-oidc/cache.db",.ok looseFile⟩,
   ⟨(),.setPermissions "/var/lib/sssd-oidc/cache.db" 0o600,.ok ()⟩,
   ⟨(),.executeBatch "/var/lib/sssd-oidc/cache.db" .journalMode,.ok ()⟩,
   ⟨(),.executeBatch "/var/lib/sssd-oidc/cache.db" .schema,.ok ()⟩]

theorem looseHardened : ∃ now, some (chmod 0o600 (chmod 0o600 looseFile)) = some now ∧ RootOnly now := by
  have opened : Plays (openCache (fun _ => "") "/var/lib/sssd-oidc/cache.db") opening (.ok ()) :=
    .call (.call (.call (.call (.call (.ret _)))))
  have stated : Lived "/var/lib/sssd-oidc/cache.db" (some looseFile) (opening.take 2).reverse (some looseFile) := by
    refine .act (.act .start .connect) (.stat fun found same => ?_)
    cases same
    rfl
  exact cacheHardened _ _ (by decide) (some looseFile) _ opening opened
    (.act (.act (.act (.tightened stated) .chmod) .batch) .batch)

end Example

end SssdOidc.Startup
