import SssdOidc.Applications
import SssdOidc.Listings
import SssdOidc.Parallel

/-! A host at work: programs that look up names and ids, list the databases, ask for the groups
of a login or go through PAM, all at once. Every process has its own copy of the modules; what
they share is the cache file. -/
namespace SssdOidc.Coexistence
open Model Database Mapping Program Cache Service Packing Interfaces RelyGuarantee Provenance Applications Listings Login Parallel
open InitGroups (initgroupsDyn)
open Nss (looked byName getpwuidR getgrgidR)
open Pam (PAM_SUCCESS)
open DeviceFlow (sampleClient)
open Stability (fourSlots)

/- One call of an entry point. The first is that of `get_state` in a process that has none. -/
inductive Job where
  | init
  | lookup (l : Lookup)
  | setpwent
  | setgrent
  | initgroups (user : List UInt8) (group : UInt32) (caller : InitGroups.Caller)
  | pam (host : Host) (rounds : Nat) (entry : Login.Entry) (s : State)

abbrev Job.Out : Job → Type
  | .init => Except (Halt ServiceError) Unit
  | .lookup l => Except (Halt ServiceError) l.Out
  | .setpwent => Except (Halt ServiceError) (Option (List User))
  | .setgrent => Except (Halt ServiceError) (Option (List Group))
  | .initgroups _ _ _ => Except (Halt ServiceError) (NssStatus × InitGroups.Caller)
  | .pam _ _ _ _ => Except Stop (State × Int)

section Host
variable (b : Build) (config : Config)

def program : (j : Job) → Prog loginCalls j.Out
  | .init => right (Service.new config).run
  | .lookup l => right (looksUp b config l).run
  | .setpwent => right (Service.setpwent b config).run
  | .setgrent => right (Service.setgrent b config).run
  | .initgroups user group caller => right (initgroupsDyn b (.service config) user group caller).run
  | .pam host rounds entry s => (enter b config host rounds entry s).run

end Host

section Contract
variable {b : Build} {config : Config} {d : Source}

/- The identity provider may answer as it likes: only the cache is shared. -/
def hostContract (b : Build) (config : Config) (d : Source) : Contract loginCalls :=
  onBoth (anyContract Oidc.oidcCalls) (contract b config d untold Set.univ)

theorem hostServes : Serves (hostContract b config d) (FromSource b config d) (beside (Answered d.Says)) := by
  rintro db (c | c) r db' well promised answered
  · obtain rfl : db' = db := answered
    exact ⟨trivial,well⟩
  · exact serves db c r db' well promised answered

theorem keepsLooked {α ρ : Type} {fill : α → Caller ρ → NssStatus × Caller ρ} {caller : Caller ρ} {post : Option α → Prop}
    {lookup : Config → Act ServiceError (Option α)} (ok : Ensures (contract b config d untold Set.univ) (OnOk post) (lookup config)) :
    Keeps (contract b config d untold Set.univ) (looked fill caller (.service config) lookup) :=
  keepsThen (keepsEnsured (ensuresCaught ok)) fun _ => keepsPure _

theorem keepsByName {α ρ : Type} {fill : α → Caller ρ → NssStatus × Caller ρ} {caller : Caller ρ}
    {post : String → Option α → Prop} {lookup : Config → String → Act ServiceError (Option α)} {name : List UInt8}
    (ok : ∀ n, Ensures (contract b config d untold Set.univ) (OnOk (post n)) (lookup config n)) :
    Keeps (contract b config d untold Set.univ) (byName fill caller (.service config) lookup name) := by
  unfold byName
  split
  · exact keepsPure _
  · rename_i n decodes
    exact keepsLooked (ok n)

theorem keepsLookup (l : Lookup) : Keeps (contract b config d untold Set.univ) (looksUp b config l) := by
  cases l with
  | getpwnam name caller => exact keepsByName fun n => ensuresLookupUserByName n
  | getpwuid uid caller =>
    rw [looksUp,getpwuidR]
    exact keepsLooked (ensuresUserByUid uid _)
  | getgrnam name caller => exact keepsByName fun n => ensuresLookupGroupByName n
  | getgrgid gid caller =>
    rw [looksUp,getgrgidR]
    exact keepsLooked (ensuresGroupByGid gid _)

theorem keepsInitgroups {user : List UInt8} {group : UInt32} {caller : InitGroups.Caller} :
    Keeps (contract b config d untold Set.univ) (initgroupsDyn b (.service config) user group caller) := by
  unfold initgroupsDyn
  split
  · exact keepsPure _
  · rename_i name decodes
    refine keepsThen (keepsEnsured (ensuresCaught (ensuresLookupGroupsForUser name))) fun r => ?_
    cases r with
    | ok gids => exact keepsPure _
    | error e => exact keepsPure _

theorem keepsOperation (op : Op) : Keeps (contract b config d untold Set.univ) (operation b config op) :=
  keepsEnsured (operationEnsures op)

theorem keepsNew : Keeps (contract b config d untold Set.univ) (Service.new config) :=
  keepsMapped (keepsOperation (b := b) .new)

theorem serviceKeeps : ServiceKeeps (contract b config d untold Set.univ) b config where
  new := keepsNew
  user := fun name => keepsEnsured (ensuresLookupUserByName name)
  active := fun name => keepsEnsured (ensuresCheckUserActive name)

theorem keepsClient {host : Host} {s : State} : Keeps (hostContract b config d) (getOidcClient host s) := by
  rcases s with ⟨- | client,opened⟩
  · rw [getOidcClient]
    split
    · exact keepsPure _
    · refine keepsThen (keepsProvider keepsFree) fun r => ?_
      cases r with
      | ok client => exact keepsPure _
      | error e => exact keepsPure _
  · exact keepsPure _

theorem keepsEnter {host : Host} {rounds : Nat} {entry : Login.Entry} {s : State} :
    Keeps (hostContract b config d) (enter b config host rounds entry s) := by
  cases entry with
  | authenticate getPamUser =>
    cases getPamUser with
    | none => exact keepsPure _
    | some username =>
      refine keepsThen keepsClient fun client => ?_
      cases client with
      | none => exact keepsPure _
      | some client =>
        exact keepsAuthenticate ⟨keepsFree,fun _ => keepsFree⟩ serviceKeeps
  | acctMgmt getPamUser => exact keepsAcctMgmt serviceKeeps
  | setcred => exact keepsPure _
  | chauthtok =>
    refine ensuresMap (m := fun _ => True) (keepsThen keepsClient fun client => ?_) fun _ _ => trivial
    cases client with
    | none => exact keepsPure _
    | some client => exact keepsPure _

theorem programKeeps (j : Job) : Ensures (hostContract b config d) (fun _ => True) (program b config j) := by
  have onCache {α : Type} {p : Act ServiceError α} (keeps : Keeps (contract b config d untold Set.univ) p) :
      Ensures (hostContract b config d) (fun _ => True) (right p.run) := ensuresOnRight (keepsAny keeps)
  cases j with
  | init => exact onCache keepsNew
  | lookup l => exact onCache (keepsLookup l)
  | setpwent => exact onCache (keepsMapped (keepsOperation .setpwent))
  | setgrent => exact onCache (keepsMapped (keepsOperation .setgrent))
  | initgroups user group caller => exact onCache keepsInitgroups
  | pam host rounds entry s => exact keepsAny keepsEnter

end Contract

section Host
variable {b : Build} {config : Config} {d : Source} {db : Db}

def Promise (b : Build) (config : Config) (d : Source) (es : Events) : (j : Job) → j.Out → Prop
  | .lookup l, .ok out => HandsOut b config d l out
  | .setpwent, .ok (some us) => ∃ t sus, ⟨t,.scim .listUsers,.ok sus⟩ ∈ served es ∧
      Kept (UserOf b config d) (Refused (scimUserToModel b config) (served es)) sus us
  | .setgrent, .ok (some gs) => ∃ t sgs, ⟨t,.scim .listGroups,.ok sgs⟩ ∈ served es ∧
      Kept (GroupOf b config d) (Refused (scimGroupToModel b config) (served es)) sgs gs
  | .initgroups user group c, .ok (status,c') => c.start ≤ c.size →
      ∃ new, Listings.Granted b config d user group (served es) c status c' new
  | .pam host _ (.authenticate (some username)) _, .ok (s',code) => code = PAM_SUCCESS →
      ∃ client claims, s'.oidcClient = some (some client) ∧ Vouched host.jwt client claims (met es) ∧
        Belongs d username claims.sub
  | .pam _ _ (.acctMgmt (some username)) _, .ok (_,code) => code = PAM_SUCCESS →
      ∃ su ∈ d.users, d.alike username su.userName ∧ su.active.getD true = true
  | _, _ => True

theorem amongServed {es : Events}
    (answered : Parallel.Served (hostContract b config d) (FromSource b config d) (beside (Answered d.Says)) es) :
    Among b config d (served es) := by
  intro e inside
  obtain ⟨⟨t,c | c,r⟩,within,same⟩ := List.mem_filterMap.mp inside
  · cases same
  · cases same
    obtain ⟨-,db,db',well,told⟩ := answered _ within
    exact ⟨db,db',well,told⟩

theorem pamPromise {host : Host} {rounds : Nat} {entry : Login.Entry} {s : State} {es : Events} {out}
    (played : Plays (enter b config host rounds entry s) es out) (among : Among b config d (served es)) :
    Promise b config d es (.pam host rounds entry s) out := by
  cases out with
  | error e => rcases entry with (- | username) | (- | username) | - | - <;> trivial
  | ok out =>
    obtain ⟨s',code⟩ := out
    rcases entry with (- | username) | (- | username) | - | -
    · trivial
    · rintro rfl
      exact authenticateBelongs played among
    · trivial
    · rintro rfl
      exact acctMgmtActive played among
    · trivial
    · trivial

theorem programPromise {j : Job} {es : Events} {out : j.Out} (played : Plays (program b config j) es out)
    (among : Among b config d (served es)) : Promise b config d es j out := by
  have onCache {α : Type} {p : Act ServiceError α} {a} (ran : Plays (right p.run : Prog loginCalls _) es (.ok a)) :
      Plays p (served es) (.ok a) := (rightPlays ran).1
  cases j with
  | init => trivial
  | lookup l =>
    cases out with
    | ok out => exact lookupHanded (onCache played) among
    | error e => trivial
  | setpwent =>
    rcases out with e | - | us
    · trivial
    · trivial
    · exact usersKept (onCache played) among
  | setgrent =>
    rcases out with e | - | gs
    · trivial
    · trivial
    · exact groupsKept (onCache played) among
  | initgroups user group caller =>
    rcases out with e | ⟨status,caller'⟩
    · trivial
    · exact fun fits => grantedEither fits (initgroupsPlays (onCache played)) among
  | pam host rounds entry s => exact pamPromise played among

theorem hostKeeps (begins : FromSource b config d db) {w}
    (run : Runs (program b config) (beside (Answered d.Says)) (Parallel.fresh db) w) :
    FromSource b config d w.shared ∧ ∀ x ∈ w.finished, Promise b config d x.past x.job x.result := by
  have sound := runSound hostServes programKeeps begins run
  refine ⟨sound.shared,fun x inside => ?_⟩
  have done := sound.finished x inside
  exact programPromise done.plays (amongServed done.served)

end Host

section Example

theorem replyAnswered (c : loginCalls.Call) (db : Db) :
    beside (Answered office.Says) db c (reply c db).1 (reply c db).2 := by
  rcases c with (r | _ | _ | _) | q | st
  · cases r <;> rfl
  · rfl
  · rfl
  · rfl
  · obtain ⟨db',told⟩ := stillAnswered (.scim q)
    cases told with
    | scim said => cases q <;> exact Answered.scim said
  · exact Answered.sql 0 false st

def annsLogin : Job := .pam sampleHost 1 (.authenticate (some "ann")) redirected

theorem annAtHost : ∃ es w, Runs (program release fourSlots) (beside (Answered office.Says)) (Parallel.fresh empty) w ∧
    w.finished = [⟨annsLogin,es,.ok (⟨some (some sampleClient),some true⟩,PAM_SUCCESS)⟩] ∧
    FromSource release fourSlots office w.shared ∧
    ∀ x ∈ w.finished, Promise release fourSlots office x.past x.job x.result := by
  obtain ⟨es,played,ran⟩ := runRan (0,0) replyAnswered (program release fourSlots annsLogin) empty
  have result : (run reply (program release fourSlots annsLogin) empty).1 =
      .ok (⟨some (some sampleClient),some true⟩,PAM_SUCCESS) := secondCall
  rw [result] at played
  have runs := playRuns played ran
  exact ⟨es,_,runs,rfl,hostKeeps (fromNothing _ _ _) runs⟩

end Example

end SssdOidc.Coexistence
