import SssdOidc.Delivery
import SssdOidc.Login
import SssdOidc.Nss

/-! What a directory comes to for the applications of a host: the entries that they read in
their buffers, and who is let in. Between any two calls of a process the others may have
changed the cache, as long as it holds only what comes from the directory. -/
namespace SssdOidc.Applications
open Model Database Mapping Program Service Interfaces RelyGuarantee Provenance Packing Login
open CStrings Layout Delivery
open Cache (calls Act)
open InitGroups (Shared)
open Nss (answered looked byName getpwnamR getpwuidR getgrnamR getgrgidR)
open Pam (PAM_SUCCESS PAM_AUTHINFO_UNAVAIL)
open DeviceFlow (sampleClient)
open Stability (fourSlots)

section Among
variable {b : Build} {config : Config} {d : Source} {es : List (Event calls)}

/- The calls of a process among others on one cache. -/
def Among (b : Build) (config : Config) (d : Source) (es : List (Event calls)) : Prop :=
  ∀ e ∈ es, ∃ db db', FromSource b config d db ∧ Answered d.Says db e.call e.resp db'

theorem amongPlays {ε α : Type} {post : Telling → α → Prop} {p : Act ε α} {a : α}
    (ok : ∀ told, Ensures (contract b config d told Set.univ) (OnOk (post told)) p) (played : Plays p es (.ok a))
    (among : Among b config d es) : post (Told es) a := by
  have promised := (ensuresAnswered (p := p.run) serves (ok untold) played among).2
  refine (ensuresPlays (ok (Told es)) played fun e inside => reliedTold inside ?_).1
  obtain ⟨db,db',holds,answered⟩ := among e inside
  exact (serves db e.call e.resp db' holds (promised e inside) answered).1

/- What an entry point hands out: on success something `laid` in the memory of the caller;
else its result is as it was. -/
structure Handed {α ρ : Type} (wanted : α → Prop) (laid : α → Caller ρ → Prop) (caller : Caller ρ)
    (out : NssStatus × Caller ρ) : Prop where
  success : out.1 = .success → ∃ x, wanted x ∧ laid x out.2
  failure : out.1 ≠ .success → out.2.result = caller.result
  tooSmall : out.1 = .tryAgain → out.2.errno = ERANGE
  untouched : out.1 = .notFound ∨ out.1 = .unavail → out.2 = { caller with errno := 0 }

structure Fills {α ρ : Type} (fill : α → Caller ρ → NssStatus × Caller ρ) (laid : α → Caller ρ → Prop)
    (caller : Caller ρ) : Prop where
  success : ∀ x, (fill x caller).1 = .success → laid x (fill x caller).2
  tooSmall : ∀ x, (fill x caller).1 ≠ .success → (fill x caller).1 = .tryAgain ∧
    (fill x caller).2.errno = ERANGE ∧ (fill x caller).2.result = caller.result

section Entry
variable {α ρ : Type} {wanted : α → Prop} {laid : α → Caller ρ → Prop} {fill : α → Caller ρ → NssStatus × Caller ρ}
  {caller : Caller ρ}

theorem handedFailure {status : NssStatus} (failed : status = .notFound ∨ status = .unavail) :
    Handed wanted laid caller (status,{ caller with errno := 0 }) where
  success := fun never => by rcases failed with rfl | rfl <;> cases never
  failure := fun _ => rfl
  tooSmall := fun never => by rcases failed with rfl | rfl <;> cases never
  untouched := fun _ => rfl

theorem handedAnswered (fills : Fills fill laid caller) {r : Except ServiceError (Option α)}
    (found : ∀ u, r = .ok u → ∀ x ∈ u, wanted x) : Handed wanted laid caller (answered fill caller r) := by
  match r with
  | .error e => exact handedFailure (.inr rfl)
  | .ok none => exact handedFailure (.inl rfl)
  | .ok (some x) =>
    have full (failed : (fill x caller).1 ≠ .success) := fills.tooSmall x failed
    refine ⟨fun done => ⟨x,found _ rfl x rfl,fills.success x done⟩,fun failed => (full failed).2.2,?_,?_⟩
    · intro again
      exact (full fun done => nomatch again.symm.trans done).2.1
    · intro never
      have status := (full fun done => by rcases never with never | never <;> exact nomatch never.symm.trans done).1
      rcases never with never | never
      · exact nomatch never.symm.trans status
      · exact nomatch never.symm.trans status

theorem lookedHanded (fills : Fills fill laid caller) {lookup : Config → Act ServiceError (Option α)} {out}
    (ok : ∀ told, Ensures (contract b config d told Set.univ) (OnOk fun u => ∀ x ∈ u, wanted x) (lookup config))
    (played : Plays (looked fill caller (.service config) lookup) es (.ok out)) (among : Among b config d es) :
    Handed wanted laid caller out := by
  rcases playsAttempt played with ⟨front,found,back,rfl,tried,later⟩ | ⟨e,-,never⟩
  · cases later
    rw [List.append_nil] at among
    obtain ⟨r,inner,same⟩ := playsAfter tried
    refine handedAnswered fills ?_
    rintro u rfl
    rcases r with (e | -) | u'
    · cases same
    · cases same
    · cases same
      exact amongPlays ok inner among
  · cases never

theorem byNameHanded (fills : Fills fill laid caller) {lookup : Config → String → Act ServiceError (Option α)}
    {name : List UInt8} {out} (ok : ∀ n, String.fromUTF8? ⟨name.toArray⟩ = some n → ∀ told,
      Ensures (contract b config d told Set.univ) (OnOk fun u => ∀ x ∈ u, wanted x) (lookup config n))
    (played : Plays (byName fill caller (.service config) lookup name) es (.ok out)) (among : Among b config d es) :
    Handed wanted laid caller out := by
  unfold byName at played
  split at played
  · cases played
    exact handedFailure (.inl rfl)
  · rename_i n decodes
    exact lookedHanded fills (ok n decodes) played among

end Entry

structure PasswdLaid (buf : Buffer) (user : User) (after : Caller Passwd) : Prop where
  packed : PasswdPacked user buf after
  reads : NulFree user.name → NulFree user.gecos → NulFree user.home → NulFree user.shell → ReadsBack user after

structure GroupLaid (buf : Buffer) (grp : Group) (after : Caller GroupEntry) : Prop where
  packed : Packed grp buf after
  reads : Placed buf → NulFree grp.name → (∀ m ∈ grp.members, NulFree m) → GroupReadsBack grp after

theorem passwdFills (caller : Caller Passwd) : Fills fillPasswdBuf (PasswdLaid caller.buf) caller where
  success := fun user done => by
    have room := (fillSuccess (passwdFits user caller.buf)).mp done
    exact ⟨passwdPacked room,fun name gecos home shell => (passwdReadsBack room).mpr ⟨name,gecos,home,shell⟩⟩
  tooSmall := fun user failed => fillTooSmall (passwdFits user caller.buf)
    (Nat.lt_of_not_le fun room => failed ((fillSuccess (passwdFits user caller.buf)).mpr room))

theorem groupFills (caller : Caller GroupEntry) : Fills fillGroupBuf (GroupLaid caller.buf) caller where
  success := fun grp done => by
    have room := (fillGroupSuccess grp caller).mp done
    exact ⟨groupPacked room,fun placed name members => (groupReadsBack placed room).mpr ⟨name,members⟩⟩
  tooSmall := fun grp failed => by
    have full := Nat.lt_of_not_le fun room => failed ((fillGroupSuccess grp caller).mpr room)
    rw [fillGroupFull full]
    exact ⟨rfl,rfl,rfl⟩

inductive Lookup where
  | getpwnam (name : List UInt8) (caller : Caller Passwd)
  | getpwuid (uid : UInt32) (caller : Caller Passwd)
  | getgrnam (name : List UInt8) (caller : Caller GroupEntry)
  | getgrgid (gid : UInt32) (caller : Caller GroupEntry)

abbrev Lookup.Out : Lookup → Type
  | .getpwnam _ _ => NssStatus × Caller Passwd
  | .getpwuid _ _ => NssStatus × Caller Passwd
  | .getgrnam _ _ => NssStatus × Caller GroupEntry
  | .getgrgid _ _ => NssStatus × Caller GroupEntry

def looksUp (b : Build) (config : Config) : (l : Lookup) → Act ServiceError l.Out
  | .getpwnam name caller => getpwnamR b (.service config) name caller
  | .getpwuid uid caller => getpwuidR (.service config) uid caller
  | .getgrnam name caller => getgrnamR b (.service config) name caller
  | .getgrgid gid caller => getgrgidR (.service config) gid caller

/- The directory takes `wanted` for what the C string of a caller spells. -/
def Named (d : Source) (name : List UInt8) (wanted : String) : Prop :=
  ∃ n, String.fromUTF8? ⟨name.toArray⟩ = some n ∧ d.alike n wanted

def HandsOut (b : Build) (config : Config) (d : Source) : (l : Lookup) → l.Out → Prop
  | .getpwnam name caller, out =>
      Handed (fun u => FromUser b config d u ∧ Named d name u.name) (PasswdLaid caller.buf) caller out
  | .getpwuid uid caller, out =>
      Handed (fun u => FromUser b config d u ∧ u.uid = uid) (PasswdLaid caller.buf) caller out
  | .getgrnam name caller, out =>
      Handed (fun g => FromGroup b config d g ∧ Named d name g.name) (GroupLaid caller.buf) caller out
  | .getgrgid gid caller, out =>
      Handed (fun g => FromGroup b config d g ∧ g.gid = gid) (GroupLaid caller.buf) caller out

theorem lookupHanded {l : Lookup} {out} (played : Plays (looksUp b config l) es (.ok out))
    (among : Among b config d es) : HandsOut b config d l out := by
  cases l with
  | getpwnam name caller =>
    refine byNameHanded (passwdFills caller) (fun n decodes _ => ?_) played among
    refine ensuresMono (fun _ => onOkMono fun u found x here => ?_) (ensuresLookupUserByName n)
    exact ⟨(found x here).1,n,decodes,(found x here).2⟩
  | getpwuid uid caller =>
    simp only [looksUp,getpwuidR] at played
    exact lookedHanded (passwdFills caller) (fun _ => ensuresUserByUid uid _) played among
  | getgrnam name caller =>
    refine byNameHanded (groupFills caller) (fun n decodes _ => ?_) played among
    refine ensuresMono (fun _ => onOkMono fun g found x here => ?_) (ensuresLookupGroupByName n)
    exact ⟨(found x here).1,n,decodes,(found x here).2⟩
  | getgrgid gid caller =>
    simp only [looksUp,getgrgidR] at played
    exact lookedHanded (groupFills caller) (fun _ => ensuresGroupByGid gid _) played among

theorem handsOut {l : Lookup} {out} (played : Plays (looksUp b config l) es (.ok out)) (among : Among b config d es) :
    HandsOut b config d l out := lookupHanded played among

end Among

section Example

def answer (c : calls.Call) : calls.Resp c := (reply (.inr c) empty).1

theorem stillAnswered (c : calls.Call) : ∃ db', Answered office.Says empty c (answer c) db' := by
  cases c with
  | sql st => exact ⟨_,.sql 0 false st⟩
  | scim q =>
    refine ⟨empty,.scim ?_⟩
    cases q with
    | userByName name =>
      by_cases own : name = "ann"
      · rw [show answer (.scim (.userByName name)) = .ok (some ann) from congrArg _ (if_pos own)]
        exact ⟨rfl,own⟩
      · rw [show answer (.scim (.userByName name)) = .ok none from congrArg _ (if_neg own)]
        trivial
    | groupByName name => trivial
    | listUsers => trivial
    | listGroups => trivial

def outcome {α : Type} (serve : (c : calls.Call) → calls.Resp c) (p : Prog calls α) : α :=
  (run (fun c db => (serve c,db)) p empty).1

theorem answeredAmong {α : Type} {serve : (c : calls.Call) → calls.Resp c}
    (given : ∀ c, ∃ db', Answered office.Says empty c (serve c) db') (p : Prog calls α) :
    ∃ es, Plays p es (outcome serve p) ∧ Among release fourSlots office es := by
  have same (c : calls.Call) (db : Db) (holds : db = empty) : (serve c,db).2 = empty := holds
  obtain ⟨es,played,answered⟩ := runPlays (0 : Int) same p rfl
  refine ⟨es,played,fun e inside => ?_⟩
  obtain ⟨db,rfl,told⟩ := answered e inside
  obtain ⟨db',answer⟩ := given e.call
  exact ⟨empty,db',fromNothing _ _ _,told ▸ answer⟩

def annsLookup : Lookup := .getpwnam [97,110,110] roomy

theorem annFound : ∃ out, outcome answer (looksUp release fourSlots annsLookup).run = .ok out ∧ out.1 = .success := by
  have ends : (outcome answer (looksUp release fourSlots annsLookup).run).toOption.map Prod.fst = some .success := by
    decide +kernel
  obtain ⟨out,found,success⟩ := Option.map_eq_some_iff.mp ends
  refine ⟨out,?_,success⟩
  generalize outcome answer (looksUp release fourSlots annsLookup).run = r at found
  rcases r with e | out'
  · cases found
  · cases found
    rfl

theorem annLookedUp : ∃ es out, Plays (looksUp release fourSlots annsLookup) es (.ok out) ∧ out.1 = .success ∧
    HandsOut release fourSlots office annsLookup out := by
  obtain ⟨es,played,among⟩ := answeredAmong stillAnswered (looksUp release fourSlots annsLookup).run
  obtain ⟨out,found,success⟩ := annFound
  rw [found] at played
  exact ⟨es,out,played,success,handsOut played among⟩

end Example

section Admission
variable {b : Build} {config : Config} {d : Source} {host : Host} {rounds : Nat} {s s' : State}
  {es : Events} {username : String}

theorem amongLater {front back : List (Event calls)} (among : Among b config d (front ++ back)) : Among b config d back :=
  fun e inside => among e (List.mem_append_right _ inside)

def Belongs (d : Source) (username sub : String) : Prop :=
  sub = username ∨ ∃ su ∈ d.users, d.alike username su.userName ∧ su.id = sub

theorem matchedBelongs {sub : String} {es : List (Event calls)} (matched : Matched b config username sub es)
    (among : Among b config d es) : Belongs d username sub := by
  obtain direct | ⟨front,back,user,rfl,found,bound⟩ := matched
  · exact .inl direct
  · obtain ⟨⟨su,inside,made,-⟩,named⟩ := amongPlays (fun _ => ensuresLookupUserByName username) found (amongLater among) user rfl
    rw [made] at named bound
    exact .inr ⟨su,inside,named,bound⟩

theorem permittedPlays (played : Plays (acctMgmtImpl b config host (some username) s) es (.ok (s',PAM_SUCCESS))) :
    ∃ front back, served es = front ++ back ∧ Plays (checkUserActive b config username) back (.ok true) := by
  obtain ⟨front,opened,back,rfl,-,later⟩ := bindPlaysOk played
  dsimp only at later
  split at later
  · obtain ⟨asking,rest,r,rfl,asked,-,last⟩ := servicePlays later
    obtain ⟨rfl,same⟩ := purePlays last
    have code : PAM_SUCCESS = permitted r := congrArg Prod.snd same
    refine ⟨served front,served asking,by simp,?_⟩
    rcases r with e | - | -
    · exact absurd code (by decide : PAM_SUCCESS ≠ PAM_AUTHINFO_UNAVAIL)
    · exact absurd code (by decide : PAM_SUCCESS ≠ PAM_PERM_DENIED)
    · exact asked
  · cases (purePlays later).2

theorem authenticateBelongs (played : Plays (authenticateImpl b config host rounds (some username) s) es
      (.ok (s',PAM_SUCCESS))) (among : Among b config d (served es)) :
    ∃ client claims, s'.oidcClient = some (some client) ∧ Vouched host.jwt client claims (met es) ∧
      Belongs d username claims.sub := by
  obtain ⟨front,back,client,rfl,first,cell,success⟩ := authenticatePlays played
  obtain ⟨c,claims,rfl,vouched,matched⟩ := success rfl
  exact ⟨c,claims,cell,vouched,matchedBelongs matched among⟩

theorem acctMgmtActive (played : Plays (acctMgmtImpl b config host (some username) s) es (.ok (s',PAM_SUCCESS)))
    (among : Among b config d (served es)) :
    ∃ su ∈ d.users, d.alike username su.userName ∧ su.active.getD true = true := by
  obtain ⟨front,back,split,asked⟩ := permittedPlays played
  exact amongPlays (fun _ => ensuresCheckUserActive username) asked (amongLater (split ▸ among)) rfl

theorem admittedByDirectory (among : Among b config d (served es)) :
    (Plays (authenticateImpl b config host rounds (some username) s) es (.ok (s',PAM_SUCCESS)) →
      ∃ client claims, s'.oidcClient = some (some client) ∧ Vouched host.jwt client claims (met es) ∧
        Belongs d username claims.sub) ∧
    (Plays (acctMgmtImpl b config host (some username) s) es (.ok (s',PAM_SUCCESS)) →
      ∃ su ∈ d.users, d.alike username su.userName ∧ su.active.getD true = true) :=
  ⟨fun played => authenticateBelongs played among,fun played => acctMgmtActive played among⟩

end Admission

section Example

def still (c : loginCalls.Call) (db : Db) : loginCalls.Resp c × Db := ((reply c db).1,db)

theorem stillCall : (run still (authenticateImpl release fourSlots sampleHost 1 (some "ann") redirected) empty).1 =
    .ok (⟨some (some sampleClient),some true⟩,PAM_SUCCESS) := by
  rfl

theorem annAdmitted : ∃ es s, Plays (authenticateImpl release fourSlots sampleHost 1 (some "ann") redirected) es
      (.ok (s,PAM_SUCCESS)) ∧ Among release fourSlots office (served es) ∧
    ∃ client claims, s.oidcClient = some (some client) ∧ Vouched sampleHost.jwt client claims (met es) ∧
      Belongs office "ann" claims.sub := by
  have same (c : loginCalls.Call) (db : Db) (holds : db = empty) : (still c db).2 = empty := holds
  obtain ⟨es,played,answered⟩ := runPlays (0,0) same
    (authenticateImpl release fourSlots sampleHost 1 (some "ann") redirected) rfl
  rw [stillCall] at played
  have among : Among release fourSlots office (served es) := by
    intro e inside
    obtain ⟨⟨t,c | c,r⟩,within,same'⟩ := List.mem_filterMap.mp inside
    · cases same'
    · cases same'
      obtain ⟨db,rfl,told⟩ := answered _ within
      obtain ⟨db',given⟩ := stillAnswered c
      rw [show r = answer c from told]
      exact ⟨empty,db',fromNothing _ _ _,given⟩
  exact ⟨es,_,played,among,(admittedByDirectory among).1 played⟩

end Example

end SssdOidc.Applications
