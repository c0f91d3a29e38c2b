import SssdOidc.Offline
import SssdOidc.ProbeChain

/-! The offline verdict of `check_user_active` against the SCIM answers heard so far. An
active row vouches for the last answer about its login, as long as every answer that
takes the account away also reaches the row. -/
namespace SssdOidc.Revocation
open Model Database Mapping Program Cache Service SssdOidc.System Protocol Conformance History Solo Stability
open ProbeChain (Calm calmSettled)
open Offline (returning returningSound)
open Runs (Reach replay)

variable {b : Build} {config : Config} {idOf : String → String} {now0 : Int}

/- The newest answer about a name that was not an error. -/
def lastAnswer (name : String) : List Entry → Option (Option ScimUser)
  | .call _ ⟨_,.scim (.userByName n),.ok answer⟩ :: log => if n = name then some answer else lastAnswer name log
  | _ :: log => lastAnswer name log
  | [] => none

@[simp] theorem lastAnswerSql {name p t st r log} :
    lastAnswer name (.call p ⟨t,.sql st,r⟩ :: log) = lastAnswer name log := by simp [lastAnswer]

@[simp] theorem lastAnswerError {name p t q e log} :
    lastAnswer name (.call p ⟨t,.scim q,.error e⟩ :: log) = lastAnswer name log := by simp [lastAnswer]

theorem lastAnswerSame {name p t answer log} :
    lastAnswer name (.call p ⟨t,.scim (.userByName name),.ok answer⟩ :: log) = some answer := by simp [lastAnswer]

theorem lastAnswerOther {name n p t answer log} (other : n ≠ name) :
    lastAnswer name (.call p ⟨t,.scim (.userByName n),.ok answer⟩ :: log) = lastAnswer name log := by
  simp [lastAnswer,other]

def Granted (name : String) (log : List Entry) : Prop :=
  ∃ su, lastAnswer name log = some (some su) ∧ su.active ≠ some false

def byName (op : Op) : Bool := query op matches some (.userByName _)

/- One process that only asks for users by name, and is told of the user it asked for.
A name belongs to one id for the whole run. -/
structure Lookups (idOf : String → String) (s : Sys) (l : Label) : Prop where
  single : Single l
  lookups : ∀ op ∈ l.starts, byName op = true
  answers : ∀ a ∈ l.answer, ∀ su ∈ a.2, asked s l.pid = some su.userName ∧ su.id = idOf su.userName
instance (s : Sys) (l : Label) : Decidable (Lookups idOf s l) :=
  decidable_of_iff (Single l ∧ (∀ op ∈ l.starts, byName op = true) ∧
    ∀ a ∈ l.answer, ∀ su ∈ a.2, asked s l.pid = some su.userName ∧ su.id = idOf su.userName)
    ⟨fun ⟨single,lookups,answers⟩ => ⟨single,lookups,answers⟩,fun h => ⟨h.single,h.lookups,h.answers⟩⟩

/- What takes an account away meets no active row that it leaves as it is: SCIM no longer
knows the name, or SQLite fails while a deactivated user is on its way to the table. -/
structure Heeded (config : Config) (s : Sys) (l : Label) : Prop where
  missing : ∀ a ∈ l.answer, a.2 = none → ∀ r ∈ s.db.users.rows, asked s l.pid = some r.login →
    r.active = true → live a.1 config.cache.ttlSeconds r.cachedAt = false
  failing : l.fails = true → ∀ su ∈ receivedUsers (calledBy s l.pid), su.active ≠ some false
instance (s : Sys) (l : Label) : Decidable (Heeded config s l) :=
  decidable_of_iff ((∀ a ∈ l.answer, a.2 = none → ∀ r ∈ s.db.users.rows, asked s l.pid = some r.login →
      r.active = true → live a.1 config.cache.ttlSeconds r.cachedAt = false) ∧
    (l.fails = true → ∀ su ∈ receivedUsers (calledBy s l.pid), su.active ≠ some false))
    ⟨fun ⟨missing,failing⟩ => ⟨missing,failing⟩,fun h => ⟨h.missing,h.failing⟩⟩

structure Asking (op : Op) (tr : Trace calls) : Prop where
  byName : ∃ n, query op = some (.userByName n)
  groups : receivedGroups tr = []
  idle : todo tr = []
  quiet : ∀ t q e, (⟨t,.scim q,.error e⟩ : Event calls) ∈ tr → receivedUsers tr = []

theorem askingStart {op} (asks : byName op = true) : Asking op [] := by
  refine ⟨?_,rfl,rfl,fun _ _ _ _ => rfl⟩
  unfold byName at asks
  split at asks
  · rename_i n same
    exact ⟨n,same⟩
  · cases asks

theorem askingScim {op tr t q r} (asking : Asking op tr) (allowed : Allowed b config op tr (.scim q)) :
    Asking op (⟨t,.scim q,r⟩ :: tr) := by
  obtain ⟨asks,rfl⟩ := allowed
  obtain ⟨n,same⟩ := asking.byName
  cases asks.symm.trans same
  refine ⟨asking.byName,by simp [receivedGroups],by simp [todo],?_⟩
  intro t' q e inside
  cases List.mem_singleton.mp inside
  simp [receivedUsers]

theorem askingSql {op tr t st r} (asking : Asking op tr) (allowed : Allowed b config op tr (.sql st)) :
    Asking op (⟨t,.sql st,r⟩ :: tr) := by
  refine ⟨asking.byName,receivedGroupsSql.trans asking.groups,?_,?_⟩
  · cases st
    case insertOrReplaceGroup g =>
      obtain ⟨-,sg,received,-⟩ := allowed
      simp [asking.groups] at received
    case deleteMembers externalId => simp [Allowed,asking.idle] at allowed
    case insertMember externalId member => simp [Allowed,asking.idle] at allowed
    all_goals simp [todo]
  · intro t' q e inside
    rcases List.mem_cons.mp inside with never | old
    · cases never
    · exact receivedUsersSql.trans (asking.quiet t' q e old)

def Askings (s : Sys) : Prop := ∀ p op tr prog, s.procs p = .running op tr prog → Asking op tr

theorem askingsStep {s l s'} (conf : Conforms b config s) (inv : Askings s) (chosen : Lookups idOf s l)
    (move : Move b config s l s') : Askings s' := by
  intro q op tr prog at'
  cases arrived b config move at' with
  | stayed other there => exact inv q op tr prog there
  | started mine db label =>
    subst label
    exact askingStart (chosen.lookups op rfl)
  | heard t r reply label fits before db log => exact askingScim (inv _ _ _ _ before) (conf _ _ _ _ before).1
  | ran t fault label before db log => exact askingSql (inv _ _ _ _ before) (conf _ _ _ _ before).1

theorem askingPurgeless {op tr} (asking : Asking op tr) : purged config op = none := by
  obtain ⟨n,same⟩ := asking.byName
  cases op <;> simp [query,purged] at same ⊢

theorem askingPurgeFree {s l} (conf : Conforms b config s) (inv : Askings s) : PurgeFree s l := by
  intro e runs
  obtain ⟨t,st⟩ := e
  obtain ⟨op,tr,k,at',allowed⟩ := executesAllowed conf runs
  have never : purged config op = none := askingPurgeless (inv _ _ _ _ at')
  cases st
  case purgeUsers ttl => exact absurd (never.symm.trans allowed.2) (by simp)
  case purgeGroups ttl => exact absurd (never.symm.trans allowed.2) (by simp)
  all_goals exact ⟨rfl,rfl⟩

theorem calmLookups {may : Sys → Label → Prop} (lookups : ∀ s l, may s l → Lookups idOf s l) {s}
    (run : Reach (step b config) may (fresh empty now0) s) :
    Reach (step b config) Calm (fresh empty now0) s ∧ Askings s := by
  refine Runs.reachInto Askings (by intro p op tr prog at'; cases at') ?_ run
  intro s l s' before inv chosen move
  have conf := conforms before
  have chosen := lookups s l chosen
  exact ⟨⟨chosen.single,askingPurgeFree conf inv⟩,askingsStep conf inv chosen (stepMove b config move)⟩

def Groupless (s : Sys) : Prop := ∀ x, s.db.owners .gid x = none

theorem grouplessStep {s l s'} (conf : Conforms b config s) (asking : Askings s) (inv : Groupless s)
    (move : Move b config s l s') : Groupless s' := by
  intro x
  rcases ownersStep conf move .gid with ⟨t,st,k,slot,runs,stores,-⟩ | ⟨fewer,-⟩
  · obtain ⟨op,tr,cont,at',allowed⟩ := executesAllowed conf runs
    cases st <;> cases stores
    obtain ⟨-,sg,received,-⟩ := allowed
    rw [(asking _ _ _ _ at').groups] at received
    cases received
  · refine Option.eq_none_iff_forall_ne_some.mpr fun k own => ?_
    exact absurd ((inv x).symm.trans (fewer x k own)) (by simp)

/- An answer that is on its way to the table. -/
def Due (name : String) : Proc → Prop
  | .idle => False
  | .running _ tr _ => ∃ su ∈ receivedUsers tr, su.userName = name ∧ su.active = some false ∧
      ∀ t u, (⟨t,.sql (.insertOrReplaceUser u),.ok ()⟩ : Event calls) ∉ tr
  | .dead => True

structure Attentive (idOf : String → String) (log : List Entry) (op : Op) (tr : Trace calls) : Prop where
  heard : ∀ su ∈ receivedUsers tr, query op = some (.userByName su.userName) ∧ su.id = idOf su.userName ∧
    lastAnswer su.userName log = some (some su)
  sound : Failed tr → ∀ su ∈ receivedUsers tr, su.active ≠ some false
  told : ∀ t n ttl u, (⟨t,.sql (.selectUserByLogin n ttl),.ok (some u)⟩ : Event calls) ∈ tr →
    receivedUsers tr = [] → u.active = true → Granted n log

structure Vouched (config : Config) (idOf : String → String) (s : Sys) : Prop where
  ids : ∀ r ∈ s.db.users.rows, r.externalId = idOf r.login
  rows : ∀ r ∈ s.db.users.rows, r.active = true → live s.now config.cache.ttlSeconds r.cachedAt = true →
    Granted r.login s.log ∨ Due r.login (s.procs 0)
  running : ∀ op tr prog, s.procs 0 = .running op tr prog → Attentive idOf s.log op tr

theorem grantedMono {name} {log log' : List Entry} (granted : Granted name log)
    (same : lastAnswer name log' = lastAnswer name log) : Granted name log' := by
  obtain ⟨su,last,active⟩ := granted
  exact ⟨su,same.trans last,active⟩

theorem liveEarlier {now now' cachedAt : Int} {ttl : Ttl} (later : now ≤ now') (alive : live now' ttl cachedAt = true) :
    live now ttl cachedAt = true := by
  simp only [live,decide_eq_true_eq] at alive ⊢
  omega

theorem vouchedStart {s : Sys} {p op} (inv : Vouched config idOf s) (chosen : Lookups idOf s (.start p op))
    (free : mayStart (s.procs p) op = true) : Vouched config idOf (begin b config s p op) := by
  obtain rfl : p = 0 := chosen.single
  have asks := chosen.lookups op rfl
  have undue (name) (due : Due name (s.procs 0)) : False := by
    cases here : s.procs 0 with
    | idle => simp [here,Due] at due
    | running op' tr prog => simp [here,mayStart] at free
    | dead =>
      simp only [here,mayStart,beq_iff_eq] at free
      subst free
      cases asks
  refine ⟨inv.ids,?_,?_⟩
  · intro r inside active alive
    rcases inv.rows r inside active alive with granted | due
    · exact .inl (grantedMono granted rfl)
    · exact absurd due (undue r.login)
  · intro o tr prog at'
    simp only [begin,putSame,Proc.running.injEq] at at'
    obtain ⟨-,rfl,-⟩ := at'
    exact ⟨by simp [receivedUsers],by simp [receivedUsers],by simp⟩

theorem vouchedAfter {s : Sys} {op tr e prog db} (rows : ∀ row ∈ db.users.rows, row.externalId = idOf row.login ∧
      (row.active = true → live e.stamp config.cache.ttlSeconds row.cachedAt = true →
        Granted row.login (.call 0 e :: s.log) ∨ Due row.login (.running op (e :: tr) prog)))
    (attentive : Attentive idOf (.call 0 e :: s.log) op (e :: tr)) :
    Vouched config idOf (after s 0 op tr e prog db) := by
  refine ⟨fun row inside => (rows row inside).1,?_,?_⟩
  · intro row inside active alive
    simp only [after,putSame]
    exact (rows row inside).2 active alive
  · intro o tr' prog' here
    simp only [after,putSame,Proc.running.injEq] at here
    obtain ⟨rfl,rfl,-⟩ := here
    exact attentive

theorem grantedUnheard {s : Sys} {t op tr prog} (inv : Vouched config idOf s) (at' : s.procs 0 = .running op tr prog)
    (nobody : receivedUsers tr = []) (later : s.now ≤ t) {row : UserRow} (inside : row ∈ s.db.users.rows)
    (active : row.active = true) (alive : live t config.cache.ttlSeconds row.cachedAt = true) :
    Granted row.login s.log := by
  rcases inv.rows row inside active (liveEarlier later alive) with granted | due
  · exact granted
  · rw [at'] at due
    obtain ⟨su,received,-⟩ := due
    rw [nobody] at received
    cases received

theorem vouchedScim {s : Sys} {p t reply op tr q k r} (conf : Conforms b config s) (asking : Askings s)
    (inv : Vouched config idOf s) (chosen : Lookups idOf s (.scim p t reply)) (heeded : Heeded config s (.scim p t reply))
    (at' : s.procs p = .running op tr (.call (.scim q) k)) (later : s.now ≤ t) (fits : Reply.fit reply q = some r) :
    Vouched config idOf (after s p op tr ⟨t,.scim q,r⟩ (k r) s.db) := by
  obtain rfl : p = 0 := chosen.single
  obtain ⟨asks,rfl⟩ := (conf _ _ _ _ at').1
  obtain ⟨n,same⟩ := (asking _ _ _ _ at').byName
  cases asks.symm.trans same
  have old : ∀ row ∈ s.db.users.rows, row.active = true → live t config.cache.ttlSeconds row.cachedAt = true →
      Granted row.login s.log := fun row => grantedUnheard inv at' rfl later
  have wanted : asked s 0 = some n := by simp [asked,at']
  have running {a : Except ScimError (Option ScimUser)} (heard : ∀ su, a = .ok (some su) →
      su.userName = n ∧ su.id = idOf n) :
      Attentive idOf (.call 0 ⟨t,.scim (.userByName n),a⟩ :: s.log) op [⟨t,.scim (.userByName n),a⟩] := by
    refine ⟨?_,fun failed => ?_,by simp⟩
    · intro su received
      rcases a with e | none | su'
      · simp [receivedUsers] at received
      · simp [receivedUsers] at received
      · simp only [receivedUsers,List.mem_singleton] at received
        subst received
        obtain ⟨rfl,own⟩ := heard su rfl
        exact ⟨same,own,lastAnswerSame⟩
    · obtain ⟨t',st,e,never⟩ := failed
      cases List.mem_singleton.mp never
  cases reply <;> cases fits
  case error.refl e =>
    refine vouchedAfter (fun row inside => ⟨inv.ids row inside,fun active alive => ?_⟩) (running (by simp))
    exact .inl (grantedMono (old row inside active alive) lastAnswerError)
  case user.refl u =>
    refine vouchedAfter (fun row inside => ⟨inv.ids row inside,fun active alive => ?_⟩) (running ?_)
    · by_cases mine : n = row.login
      · subst mine
        cases u with
        | none => exact absurd alive (by simp [heeded.missing _ rfl rfl row inside wanted active])
        | some su =>
          have name : row.login = su.userName := Option.some.inj (wanted.symm.trans (chosen.answers _ rfl su rfl).1)
          by_cases off : su.active = some false
          · exact .inr ⟨su,by simp [receivedUsers],name.symm,off,by simp⟩
          · exact .inl ⟨su,lastAnswerSame,off⟩
      · exact .inl (grantedMono (old row inside active alive) (lastAnswerOther mine))
    · rintro su ⟨⟩
      obtain ⟨waiting,own⟩ := chosen.answers _ rfl su rfl
      have name : n = su.userName := Option.some.inj (wanted.symm.trans waiting)
      exact ⟨name.symm,name ▸ own⟩

theorem askingSucceeds {op tr st t db e} (asking : Asking op tr) (allowed : Allowed b config op tr (.sql st)) :
    exec t db st ≠ .error e := by
  cases st
  case insertMember externalId member => simp [Allowed,asking.idle] at allowed
  all_goals
    intro never
    cases never

theorem askingFault {op tr st t fault db e} (asking : Asking op tr) (allowed : Allowed b config op tr (.sql st))
    (failed : (execute t fault db st).1 = .error e) : fault = true := by
  cases fault with
  | true => rfl
  | false =>
    cases ran : exec t db st with
    | error e' => exact absurd ran (askingSucceeds asking allowed)
    | ok answer => simp [execute,ran] at failed

theorem attentiveSql {log op tr p t st r} (inv : Attentive idOf log op tr)
    (fails : ∀ e, r = .error e → ∀ su ∈ receivedUsers tr, su.active ≠ some false)
    (tells : ∀ n ttl u, (⟨t,.sql st,r⟩ : Event calls) = ⟨t,.sql (.selectUserByLogin n ttl),.ok (some u)⟩ →
      receivedUsers tr = [] → u.active = true → Granted n log) :
    Attentive idOf (.call p ⟨t,.sql st,r⟩ :: log) op (⟨t,.sql st,r⟩ :: tr) := by
  refine ⟨?_,?_,?_⟩
  · simpa using inv.heard
  · rintro ⟨t',st',e,inside⟩
    rw [receivedUsersSql]
    rcases List.mem_cons.mp inside with now | old
    · cases now
      exact fails e rfl
    · exact inv.sound ⟨t',st',e,old⟩
  · intro t' n ttl u inside nobody active
    rw [receivedUsersSql] at nobody
    refine grantedMono ?_ lastAnswerSql
    rcases List.mem_cons.mp inside with now | old
    · cases now
      exact tells n ttl u rfl nobody active
    · exact inv.told t' n ttl u old nobody active

theorem dueSql {name op tr t st r prog prog'} (due : Due name (.running op tr prog))
    (other : ∀ u, (⟨t,.sql st,r⟩ : Event calls) ≠ ⟨t,.sql (.insertOrReplaceUser u),.ok ()⟩) :
    Due name (.running op (⟨t,.sql st,r⟩ :: tr) prog') := by
  obtain ⟨su,received,named,off,unstored⟩ := due
  refine ⟨su,by simpa using received,named,off,?_⟩
  intro t' u inside
  rcases List.mem_cons.mp inside with now | old
  · cases now
    exact other u rfl
  · exact unstored t' u old

theorem storedRows {s : Sys} {t op tr u k} (conf : Conforms b config s) (inv : Vouched config idOf s)
    (at' : s.procs 0 = .running op tr (.call (.sql (.insertOrReplaceUser u)) k)) (later : s.now ≤ t) :
    ∀ r ∈ (s.db.insertOrReplaceUser u t).users.rows, r.externalId = idOf r.login ∧
      (r.active = true → live t config.cache.ttlSeconds r.cachedAt = true → Granted r.login s.log) := by
  obtain ⟨-,su,received,same,-⟩ := (conf _ _ _ _ at').1
  obtain ⟨asks,own,last⟩ := (inv.running _ _ _ at').heard su received
  intro r inside
  rcases UniqueTable.memInsertOrReplace.mp inside with rfl | ⟨there,foreign,-⟩
  · rw [same]
    refine ⟨own,fun active _ => ⟨su,last,fun off => ?_⟩⟩
    simp [userRow,userModel,off] at active
  · refine ⟨inv.ids r there,fun active alive => ?_⟩
    rcases inv.rows r there active (liveEarlier later alive) with granted | due
    · exact granted
    · rw [at'] at due
      obtain ⟨su',received',named,-⟩ := due
      have asks' := ((inv.running _ _ _ at').heard su' received').1
      have name : su'.userName = su.userName := by simpa using asks'.symm.trans asks
      have key : r.externalId = u.externalId := calc
        r.externalId = idOf r.login := inv.ids r there
        _ = idOf su.userName := by rw [← named,name]
        _ = su.id := own.symm
        _ = u.externalId := (congrArg User.externalId same).symm
      exact absurd key foreign

theorem rowsLeft {s : Sys} {t op tr st k} {r : Except SqlError st.Resp} {prog} {db : Db} (inv : Vouched config idOf s)
    (at' : s.procs 0 = .running op tr k) (later : s.now ≤ t) (same : db.users = s.db.users)
    (other : ∀ u, (⟨t,.sql st,r⟩ : Event calls) ≠ ⟨t,.sql (.insertOrReplaceUser u),.ok ()⟩) :
    ∀ row ∈ db.users.rows, row.externalId = idOf row.login ∧ (row.active = true →
      live t config.cache.ttlSeconds row.cachedAt = true →
      Granted row.login (.call 0 ⟨t,.sql st,r⟩ :: s.log) ∨ Due row.login (.running op (⟨t,.sql st,r⟩ :: tr) prog)) := by
  intro row inside
  rw [same] at inside
  refine ⟨inv.ids row inside,fun active alive => ?_⟩
  rcases inv.rows row inside active (liveEarlier later alive) with granted | due
  · exact .inl (grantedMono granted lastAnswerSql)
  · exact .inr (dueSql (at' ▸ due) other)

theorem vouchedSql {s : Sys} {p t fault op tr st k} (conf : Conforms b config s) (asking : Askings s)
    (inv : Vouched config idOf s) (single : p = 0) (heeded : Heeded config s (.sql p t fault))
    (at' : s.procs p = .running op tr (.call (.sql st) k)) (later : s.now ≤ t) :
    Vouched config idOf (after s p op tr ⟨t,.sql st,(execute t fault s.db st).1⟩
      (k (execute t fault s.db st).1) (execute t fault s.db st).2) := by
  subst single
  have allowed := (conf _ _ _ _ at').1
  have attentive := inv.running _ _ _ at'
  have fails : ∀ e, (execute t fault s.db st).1 = .error e → ∀ su ∈ receivedUsers tr, su.active ≠ some false := by
    intro e failed
    have fault := askingFault (asking _ _ _ _ at') allowed failed
    simpa [calledBy,Label.pid,at'] using heeded.failing fault
  rcases executeCases t fault s.db st with ⟨e,failed⟩ | ⟨rfl,r,db',ok,done⟩
  · rw [failed] at fails ⊢
    exact vouchedAfter (rowsLeft inv at' later rfl (by rintro u ⟨⟩)) (attentiveSql attentive (fun _ _ => fails e rfl) (by rintro n ttl u ⟨⟩))
  · rw [done]
    cases quiet : st.writesUsers with
    | false =>
      refine vouchedAfter (rowsLeft inv at' later (execUsers quiet ok) ?_) (attentiveSql attentive (by rintro e ⟨⟩) ?_)
      · rintro u ⟨⟩
        cases quiet
      · rintro n ttl u ⟨⟩ nobody active
        simp only [exec,Except.ok.injEq,Prod.mk.injEq,Option.map_eq_some_iff] at ok
        obtain ⟨⟨row,found,rfl⟩,-⟩ := ok
        have hit := List.find?_some found
        simp only [Bool.and_eq_true,beq_iff_eq,allowed.2] at hit
        obtain ⟨rfl,alive⟩ := hit
        exact grantedUnheard inv at' nobody later (List.mem_of_find?_eq_some found) active alive
    | true =>
      cases st <;> cases quiet
      case purgeUsers.refl ttl =>
        have never : purged config op = none := askingPurgeless (asking _ _ _ _ at')
        exact absurd (never.symm.trans allowed.2) (by simp)
      case insertOrReplaceUser.refl u =>
        cases ok
        refine vouchedAfter (fun row inside => ?_) (attentiveSql attentive (by rintro e ⟨⟩) (by rintro n ttl u ⟨⟩))
        obtain ⟨own,granted⟩ := storedRows conf inv at' later row inside
        exact ⟨own,fun active alive => .inl (grantedMono (granted active alive) lastAnswerSql)⟩

theorem returnedDue {s : Sys} {op tr out} (conf : Conforms b config s) (groupless : Groupless s)
    (settled : SettledColumn b config .uid s.db) (told : Reflected s) (inv : Vouched config idOf s)
    (at' : s.procs 0 = .running op tr (.ret out)) {r : UserRow} (inside : r ∈ s.db.users.rows)
    (due : Due r.login (.running op tr (.ret out))) : out = .error .panic := by
  obtain ⟨su,received,named,off,unstored⟩ := due
  have attentive := inv.running _ _ _ at'
  obtain ⟨asks,own,-⟩ := attentive.heard su received
  have done : Done b config op tr out := conf _ _ _ _ at'
  rcases done.online su.userName asks su received with ⟨t,u,-,stored⟩ | panic | failed | ⟨-,full⟩ | ⟨some,full⟩
  · exact absurd stored (unstored t u)
  · exact panic
  · exact absurd off (attentive.sound failed su received)
  · -- the row itself is on the path of its id
    have mine : s.db.owners .uid r.uid = some su.id := by
      rw [own,named,← inv.ids r inside]
      exact UniqueTable.ownerRow inside
    obtain ⟨other,theirs,foreign⟩ := passedHeld (told _ _ _ at') (full r.uid (Probing.reachesMember (settled su.id r.uid mine)))
    exact absurd (Option.some.inj (theirs.symm.trans mine)) foreign
  · obtain ⟨x,onPath⟩ := List.exists_mem_of_ne_nil _ some
    obtain ⟨other,theirs,-⟩ := passedHeld (told _ _ _ at') (full x onPath)
    exact absurd ((groupless x).symm.trans theirs) (by simp)

theorem vouchedFinish {s : Sys} {p op tr out} (conf : Conforms b config s) (groupless : Groupless s)
    (settled : SettledColumn b config .uid s.db) (told : Reflected s) (inv : Vouched config idOf s) (single : p = 0)
    (at' : s.procs p = .running op tr (.ret out)) : Vouched config idOf (done s p op out) := by
  subst single
  refine ⟨inv.ids,?_,?_⟩
  · intro r inside active alive
    rcases inv.rows r inside active alive with granted | due
    · exact .inl (grantedMono granted rfl)
    · have panic := returnedDue conf groupless settled told inv at' inside (at' ▸ due)
      refine .inr ?_
      simp [done,panic,Due]
  · intro o tr' prog here
    simp only [done,putSame] at here
    split at here <;> cases here

theorem vouchedStep {s l s'} (before : Reach (step b config) Calm (fresh empty now0) s) (asking : Askings s)
    (groupless : Groupless s) (inv : Vouched config idOf s) (chosen : Lookups idOf s l) (heeded : Heeded config s l)
    (move : Move b config s l s') : Vouched config idOf s' := by
  have conf := conforms before
  cases move with
  | start p op free => exact vouchedStart inv chosen free
  | scim p t reply op tr q k r at' later fits => exact vouchedScim conf asking inv chosen heeded at' later fits
  | sql p t fault op tr st k at' later => exact vouchedSql conf asking inv chosen.single heeded at' later
  | finish p op tr out at' =>
    have told := reflected (fun _ _ => And.left) before
    exact vouchedFinish conf groupless (calmSettled before .uid) told inv chosen.single at'
  | kill p =>
    obtain rfl : p = 0 := chosen.single
    refine ⟨inv.ids,fun r inside active alive => .inr ?_,?_⟩
    · simp [kill,Due]
    · intro o tr prog here
      simp [kill] at here

theorem vouched {s} (run : Reach (step b config) (fun s l => Lookups idOf s l ∧ Heeded config s l) (fresh empty now0) s) :
    Groupless s ∧ Vouched config idOf s := by
  refine moveInvariant (fun s => Groupless s ∧ Vouched config idOf s) ?_ ?_ run
  · refine ⟨fun x => congrFun (ownersEmpty .gid) x,⟨?_,?_,?_⟩⟩
    · intro r inside
      cases inside
    · intro r inside
      cases inside
    · intro op tr prog at'
      cases at'
  · intro s l s' sofar inv chosen move
    obtain ⟨calm,asking⟩ := calmLookups (fun _ _ => And.left) sofar
    exact ⟨grouplessStep (conforms calm) asking inv.1 move,
      vouchedStep calm asking inv.1 inv.2 chosen.1 chosen.2 move⟩

theorem revocationSurvives (b : Build) (config : Config) (idOf : String → String) (now0 : Int) (s : Sys)
    (run : Reach (step b config) (fun s l => Lookups idOf s l ∧ Heeded config s l) (fresh empty now0) s)
    (name : String) (tr : Trace calls) (t : Int) (e : ScimError)
    (at' : s.procs 0 = .running (.checkUserActive name) tr (.ret (.ok (.active true))))
    (down : (⟨t,.scim (.userByName name),.error e⟩ : Event calls) ∈ tr) :
    ∃ su, lastAnswer name s.log = some (some su) ∧ su.active ≠ some false := by
  obtain ⟨calm,asking⟩ := calmLookups (fun _ _ => And.left) run
  have nobody := (asking _ _ _ _ at').quiet t _ e down
  have done : Done b config _ tr _ := conforms calm _ _ _ _ at'
  obtain ⟨t1,t2,e',u,ttl,active,rfl⟩ := done.offline name rfl rfl nobody
  exact ((vouched run).2.running _ _ _ at').told t1 name ttl u List.mem_cons_self nobody active

def reactivated : List Label :=
  whole 0 (.lookupUserByName "two") 0 (some (.user (some (scimUser "u2" "two")))) 3 ++
  whole 0 (.checkUserActive "two") 10 (some (.user (some { scimUser "u2" "two" with active := some false }))) 3 ++
  whole 0 (.lookupGroupsForUser "two") 20 (some (.user (some (scimUser "u2" "two")))) 3 ++
  (whole 0 (.checkUserActive "two") 30 (some (.error .http)) 1).dropLast

theorem revocationSurvivesExample : ∃ s tr,
    replay (step release fourSlots) (fun s l => Lookups (fun _ => "u2") s l ∧ Heeded fourSlots s l) (fresh empty 0)
      reactivated = some s ∧
    s.procs 0 = .running (.checkUserActive "two") tr (.ret (.ok (.active true))) ∧
    ∃ su, lastAnswer "two" s.log = some (some su) ∧ su.active ≠ some false := by
  have ends : (replay (step release fourSlots) (fun s l => Lookups (fun _ => "u2") s l ∧ Heeded fourSlots s l)
      (fresh empty 0) reactivated).map (fun s => returning (s.procs 0)) =
      some (some ⟨.checkUserActive "two",.ok (.active true),[(30,"two",.error .http)]⟩) := by decide +kernel
  obtain ⟨s,reached,returns⟩ := Option.map_eq_some_iff.mp ends
  obtain ⟨tr,at',answers⟩ := returningSound returns
  exact ⟨s,tr,reached,at',revocationSurvives release fourSlots _ 0 s (Runs.replayReach reached) "two" tr 30 .http at'
    (answers 30 "two" _ (by simp))⟩

def deleted : List Label :=
  whole 0 (.lookupUserByName "two") 0 (some (.user (some (scimUser "u2" "two")))) 3 ++
  whole 0 (.checkUserActive "two") 10 (some (.user none)) 0 ++
  (whole 0 (.checkUserActive "two") 20 (some (.error .http)) 1).dropLast

theorem revocationLost : fourSlots.security.offlineAuthPolicy = .cachedStatus ∧ ∃ s tr,
    replay (step release fourSlots) (Lookups (fun _ => "u2")) (fresh empty 0) deleted = some s ∧
    s.procs 0 = .running (.checkUserActive "two") tr (.ret (.ok (.active true))) ∧
    (⟨20,.scim (.userByName "two"),.error .http⟩ : Event calls) ∈ tr ∧ lastAnswer "two" s.log = some none := by
  have ends : (replay (step release fourSlots) (Lookups (fun _ => "u2")) (fresh empty 0) deleted).map
      (fun s => (returning (s.procs 0),lastAnswer "two" s.log)) =
      some (some ⟨.checkUserActive "two",.ok (.active true),[(20,"two",.error .http)]⟩,some none) := by decide +kernel
  obtain ⟨s,reached,facts⟩ := Option.map_eq_some_iff.mp ends
  obtain ⟨returns,gone⟩ := Prod.mk.inj facts
  obtain ⟨tr,at',answers⟩ := returningSound returns
  exact ⟨rfl,s,tr,reached,at',answers 20 "two" _ (by simp),gone⟩

end SssdOidc.Revocation
