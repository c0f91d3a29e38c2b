import Mathlib.Data.Nat.Pairing
import SssdOidc.Threads

/-! Threads without their processes. Call for call and in the same order, what the threads of
any number of processes do is done by executors that know neither a mutex nor an initialiser,
and that run one operation at a time each. The list that a thread fetches on its way to the
mutex is the first call of its operation. -/
namespace SssdOidc.Executors
open Model Database Mapping Program Cache Service Threads
open SssdOidc.System (Reply Sys Proc Entry execute begin after done put)
open Runs (Reach)

/- A thread that leaves an operation unfinished goes on as another executor. -/
def executor (p i life : Nat) : Nat := Nat.pair (Nat.pair p i) life

def threadOf (e : Nat) : Nat × Nat := Nat.unpair (Nat.unpair e).1

@[simp] theorem threadOfExecutor (p i life : Nat) : threadOf (executor p i life) = (p,i) := by simp [threadOf,executor]

theorem executorInj {p i n q j k : Nat} : executor p i n = executor q j k ↔ (p = q ∧ i = j) ∧ n = k := by
  simp only [executor,Nat.pair_eq_pair]

def made (m : Machine) : Label → Option ((Nat × Nat) × Event calls)
  | .fetch p i t reply =>
      match (m.procs p).threads i with
      | .asking op => (fetches op).bind fun q => (Reply.fit reply q).map fun r => ((p,i),⟨t,.scim q,r⟩)
      | _ => none
  | .scim p i t reply =>
      match ((m.procs p).threads i).program with
      | some (_,.call (.scim q) _) => (Reply.fit reply q).map fun r => ((p,i),⟨t,.scim q,r⟩)
      | _ => none
  | .sql p i t fault =>
      match ((m.procs p).threads i).program with
      | some (_,.call (.sql st) _) => some ((p,i),⟨t,.sql st,(execute t fault m.db st).1⟩)
      | _ => none
  | _ => none

inductive Ran (b : Build) (config : Config) (first : Machine) : Machine → List ((Nat × Nat) × Event calls) → Prop where
  | start : Ran b config first first []
  | next {m past m'} (sofar : Ran b config first m past) (l : Label) (move : step b config m l = some m') :
      Ran b config first m' ((made m l).toList ++ past)

def along (b : Build) (config : Config) : List Label → Machine × List ((Nat × Nat) × Event calls) →
    Option (Machine × List ((Nat × Nat) × Event calls))
  | [], so => some so
  | l :: ls, (m,past) => (step b config m l).bind fun m' => along b config ls (m',(made m l).toList ++ past)

theorem alongRan {b : Build} {config : Config} {first m m' : Machine} {past past' : List ((Nat × Nat) × Event calls)}
    {ls : List Label} (ran : Ran b config first m past) (ends : along b config ls (m,past) = some (m',past')) :
    Ran b config first m' past' := by
  induction ls generalizing m past with
  | nil =>
    cases ends
    exact ran
  | cons l ls ih =>
    obtain ⟨m1,move,onward⟩ := Option.bind_eq_some_iff.mp ends
    exact ih (.next ran l move) onward

def byThread : Entry → Option ((Nat × Nat) × Event calls)
  | .call e event => some (threadOf e,event)
  | _ => none

theorem byThreadCall (p i life : Nat) (event : Event calls) (log : List Entry) :
    (Entry.call (executor p i life) event :: log).filterMap byThread = ((p,i),event) :: log.filterMap byThread := by
  rw [List.filterMap_cons_some (b := ((p,i),event)) (by rw [byThread,threadOfExecutor])]

inductive Acts (b : Build) (config : Config) : Thread → Proc → Prop where
  | idle : Acts b config .idle .idle
  | called {op} : Acts b config (.called op) .idle
  | booting {op tr prog} : Acts b config (.booting op prog) (.running .new tr prog)
  | asking {op} : Acts b config (.asking op) .idle
  | waiting {op} : Acts b config (.waiting op none) .idle
  | fetched {op reply tr} :
      Acts b config (.waiting op (some reply)) (.running op tr (body b config op (some reply)))
  | inside {op tr prog} : Acts b config (.inside op prog) (.running op tr prog)
  | unwinding {pr} : Acts b config .unwinding pr

structure Enacts (b : Build) (config : Config) (m : Machine) (past : List ((Nat × Nat) × Event calls)) (s : Sys)
    (life : Nat → Nat → Nat) : Prop where
  db : s.db = m.db
  now : s.now = m.now
  calls : s.log.filterMap byThread = past
  acts : ∀ p i, Acts b config ((m.procs p).threads i) (s.procs (executor p i (life p i)))
  unused : ∀ p i n, life p i < n → s.procs (executor p i n) = .idle

section Enacts
variable {b : Build} {config : Config} {m m' : Machine} {past past' : List ((Nat × Nat) × Event calls)} {s s' : Sys}
  {life : Nat → Nat → Nat} {p i : Nat} {x : Process}

theorem actsIdle {pr} (acts : Acts b config .idle pr) : pr = .idle := by
  cases acts
  rfl

theorem actsCalled {pr op} (acts : Acts b config (.called op) pr) : pr = .idle := by
  cases acts
  rfl

theorem actsAsking {pr op} (acts : Acts b config (.asking op) pr) : pr = .idle := by
  cases acts
  rfl

theorem actsProgram {th pr op prog} (acts : Acts b config th pr) (runs : th.program = some (op,prog)) :
    ∃ tr, pr = .running op tr prog := by
  cases acts with
  | booting => cases runs; exact ⟨_,rfl⟩
  | inside => cases runs; exact ⟨_,rfl⟩
  | _ => cases runs

theorem actsResume {th : Thread} {op prog} (runs : th.program = some (op,prog)) (tr : Trace calls)
    (rest : Prog calls Outcome) : Acts b config (th.resume rest) (.running op tr rest) := by
  cases th with
  | booting next prog => cases runs; exact .booting
  | inside op prog => cases runs; exact .inside
  | _ => cases runs

theorem actsLeft {th : Thread} {op out} (runs : th.program = some (op,.ret out)) :
    Acts b config ((left x i out th).threads i) (ended out) := by
  cases th with
  | booting next prog =>
    rcases out with (e | -) | o
    · simpa [left,ended] using Acts.called
    · simpa [left,ended] using Acts.unwinding
    · simpa [left,ended] using Acts.called
  | inside op prog =>
    rcases out with (e | -) | o
    · simpa [left,ended] using Acts.idle
    · simpa [left,ended] using Acts.unwinding
    · simpa [left,ended] using Acts.idle
  | _ => cases runs

theorem leftOthers {th : Thread} {out : Outcome} {j : Nat} (other : j ≠ i) :
    (left x i out th).threads j = x.threads j := by
  unfold left
  split
  · rcases out with (e | -) | o <;> simp [other]
  · rcases out with (e | -) | o <;> simp [other]

theorem threadsElsewhere {q j : Nat} (others : ∀ j, j ≠ i → x.threads j = (m.procs p).threads j)
    (other : ¬(p = q ∧ i = j)) : ((m.put p x).procs q).threads j = (m.procs q).threads j := by
  by_cases here : q = p
  · subst here
    have apart : j ≠ i := fun same => other ⟨rfl,same.symm⟩
    simpa [Machine.put] using others j apart
  · simp [Machine.put,here]

theorem enactsPut (enacts : Enacts b config m past s life) (pr : Proc) (machine : m'.procs = (m.put p x).procs)
    (others : ∀ j, j ≠ i → x.threads j = (m.procs p).threads j) (acts : Acts b config (x.threads i) pr)
    (procs : s'.procs = put s.procs (executor p i (life p i)) pr)
    (db : s'.db = m'.db) (now : s'.now = m'.now) (calls : s'.log.filterMap byThread = past') :
    Enacts b config m' past' s' life := by
  refine ⟨db,now,calls,fun q j => ?_,fun q j n later => ?_⟩
  · rw [machine,procs]
    by_cases same : p = q ∧ i = j
    · obtain ⟨rfl,rfl⟩ := same
      simpa [Machine.put] using acts
    · have apart : executor q j (life q j) ≠ executor p i (life p i) := by
        intro clash
        obtain ⟨⟨rfl,rfl⟩,-⟩ := executorInj.mp clash
        exact same ⟨rfl,rfl⟩
      rw [threadsElsewhere others same,System.putOther _ _ apart]
      exact enacts.acts q j
  · have apart : executor q j n ≠ executor p i (life p i) := by
      intro clash
      obtain ⟨⟨rfl,rfl⟩,rfl⟩ := executorInj.mp clash
      exact Nat.lt_irrefl _ later
    rw [procs,System.putOther _ _ apart]
    exact enacts.unused q j n later

theorem enactsStay (enacts : Enacts b config m past s life) (machine : m'.procs = (m.put p x).procs)
    (others : ∀ j, j ≠ i → x.threads j = (m.procs p).threads j)
    (acts : Acts b config (x.threads i) (s.procs (executor p i (life p i)))) (db : m'.db = m.db) (now : m'.now = m.now) :
    Enacts b config m' past s life := by
  refine enactsPut enacts _ machine others acts ?_ (enacts.db.trans db.symm) (enacts.now.trans now.symm) enacts.calls
  funext e
  by_cases here : e = executor p i (life p i) <;> simp [put,here]

/- From here on the threads for which `ended` holds are new executors. -/
theorem enactsNext (enacts : Enacts b config m past s life) (ended : Nat → Nat → Prop) [∀ q j, Decidable (ended q j)]
    (idle : ∀ q j, ended q j → (m'.procs q).threads j = .idle)
    (same : ∀ q j, ¬ended q j → (m'.procs q).threads j = (m.procs q).threads j)
    (db : m'.db = m.db) (now : m'.now = m.now) :
    Enacts b config m' past s (fun q j => if ended q j then life q j + 1 else life q j) := by
  refine ⟨enacts.db.trans db.symm,enacts.now.trans now.symm,enacts.calls,fun q j => ?_,fun q j n later => ?_⟩
  · by_cases gone : ended q j
    · rw [idle q j gone,if_pos gone,enacts.unused q j _ (Nat.lt_succ_self _)]
      exact .idle
    · rw [same q j gone,if_neg gone]
      exact enacts.acts q j
  · refine enacts.unused q j n (Nat.lt_of_le_of_lt ?_ later)
    split
    · exact Nat.le_succ _
    · exact Nat.le_refl _

theorem enactsGone (enacts : Enacts b config m past s life)
    (machine : m'.procs = (m.put p ((m.procs p).at i .idle)).procs) (db : m'.db = m.db) (now : m'.now = m.now) :
    ∃ life', Enacts b config m' past s life' := by
  refine ⟨_,enactsNext enacts (fun q j => p = q ∧ i = j) ?_ ?_ db now⟩
  · rintro q j ⟨rfl,rfl⟩
    simp [machine,Machine.put]
  · intro q j other
    rw [machine]
    exact threadsElsewhere (fun j apart => atOther _ _ apart) other

theorem enactsOver (enacts : Enacts b config m past s life) (machine : m'.procs = (m.put p x).procs)
    (idle : ∀ j, x.threads j = .idle) (db : m'.db = m.db) (now : m'.now = m.now) :
    ∃ life', Enacts b config m' past s life' := by
  refine ⟨_,enactsNext enacts (fun q _ => q = p) ?_ ?_ db now⟩
  · rintro q j rfl
    simpa [machine,Machine.put] using idle j
  · intro q j other
    simp [machine,Machine.put,other]

def Enacted (b : Build) (config : Config) (m : Machine) (past : List ((Nat × Nat) × Event calls)) (s : Sys) : Prop :=
  ∃ s' life, Reach (System.step b config) (fun _ _ => True) s s' ∧ Enacts b config m past s' life

theorem enactedStay (enacts : ∃ life', Enacts b config m past s life') : Enacted b config m past s :=
  ⟨s,enacts.choose,.start,enacts.choose_spec⟩

theorem enactedStep {l} (move : System.step b config s l = some s') (enacts : Enacts b config m past s' life) :
    Enacted b config m past s := ⟨s',life,.next .start l trivial move,enacts⟩

theorem startIdle {e : Nat} (op : Op) (idle : s.procs e = .idle) :
    System.step b config s (.start e op) = some (begin b config s e op) := by
  simp [System.step,System.mayStart,idle]

theorem requested {e : Nat} {op : Op} {q r reply t} (idle : s.procs e = .idle) (later : s.now ≤ t)
    (query : fetches op = some q) (fits : Reply.fit reply q = some r) :
    ∃ s', Reach (System.step b config) (fun _ _ => True) s s' ∧ s'.db = s.db ∧ s'.now = t ∧
      s'.log = .call e ⟨t,.scim q,r⟩ :: .start e op :: s.log ∧
      s'.procs = put s.procs e (.running op [⟨t,.scim q,r⟩] (body b config op (some reply))) := by
  obtain ⟨k,first,onward⟩ := @bodyFetched b config _ _ _ _ query fits
  have heard : System.step b config (begin b config s e op) (.scim e t reply) =
      some (after (begin b config s e op) e op [] ⟨t,.scim q,r⟩ (k r) s.db) := by
    simp [System.step,begin,first,later,fits]
  refine ⟨_,.next (.next .start _ trivial (startIdle op idle)) _ trivial heard,rfl,rfl,rfl,?_⟩
  rw [onward]
  funext j
  by_cases here : j = e <;> simp [after,begin,put,here]

theorem idleAgain (th : Thread) : (m.put p ((m.procs p).at i .idle)).procs =
    ((m.put p ((m.procs p).at i th)).put p (((m.put p ((m.procs p).at i th)).procs p).at i .idle)).procs := by
  funext q
  by_cases here : q = p
  · subst here
    simp only [Machine.put,if_pos,Process.at]
    congr 1
    funext j
    split <;> rfl
  · simp [Machine.put,here]

/- What a thread hears on its way to the mutex, its executor hears first of all. -/
theorem enactsHeard {op : Op} {q r reply t} (enacts : Enacts b config m past s life)
    (at' : (m.procs p).threads i = .asking op) (later : m.now ≤ t) (query : fetches op = some q)
    (fits : Reply.fit reply q = some r) (log : List (Nat × Op × Threads.Answer)) :
    ∃ s', Reach (System.step b config) (fun _ _ => True) s s' ∧
      Enacts b config { m.put p ((m.procs p).at i (.waiting op (some reply))) with now := t, log := log }
        (((p,i),⟨t,.scim q,r⟩) :: past) s' life := by
  have idle := actsAsking (at' ▸ enacts.acts p i)
  obtain ⟨s',asked,db,now,grown,procs⟩ := requested idle (enacts.now ▸ later) query fits
  have others : ∀ j, j ≠ i → ((m.procs p).at i (.waiting op (some reply))).threads j = (m.procs p).threads j :=
    fun j other => atOther _ _ other
  refine ⟨s',asked,enactsPut enacts _ rfl others ?_ procs (db.trans enacts.db) now ?_⟩
  · rw [atSame]
    exact .fetched
  · rw [grown,byThreadCall]
    exact congrArg _ enacts.calls

theorem movesEnacted {l} (enacts : Enacts b config m past s life) (move : Moves b config m l m') :
    Enacted b config m' ((made m l).toList ++ past) s := by
  have others {p : Nat} {x : Process} {i : Nat} (th : Thread) (same : x.threads = (m.procs p).threads) :
      ∀ j, j ≠ i → (x.at i th).threads j = (m.procs p).threads j := fun j other => by rw [atOther x th other,same]
  cases move with
  | call p i op alive at' =>
    have idle := actsIdle (at' ▸ enacts.acts p i)
    refine enactedStay ⟨life,enactsStay enacts rfl (others _ rfl) ?_ rfl rfl⟩
    rw [atSame,idle]
    exact .called
  | boot p i op alive at' first =>
    have idle := actsCalled (at' ▸ enacts.acts p i)
    refine enactedStep (startIdle .new idle) (enactsPut enacts _ rfl (others _ rfl) ?_ rfl enacts.db enacts.now enacts.calls)
    rw [atSame]
    exact .booting
  | fail p i op at' first => exact enactedStay ⟨life,enactsStay enacts rfl (fun j _ => rfl) (enacts.acts p i) rfl rfl⟩
  | enter p i op at' set =>
    have idle := actsCalled (at' ▸ enacts.acts p i)
    refine enactedStay ⟨life,enactsStay enacts rfl (others _ rfl) ?_ rfl rfl⟩
    rw [atSame,idle]
    split
    · exact .asking
    · exact .waiting
  | refused p i op at' failed =>
    have idle := actsCalled (at' ▸ enacts.acts p i)
    refine enactedStay ⟨life,enactsStay enacts rfl (others _ rfl) ?_ rfl rfl⟩
    rw [atSame,idle]
    exact .idle
  | fetch p i t reply op q r at' later query fits =>
    have call : made m (.fetch p i t reply) = some ((p,i),⟨t,.scim q,r⟩) := by simp [made,at',query,fits]
    obtain ⟨s',asked,enacts'⟩ := enactsHeard enacts at' later query fits m.log
    rw [call]
    exact ⟨s',life,asked,enacts'⟩
  | lost p i t reply op q r at' later query fits =>
    have call : made m (.fetch p i t reply) = some ((p,i),⟨t,.scim q,r⟩) := by simp [made,at',query,fits]
    obtain ⟨s',asked,heard⟩ := enactsHeard enacts at' later query fits ((p,op,.unavailable) :: m.log)
    have gone : ∃ life', Enacts b config
        { m.put p ((m.procs p).at i .idle) with now := t, log := (p,op,.unavailable) :: m.log }
        (((p,i),⟨t,.scim q,r⟩) :: past) s' life' := enactsGone heard (idleAgain _) rfl rfl
    obtain ⟨life',enacts'⟩ := gone
    rw [call]
    exact ⟨s',life',asked,enacts'⟩
  | acquire p i op fetched alive at' free sane =>
    have acts := enacts.acts p i
    rw [at'] at acts
    generalize procs : s.procs (executor p i (life p i)) = pr at acts
    cases acts with
    | waiting =>
      refine enactedStep (startIdle op procs)
        (enactsPut enacts _ rfl (others _ rfl) ?_ rfl enacts.db enacts.now enacts.calls)
      rw [atSame,bodyPlain]
      exact .inside
    | fetched =>
      refine enactedStay ⟨life,enactsStay enacts rfl (others _ rfl) ?_ rfl rfl⟩
      rw [atSame,procs]
      exact .inside
  | shut p i op fetched at' => exact enactedStay (enactsGone enacts rfl rfl rfl)
  | scim p i t reply op q k r at' later fits =>
    obtain ⟨tr,procs⟩ := actsProgram (enacts.acts p i) at'
    have heard : System.step b config s (.scim (executor p i (life p i)) t reply) =
        some (after s (executor p i (life p i)) op tr ⟨t,.scim q,r⟩ (k r) s.db) := by
      simp [System.step,procs,enacts.now ▸ later,fits]
    have call : made m (.scim p i t reply) = some ((p,i),⟨t,.scim q,r⟩) := by simp [made,at',fits]
    refine enactedStep heard (enactsPut enacts _ rfl (others _ rfl) ?_ rfl enacts.db rfl ?_)
    · rw [atSame]
      exact actsResume at' _ _
    · rw [call,after,byThreadCall,enacts.calls]
      rfl
  | sql p i t fault op st k at' later =>
    obtain ⟨tr,procs⟩ := actsProgram (enacts.acts p i) at'
    have ran : System.step b config s (.sql (executor p i (life p i)) t fault) =
        some (after s (executor p i (life p i)) op tr ⟨t,.sql st,(execute t fault m.db st).1⟩
          (k (execute t fault m.db st).1) (execute t fault m.db st).2) := by
      simp [System.step,procs,enacts.now ▸ later,enacts.db]
    have call : made m (.sql p i t fault) = some ((p,i),⟨t,.sql st,(execute t fault m.db st).1⟩) := by simp [made,at']
    refine enactedStep ran (enactsPut enacts _ rfl (others _ rfl) ?_ rfl rfl rfl ?_)
    · rw [atSame]
      exact actsResume at' _ _
    · rw [call,after,byThreadCall,enacts.calls]
      rfl
  | leave p i op out at' =>
    obtain ⟨tr,procs⟩ := actsProgram (enacts.acts p i) at'
    have finish : System.step b config s (.finish (executor p i (life p i))) =
        some (done s (executor p i (life p i)) op out) := by simp [System.step,procs]
    exact enactedStep finish (enactsPut enacts _ rfl (fun j other => leftOthers other) (actsLeft at') rfl enacts.db
      enacts.now enacts.calls)
  | abort p i => exact enactedStay (enactsOver enacts rfl (fun _ => rfl) rfl rfl)
  | kill p => exact enactedStay (enactsOver enacts rfl (fun _ => rfl) rfl rfl)
  | respawn p gone => exact enactedStay (enactsOver enacts rfl (fun _ => rfl) rfl rfl)

theorem enactsFresh (db : Db) (now : Int) :
    Enacts b config (Threads.fresh db now) [] (System.fresh db now) fun _ _ => 0 :=
  ⟨rfl,rfl,rfl,fun _ _ => .idle,fun _ _ _ _ => rfl⟩

theorem ranEnacted {db now} (ran : Ran b config (Threads.fresh db now) m past) :
    Enacted b config m past (System.fresh db now) := by
  induction ran with
  | start => exact enactedStay ⟨_,enactsFresh db now⟩
  | next sofar l move ih =>
    obtain ⟨s,life,run,enacts⟩ := ih
    obtain ⟨s',life',onward,enacts'⟩ := movesEnacted enacts (stepMoves b config move)
    exact ⟨s',life',Runs.reachTrans run onward,enacts'⟩

end Enacts

/- What the threads have done so far is done, and so is whatever one of them does next. -/
theorem threadsAsExecutors {b : Build} {config : Config} {db : Db} {now : Int} {m : Machine}
    {past : List ((Nat × Nat) × Event calls)} (ran : Ran b config (Threads.fresh db now) m past) :
    ∃ s, Reach (System.step b config) (fun _ _ => True) (System.fresh db now) s ∧ s.db = m.db ∧
      s.log.filterMap byThread = past ∧ ∀ l m', step b config m l = some m' →
        ∃ s', Reach (System.step b config) (fun _ _ => True) s s' ∧ s'.db = m'.db ∧
          s'.log.filterMap byThread = (made m l).toList ++ past := by
  obtain ⟨s,life,run,enacts⟩ := ranEnacted ran
  refine ⟨s,run,enacts.db,enacts.calls,fun l m' move => ?_⟩
  obtain ⟨s',life',onward,enacts'⟩ := movesEnacted enacts (stepMoves b config move)
  exact ⟨s',onward,enacts'.db,enacts'.calls⟩

end SssdOidc.Executors
