import SssdOidc.Runs
import SssdOidc.Service

/-! Processes on one cache database. A process runs one operation at a time, and between
any two calls of an operation the other processes may move. A step is chosen by a label,
which also carries what the environment decides: the answer of the SCIM server, the
clock, and whether SQLite fails. The log and the traces record what happened; no
operation reads them. -/
namespace SssdOidc.System
open Model Database Mapping Program Cache Service

inductive Proc where
  | idle
  | running (op : Op) (trace : Trace calls) (prog : Prog calls Outcome)
  -- killed, or aborted: a panic may not cross an extern "C" frame
  | dead

inductive Entry where
  | start (p : Nat) (op : Op)
  | call (p : Nat) (e : Event calls)
  | finish (p : Nat) (op : Op) (out : Outcome)

structure Sys where
  db : Db
  now : Int
  procs : Nat → Proc
  log : List Entry

inductive Reply where
  | user (u : Option ScimUser)
  | group (g : Option ScimGroup)
  | users (us : List ScimUser)
  | groups (gs : List ScimGroup)
  | error (e : ScimError)
  deriving DecidableEq, Repr

def Reply.fit : Reply → (q : ScimQuery) → Option (Except ScimError q.Resp)
  | .user u, .userByName _ => some (.ok u)
  | .group g, .groupByName _ => some (.ok g)
  | .users us, .listUsers => some (.ok us)
  | .groups gs, .listGroups => some (.ok gs)
  | .error e, _ => some (.error e)
  | _, _ => none

inductive Label where
  | start (p : Nat) (op : Op)
  | scim (p : Nat) (t : Int) (reply : Reply)
  | sql (p : Nat) (t : Int) (fault : Bool)
  | finish (p : Nat)
  | kill (p : Nat)
  deriving DecidableEq, Repr

def Label.pid : Label → Nat
  | .start p _ => p
  | .scim p _ _ => p
  | .sql p _ _ => p
  | .finish p => p
  | .kill p => p

def Label.starts : Label → Option Op
  | .start _ op => some op
  | _ => none

def Label.answer : Label → Option (Int × Option ScimUser)
  | .scim _ t (.user u) => some (t,u)
  | _ => none

def Label.fails : Label → Bool
  | .sql _ _ fault => fault
  | _ => false

def execute (t : Int) (fault : Bool) (db : Db) (st : Stmt) : Except SqlError st.Resp × Db :=
  if fault then (.error .failure,db)
  else match exec t db st with
    | .ok (r,db') => (.ok r,db')
    | .error e => (.error e,db)

def put (procs : Nat → Proc) (p : Nat) (x : Proc) : Nat → Proc := fun q => if q = p then x else procs q

@[simp] theorem putSame (procs : Nat → Proc) (p : Nat) (x : Proc) : put procs p x p = x := by simp [put]

@[simp] theorem putOther (procs : Nat → Proc) {p q : Nat} (x : Proc) (other : q ≠ p) :
    put procs p x q = procs q := by simp [put,other]

section Step
variable (b : Build) (config : Config)

def begin (s : Sys) (p : Nat) (op : Op) : Sys :=
  ⟨s.db,s.now,put s.procs p (.running op [] (operation b config op)),.start p op :: s.log⟩

def after (s : Sys) (p : Nat) (op : Op) (tr : Trace calls) (e : Event calls) (rest : Prog calls Outcome)
    (db : Db) : Sys := ⟨db,e.stamp,put s.procs p (.running op (e :: tr) rest),.call p e :: s.log⟩

def done (s : Sys) (p : Nat) (op : Op) (out : Outcome) : Sys :=
  ⟨s.db,s.now,put s.procs p (if out matches .error .panic then .dead else .idle),.finish p op out :: s.log⟩

def kill (s : Sys) (p : Nat) : Sys := ⟨s.db,s.now,put s.procs p .dead,s.log⟩

/- A process that died is followed by one that opens the cache anew. -/
def mayStart : Proc → Op → Bool
  | .idle, _ => true
  | .dead, op => op == .new
  | .running _ _ _, _ => false

def step (s : Sys) : Label → Option Sys
  | .start p op => if mayStart (s.procs p) op then some (begin b config s p op) else none
  | .scim p t reply =>
      match s.procs p with
      | .running op tr (.call (.scim q) k) =>
          if s.now ≤ t then
            (reply.fit q).map (fun r => after s p op tr ⟨t,.scim q,r⟩ (k r) s.db)
          else none
      | _ => none
  | .sql p t fault =>
      match s.procs p with
      | .running op tr (.call (.sql st) k) =>
          if s.now ≤ t then
            let answer := execute t fault s.db st
            some (after s p op tr ⟨t,.sql st,answer.1⟩ (k answer.1) answer.2)
          else none
      | _ => none
  | .finish p =>
      match s.procs p with
      | .running op _ (.ret out) => some (done s p op out)
      | _ => none
  | .kill p => some (kill s p)

inductive Move (s : Sys) : Label → Sys → Prop where
  | start (p op) (free : mayStart (s.procs p) op = true) : Move s (.start p op) (begin b config s p op)
  | scim (p t reply op tr q k r) (at' : s.procs p = .running op tr (.call (.scim q) k))
      (later : s.now ≤ t) (fits : Reply.fit reply q = some r) :
      Move s (.scim p t reply) (after s p op tr ⟨t,.scim q,r⟩ (k r) s.db)
  | sql (p t fault op tr st k) (at' : s.procs p = .running op tr (.call (.sql st) k)) (later : s.now ≤ t) :
      Move s (.sql p t fault) (after s p op tr ⟨t,.sql st,(execute t fault s.db st).1⟩
        (k (execute t fault s.db st).1) (execute t fault s.db st).2)
  | finish (p op tr out) (at' : s.procs p = .running op tr (.ret out)) :
      Move s (.finish p) (done s p op out)
  | kill (p) : Move s (.kill p) (kill s p)

theorem stepMove {s l s'} (move : step b config s l = some s') : Move b config s l s' := by
  cases l with
  | start p op =>
    simp only [step] at move
    split at move <;> cases move
    exact .start p op (by assumption)
  | scim p t reply =>
    simp only [step] at move
    split at move <;> try contradiction
    rename_i op tr q k at'
    split at move <;> try contradiction
    rename_i later
    obtain ⟨r,fits,same⟩ := Option.map_eq_some_iff.mp move
    subst same
    exact .scim p t reply op tr q k r at' later fits
  | sql p t fault =>
    simp only [step] at move
    split at move <;> try contradiction
    rename_i op tr st k at'
    split at move <;> try contradiction
    rename_i later
    cases Option.some.inj move
    exact .sql p t fault op tr st k at' later
  | finish p =>
    simp only [step] at move
    split at move <;> try contradiction
    rename_i op tr out at'
    cases Option.some.inj move
    exact .finish p op tr out at'
  | kill p =>
    cases Option.some.inj move
    exact .kill p

inductive Arrived (s : Sys) (l : Label) (s' : Sys) (q : Nat) (op : Op) : Trace calls → Prog calls Outcome → Prop where
  | stayed {tr prog} (other : q ≠ l.pid) (at' : s.procs q = .running op tr prog) : Arrived s l s' q op tr prog
  | started (mine : q = l.pid) (db : s'.db = s.db) (chosen : l = .start q op) (log : s'.log = .start q op :: s.log) :
      Arrived s l s' q op [] (operation b config op)
  | heard {tr query k} (t r reply) (chosen : l = .scim q t reply) (fits : Reply.fit reply query = some r)
      (at' : s.procs q = .running op tr (.call (.scim query) k)) (db : s'.db = s.db)
      (log : s'.log = .call q ⟨t,.scim query,r⟩ :: s.log) : Arrived s l s' q op (⟨t,.scim query,r⟩ :: tr) (k r)
  | ran {tr st k} (t fault) (chosen : l = .sql q t fault) (at' : s.procs q = .running op tr (.call (.sql st) k))
      (db : s'.db = (execute t fault s.db st).2)
      (log : s'.log = .call q ⟨t,.sql st,(execute t fault s.db st).1⟩ :: s.log) :
      Arrived s l s' q op (⟨t,.sql st,(execute t fault s.db st).1⟩ :: tr) (k (execute t fault s.db st).1)

theorem putRunning {procs : Nat → Proc} {p q x op tr prog} (at' : put procs p x q = .running op tr prog) :
    (q = p ∧ x = .running op tr prog) ∨ (q ≠ p ∧ procs q = .running op tr prog) := by
  by_cases same : q = p
  · subst same
    exact .inl ⟨rfl,by simpa using at'⟩
  · exact .inr ⟨same,by simpa [same] using at'⟩

theorem arrived {s l s' q op tr prog} (move : Move b config s l s') (at' : s'.procs q = .running op tr prog) :
    Arrived b config s l s' q op tr prog := by
  cases move with
  | start p o free =>
    rcases putRunning at' with ⟨rfl,here⟩ | ⟨apart,there⟩
    · cases here
      exact .started rfl rfl rfl rfl
    · exact .stayed apart there
  | scim p t reply o older query k r before later fits =>
    rcases putRunning at' with ⟨rfl,here⟩ | ⟨apart,there⟩
    · cases here
      exact .heard t r reply rfl fits before rfl rfl
    · exact .stayed apart there
  | sql p t fault o older st k before later =>
    rcases putRunning at' with ⟨rfl,here⟩ | ⟨apart,there⟩
    · cases here
      exact .ran t fault rfl before rfl rfl
    · exact .stayed apart there
  | finish p o older out before =>
    rcases putRunning at' with ⟨rfl,here⟩ | ⟨apart,there⟩
    · split at here <;> cases here
    · exact .stayed apart there
  | kill p =>
    rcases putRunning at' with ⟨rfl,here⟩ | ⟨apart,there⟩
    · cases here
    · exact .stayed apart there

theorem logGrows {s l s'} (move : Move b config s l s') : ∃ news, s'.log = news ++ s.log := by
  cases move with
  | start p op free => exact ⟨[_],rfl⟩
  | scim p t reply op tr query k r before later fits => exact ⟨[_],rfl⟩
  | sql p t fault op tr st k before later => exact ⟨[_],rfl⟩
  | finish p op tr out before => exact ⟨[_],rfl⟩
  | kill p => exact ⟨[],rfl⟩

inductive Entered (s : Sys) (l : Label) : Entry → Prop where
  | old {e} (inside : e ∈ s.log) : Entered s l e
  | started (p op) : Entered s l (.start p op)
  | heard (p t q r) : Entered s l (.call p ⟨t,.scim q,r⟩)
  | ran (t fault st) {op tr k} (chosen : l = .sql l.pid t fault)
      (at' : s.procs l.pid = .running op tr (.call (.sql st) k)) :
      Entered s l (.call l.pid ⟨t,.sql st,(execute t fault s.db st).1⟩)
  | finished {tr} (op out) (at' : s.procs l.pid = .running op tr (.ret out)) : Entered s l (.finish l.pid op out)

theorem entered {s l s' e} (move : Move b config s l s') (inside : e ∈ s'.log) : Entered s l e := by
  cases move with
  | start p op free =>
    rcases List.mem_cons.mp inside with rfl | there
    · exact .started p op
    · exact .old there
  | scim p t reply op tr query k r at' later fits =>
    rcases List.mem_cons.mp inside with rfl | there
    · exact .heard p t query r
    · exact .old there
  | sql p t fault op tr st k at' later =>
    rcases List.mem_cons.mp inside with rfl | there
    · exact .ran t fault st rfl at'
    · exact .old there
  | finish p op tr out at' =>
    rcases List.mem_cons.mp inside with rfl | there
    · exact .finished op out at'
    · exact .old there
  | kill p => exact .old inside

end Step

theorem stepNow {b : Build} {config : Config} {s l s'} (move : Move b config s l s') : s.now ≤ s'.now := by
  cases move with
  | start p op free => exact Int.le_refl _
  | scim p t reply op tr query k r at' later fits => exact later
  | sql p t fault op tr st k at' later => exact later
  | finish p op tr out at' => exact Int.le_refl _
  | kill p => exact Int.le_refl _

section Run
variable {b : Build} {config : Config} {may : Sys → Label → Prop} {first s : Sys}

theorem moveInvariant (inv : Sys → Prop) (begins : inv first)
    (keeps : ∀ s l s', Runs.Reach (step b config) may first s → inv s → may s l → Move b config s l s' → inv s')
    (run : Runs.Reach (step b config) may first s) : inv s :=
  Runs.reachInvariant inv begins
    (fun s l s' before holds chosen move => keeps s l s' before holds chosen (stepMove b config move)) run

/- The clock never goes back, so before a deadline every earlier step was before it too. -/
theorem moveInvariantUntil (deadline : Int) (inv : Sys → Prop) (begins : inv first)
    (keeps : ∀ s l s', Runs.Reach (step b config) may first s → inv s → may s l → Move b config s l s' →
      s'.now < deadline → inv s')
    (run : Runs.Reach (step b config) may first s) (young : s.now < deadline) : inv s := by
  refine moveInvariant (fun s => s.now < deadline → inv s) (fun _ => begins) ?_ run young
  intro s l s' before holds chosen move young
  exact keeps s l s' before (holds (Int.lt_of_le_of_lt (stepNow move) young)) chosen move young

end Run

/- Processes that have not started yet, on a database left by earlier ones. -/
def fresh (db : Db) (now : Int) : Sys := ⟨db,now,fun _ => .idle,[]⟩

theorem runningInvariant {b : Build} {config : Config} {may : Sys → Label → Prop} {db now s}
    (inv : Sys → Nat → Op → Trace calls → Prog calls Outcome → Prop)
    (keeps : ∀ s l s', Runs.Reach (step b config) may (fresh db now) s →
      (∀ p op tr prog, s.procs p = .running op tr prog → inv s p op tr prog) → may s l → Move b config s l s' →
      ∀ p op tr prog, s'.procs p = .running op tr prog → inv s' p op tr prog)
    (run : Runs.Reach (step b config) may (fresh db now) s) :
    ∀ p op tr prog, s.procs p = .running op tr prog → inv s p op tr prog := by
  refine moveInvariant (fun s => ∀ p op tr prog, s.procs p = .running op tr prog → inv s p op tr prog) ?_ keeps run
  intro p op tr prog at'
  cases at'

def calledBy (s : Sys) (p : Nat) : Trace calls :=
  match s.procs p with
  | .running _ tr _ => tr
  | _ => []

def asked (s : Sys) (p : Nat) : Option String :=
  match s.procs p with
  | .running _ _ (.call (.scim (.userByName n)) _) => some n
  | _ => none

def issues (s : Sys) : Label → Option Stmt
  | .sql p _ _ =>
      match s.procs p with
      | .running _ _ (.call (.sql st) _) => some st
      | _ => none
  | _ => none

def executes (s : Sys) : Label → Option (Int × Stmt)
  | .sql p t false =>
      match s.procs p with
      | .running _ _ (.call (.sql st) _) => some (t,st)
      | _ => none
  | _ => none

def probed (c : Column) (s : Sys) (l : Label) : Option (UInt32 × String) :=
  match executes s l with
  | some (_,.selectOwner c' x k) => if c' = c then some (x,k) else none
  | _ => none

theorem executesProbed {s l t c x k} (runs : executes s l = some (t,.selectOwner c x k)) :
    probed c s l = some (x,k) := by simp [probed,runs]

theorem probedExecutes {s l c x k} (same : probed c s l = some (x,k)) :
    ∃ t, executes s l = some (t,.selectOwner c x k) := by
  unfold probed at same
  split at same <;> try contradiction
  rename_i t c' x' k' runs
  split at same <;> cases same
  rename_i here
  exact ⟨t,here ▸ runs⟩

theorem otherProcs {b : Build} {config : Config} {s l s' q} (move : Move b config s l s') (other : q ≠ l.pid) :
    s'.procs q = s.procs q := by
  cases move with
  | start p op free => exact putOther s.procs _ other
  | scim p t reply op tr query k r at' later fits => exact putOther s.procs _ other
  | sql p t fault op tr st k at' later => exact putOther s.procs _ other
  | finish p op tr out at' => exact putOther s.procs _ other
  | kill p => exact putOther s.procs _ other

theorem idleBeyond {b : Build} {config : Config} {may : Sys → Label → Prop} {db now s} (n : Nat)
    (few : ∀ s l, may s l → l.pid < n) (run : Runs.Reach (step b config) may (fresh db now) s) :
    ∀ q, n ≤ q → s.procs q = .idle := by
  refine moveInvariant (fun s => ∀ q, n ≤ q → s.procs q = .idle) (fun _ _ => rfl) ?_ run
  intro s l s' _ idle chosen move q beyond
  have other : q ≠ l.pid := by
    have used := few s l chosen
    omega
  rw [otherProcs move other]
  exact idle q beyond

theorem issuesRunning {s l st} (issued : issues s l = some st) :
    ∃ op tr k, s.procs l.pid = .running op tr (.call (.sql st) k) := by
  cases l with
  | sql p t fault =>
    simp only [issues] at issued
    split at issued <;> try contradiction
    rename_i op tr st' k at'
    cases Option.some.inj issued
    exact ⟨op,tr,k,at'⟩
  | start p op => cases issued
  | scim p t reply => cases issued
  | finish p => cases issued
  | kill p => cases issued

theorem executesIssues {s l t st} (runs : executes s l = some (t,st)) : issues s l = some st := by
  cases l with
  | sql p t' fault =>
    cases fault with
    | true => cases runs
    | false =>
      simp only [executes] at runs
      split at runs <;> try contradiction
      rename_i at'
      simp only [issues,at']
      exact congrArg (Option.map Prod.snd) runs
  | start p op => cases runs
  | scim p t reply => cases runs
  | finish p => cases runs
  | kill p => cases runs

theorem eventNow {b : Build} {config : Config} {s l s' p e} (move : Move b config s l s')
    (log : s'.log = .call p e :: s.log) : s.now ≤ e.stamp ∧ s'.now = e.stamp := by
  cases move with
  | start p op free => cases log
  | scim p t reply op tr query k r at' later fits => cases log; exact ⟨later,rfl⟩
  | sql p t fault op tr st k at' later => cases log; exact ⟨later,rfl⟩
  | finish p op tr out at' => cases log
  | kill p => exact absurd log.symm (List.cons_ne_self _ _)

theorem executesAfter {b : Build} {config : Config} {s l s' t st} (move : Move b config s l s')
    (runs : executes s l = some (t,st)) : ∃ op tr k, s.procs l.pid = .running op tr (.call (.sql st) k) ∧
      s' = after s l.pid op tr ⟨t,.sql st,(execute t false s.db st).1⟩ (k (execute t false s.db st).1)
        (execute t false s.db st).2 := by
  cases move with
  | start p op free => cases runs
  | scim p t' reply op tr query k r at' later fits => cases runs
  | finish p op tr out at' => cases runs
  | kill p => cases runs
  | sql p t' fault op tr st' k at' later =>
    cases fault with
    | true => cases runs
    | false =>
      simp only [executes,at',Option.some.injEq,Prod.mk.injEq] at runs
      obtain ⟨rfl,rfl⟩ := runs
      exact ⟨op,tr,k,at',rfl⟩

theorem executesNow {b : Build} {config : Config} {s l s' t st} (move : Move b config s l s')
    (runs : executes s l = some (t,st)) : s'.now = t := by
  obtain ⟨op,tr,k,-,rfl⟩ := executesAfter move runs
  rfl

theorem executesDb {b : Build} {config : Config} {s l s' t st} (move : Move b config s l s')
    (runs : executes s l = some (t,st)) : s'.db = (execute t false s.db st).2 := by
  obtain ⟨op,tr,k,-,rfl⟩ := executesAfter move runs
  rfl

theorem executesLog {b : Build} {config : Config} {s l s' t st} (move : Move b config s l s')
    (runs : executes s l = some (t,st)) :
    s'.log = .call l.pid ⟨t,.sql st,(execute t false s.db st).1⟩ :: s.log := by
  obtain ⟨op,tr,k,-,rfl⟩ := executesAfter move runs
  rfl

def Faultless (l : Label) : Prop := l.fails = false
instance (l : Label) : Decidable (Faultless l) := by unfold Faultless; infer_instance

theorem faultlessExecutes {s l st} (sound : Faultless l) (issued : issues s l = some st) :
    ∃ t, executes s l = some (t,st) := by
  obtain ⟨op,tr,k,at'⟩ := issuesRunning issued
  cases l with
  | sql p t fault =>
    cases fault with
    | true => cases sound
    | false =>
      simp only [Label.pid] at at'
      exact ⟨t,by simp [executes,at']⟩
  | start p op => cases issued
  | scim p t reply => cases issued
  | finish p => cases issued
  | kill p => cases issued

def whole (p : Nat) (op : Op) (t : Int) (reply : Option Reply) (statements : Nat) : List Label :=
  .start p op :: (reply.map (Label.scim p t)).toList ++ List.replicate statements (.sql p t false) ++ [.finish p]

end SssdOidc.System
