import SssdOidc.Provenance

/-! The threads of a process that has loaded the NSS module. crates/nss_oidc/src/state.rs
keeps the service in a `OnceLock` behind a `Mutex`: the first thread to come sets it up while
the others wait, and after that each thread holds the mutex for a whole operation. Only
`setpwent` and `setgrent` fetch their list before they lock. A panic drops the guard, which
poisons the mutex, and then aborts the process at the frame of the entry point. -/
namespace SssdOidc.Threads
open Model Database Mapping Program Cache Service
open SssdOidc.System (Reply Sys Proc Entry execute begin after done kill mayStart)
open Provenance (ann staff)
open Stability (fourSlots)

inductive Thread where
  | idle
  | called (op : Op)
  -- runs the initialiser of the `OnceLock`, on its way to an operation
  | booting (op : Op) (prog : Prog calls Outcome)
  | asking (op : Op)
  | waiting (op : Op) (fetched : Option Reply)
  | inside (op : Op) (prog : Prog calls Outcome)
  | unwinding

inductive Phase where
  | unset
  | setting
  | failed
  | ready
  deriving DecidableEq, Repr

structure Process where
  alive : Bool
  phase : Phase
  -- the thread in the initialiser, or behind the mutex
  holder : Option Nat
  poisoned : Bool
  threads : Nat → Thread

/- NSS_STATUS_UNAVAIL, where the service was not reached. -/
inductive Answer where
  | ran (out : Outcome)
  | unavailable

structure Machine where
  db : Db
  now : Int
  procs : Nat → Process
  log : List (Nat × Op × Answer)

inductive Label where
  | call (p i : Nat) (op : Op)
  | boot (p i : Nat) (opened : Bool)
  | enter (p i : Nat)
  | fetch (p i : Nat) (t : Int) (reply : Reply)
  | acquire (p i : Nat)
  | scim (p i : Nat) (t : Int) (reply : Reply)
  | sql (p i : Nat) (t : Int) (fault : Bool)
  | leave (p i : Nat)
  | abort (p i : Nat)
  | kill (p : Nat)
  | respawn (p : Nat)
  deriving DecidableEq, Repr

def Label.pid : Label → Nat
  | .call p _ _ => p
  | .boot p _ _ => p
  | .enter p _ => p
  | .fetch p _ _ _ => p
  | .acquire p _ => p
  | .scim p _ _ _ => p
  | .sql p _ _ _ => p
  | .leave p _ => p
  | .abort p _ => p
  | .kill p => p
  | .respawn p => p

def Label.tid : Label → Option Nat
  | .call _ i _ => some i
  | .boot _ i _ => some i
  | .enter _ i => some i
  | .fetch _ i _ _ => some i
  | .acquire _ i => some i
  | .scim _ i _ _ => some i
  | .sql _ i _ _ => some i
  | .leave _ i => some i
  | .abort _ i => some i
  | _ => none

def Label.fails : Label → Bool
  | .sql _ _ _ fault => fault
  | _ => false

def entry : Op → Bool
  | .lookupUserByName _ => true
  | .lookupUserByUid _ => true
  | .lookupGroupByName _ => true
  | .lookupGroupByGid _ => true
  | .lookupGroupsForUser _ => true
  | .setpwent => true
  | .setgrent => true
  | _ => false

/- What is fetched without the mutex. -/
def fetches : Op → Option ScimQuery
  | .setpwent => some .listUsers
  | .setgrent => some .listGroups
  | _ => none

def listed : Reply → Bool
  | .users _ => true
  | .groups _ => true
  | _ => false

def Thread.program : Thread → Option (Op × Prog calls Outcome)
  | .booting _ prog => some (.new,prog)
  | .inside op prog => some (op,prog)
  | _ => none

def Thread.resume (rest : Prog calls Outcome) : Thread → Thread
  | .booting op _ => .booting op rest
  | .inside op _ => .inside op rest
  | th => th

def Process.at (x : Process) (i : Nat) (th : Thread) : Process :=
  { x with threads := fun j => if j = i then th else x.threads j }

def born : Process := ⟨true,.unset,none,false,fun _ => .idle⟩

def buried : Process := ⟨false,.unset,none,false,fun _ => .idle⟩

def Machine.put (m : Machine) (p : Nat) (x : Process) : Machine :=
  { m with procs := fun q => if q = p then x else m.procs q }

def fresh (db : Db) (now : Int) : Machine := ⟨db,now,fun _ => born,[]⟩

section Step
variable (b : Build) (config : Config)

/- The operation from where it holds the mutex: with a list that was fetched before, it goes
on behind its request. -/
def body (op : Op) (fetched : Option Reply) : Prog calls Outcome :=
  match operation b config op, fetched with
  | .call (.scim q) k, some reply =>
      match Reply.fit reply q with
      | some r => k r
      | none => operation b config op
  | prog, _ => prog

def left (x : Process) (i : Nat) (out : Outcome) : Thread → Process
  | .booting op _ =>
      if out matches .error .panic then { x with phase := .unset, holder := none }.at i .unwinding
      else { x with phase := .ready, holder := none }.at i (.called op)
  | _ =>
      if out matches .error .panic then { x with holder := none, poisoned := true }.at i .unwinding
      else { x with holder := none }.at i .idle

def step (m : Machine) : Label → Option Machine
  | .call p i op =>
      match (m.procs p).threads i with
      | .idle => if (m.procs p).alive && entry op then some (m.put p ((m.procs p).at i (.called op))) else none
      | _ => none
  | .boot p i opened =>
      match (m.procs p).threads i with
      | .called op =>
          if (m.procs p).alive && (m.procs p).phase == .unset then
            some (m.put p (if opened then
              { m.procs p with phase := .setting, holder := some i }.at i (.booting op (operation b config .new))
            else { m.procs p with phase := .failed }))
          else none
      | _ => none
  | .enter p i =>
      match (m.procs p).threads i with
      | .called op =>
          if (m.procs p).alive then
            match (m.procs p).phase with
            | .ready => some (m.put p ((m.procs p).at i (if (fetches op).isSome then .asking op else .waiting op none)))
            | .failed => some { m.put p ((m.procs p).at i .idle) with log := (p,op,.unavailable) :: m.log }
            | _ => none
          else none
      | _ => none
  | .fetch p i t reply =>
      match (m.procs p).threads i with
      | .asking op =>
          if (m.procs p).alive && decide (m.now ≤ t) && ((fetches op).any fun q => (Reply.fit reply q).isSome) then
            some (if listed reply then { m.put p ((m.procs p).at i (.waiting op (some reply))) with now := t }
              else { m.put p ((m.procs p).at i .idle) with now := t, log := (p,op,.unavailable) :: m.log })
          else none
      | _ => none
  | .acquire p i =>
      match (m.procs p).threads i with
      | .waiting op fetched =>
          if (m.procs p).alive && (m.procs p).holder.isNone then
            some (if (m.procs p).poisoned then { m.put p ((m.procs p).at i .idle) with log := (p,op,.unavailable) :: m.log }
              else m.put p ({ m.procs p with holder := some i }.at i (.inside op (body b config op fetched))))
          else none
      | _ => none
  | .scim p i t reply =>
      match ((m.procs p).threads i).program with
      | some (_,.call (.scim q) k) =>
          if (m.procs p).alive && decide (m.now ≤ t) then
            (Reply.fit reply q).map fun r =>
              { m.put p ((m.procs p).at i (((m.procs p).threads i).resume (k r))) with now := t }
          else none
      | _ => none
  | .sql p i t fault =>
      match ((m.procs p).threads i).program with
      | some (_,.call (.sql st) k) =>
          if (m.procs p).alive && decide (m.now ≤ t) then
            some { m.put p ((m.procs p).at i (((m.procs p).threads i).resume (k (execute t fault m.db st).1))) with
              db := (execute t fault m.db st).2, now := t }
          else none
      | _ => none
  | .leave p i =>
      match ((m.procs p).threads i).program with
      | some (op,.ret out) =>
          if (m.procs p).alive then
            some { m.put p (left (m.procs p) i out ((m.procs p).threads i)) with log := (p,op,.ran out) :: m.log }
          else none
      | _ => none
  | .abort p i =>
      match (m.procs p).threads i with
      | .unwinding => if (m.procs p).alive then some (m.put p buried) else none
      | _ => none
  | .kill p => if (m.procs p).alive then some (m.put p buried) else none
  | .respawn p => if (m.procs p).alive then none else some (m.put p born)

inductive Moves (m : Machine) : Label → Machine → Prop where
  | call (p i op) (alive : (m.procs p).alive = true) (at' : (m.procs p).threads i = .idle) :
      Moves m (.call p i op) (m.put p ((m.procs p).at i (.called op)))
  | boot (p i op) (alive : (m.procs p).alive = true) (at' : (m.procs p).threads i = .called op)
      (first : (m.procs p).phase = .unset) :
      Moves m (.boot p i true) (m.put p
        ({ m.procs p with phase := .setting, holder := some i }.at i (.booting op (operation b config .new))))
  | fail (p i op) (at' : (m.procs p).threads i = .called op) (first : (m.procs p).phase = .unset) :
      Moves m (.boot p i false) (m.put p { m.procs p with phase := .failed })
  | enter (p i op) (at' : (m.procs p).threads i = .called op) (set : (m.procs p).phase = .ready) :
      Moves m (.enter p i)
        (m.put p ((m.procs p).at i (if (fetches op).isSome then .asking op else .waiting op none)))
  | refused (p i op) (at' : (m.procs p).threads i = .called op) (failed : (m.procs p).phase = .failed) :
      Moves m (.enter p i) { m.put p ((m.procs p).at i .idle) with log := (p,op,.unavailable) :: m.log }
  | fetch (p i t reply op q r) (at' : (m.procs p).threads i = .asking op) (later : m.now ≤ t)
      (query : fetches op = some q) (fits : Reply.fit reply q = some r) :
      Moves m (.fetch p i t reply) { m.put p ((m.procs p).at i (.waiting op (some reply))) with now := t }
  | lost (p i t reply op q r) (at' : (m.procs p).threads i = .asking op) (later : m.now ≤ t)
      (query : fetches op = some q) (fits : Reply.fit reply q = some r) :
      Moves m (.fetch p i t reply)
        { m.put p ((m.procs p).at i .idle) with now := t, log := (p,op,.unavailable) :: m.log }
  | acquire (p i op fetched) (alive : (m.procs p).alive = true) (at' : (m.procs p).threads i = .waiting op fetched)
      (free : (m.procs p).holder = none) (sane : (m.procs p).poisoned = false) :
      Moves m (.acquire p i)
        (m.put p ({ m.procs p with holder := some i }.at i (.inside op (body b config op fetched))))
  | shut (p i op fetched) (at' : (m.procs p).threads i = .waiting op fetched) :
      Moves m (.acquire p i) { m.put p ((m.procs p).at i .idle) with log := (p,op,.unavailable) :: m.log }
  | scim (p i t reply op q k r) (at' : ((m.procs p).threads i).program = some (op,.call (.scim q) k))
      (later : m.now ≤ t) (fits : Reply.fit reply q = some r) :
      Moves m (.scim p i t reply)
        { m.put p ((m.procs p).at i (((m.procs p).threads i).resume (k r))) with now := t }
  | sql (p i t fault op st k) (at' : ((m.procs p).threads i).program = some (op,.call (.sql st) k))
      (later : m.now ≤ t) :
      Moves m (.sql p i t fault)
        { m.put p ((m.procs p).at i (((m.procs p).threads i).resume (k (execute t fault m.db st).1))) with
          db := (execute t fault m.db st).2, now := t }
  | leave (p i op out) (at' : ((m.procs p).threads i).program = some (op,.ret out)) :
      Moves m (.leave p i)
        { m.put p (left (m.procs p) i out ((m.procs p).threads i)) with log := (p,op,.ran out) :: m.log }
  | abort (p i) : Moves m (.abort p i) (m.put p buried)
  | kill (p) : Moves m (.kill p) (m.put p buried)
  | respawn (p) (gone : (m.procs p).alive = false) : Moves m (.respawn p) (m.put p born)

theorem stepMoves {m l m'} (move : step b config m l = some m') : Moves b config m l m' := by
  cases l with
  | call p i op =>
    simp only [step] at move
    split at move <;> try contradiction
    rename_i at'
    split at move <;> cases move
    rename_i may
    exact .call p i op (Bool.and_eq_true_iff.mp may).1 at'
  | boot p i opened =>
    simp only [step] at move
    split at move <;> try contradiction
    rename_i op at'
    split at move <;> cases move
    rename_i may
    obtain ⟨alive,first⟩ := Bool.and_eq_true_iff.mp may
    cases opened with
    | true => exact .boot p i op alive at' (beq_iff_eq.mp first)
    | false => exact .fail p i op at' (beq_iff_eq.mp first)
  | enter p i =>
    simp only [step] at move
    split at move <;> try contradiction
    rename_i op at'
    split at move <;> try contradiction
    split at move <;> cases move
    · rename_i set
      exact .enter p i op at' set
    · rename_i failed
      exact .refused p i op at' failed
  | fetch p i t reply =>
    simp only [step] at move
    split at move <;> try contradiction
    rename_i op at'
    split at move <;> cases move
    rename_i may
    simp only [Bool.and_eq_true,decide_eq_true_eq,Option.any_eq_true] at may
    obtain ⟨⟨_,later⟩,q,query,fits⟩ := may
    obtain ⟨r,fits⟩ := Option.isSome_iff_exists.mp fits
    split
    · exact .fetch p i t reply op q r at' later query fits
    · exact .lost p i t reply op q r at' later query fits
  | acquire p i =>
    simp only [step] at move
    split at move <;> try contradiction
    rename_i op fetched at'
    split at move <;> cases move
    rename_i may
    obtain ⟨alive,free⟩ := Bool.and_eq_true_iff.mp may
    split
    · exact .shut p i op fetched at'
    · rename_i sane
      exact .acquire p i op fetched alive at' (Option.isNone_iff_eq_none.mp free) (Bool.eq_false_of_not_eq_true sane)
  | scim p i t reply =>
    simp only [step] at move
    split at move <;> try contradiction
    rename_i op q k at'
    split at move <;> try contradiction
    rename_i may
    obtain ⟨r,fits,rfl⟩ := Option.map_eq_some_iff.mp move
    exact .scim p i t reply op q k r at' (of_decide_eq_true (Bool.and_eq_true_iff.mp may).2) fits
  | sql p i t fault =>
    simp only [step] at move
    split at move <;> try contradiction
    rename_i op st k at'
    split at move <;> cases move
    rename_i may
    exact .sql p i t fault op st k at' (of_decide_eq_true (Bool.and_eq_true_iff.mp may).2)
  | leave p i =>
    simp only [step] at move
    split at move <;> try contradiction
    rename_i op out at'
    split at move <;> cases move
    exact .leave p i op out at'
  | abort p i =>
    simp only [step] at move
    split at move <;> try contradiction
    split at move <;> cases move
    exact .abort p i
  | kill p =>
    simp only [step] at move
    split at move <;> cases move
    exact .kill p
  | respawn p =>
    simp only [step] at move
    split at move <;> cases move
    rename_i gone
    exact .respawn p (Bool.eq_false_of_not_eq_true gone)

end Step

@[simp] theorem atSame (x : Process) (i : Nat) (th : Thread) : (x.at i th).threads i = th := by simp [Process.at]

@[simp] theorem atOther (x : Process) {i j : Nat} (th : Thread) (other : j ≠ i) :
    (x.at i th).threads j = x.threads j := by simp [Process.at,other]

abbrev Hearing := (q : ScimQuery) × Except ScimError q.Resp

def hearing (reply : Reply) (q : ScimQuery) : Option Hearing := (Reply.fit reply q).map fun r => ⟨q,r⟩

def heardBy (m : Machine) : Label → Option Hearing
  | .fetch p i _ reply =>
      match (m.procs p).threads i with
      | .asking op => (fetches op).bind (hearing reply)
      | _ => none
  | .scim p i _ reply =>
      match ((m.procs p).threads i).program with
      | some (_,.call (.scim q) _) => hearing reply q
      | _ => none
  | _ => none

def heardIn (s : Sys) : System.Label → Option Hearing
  | .scim p _ reply =>
      match s.procs p with
      | .running _ _ (.call (.scim q) _) => hearing reply q
      | _ => none
  | _ => none

section Sound
variable {ok : Option Hearing → Prop} {x y : Process} {i j : Nat}

/- Only the thread that holds the mutex runs a program, and a list in hand is an answer. -/
def Poised (ok : Option Hearing → Prop) (x : Process) (i : Nat) : Thread → Prop
  | .booting _ _ => x.holder = some i ∧ x.phase = .setting
  | .inside _ _ => x.holder = some i ∧ x.phase = .ready
  | .asking op => x.phase = .ready ∧ ∃ q, fetches op = some q
  | .waiting op fetched => x.phase = .ready ∧ ∀ reply, fetched = some reply →
      ∃ q r, fetches op = some q ∧ Reply.fit reply q = some r ∧ ok (some ⟨q,r⟩)
  | _ => True

structure Sound (ok : Option Hearing → Prop) (x : Process) : Prop where
  buried : x.alive = false → x.holder = none
  setting : x.phase = .setting → ∃ i, x.holder = some i
  threads : ∀ i, Poised ok x i (x.threads i)

theorem poisedProgram {th c} (poised : Poised ok x i th) (runs : th.program = some c) :
    x.holder = some i ∧ x.phase ≠ .unset ∧ x.phase ≠ .failed := by
  cases th with
  | booting op prog =>
    obtain ⟨mine,phase⟩ := poised
    exact ⟨mine,by simp [phase]⟩
  | inside op prog =>
    obtain ⟨mine,phase⟩ := poised
    exact ⟨mine,by simp [phase]⟩
  | idle => cases runs
  | called op => cases runs
  | asking op => cases runs
  | waiting op fetched => cases runs
  | unwinding => cases runs

theorem poisedMove {th} (ready : x.phase = .ready → y.phase = .ready)
    (held : x.holder = some j → y.holder = some j ∧ y.phase = x.phase) (poised : Poised ok x j th) :
    Poised ok y j th := by
  cases th with
  | booting op prog => exact ⟨(held poised.1).1,(held poised.1).2.trans poised.2⟩
  | inside op prog => exact ⟨(held poised.1).1,(held poised.1).2.trans poised.2⟩
  | asking op => exact ⟨ready poised.1,poised.2⟩
  | waiting op fetched => exact ⟨ready poised.1,poised.2⟩
  | idle => trivial
  | called op => trivial
  | unwinding => trivial

theorem soundBorn : Sound ok born := ⟨fun gone => (nomatch gone),fun set => (nomatch set),fun _ => trivial⟩

theorem soundBuried : Sound ok buried := ⟨fun _ => rfl,fun set => (nomatch set),fun _ => trivial⟩

theorem soundSet {th} (buried : y.alive = false → y.holder = none) (setting : y.phase = .setting → ∃ i, y.holder = some i)
    (mine : Poised ok y i th) (others : ∀ j, j ≠ i → Poised ok y j (y.threads j)) : Sound ok (y.at i th) := by
  refine ⟨buried,setting,fun j => ?_⟩
  by_cases same : j = i
  · subst same
    rw [atSame]
    exact poisedMove id (fun held => ⟨held,rfl⟩) mine
  · rw [atOther y th same]
    exact poisedMove id (fun held => ⟨held,rfl⟩) (others j same)

theorem soundAt {th} (sound : Sound ok x) (mine : Poised ok x i th) : Sound ok (x.at i th) :=
  soundSet sound.buried sound.setting mine (fun j _ => sound.threads j)

theorem soundFail (sound : Sound ok x) (open' : x.holder = none) (first : x.phase = .unset) :
    Sound ok { x with phase := .failed } := by
  refine ⟨sound.buried,fun set => (nomatch set),fun j => poisedMove ?_ ?_ (sound.threads j)⟩
  · exact fun ready => nomatch first.symm.trans ready
  · exact fun held => nomatch open'.symm.trans held

theorem soundBoot {op prog} (sound : Sound ok x) (alive : x.alive = true) (open' : x.holder = none)
    (first : x.phase = .unset) :
    Sound ok ({ x with phase := .setting, holder := some i }.at i (.booting op prog)) := by
  refine soundSet (fun gone => ?_) (fun _ => ⟨i,rfl⟩) ⟨rfl,rfl⟩ (fun j _ => poisedMove ?_ ?_ (sound.threads j))
  · exact nomatch alive.symm.trans gone
  · exact fun ready => nomatch first.symm.trans ready
  · exact fun held => nomatch open'.symm.trans held

theorem soundAcquire {op prog} (sound : Sound ok x) (alive : x.alive = true) (open' : x.holder = none)
    (ready : x.phase = .ready) : Sound ok ({ x with holder := some i }.at i (.inside op prog)) := by
  refine soundSet (y := { x with holder := some i }) (fun gone => ?_) (fun _ => ⟨i,rfl⟩) ⟨rfl,ready⟩
    (fun j _ => poisedMove (x := x) id ?_ (sound.threads j))
  · exact nomatch alive.symm.trans gone
  · exact fun held => nomatch open'.symm.trans held

theorem soundLeft {op out} (sound : Sound ok x) (runs : (x.threads i).program = some (op,.ret out)) :
    Sound ok (left x i out (x.threads i)) := by
  have poised := sound.threads i
  have others : ∀ j, j ≠ i → x.holder ≠ some j := fun j other held =>
    other (Option.some.inj (held.symm.trans (poisedProgram poised runs).1))
  cases thread : x.threads i with
  | booting next prog =>
    rw [thread] at poised
    have others : ∀ (y : Process) j, j ≠ i → y.threads = x.threads → Poised ok y j (y.threads j) := fun y j other same =>
      same ▸ poisedMove (x := x) (fun ready => nomatch poised.2.symm.trans ready) (absurd · (others j other))
        (sound.threads j)
    simp only [left]
    split
    · exact soundSet (y := { x with phase := .unset, holder := none }) (fun _ => rfl) (fun set => nomatch set) trivial
        (fun j other => others _ j other rfl)
    · exact soundSet (y := { x with phase := .ready, holder := none }) (fun _ => rfl) (fun set => nomatch set) trivial
        (fun j other => others _ j other rfl)
  | inside o prog =>
    rw [thread] at poised
    have others : ∀ (y : Process) j, j ≠ i → y.threads = x.threads → y.phase = x.phase → Poised ok y j (y.threads j) :=
      fun y j other same phase => same ▸ poisedMove (x := x) (fun ready => phase.trans ready)
        (absurd · (others j other)) (sound.threads j)
    simp only [left]
    split
    · exact soundSet (y := { x with holder := none, poisoned := true }) (fun _ => rfl)
        (fun set => nomatch poised.2.symm.trans set) trivial (fun j other => others _ j other rfl rfl)
    · exact soundSet (y := { x with holder := none }) (fun _ => rfl)
        (fun set => nomatch poised.2.symm.trans set) trivial (fun j other => others _ j other rfl rfl)
  | idle => rw [thread] at runs; cases runs
  | called o => rw [thread] at runs; cases runs
  | asking o => rw [thread] at runs; cases runs
  | waiting o fetched => rw [thread] at runs; cases runs
  | unwinding => rw [thread] at runs; cases runs

theorem resumeProgram {th : Thread} {op prog} (runs : th.program = some (op,prog)) (rest : Prog calls Outcome) :
    (th.resume rest).program = some (op,rest) := by
  cases th <;> cases runs <;> rfl

theorem soundResume (sound : Sound ok x) (rest : Prog calls Outcome) :
    Sound ok (x.at i ((x.threads i).resume rest)) := by
  refine soundAt sound ?_
  have poised := sound.threads i
  cases thread : x.threads i <;> rw [thread] at poised <;> exact poised

end Sound

/- The process of the protocol that a process with threads amounts to. -/
inductive Tracks (x : Process) : Proc → Prop where
  | held (i op prog tr) (holds : x.holder = some i) (runs : (x.threads i).program = some (op,prog)) :
      Tracks x (.running op tr prog)
  | free (open' : x.holder = none) : Tracks x .idle
  | gone (open' : x.holder = none) (shut : x.alive = true → x.phase = .ready → x.poisoned = true) : Tracks x .dead

def ended (out : Outcome) : Proc := if out matches .error .panic then .dead else .idle

section Tracks
variable {ok : Option Hearing → Prop} {x : Process} {i : Nat} {pr : Proc}

theorem tracksBorn (tracks : Tracks x pr) (open' : x.holder = none) : Tracks born pr := by
  cases tracks with
  | held i op prog tr holds runs => exact nomatch open'.symm.trans holds
  | free _ => exact .free rfl
  | gone _ _ => exact .gone rfl (fun _ ready => nomatch ready)

theorem tracksAt {th} (tracks : Tracks x pr) (quiet : (x.threads i).program = none) : Tracks (x.at i th) pr := by
  cases tracks with
  | held j op prog tr holds runs =>
    have other : j ≠ i := by
      rintro rfl
      exact nomatch quiet.symm.trans runs
    exact .held j op prog tr holds ((congrArg Thread.program (atOther x th other)).trans runs)
  | free open' => exact .free open'
  | gone open' shut => exact .gone open' shut

theorem tracksOpen (tracks : Tracks x pr) (open' : x.holder = none) : pr = .idle ∨ pr = .dead := by
  cases tracks with
  | held i op prog tr holds runs => exact nomatch open'.symm.trans holds
  | free _ => exact .inl rfl
  | gone _ _ => exact .inr rfl

theorem tracksUnset (tracks : Tracks x pr) (sound : Sound ok x) (phase : x.phase = .unset ∨ x.phase = .failed) :
    x.holder = none := by
  cases tracks with
  | held i op prog tr holds runs =>
    obtain ⟨_,unset,unfailed⟩ := poisedProgram (sound.threads i) runs
    rcases phase with first | failed
    · exact absurd first unset
    · exact absurd failed unfailed
  | free open' => exact open'
  | gone open' shut => exact open'

theorem tracksHolder {op prog} (tracks : Tracks x pr) (sound : Sound ok x)
    (runs : (x.threads i).program = some (op,prog)) : ∃ tr, pr = .running op tr prog := by
  have mine := (poisedProgram (sound.threads i) runs).1
  cases tracks with
  | held j o p tr holds here =>
    cases holds.symm.trans mine
    cases here.symm.trans runs
    exact ⟨tr,rfl⟩
  | free open' => exact nomatch open'.symm.trans mine
  | gone open' shut => exact nomatch open'.symm.trans mine

theorem tracksResume {op prog} (sound : Sound ok x) (runs : (x.threads i).program = some (op,prog))
    (tr : Trace calls) (rest : Prog calls Outcome) :
    Tracks (x.at i ((x.threads i).resume rest)) (.running op tr rest) :=
  .held i op rest tr (poisedProgram (sound.threads i) runs).1
    ((congrArg Thread.program (atSame x i _)).trans (resumeProgram runs rest))

theorem tracksLeft {op out} (runs : (x.threads i).program = some (op,.ret out)) :
    Tracks (left x i out (x.threads i)) (ended out) := by
  cases thread : x.threads i with
  | booting next prog =>
    simp only [left,ended]
    split
    · exact .gone rfl (fun _ ready => nomatch ready)
    · exact .free rfl
  | inside o prog =>
    simp only [left,ended]
    split
    · exact .gone rfl (fun _ _ => rfl)
    · exact .free rfl
  | idle => rw [thread] at runs; cases runs
  | called o => rw [thread] at runs; cases runs
  | asking o => rw [thread] at runs; cases runs
  | waiting o fetched => rw [thread] at runs; cases runs
  | unwinding => rw [thread] at runs; cases runs

end Tracks

def finished : Entry → Option (Nat × Op × Outcome)
  | .finish p op out => some (p,op,out)
  | _ => none

/- The answer of an operation that ran; `unavailable` (failed initialisation, poisoned mutex,
failed listing) comes from none. -/
def carried : Nat × Op × Answer → Option (Nat × Op × Outcome)
  | (p,op,.ran out) => some (p,op,out)
  | _ => none

structure Mirrors (ok : Nat → Option Hearing → Bool → Prop) (m : Machine) (s : Sys) : Prop where
  db : s.db = m.db
  now : s.now ≤ m.now
  answers : s.log.filterMap finished = m.log.filterMap carried
  sound : ∀ p, Sound (fun r => ok p r false) (m.procs p)
  tracks : ∀ p, Tracks (m.procs p) (s.procs p)

section Mirrors
variable {b : Build} {config : Config} {ok : Nat → Option Hearing → Bool → Prop} {m : Machine} {s : Sys} {p : Nat}
  {x : Process}

theorem mirrorsPut {db now log s'} (mirrors : Mirrors ok m s) (pr : Proc) (sound : Sound (fun r => ok p r false) x)
    (tracks : Tracks x pr) (procs : s'.procs = System.put s.procs p pr) (same : s'.db = db) (later : s'.now ≤ now)
    (answers : s'.log.filterMap finished = log.filterMap carried) : Mirrors ok ⟨db,now,(m.put p x).procs,log⟩ s' := by
  refine ⟨same,later,answers,fun q => ?_,fun q => ?_⟩
  · by_cases here : q = p
    · subst here
      simpa [Machine.put] using sound
    · simpa [Machine.put,here] using mirrors.sound q
  · rw [procs]
    by_cases here : q = p
    · subst here
      simpa [Machine.put] using tracks
    · simpa [Machine.put,here] using mirrors.tracks q

theorem mirrorsStay {now log} (mirrors : Mirrors ok m s) (sound : Sound (fun r => ok p r false) x)
    (tracks : Tracks x (s.procs p)) (later : m.now ≤ now) (answers : log.filterMap carried = m.log.filterMap carried) :
    Mirrors ok ⟨m.db,now,(m.put p x).procs,log⟩ s := by
  refine mirrorsPut mirrors (s.procs p) sound tracks ?_ mirrors.db (Int.le_trans mirrors.now later)
    (mirrors.answers.trans answers.symm)
  funext q
  by_cases here : q = p <;> simp [System.put,here]

theorem bodyFetched {op q reply r} (query : fetches op = some q) (fits : Reply.fit reply q = some r) :
    ∃ k, operation b config op = .call (.scim q) k ∧ body b config op (some reply) = k r := by
  have first : ∃ k, operation b config op = .call (.scim q) k := by
    cases op <;> cases query <;> exact ⟨_,rfl⟩
  obtain ⟨k,first⟩ := first
  exact ⟨k,first,by simp [body,first,fits]⟩

theorem bodyPlain (op : Op) : body b config op none = operation b config op := by
  unfold body
  split <;> simp_all

def Followed (b : Build) (config : Config) (ok : Nat → Option Hearing → Bool → Prop) (m : Machine) (s : Sys) : Prop :=
  ∃ s', Runs.Reach (System.step b config) (fun s l => ok l.pid (heardIn s l) l.fails) s s' ∧ Mirrors ok m s'

theorem followedStay (mirrors : Mirrors ok m s) : Followed b config ok m s := ⟨s,.start,mirrors⟩

theorem followedStep (l : System.Label) {s'} (allowed : ok l.pid (heardIn s l) l.fails)
    (move : System.step b config s l = some s') (mirrors : Mirrors ok m s') : Followed b config ok m s := ⟨s',.next .start l allowed move,mirrors⟩

theorem followedAcquire {i op fetched} (mirrors : Mirrors ok m s) (allowed : ok p none false)
    (alive : (m.procs p).alive = true) (waiting : (m.procs p).threads i = .waiting op fetched)
    (open' : (m.procs p).holder = none) (sane : (m.procs p).poisoned = false) :
    Followed b config ok (m.put p ({ m.procs p with holder := some i }.at i (.inside op (body b config op fetched)))) s := by
  have sound := mirrors.sound p
  have poised := sound.threads i
  rw [waiting] at poised
  obtain ⟨ready,list⟩ := poised
  have idle : s.procs p = .idle := by
    have tracks := mirrors.tracks p
    rcases tracksOpen tracks open' with idle | dead
    · exact idle
    · rw [dead] at tracks
      cases tracks with
      | gone _ shut => exact nomatch sane.symm.trans (shut alive ready)
  have started : System.step b config s (.start p op) = some (System.begin b config s p op) := by
    simp [System.step,idle,System.mayStart]
  have held : ∀ tr prog, Tracks ({ m.procs p with holder := some i }.at i (.inside op prog)) (.running op tr prog) :=
    fun tr prog => .held i op prog tr rfl (congrArg Thread.program (atSame _ i _))
  cases fetched with
  | none =>
    rw [bodyPlain]
    exact followedStep (.start p op) allowed started (mirrorsPut mirrors _ (soundAcquire sound alive open' ready)
      (held [] _) rfl mirrors.db mirrors.now mirrors.answers)
  | some reply =>
    obtain ⟨q,r,query,fits,said⟩ := list reply rfl
    obtain ⟨k,first,onward⟩ := @bodyFetched b config _ _ _ _ query fits
    rw [onward]
    have heard : System.step b config (System.begin b config s p op) (.scim p m.now reply) =
        some (System.after (System.begin b config s p op) p op [] ⟨m.now,.scim q,r⟩ (k r) s.db) := by
      simp [System.step,System.begin,first,mirrors.now,fits]
    have said : ok p (heardIn (System.begin b config s p op) (.scim p m.now reply)) false := by
      simpa [heardIn,System.begin,first,hearing,fits] using said
    refine ⟨_,.next (.next .start (.start p op) allowed started) (.scim p m.now reply) said heard,?_⟩
    refine mirrorsPut mirrors (.running op [⟨m.now,.scim q,r⟩] (k r)) (soundAcquire sound alive open' ready)
      (held _ _) ?_ mirrors.db (Int.le_refl _) mirrors.answers
    funext j
    by_cases here : j = p <;> simp [System.after,System.begin,System.put,here]

theorem movesFollowed {l m'} (mirrors : Mirrors ok m s) (allowed : ok l.pid (heardBy m l) l.fails)
    (move : Moves b config m l m') : Followed b config ok m' s := by
  cases move with
  | call p i op alive at' =>
    exact followedStay (mirrorsStay mirrors (soundAt (mirrors.sound p) trivial)
      (tracksAt (mirrors.tracks p) (by rw [at']; rfl)) (Int.le_refl _) rfl)
  | boot p i op alive at' first =>
    have sound := mirrors.sound p
    have open' := tracksUnset (mirrors.tracks p) sound (.inl first)
    have started : System.step b config s (.start p .new) = some (System.begin b config s p .new) := by
      rcases tracksOpen (mirrors.tracks p) open' with idle | dead
      · simp [System.step,System.mayStart,idle]
      · simp [System.step,System.mayStart,dead]
    exact followedStep (.start p .new) allowed started (mirrorsPut mirrors _ (soundBoot sound alive open' first)
      (.held i .new _ [] rfl (congrArg Thread.program (atSame _ i _))) rfl mirrors.db mirrors.now mirrors.answers)
  | fail p i op at' first =>
    have sound := mirrors.sound p
    have open' := tracksUnset (mirrors.tracks p) sound (.inl first)
    refine followedStay (mirrorsStay mirrors (soundFail sound open' first) ?_ (Int.le_refl _) rfl)
    rcases tracksOpen (mirrors.tracks p) open' with idle | dead
    · rw [idle]
      exact .free open'
    · rw [dead]
      exact .gone open' (fun _ ready => by cases ready)
  | enter p i op at' set =>
    refine followedStay (mirrorsStay mirrors (soundAt (mirrors.sound p) ?_)
      (tracksAt (mirrors.tracks p) (by rw [at']; rfl)) (Int.le_refl _) rfl)
    split
    · rename_i asks
      exact ⟨set,Option.isSome_iff_exists.mp asks⟩
    · exact ⟨set,fun _ never => by cases never⟩
  | refused p i op at' failed =>
    exact followedStay (mirrorsStay mirrors (soundAt (mirrors.sound p) trivial)
      (tracksAt (mirrors.tracks p) (by rw [at']; rfl)) (Int.le_refl _) rfl)
  | fetch p i t reply op q r at' later query fits =>
    have poised := (mirrors.sound p).threads i
    rw [at'] at poised
    refine followedStay (mirrorsStay mirrors (soundAt (mirrors.sound p) ⟨poised.1,?_⟩)
      (tracksAt (mirrors.tracks p) (by rw [at']; rfl)) later rfl)
    rintro _ ⟨⟩
    exact ⟨q,r,query,fits,by simpa [heardBy,at',query,hearing,fits,Label.pid,Label.fails] using allowed⟩
  | lost p i t reply op q r at' later query fits =>
    exact followedStay (mirrorsStay mirrors (soundAt (mirrors.sound p) trivial)
      (tracksAt (mirrors.tracks p) (by rw [at']; rfl)) later rfl)
  | acquire p i op fetched alive at' free sane => exact followedAcquire mirrors allowed alive at' free sane
  | shut p i op fetched at' =>
    exact followedStay (mirrorsStay mirrors (soundAt (mirrors.sound p) trivial)
      (tracksAt (mirrors.tracks p) (by rw [at']; rfl)) (Int.le_refl _) rfl)
  | scim p i t reply op q k r at' later fits =>
    have sound := mirrors.sound p
    obtain ⟨tr,runs⟩ := tracksHolder (mirrors.tracks p) sound at'
    have heard : System.step b config s (.scim p t reply) =
        some (System.after s p op tr ⟨t,.scim q,r⟩ (k r) s.db) := by
      simp [System.step,runs,Int.le_trans mirrors.now later,fits]
    have said : ok p (heardIn s (.scim p t reply)) false := by
      simpa [heardIn,heardBy,runs,at',hearing,fits,Label.pid,Label.fails] using allowed
    exact followedStep (.scim p t reply) said heard (mirrorsPut mirrors _ (soundResume sound (k r))
      (tracksResume sound at' _ (k r)) rfl mirrors.db (Int.le_refl _) mirrors.answers)
  | sql p i t fault op st k at' later =>
    have sound := mirrors.sound p
    obtain ⟨tr,runs⟩ := tracksHolder (mirrors.tracks p) sound at'
    have ran : System.step b config s (.sql p t fault) = some (System.after s p op tr
        ⟨t,.sql st,(execute t fault m.db st).1⟩ (k (execute t fault m.db st).1) (execute t fault m.db st).2) := by
      simp [System.step,runs,Int.le_trans mirrors.now later,mirrors.db]
    exact followedStep (.sql p t fault) allowed ran (mirrorsPut mirrors _ (soundResume sound _) (tracksResume sound at' _ _)
      rfl rfl (Int.le_refl _) mirrors.answers)
  | leave p i op out at' =>
    have sound := mirrors.sound p
    obtain ⟨tr,runs⟩ := tracksHolder (mirrors.tracks p) sound at'
    have finish : System.step b config s (.finish p) = some (System.done s p op out) := by
      simp [System.step,runs]
    refine followedStep (.finish p) allowed finish (mirrorsPut mirrors (ended out) (soundLeft sound at') (tracksLeft at')
      rfl mirrors.db mirrors.now ?_)
    simp [System.done,finished,carried,mirrors.answers]
  | abort p i =>
    exact followedStep (.kill p) allowed rfl (mirrorsPut mirrors .dead soundBuried
      (.gone rfl (fun alive => by cases alive)) rfl mirrors.db mirrors.now mirrors.answers)
  | kill p =>
    exact followedStep (.kill p) allowed rfl (mirrorsPut mirrors .dead soundBuried
      (.gone rfl (fun alive => by cases alive)) rfl mirrors.db mirrors.now mirrors.answers)
  | respawn p gone =>
    exact followedStay (mirrorsStay mirrors soundBorn
      (tracksBorn (mirrors.tracks p) ((mirrors.sound p).buried gone)) (Int.le_refl _) rfl)

theorem mirrorsFresh (db : Db) (now : Int) : Mirrors ok (fresh db now) (System.fresh db now) :=
  ⟨rfl,Int.le_refl _,rfl,fun _ => soundBorn,fun _ => .free rfl⟩

theorem runFollowed {db now} (run : Runs.Reach (step b config) (fun m l => ok l.pid (heardBy m l) l.fails) (fresh db now) m) :
    Followed b config ok m (System.fresh db now) := by
  refine Runs.reachInvariant (fun m => Followed b config ok m (System.fresh db now))
    (followedStay (mirrorsFresh db now)) ?_ run
  rintro m l m' _ ⟨s,sofar,mirrors⟩ allowed move
  obtain ⟨s',onward,after⟩ := movesFollowed mirrors allowed (stepMoves b config move)
  exact ⟨s',Runs.reachTrans sofar onward,after⟩

/- The mutex makes a process with threads one that runs an operation at a time, also where a
list is fetched without it: what the threads do to the cache, and what they answer, processes
without threads do. -/
theorem threadsSerialise (b : Build) (config : Config) (ok : Nat → Option Hearing → Bool → Prop) (db : Db) (now : Int)
    (m : Machine) (run : Runs.Reach (step b config) (fun m l => ok l.pid (heardBy m l) l.fails) (fresh db now) m) :
    ∃ s, Runs.Reach (System.step b config) (fun s l => ok l.pid (heardIn s l) l.fails) (System.fresh db now) s ∧
      s.db = m.db ∧ s.log.filterMap finished = m.log.filterMap carried ∧
      (∀ p, (m.procs p).holder = none → s.procs p = .idle ∨ s.procs p = .dead) ∧
      ∀ p i op prog, ((m.procs p).threads i).program = some (op,prog) →
        (m.procs p).holder = some i ∧ ∃ tr, s.procs p = .running op tr prog := by
  obtain ⟨s,follows,mirrors⟩ := runFollowed run
  refine ⟨s,follows,mirrors.db,mirrors.answers,fun p open' => tracksOpen (mirrors.tracks p) open',?_⟩
  intro p i op prog runs
  exact ⟨(poisedProgram ((mirrors.sound p).threads i) runs).1,tracksHolder (mirrors.tracks p) (mirrors.sound p) runs⟩

def waits : List Label := [
  .call 0 1 (.lookupUserByName "ann"),.call 0 2 .setgrent,
  .boot 0 1 true,.sql 0 1 0 false,.sql 0 1 0 false,.sql 0 1 0 false,.leave 0 1,
  .enter 0 1,.enter 0 2,.acquire 0 1,.fetch 0 2 1 (.groups [staff])]

def answers : List Label := [
  .scim 0 1 2 (.user (some ann)),.sql 0 1 3 false,.sql 0 1 3 false,.sql 0 1 3 false,.leave 0 1,
  .acquire 0 2,.sql 0 2 4 false,.sql 0 2 4 false,.sql 0 2 4 false,.sql 0 2 4 false,.leave 0 2]

theorem bothServed : ∃ m s,
    Runs.replay (step release fourSlots) (fun _ l => l.fails = false) (fresh empty 0) (waits ++ answers) = some m ∧
    m.db.members = [⟨"g1","ann"⟩] ∧
    Runs.Reach (System.step release fourSlots) (fun _ l => l.fails = false) (System.fresh empty 0) s ∧ s.db = m.db := by
  have ends : (Runs.replay (step release fourSlots) (fun _ l => l.fails = false) (fresh empty 0) (waits ++ answers)).map
      (fun m => m.db.members) = some [⟨"g1","ann"⟩] := by decide +kernel
  obtain ⟨m,reached,members⟩ := Option.map_eq_some_iff.mp ends
  obtain ⟨s,follows,db,-⟩ := threadsSerialise release fourSlots (fun _ _ fault => fault = false) empty 0 m
    (Runs.replayReach reached)
  exact ⟨m,s,reached,members,follows,db⟩

theorem programSteps {p i op prog} (alive : (m.procs p).alive = true)
    (runs : ((m.procs p).threads i).program = some (op,prog)) :
    ∃ l : Label, l.pid = p ∧ l.tid = some i ∧ (step b config m l).isSome = true := by
  cases prog with
  | ret out => exact ⟨.leave p i,rfl,rfl,by simp [step,runs,alive]⟩
  | call c k =>
    cases c with
    | scim q =>
      have fits : Reply.fit (.error .http) q = some (.error .http) := by cases q <;> rfl
      exact ⟨.scim p i m.now (.error .http),rfl,rfl,by simp [step,runs,alive,fits]⟩
    | sql st => exact ⟨.sql p i m.now false,rfl,rfl,by simp [step,runs,alive]⟩

theorem holderRuns {p i s} (mirrors : Mirrors ok m s) (holds : (m.procs p).holder = some i) :
    ∃ op prog, ((m.procs p).threads i).program = some (op,prog) := by
  have tracks := mirrors.tracks p
  cases pr : s.procs p with
  | running op tr prog =>
    rw [pr] at tracks
    cases tracks with
    | held j _ _ _ there runs =>
      cases there.symm.trans holds
      exact ⟨op,prog,runs⟩
  | idle =>
    rw [pr] at tracks
    cases tracks with
    | free open' => exact nomatch open'.symm.trans holds
  | dead =>
    rw [pr] at tracks
    cases tracks with
    | gone open' shut => exact nomatch open'.symm.trans holds

def Onward (b : Build) (config : Config) (p i : Nat) (m' m : Machine) : Prop :=
  (m.procs p).holder = some i ∧ ∃ l : Label, l.pid = p ∧ l.tid = some i ∧ step b config m l = some m'

@[simp] theorem putThreads (m : Machine) (p : Nat) (x : Process) : (m.put p x).procs p = x := by simp [Machine.put]

theorem leftHolder {i : Nat} {out : Outcome} {th : Thread} : (left x i out th).holder = none := by
  unfold left
  split <;> split <;> rfl

theorem runningMoves {p i op prog l m'} (runs : ((m.procs p).threads i).program = some (op,prog)) (pid : l.pid = p)
    (tid : l.tid = some i) (move : Moves b config m l m') : (m'.procs p).holder = none ∨
      ∃ c k r, prog = .call c k ∧ ((m'.procs p).threads i).program = some (op,k r) := by
  have elsewhere {th} (at' : (m.procs p).threads i = th) : th.program = some (op,prog) := at' ▸ runs
  cases move with
  | call _ _ o alive at' => cases pid; cases tid; exact nomatch elsewhere at'
  | boot _ _ o alive at' first => cases pid; cases tid; exact nomatch elsewhere at'
  | fail _ _ o at' first => cases pid; cases tid; exact nomatch elsewhere at'
  | enter _ _ o at' set => cases pid; cases tid; exact nomatch elsewhere at'
  | refused _ _ o at' failed => cases pid; cases tid; exact nomatch elsewhere at'
  | fetch _ _ t reply o q r at' later query fits => cases pid; cases tid; exact nomatch elsewhere at'
  | lost _ _ t reply o q r at' later query fits => cases pid; cases tid; exact nomatch elsewhere at'
  | acquire _ _ o fetched alive at' free sane => cases pid; cases tid; exact nomatch elsewhere at'
  | shut _ _ o fetched at' => cases pid; cases tid; exact nomatch elsewhere at'
  | scim _ _ t reply o q k r at' later fits =>
    cases pid
    cases tid
    cases at'.symm.trans runs
    exact .inr ⟨.scim q,k,r,rfl,by simpa [Label.pid] using resumeProgram runs (k r)⟩
  | sql _ _ t fault o st k at' later =>
    cases pid
    cases tid
    cases at'.symm.trans runs
    exact .inr ⟨.sql st,k,_,rfl,by simpa [Label.pid] using resumeProgram runs (k (execute t fault m.db st).1)⟩
  | leave _ _ o out at' =>
    cases pid
    cases tid
    exact .inl (by simpa [Label.pid] using leftHolder)
  | abort _ _ =>
    cases pid
    exact .inl (by simp [Label.pid,buried])
  | kill _ => cases tid
  | respawn _ gone => cases tid

/- Its program gets smaller with each of its steps, so it gives the mutex back. -/
theorem holderFinishes {p i op prog} (runs : ((m.procs p).threads i).program = some (op,prog)) :
    Acc (Onward b config p i) m := by
  induction prog generalizing m with
  | ret out =>
    refine ⟨m,fun m' ⟨_,l,pid,tid,move⟩ => ?_⟩
    rcases runningMoves runs pid tid (stepMoves b config move) with free | ⟨c,k,r,never,_⟩
    · exact ⟨m',fun _ ⟨held,_⟩ => nomatch free.symm.trans held⟩
    · cases never
  | call c k ih =>
    refine ⟨m,fun m' ⟨_,l,pid,tid,move⟩ => ?_⟩
    rcases runningMoves runs pid tid (stepMoves b config move) with free | ⟨_,_,r,same,after⟩
    · exact ⟨m',fun _ ⟨held,_⟩ => nomatch free.symm.trans held⟩
    · cases same
      exact ih r after

theorem neverStuck (b : Build) (config : Config) (db : Db) (now : Int) (m : Machine)
    (run : Runs.Reach (step b config) (fun _ _ => True) (fresh db now) m) (p i : Nat)
    (alive : (m.procs p).alive = true) (busy : (m.procs p).threads i ≠ .idle) :
    ∃ j, (j = i ∨ (m.procs p).holder = some j ∧ Acc (Onward b config p j) m) ∧
      ∃ l : Label, l.pid = p ∧ l.tid = some j ∧ (step b config m l).isSome = true := by
  obtain ⟨s,_,mirrors⟩ := @runFollowed b config (fun _ _ _ => True) m db now run
  have sound := mirrors.sound p
  have behind {j} (holds : (m.procs p).holder = some j) :
      ∃ j, (j = i ∨ (m.procs p).holder = some j ∧ Acc (Onward b config p j) m) ∧
        ∃ l : Label, l.pid = p ∧ l.tid = some j ∧ (step b config m l).isSome = true := by
    obtain ⟨op,prog,runs⟩ := holderRuns mirrors holds
    exact ⟨j,.inr ⟨holds,holderFinishes runs⟩,programSteps alive runs⟩
  have poised := sound.threads i
  cases thread : (m.procs p).threads i with
  | idle => exact absurd thread busy
  | called op =>
    cases phase : (m.procs p).phase with
    | unset => exact ⟨i,.inl rfl,.boot p i false,rfl,rfl,by simp [step,thread,alive,phase]⟩
    | setting =>
      obtain ⟨j,holds⟩ := sound.setting phase
      exact behind holds
    | failed => exact ⟨i,.inl rfl,.enter p i,rfl,rfl,by simp [step,thread,alive,phase]⟩
    | ready => exact ⟨i,.inl rfl,.enter p i,rfl,rfl,by simp [step,thread,alive,phase]⟩
  | booting op prog => exact ⟨i,.inl rfl,programSteps alive (by rw [thread]; rfl)⟩
  | inside op prog => exact ⟨i,.inl rfl,programSteps alive (by rw [thread]; rfl)⟩
  | asking op =>
    rw [thread] at poised
    obtain ⟨_,q,query⟩ := poised
    have fits : Reply.fit (.error .http) q = some (.error .http) := by cases q <;> rfl
    exact ⟨i,.inl rfl,.fetch p i m.now (.error .http),rfl,rfl,by simp [step,thread,alive,query,fits]⟩
  | waiting op fetched =>
    rcases Option.eq_none_or_eq_some (m.procs p).holder with open' | ⟨j,holds⟩
    · exact ⟨i,.inl rfl,.acquire p i,rfl,rfl,by simp [step,thread,alive,open']⟩
    · exact behind holds
  | unwinding => exact ⟨i,.inl rfl,.abort p i,rfl,rfl,by simp [step,thread,alive]⟩

end Mirrors

def isWaiting : Thread → Bool
  | .waiting _ _ => true
  | _ => false

theorem waiterNotStuck : ∃ m, Runs.replay (step release fourSlots) (fun _ _ => True) (fresh empty 0) waits = some m ∧
    (m.procs 0).holder = some 1 ∧ isWaiting ((m.procs 0).threads 2) = true ∧
    ∃ j, (j = 2 ∨ (m.procs 0).holder = some j ∧ Acc (Onward release fourSlots 0 j) m) ∧
      ∃ l : Label, l.pid = 0 ∧ l.tid = some j ∧ (step release fourSlots m l).isSome = true := by
  have ends : (Runs.replay (step release fourSlots) (fun _ _ => True) (fresh empty 0) waits).map
      (fun m => ((m.procs 0).alive,(m.procs 0).holder,isWaiting ((m.procs 0).threads 2))) =
      some (true,some 1,true) := by decide +kernel
  obtain ⟨m,reached,here⟩ := Option.map_eq_some_iff.mp ends
  obtain ⟨alive,holds,waiting⟩ : (m.procs 0).alive = true ∧ (m.procs 0).holder = some 1 ∧
      isWaiting ((m.procs 0).threads 2) = true := by simpa using here
  refine ⟨m,reached,holds,waiting,neverStuck release fourSlots empty 0 m (Runs.replayReach reached) 0 2 alive ?_⟩
  intro idle
  rw [idle] at waiting
  cases waiting

end SssdOidc.Threads
