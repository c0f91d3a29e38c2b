import SssdOidc.Interfaces
import Mathlib.Logic.Relation

/-! Jobs side by side. Each is a program; in a pool they run call by call on one shared state,
in any order, and may be given up half way. Where the programs keep a contract that the state
serves, the state stays well, and what is done was done on answers out of well states. -/
namespace SssdOidc.Parallel
open Program RelyGuarantee Interfaces

variable {I : Interface} {σ J : Type} {ω : J → Type}

structure Running (I : Interface) (ω : J → Type) where
  job : J
  past : List (Event I)
  rest : Prog I (ω job)

structure Finished (I : Interface) (ω : J → Type) where
  job : J
  past : List (Event I)
  result : ω job

structure World (I : Interface) (ω : J → Type) (σ : Type) where
  pool : Nat → Option (Running I ω)
  shared : σ
  finished : List (Finished I ω)

def World.put (w : World I ω σ) (n : Nat) (x : Option (Running I ω)) : World I ω σ :=
  { w with pool := fun m => if m = n then x else w.pool m }

def fresh (s : σ) : World I ω σ := ⟨fun _ => none,s,[]⟩

inductive Step (program : (j : J) → Prog I (ω j)) (answers : σ → (c : I.Call) → I.Resp c → σ → Prop) :
    World I ω σ → World I ω σ → Prop where
  | start {w n} (j : J) (free : w.pool n = none) : Step program answers w (w.put n (some ⟨j,[],program j⟩))
  | call {w n j past c k r s'} (t : I.Stamp) (runs : w.pool n = some ⟨j,past,.call c k⟩) (now : answers w.shared c r s') :
      Step program answers w (({ w with shared := s' } : World I ω σ).put n (some ⟨j,past ++ [⟨t,c,r⟩],k r⟩))
  | finish {w n j past a} (runs : w.pool n = some ⟨j,past,.ret a⟩) :
      Step program answers w (({ w with finished := ⟨j,past,a⟩ :: w.finished } : World I ω σ).put n none)
  | stop {w} (n : Nat) : Step program answers w (w.put n none)

abbrev Runs (program : (j : J) → Prog I (ω j)) (answers : σ → (c : I.Call) → I.Resp c → σ → Prop) :
    World I ω σ → World I ω σ → Prop := Relation.ReflTransGen (Step program answers)

section Rule
variable {program : (j : J) → Prog I (ω j)} {answers : σ → (c : I.Call) → I.Resp c → σ → Prop}
  {contract : Contract I} {well : σ → Prop} {post : (j : J) → ω j → Prop} {w w' : World I ω σ}

def Served (contract : Contract I) (well : σ → Prop) (answers : σ → (c : I.Call) → I.Resp c → σ → Prop)
    (es : List (Event I)) : Prop :=
  ∀ e ∈ es, contract.guarantee e.call ∧ ∃ s s', well s ∧ answers s e.call e.resp s'

/- What is left of a job belongs to a play of its program that begins with its past. -/
structure Onward (program : (j : J) → Prog I (ω j)) (contract : Contract I) (well : σ → Prop)
    (answers : σ → (c : I.Call) → I.Resp c → σ → Prop) (post : (j : J) → ω j → Prop) (x : Running I ω) : Prop where
  keeps : Ensures contract (post x.job) x.rest
  served : Served contract well answers x.past
  plays : ∀ es a, Plays x.rest es a → Plays (program x.job) (x.past ++ es) a

structure Done (program : (j : J) → Prog I (ω j)) (contract : Contract I) (well : σ → Prop)
    (answers : σ → (c : I.Call) → I.Resp c → σ → Prop) (post : (j : J) → ω j → Prop) (x : Finished I ω) : Prop where
  post : post x.job x.result
  served : Served contract well answers x.past
  plays : Plays (program x.job) x.past x.result

structure Sound (program : (j : J) → Prog I (ω j)) (contract : Contract I) (well : σ → Prop)
    (answers : σ → (c : I.Call) → I.Resp c → σ → Prop) (post : (j : J) → ω j → Prop) (w : World I ω σ) : Prop where
  shared : well w.shared
  running : ∀ n x, w.pool n = some x → Onward program contract well answers post x
  finished : ∀ x ∈ w.finished, Done program contract well answers post x

theorem soundPut {n : Nat} {x : Option (Running I ω)} (sound : Sound program contract well answers post w)
    (here : ∀ y, x = some y → Onward program contract well answers post y) :
    Sound program contract well answers post (w.put n x) where
  shared := sound.shared
  running := by
    intro m y there
    rw [World.put] at there
    by_cases same : m = n
    · exact here y ((if_pos same).symm.trans there)
    · exact sound.running m y ((if_neg same).symm.trans there)
  finished := sound.finished

theorem onwardCall {j past c k r s'} (serves : Serves contract well answers) (t : I.Stamp) {s : σ} (holds : well s)
    (onward : Onward program contract well answers post ⟨j,past,.call c k⟩) (now : answers s c r s') :
    Onward program contract well answers post ⟨j,past ++ [⟨t,c,r⟩],k r⟩ where
  keeps := (ensuresServed serves holds onward.keeps now).1
  served := by
    intro e inside
    rcases List.mem_append.mp inside with before | last
    · exact onward.served e before
    · obtain rfl := List.mem_singleton.mp last
      exact ⟨onward.keeps.1,s,s',holds,now⟩
  plays := by
    intro es a played
    rw [List.append_assoc]
    exact onward.plays _ a (.call played)

theorem stepSound (serves : Serves contract well answers) (rule : ∀ j, Ensures contract (post j) (program j))
    (sound : Sound program contract well answers post w) (step : Step program answers w w') :
    Sound program contract well answers post w' := by
  cases step with
  | start j free =>
    refine soundPut sound ?_
    rintro _ ⟨⟩
    exact ⟨rule j,fun e never => (nomatch never),fun es a played => played⟩
  | call t runs now =>
    have onward := sound.running _ _ runs
    have holds := (ensuresServed serves sound.shared onward.keeps now).2
    refine soundPut ⟨holds,sound.running,sound.finished⟩ ?_
    rintro _ ⟨⟩
    exact onwardCall serves t sound.shared onward now
  | finish runs =>
    obtain ⟨keeps,served,plays⟩ := sound.running _ _ runs
    have ended := plays [] _ (.ret _)
    rw [List.append_nil] at ended
    refine soundPut ⟨sound.shared,sound.running,List.forall_mem_cons.mpr ⟨⟨keeps,served,ended⟩,sound.finished⟩⟩ ?_
    rintro _ ⟨⟩
  | stop n =>
    refine soundPut sound ?_
    rintro _ ⟨⟩

theorem runSound (serves : Serves contract well answers) (rule : ∀ j, Ensures contract (post j) (program j)) {s : σ}
    (begins : well s) (run : Runs program answers (fresh s) w) : Sound program contract well answers post w := by
  induction run with
  | refl => exact ⟨begins,fun n x never => (nomatch never),fun x never => nomatch never⟩
  | tail before step ih => exact stepSound serves rule ih step

def alone (x : Option (Running I ω)) (s : σ) (finished : List (Finished I ω)) : World I ω σ :=
  ⟨fun n => if n = 0 then x else none,s,finished⟩

theorem alonePut {x y : Option (Running I ω)} {s : σ} {finished : List (Finished I ω)} :
    (alone x s finished).put 0 y = alone y s finished := by
  unfold alone World.put
  congr 1
  funext n
  by_cases first : n = 0 <;> simp [first]

theorem playedAlone {j : J} {past es : List (Event I)} {rest : Prog I (ω j)} {a s s'} (played : Plays rest es a)
    (ran : Ran answers s es s') :
    Runs program answers (alone (some ⟨j,past,rest⟩) s []) (alone none s' [⟨j,past ++ es,a⟩]) := by
  induction played generalizing past s with
  | ret a =>
    cases ran
    have ended : Step program answers _ _ := .finish (w := alone (some ⟨j,past,.ret a⟩) s' []) (n := 0) rfl
    change Step program answers _ ((alone _ s' [⟨j,past,a⟩]).put 0 none) at ended
    rw [alonePut] at ended
    rw [List.append_nil]
    exact .single ended
  | @call c k t r es a onward ih =>
    cases ran with
    | cons now later =>
      have called : Step program answers _ _ := .call (w := alone (some ⟨j,past,.call c k⟩) s []) (n := 0) t rfl now
      change Step program answers _ ((alone _ _ []).put 0 _) at called
      rw [alonePut] at called
      have others : Runs program answers (alone (some ⟨j,past ++ [⟨t,c,r⟩],k r⟩) _ []) _ := ih later
      rw [List.append_assoc] at others
      exact .head called others

theorem runRan {α : Type} {answer : (c : I.Call) → σ → I.Resp c × σ} (t : I.Stamp)
    (told : ∀ c s, answers s c (answer c s).1 (answer c s).2) (p : Prog I α) (s : σ) :
    ∃ es, Plays p es (run answer p s).1 ∧ Ran answers s es (run answer p s).2 := by
  induction p generalizing s with
  | ret a => exact ⟨[],.ret a,.nil⟩
  | call c k ih =>
    obtain ⟨es,onward,later⟩ := ih (answer c s).1 (answer c s).2
    exact ⟨⟨t,c,(answer c s).1⟩ :: es,.call onward,.cons (told c s) later⟩

theorem playRuns {j : J} {es : List (Event I)} {a s s'} (played : Plays (program j) es a) (ran : Ran answers s es s') :
    Runs program answers (fresh s) (alone none s' [⟨j,es,a⟩]) := by
  have started : Step program answers _ _ := .start (w := alone none s []) (n := 0) j rfl
  rw [alonePut] at started
  have idle : (fresh s : World I ω σ) = alone none s [] := by
    unfold fresh alone
    congr 1
    funext n
    exact (ite_self none).symm
  rw [idle]
  exact .head started (playedAlone played ran)

end Rule

end SssdOidc.Parallel
