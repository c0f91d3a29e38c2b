import SssdOidc.Program

/-! Contracts between programs and the environment that answers their calls. A program
keeps its side as long as every answer keeps the other; several programs on one shared
state then keep an invariant of it in any interleaving, because each call is one step. -/
namespace SssdOidc.RelyGuarantee
open Program

variable {I : Interface} {α β ε σ : Type}

/- What a program promises of its calls, and what it may rely on of their answers. -/
structure Contract (I : Interface) where
  guarantee : I.Call → Prop
  rely : (c : I.Call) → I.Resp c → Prop

def Ensures (contract : Contract I) (post : α → Prop) : Prog I α → Prop
  | .ret a => post a
  | .call c k => contract.guarantee c ∧ ∀ r, contract.rely c r → Ensures contract post (k r)

def OnOk (post : α → Prop) : Except ε α → Prop
  | .ok a => post a
  | .error _ => True

variable {contract : Contract I}

theorem onOkMono {post post' : α → Prop} (weaker : ∀ a, post a → post' a) {r : Except ε α} (holds : OnOk post r) :
    OnOk post' r := by
  cases r with
  | ok a => exact weaker a holds
  | error e => trivial

theorem ensuresMono {post post' : α → Prop} (weaker : ∀ a, post a → post' a) {p : Prog I α}
    (ok : Ensures contract post p) : Ensures contract post' p := by
  induction p with
  | ret a => exact weaker a ok
  | call c k ih => exact ⟨ok.1,fun r relied => ih r (ok.2 r relied)⟩

theorem ensuresBind {post : β → Prop} {p : Prog I α} {f : α → Prog I β}
    (ok : Ensures contract (fun a => Ensures contract post (f a)) p) : Ensures contract post (p >>= f) := by
  induction p with
  | ret a => exact ok
  | call c k ih => exact ⟨ok.1,fun r relied => ih r (ok.2 r relied)⟩

theorem ensuresBefore {post : β → Prop} {p : Prog I α} {f : α → Prog I β} (ok : Ensures contract post (p >>= f)) :
    Ensures contract (fun a => Ensures contract post (f a)) p := by
  induction p with
  | ret a => exact ok
  | call c k ih => exact ⟨ok.1,fun r relied => ih r (ok.2 r relied)⟩

theorem ensuresCall {post : α → Prop} {c : I.Call} {k : I.Resp c → Prog I α} (promised : contract.guarantee c)
    (answered : ∀ r, contract.rely c r → Ensures contract post (k r)) : Ensures contract post (.call c k) :=
  ⟨promised,answered⟩

theorem ensuresAttempt {post : β → Prop} {p : ExceptT ε (Prog I) α} {f : α → ExceptT ε (Prog I) β}
    (ok : Ensures contract (OnOk fun a => Ensures contract (OnOk post) (f a)) p) :
    Ensures contract (OnOk post) (p >>= f : ExceptT ε (Prog I) β) := by
  refine ensuresBind (ensuresMono ?_ ok)
  intro r inside
  cases r with
  | ok a => exact inside
  | error e => trivial

theorem ensuresThen {m : α → Prop} {post : β → Prop} {p : ExceptT ε (Prog I) α} {f : α → ExceptT ε (Prog I) β}
    (first : Ensures contract (OnOk m) p) (later : ∀ a, m a → Ensures contract (OnOk post) (f a)) :
    Ensures contract (OnOk post) (p >>= f : ExceptT ε (Prog I) β) :=
  ensuresAttempt (ensuresMono (fun _ => onOkMono later) first)

theorem ensuresMap {m : α → Prop} {post : β → Prop} {p : ExceptT ε (Prog I) α} {f : α → β}
    (first : Ensures contract (OnOk m) p) (later : ∀ a, m a → post (f a)) :
    Ensures contract (OnOk post) (f <$> p : ExceptT ε (Prog I) β) := by
  refine ensuresBind (ensuresMono ?_ first)
  intro r inside
  cases r with
  | ok a => exact later a inside
  | error e => trivial

def Keeps (contract : Contract I) (p : ExceptT ε (Prog I) α) : Prop := Ensures contract (OnOk fun _ => True) p

theorem keepsPure (a : α) : Keeps contract (pure a : ExceptT ε (Prog I) α) := trivial

theorem keepsThrow (e : ε) : Keeps contract (throw e : ExceptT ε (Prog I) α) := trivial

theorem keepsThen {p : ExceptT ε (Prog I) α} {f : α → ExceptT ε (Prog I) β} (first : Keeps contract p)
    (later : ∀ a, Keeps contract (f a)) : Keeps contract (p >>= f) :=
  ensuresThen first fun a _ => later a

theorem keepsResult {ε' : Type} {p : Prog I α} {f : α → Except ε' β} (ok : Ensures contract (fun _ => True) p) :
    Keeps contract (ExceptT.mk (p >>= fun a => pure (f a)) : ExceptT ε' (Prog I) β) := by
  refine ensuresBind (ensuresMono (fun a _ => ?_) ok)
  show OnOk _ (f a)
  cases f a <;> trivial

theorem keepsCall {c : I.Call} {f : I.Resp c → Except ε α} (promised : contract.guarantee c) :
    Keeps contract (ExceptT.mk (perform c >>= fun a => pure (f a)) : ExceptT ε (Prog I) α) :=
  keepsResult ⟨promised,fun _ _ => trivial⟩

theorem keepsEnsured {post : Except ε α → Prop} {p : ExceptT ε (Prog I) α} (ok : Ensures contract post p.run) :
    Keeps contract p := by
  refine ensuresMono (fun r _ => ?_) ok
  cases r <;> trivial

theorem keepsMapped {p : ExceptT ε (Prog I) α} {f : α → β} (keeps : Keeps contract (f <$> p : ExceptT ε (Prog I) β)) :
    Keeps contract p := by
  refine ensuresMono (fun r _ => ?_) (ensuresBefore keeps)
  cases r <;> trivial

theorem keepsAny {p : ExceptT ε (Prog I) α} (ok : Keeps contract p) : Ensures contract (fun _ => True) p.run :=
  ensuresMono (fun _ _ => trivial) ok

theorem ensuresFollows {post : α → Prop} {p : Prog I α} {tr : Trace I}
    (ok : (∀ e ∈ tr, contract.rely e.call e.resp) → Ensures contract post p) :
    Follows (fun tr c => (∀ e ∈ tr, contract.rely e.call e.resp) → contract.guarantee c)
      (fun tr a => (∀ e ∈ tr, contract.rely e.call e.resp) → post a) p tr := by
  induction p generalizing tr with
  | ret a => exact ok
  | call c k ih =>
    refine ⟨fun relied => (ok relied).1,fun t r => ih r fun relied => ?_⟩
    exact (ok fun e inside => relied e (List.mem_cons_of_mem _ inside)).2 r (relied _ List.mem_cons_self)

theorem ensuresPlays {post : α → Prop} {p : Prog I α} {es a} (ok : Ensures contract post p) (played : Plays p es a)
    (relied : ∀ e ∈ es, contract.rely e.call e.resp) : post a ∧ ∀ e ∈ es, contract.guarantee e.call := by
  induction played with
  | ret a => exact ⟨ok,fun _ never => nomatch never⟩
  | call onward ih =>
    obtain ⟨answered,later⟩ := List.forall_mem_cons.mp relied
    obtain ⟨holds,promised⟩ := ih (ok.2 _ answered) later
    exact ⟨holds,List.forall_mem_cons.mpr ⟨ok.1,promised⟩⟩

/- The environment answers out of a state, which each call may change. While the state is
well, calls that keep the contract are answered within it and leave the state well. -/
def Serves (contract : Contract I) (well : σ → Prop) (answers : σ → (c : I.Call) → I.Resp c → σ → Prop) : Prop :=
  ∀ s c r s', well s → contract.guarantee c → answers s c r s' → contract.rely c r ∧ well s'

theorem ensuresServed {well : σ → Prop} {answers : σ → (c : I.Call) → I.Resp c → σ → Prop} {post : α → Prop}
    {c : I.Call} {k : I.Resp c → Prog I α} (serves : Serves contract well answers) {s s' r} (holds : well s)
    (ok : Ensures contract post (.call c k)) (answered : answers s c r s') :
    Ensures contract post (k r) ∧ well s' := by
  obtain ⟨relied,kept⟩ := serves s c r s' holds ok.1 answered
  exact ⟨ok.2 r relied,kept⟩

theorem ensuresAnswered {well : σ → Prop} {answers : σ → (c : I.Call) → I.Resp c → σ → Prop} {post : α → Prop}
    (serves : Serves contract well answers) {p : Prog I α} {es a} (ok : Ensures contract post p) (played : Plays p es a)
    (answered : ∀ e ∈ es, ∃ s s', well s ∧ answers s e.call e.resp s') : post a ∧ ∀ e ∈ es, contract.guarantee e.call := by
  induction played with
  | ret a => exact ⟨ok,fun _ never => nomatch never⟩
  | call onward ih =>
    obtain ⟨⟨s,s',holds,now⟩,later⟩ := List.forall_mem_cons.mp answered
    obtain ⟨result,promised⟩ := ih (ensuresServed serves holds ok now).1 later
    exact ⟨result,List.forall_mem_cons.mpr ⟨ok.1,promised⟩⟩

theorem ensuresRun {well : σ → Prop} {answer : (c : I.Call) → σ → I.Resp c × σ} {post : α → Prop}
    (serves : Serves contract well fun s c r s' => answer c s = (r,s')) {p : Prog I α} {s} (holds : well s)
    (ok : Ensures contract post p) : post (run answer p s).1 ∧ well (run answer p s).2 := by
  induction p generalizing s with
  | ret a => exact ⟨ok,holds⟩
  | call c k ih =>
    obtain ⟨onward,kept⟩ := ensuresServed serves holds ok (rfl : answer c s = ((answer c s).1,(answer c s).2))
    exact ih _ kept onward

end SssdOidc.RelyGuarantee
