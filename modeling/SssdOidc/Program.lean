/-! Programs that talk to the outside by calls, kept as the tree of their own
continuations. A program has no meaning of its own for a call: an environment answers
it, at once (`run`) or in between the calls of other programs (module `Runs`). -/
namespace SssdOidc.Program

structure Interface where
  Call : Type
  Resp : Call → Type
  Stamp : Type

inductive Prog (I : Interface) (α : Type) where
  | ret (a : α)
  | call (c : I.Call) (k : I.Resp c → Prog I α)

def bind {I : Interface} {α β : Type} : Prog I α → (α → Prog I β) → Prog I β
  | .ret a, f => f a
  | .call c k, f => .call c (fun r => bind (k r) f)

instance {I : Interface} : Monad (Prog I) where
  pure := Prog.ret
  bind := bind

theorem bindRet {I : Interface} {α : Type} (p : Prog I α) : bind p .ret = p := by
  induction p with
  | ret a => rfl
  | call c k ih => exact congrArg (Prog.call c) (funext ih)

theorem bindAssoc {I : Interface} {α β γ : Type} (p : Prog I α) (f : α → Prog I β)
    (g : β → Prog I γ) : bind (bind p f) g = bind p (fun a => bind (f a) g) := by
  induction p with
  | ret a => rfl
  | call c k ih => exact congrArg (Prog.call c) (funext ih)

instance {I : Interface} : LawfulMonad (Prog I) :=
  LawfulMonad.mk' (Prog I) bindRet (fun _ _ => rfl) bindAssoc

def perform {I : Interface} (c : I.Call) : Prog I (I.Resp c) := .call c .ret

structure Event (I : Interface) where
  stamp : I.Stamp
  call : I.Call
  resp : I.Resp call

/- The calls a program has made so far, newest first. -/
abbrev Trace (I : Interface) := List (Event I)

variable {I : Interface} {α β ε : Type}

def Follows (allowed : Trace I → I.Call → Prop) (done : Trace I → α → Prop) :
    Prog I α → Trace I → Prop
  | .ret a, tr => done tr a
  | .call c k, tr => allowed tr c ∧ ∀ t r, Follows allowed done (k r) (⟨t, c, r⟩ :: tr)

variable {allowed : Trace I → I.Call → Prop}

theorem followsMono {done done' : Trace I → α → Prop} {p : Prog I α} {tr}
    (ok : Follows allowed done p tr) (weaker : ∀ tr a, done tr a → done' tr a) :
    Follows allowed done' p tr := by
  induction p generalizing tr with
  | ret a => exact weaker tr a ok
  | call c k ih => exact ⟨ok.1, fun t r => ih r (ok.2 t r)⟩

theorem followsExtends {done : Trace I → α → Prop} {p : Prog I α} {tr} (ok : Follows allowed done p tr) :
    Follows allowed (fun tr' a => done tr' a ∧ ∃ more, tr' = more ++ tr) p tr := by
  induction p generalizing tr with
  | ret a => exact ⟨ok,[],rfl⟩
  | call c k ih =>
    refine ⟨ok.1,fun t r => followsMono (ih r (ok.2 t r)) ?_⟩
    rintro tr' a ⟨holds,more,rfl⟩
    exact ⟨holds,more ++ [⟨t,c,r⟩],List.append_cons more ⟨t,c,r⟩ tr⟩

theorem followsBind {done : Trace I → β → Prop} {p : Prog I α} {f : α → Prog I β} {tr}
    (ok : Follows allowed (fun tr a => Follows allowed done (f a) tr) p tr) :
    Follows allowed done (p >>= f) tr := by
  induction p generalizing tr with
  | ret a => exact ok
  | call c k ih => exact ⟨ok.1, fun t r => ih r (ok.2 t r)⟩

/- An attempt that fails skips the rest. -/
def Attempt (allowed : Trace I → I.Call → Prop) (done : Trace I → Except ε β → Prop)
    (f : α → ExceptT ε (Prog I) β) (tr : Trace I) : Except ε α → Prop
  | .ok a => Follows allowed done (f a) tr
  | .error e => done tr (.error e)

theorem followsAttempt {done : Trace I → Except ε β → Prop} {p : ExceptT ε (Prog I) α}
    {f : α → ExceptT ε (Prog I) β} {tr} (ok : Follows allowed (Attempt allowed done f) p tr) :
    Follows allowed done (p >>= f : ExceptT ε (Prog I) β) tr := by
  refine followsBind (followsMono ok ?_)
  intro tr r inside
  cases r with
  | ok a => exact inside
  | error e => exact inside

theorem followsMap {done : Trace I → Except ε β → Prop} {p : ExceptT ε (Prog I) α} {f : α → β} {tr}
    (ok : Follows allowed (fun tr r => done tr (r.map f)) p tr) :
    Follows allowed done (f <$> p : ExceptT ε (Prog I) β) tr := by
  refine followsBind (followsMono ok ?_)
  intro tr r inside
  cases r with
  | ok a => exact inside
  | error e => exact inside

def run {σ : Type} (answer : (c : I.Call) → σ → I.Resp c × σ) : Prog I α → σ → α × σ
  | .ret a, s => (a, s)
  | .call c k, s => run answer (k (answer c s).1) (answer c s).2

section Run
variable {σ : Type} {answer : (c : I.Call) → σ → I.Resp c × σ}

theorem runBind (p : Prog I α) (f : α → Prog I β) (s : σ) :
    run answer (p >>= f) s = run answer (f (run answer p s).1) (run answer p s).2 := by
  induction p generalizing s with
  | ret a => rfl
  | call c k ih => exact ih _ _

theorem runAttempt (p : ExceptT ε (Prog I) α) (f : α → ExceptT ε (Prog I) β) (s : σ) :
    run answer (p >>= f : ExceptT ε (Prog I) β) s =
      match run answer p s with
      | (.ok a, s') => run answer (f a) s'
      | (.error e, s') => (.error e, s') := by
  refine (runBind p (ExceptT.bindCont f) s).trans ?_
  rcases run answer p s with ⟨a | e, s'⟩ <;> rfl

theorem runOk {p : ExceptT ε (Prog I) α} {f : α → ExceptT ε (Prog I) β} {s a s'} (ok : run answer p s = (.ok a, s')) :
    run answer (p >>= f : ExceptT ε (Prog I) β) s = run answer (f a) s' := by
  refine (runAttempt p f s).trans ?_
  rw [ok]

theorem runError {p : ExceptT ε (Prog I) α} {f : α → ExceptT ε (Prog I) β} {s e s'}
    (failed : run answer p s = (.error e, s')) :
    run answer (p >>= f : ExceptT ε (Prog I) β) s = (.error e, s') := by
  refine (runAttempt p f s).trans ?_
  rw [failed]

end Run

inductive Plays : Prog I α → List (Event I) → α → Prop where
  | ret (a : α) : Plays (.ret a) [] a
  | call {c k t r es a} (onward : Plays (k r) es a) : Plays (.call c k) (⟨t,c,r⟩ :: es) a

theorem playsBind {p : Prog I α} {f : α → Prog I β} {es b} (played : Plays (p >>= f) es b) :
    ∃ front a back, es = front ++ back ∧ Plays p front a ∧ Plays (f a) back b := by
  induction p generalizing es with
  | ret a => exact ⟨[],a,es,rfl,.ret a,played⟩
  | call c k ih =>
    cases played with
    | call onward =>
      obtain ⟨front,a,back,rfl,first,later⟩ := ih _ onward
      exact ⟨_,a,back,rfl,.call first,later⟩

theorem playsAttempt {p : ExceptT ε (Prog I) α} {f : α → ExceptT ε (Prog I) β} {es out}
    (played : Plays (p >>= f : ExceptT ε (Prog I) β) es out) :
    (∃ front a back, es = front ++ back ∧ Plays p front (.ok a) ∧ Plays (f a) back out) ∨
    (∃ e, Plays p es (.error e) ∧ out = .error e) := by
  obtain ⟨front,r,back,rfl,first,later⟩ := playsBind played
  cases r with
  | ok a => exact .inl ⟨front,a,back,rfl,first,later⟩
  | error e =>
    cases later
    rw [List.append_nil]
    exact .inr ⟨e,first,rfl⟩

theorem bindPlaysOk {p : ExceptT ε (Prog I) α} {f : α → ExceptT ε (Prog I) β} {es b}
    (played : Plays (p >>= f : ExceptT ε (Prog I) β) es (.ok b)) :
    ∃ front a back, es = front ++ back ∧ Plays p front (.ok a) ∧ Plays (f a) back (.ok b) := by
  rcases playsAttempt played with split | ⟨e,-,never⟩
  · exact split
  · cases never

theorem playsAfter {p : Prog I α} {f : α → β} {es b} (played : Plays (p >>= fun a => pure (f a)) es b) :
    ∃ a, Plays p es a ∧ b = f a := by
  obtain ⟨front,a,back,rfl,first,later⟩ := playsBind played
  cases later
  rw [List.append_nil]
  exact ⟨a,first,rfl⟩

theorem playsMap {p : ExceptT ε (Prog I) α} {f : α → β} {es out}
    (played : Plays (f <$> p : ExceptT ε (Prog I) β) es out) : ∃ r, Plays p es r ∧ out = r.map f := by
  obtain ⟨front,r,back,rfl,first,later⟩ := playsBind played
  cases r <;> cases later <;> exact ⟨_,(List.append_nil front).symm ▸ first,rfl⟩

theorem playsPerform {c : I.Call} {f : I.Resp c → α} {es a} (played : Plays (perform c >>= fun r => pure (f r)) es a) :
    ∃ t r, es = [⟨t,c,r⟩] ∧ a = f r := by
  cases played with
  | call onward =>
    cases onward
    exact ⟨_,_,rfl,rfl⟩

theorem bindPlays {p : Prog I α} {f : α → Prog I β} {front back a b} (first : Plays p front a)
    (later : Plays (f a) back b) : Plays (p >>= f) (front ++ back) b := by
  induction first with
  | ret a => exact later
  | call onward ih => exact .call (ih later)

theorem playsFollow {done : Trace I → α → Prop} {p : Prog I α} {tr es a} (ok : Follows allowed done p tr)
    (played : Plays p es a) : done (es.reverse ++ tr) a := by
  induction played generalizing tr with
  | ret a => exact ok
  | @call c k t r es a onward ih =>
    rw [List.reverse_cons,List.append_assoc]
    exact ih (ok.2 t r)

theorem runPlays {σ : Type} {answer : (c : I.Call) → σ → I.Resp c × σ} {well : σ → Prop} (t : I.Stamp)
    (kept : ∀ c s, well s → well (answer c s).2) (p : Prog I α) {s : σ} (holds : well s) :
    ∃ es, Plays p es (run answer p s).1 ∧ ∀ e ∈ es, ∃ s, well s ∧ e.resp = (answer e.call s).1 := by
  induction p generalizing s with
  | ret a => exact ⟨[],.ret a,fun _ never => nomatch never⟩
  | call c k ih =>
    obtain ⟨es,onward,answered⟩ := ih (answer c s).1 (kept c s holds)
    exact ⟨⟨t,c,(answer c s).1⟩ :: es,.call onward,List.forall_mem_cons.mpr ⟨⟨s,holds,rfl⟩,answered⟩⟩

end SssdOidc.Program
