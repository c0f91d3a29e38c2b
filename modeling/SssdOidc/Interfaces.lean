import SssdOidc.RelyGuarantee

/-! A program that talks to two parties, to each through an interface of its own. Where it
talks to one of them alone it is a program of that interface, and its plays are the plays of
that program. -/
namespace SssdOidc.Interfaces
open Program RelyGuarantee

variable {I J : Interface} {α : Type}

abbrev both (I J : Interface) : Interface where
  Call := I.Call ⊕ J.Call
  Resp
    | .inl c => I.Resp c
    | .inr c => J.Resp c
  Stamp := I.Stamp × J.Stamp

def left : Prog I α → Prog (both I J) α
  | .ret a => .ret a
  | .call c k => .call (.inl c) fun r => left (k r)

def right : Prog J α → Prog (both I J) α
  | .ret a => .ret a
  | .call c k => .call (.inr c) fun r => right (k r)

def leftOf : Event (both I J) → Option (Event I)
  | ⟨t,.inl c,r⟩ => some ⟨t.1,c,r⟩
  | ⟨_,.inr _,_⟩ => none

def rightOf : Event (both I J) → Option (Event J)
  | ⟨_,.inl _,_⟩ => none
  | ⟨t,.inr c,r⟩ => some ⟨t.2,c,r⟩

theorem leftPlays {p : Prog I α} {es : List (Event (both I J))} {a} (played : Plays (left p) es a) :
    Plays p (es.filterMap leftOf) a ∧ es.filterMap rightOf = [] := by
  induction p generalizing es with
  | ret a =>
    cases played
    exact ⟨.ret a,rfl⟩
  | call c k ih =>
    cases played with
    | @call _ _ t r rest _ onward =>
      obtain ⟨mine,theirs⟩ := ih r onward
      exact ⟨.call mine,theirs⟩

theorem rightPlays {p : Prog J α} {es : List (Event (both I J))} {a} (played : Plays (right p) es a) :
    Plays p (es.filterMap rightOf) a ∧ es.filterMap leftOf = [] := by
  induction p generalizing es with
  | ret a =>
    cases played
    exact ⟨.ret a,rfl⟩
  | call c k ih =>
    cases played with
    | @call _ _ t r rest _ onward =>
      obtain ⟨mine,theirs⟩ := ih r onward
      exact ⟨.call mine,theirs⟩

theorem partsLength (es : List (Event (both I J))) :
    (es.filterMap leftOf).length + (es.filterMap rightOf).length = es.length := by
  induction es with
  | nil => rfl
  | cons e rest ih =>
    rcases e with ⟨t,c | c,r⟩
    · rw [List.filterMap_cons,List.filterMap_cons]
      simp only [leftOf,rightOf,List.length_cons]
      omega
    · rw [List.filterMap_cons,List.filterMap_cons]
      simp only [leftOf,rightOf,List.length_cons]
      omega

def onBoth (mine : Contract I) (theirs : Contract J) : Contract (both I J) where
  guarantee
    | .inl c => mine.guarantee c
    | .inr c => theirs.guarantee c
  rely
    | .inl c, r => mine.rely c r
    | .inr c, r => theirs.rely c r

def anyContract (I : Interface) : Contract I := ⟨fun _ => True,fun _ _ => True⟩

def onLeft (contract : Contract I) : Contract (both I J) := onBoth contract (anyContract J)

section Contracts
variable {mine : Contract I} {theirs : Contract J}

theorem ensuresOnLeft {post : α → Prop} {p : Prog I α} (ok : Ensures mine post p) :
    Ensures (onBoth mine theirs) post (left p) := by
  induction p with
  | ret a => exact ok
  | call c k ih => exact ⟨ok.1,fun r relied => ih r (ok.2 r relied)⟩

theorem ensuresOnRight {post : α → Prop} {p : Prog J α} (ok : Ensures theirs post p) :
    Ensures (onBoth mine theirs) post (right p) := by
  induction p with
  | ret a => exact ok
  | call c k ih => exact ⟨ok.1,fun r relied => ih r (ok.2 r relied)⟩

theorem ensuresAny (p : Prog I α) : Ensures (anyContract I) (fun _ => True) p := by
  induction p with
  | ret a => trivial
  | call c k ih => exact ⟨trivial,fun r _ => ih r⟩

theorem keepsFree {ε : Type} {p : ExceptT ε (Prog I) α} : Keeps (anyContract I) p := keepsEnsured (ensuresAny p.run)

end Contracts

theorem leftPromised {contract : Contract I} {es : List (Event (both I J))}
    (promised : ∀ e ∈ es, (onLeft contract : Contract (both I J)).guarantee e.call) :
    ∀ e ∈ es.filterMap leftOf, contract.guarantee e.call := by
  intro e inside
  obtain ⟨⟨t,c | c,r⟩,within,same⟩ := List.mem_filterMap.mp inside
  · cases same
    exact promised _ within
  · cases same

def carriedOut (impl : (c : I.Call) → Prog J (I.Resp c)) : Prog I α → Prog J α
  | .ret a => .ret a
  | .call c k => impl c >>= fun r => carriedOut impl (k r)

theorem carriedOutPlays {impl : (c : I.Call) → Prog J (I.Resp c)} {R : Event I → List (Event J) → Prop}
    (told : ∀ c es r, Plays (impl c) es r → ∃ t, R ⟨t,c,r⟩ es) {p : Prog I α} {es a}
    (played : Plays (carriedOut impl p) es a) :
    ∃ calls : List (Event I × List (Event J)), Plays p (calls.map Prod.fst) a ∧ es = calls.flatMap Prod.snd ∧
      ∀ call ∈ calls, R call.1 call.2 := by
  induction p generalizing es with
  | ret a =>
    cases played
    exact ⟨[],.ret a,rfl,fun _ never => nomatch never⟩
  | call c k ih =>
    obtain ⟨front,r,back,rfl,now,later⟩ := playsBind played
    obtain ⟨t,related⟩ := told c front r now
    obtain ⟨calls,onward,rfl,others⟩ := ih r later
    exact ⟨(⟨t,c,r⟩,front) :: calls,.call onward,rfl,List.forall_mem_cons.mpr ⟨related,others⟩⟩

theorem ensuresCarriedOut {outer : Contract I} {inner : Contract J} {impl : (c : I.Call) → Prog J (I.Resp c)}
    (each : ∀ c, outer.guarantee c → Ensures inner (outer.rely c) (impl c)) {post : α → Prop} {p : Prog I α}
    (ok : Ensures outer post p) : Ensures inner post (carriedOut impl p) := by
  induction p with
  | ret a => exact ok
  | call c k ih => exact ensuresBind (ensuresMono (fun r relied => ih r (ok.2 r relied)) (each c ok.1))

section Acting
variable {σ : Type} {acts : σ → (c : J.Call) → J.Resp c → σ → Prop}

inductive Ran (acts : σ → (c : J.Call) → J.Resp c → σ → Prop) : σ → List (Event J) → σ → Prop where
  | nil {s} : Ran acts s [] s
  | cons {s s' s''} {e : Event J} {es} (now : acts s e.call e.resp s') (later : Ran acts s' es s'') : Ran acts s (e :: es) s''

/- A program that leaves the state as it was. -/
def Restores (acts : σ → (c : J.Call) → J.Resp c → σ → Prop) (s : σ) (p : Prog J α) : Prop :=
  ∀ es a s', Plays p es a → Ran acts s es s' → s' = s

theorem ranSplit {front back : List (Event J)} {s s''} (ran : Ran acts s (front ++ back) s'') :
    ∃ s', Ran acts s front s' ∧ Ran acts s' back s'' := by
  induction front generalizing s with
  | nil => exact ⟨s,.nil,ran⟩
  | cons e front ih =>
    cases ran with
    | cons now later =>
      obtain ⟨s',first,second⟩ := ih later
      exact ⟨s',.cons now first,second⟩

theorem restoresRet {s : σ} (a : α) : Restores acts s (.ret a) := by
  intro es a' s' played ran
  cases played
  cases ran
  rfl

theorem restoresBind {β : Type} {s : σ} {p : Prog J α} {f : α → Prog J β} (first : Restores acts s p)
    (later : ∀ a, Restores acts s (f a)) : Restores acts s (p >>= f) := by
  intro es b s' played ran
  obtain ⟨front,a,back,rfl,now,onward⟩ := playsBind played
  obtain ⟨middle,before,after⟩ := ranSplit ran
  cases first front a middle now before
  exact later a back b s' onward after

theorem restoresCarriedOut {impl : (c : I.Call) → Prog J (I.Resp c)} {s : σ} (each : ∀ c, Restores acts s (impl c))
    (p : Prog I α) : Restores acts s (carriedOut impl p) := by
  induction p with
  | ret a =>
    intro es b s' played ran
    cases played
    cases ran
    rfl
  | call c k ih => exact restoresBind (each c) ih

/- The state is on the right; calls on the left leave it alone. -/
def beside (acts : σ → (c : J.Call) → J.Resp c → σ → Prop) (s : σ) :
    (c : (both I J).Call) → (both I J).Resp c → σ → Prop
  | .inl _, _, s' => s' = s
  | .inr c, r, s' => acts s c r s'

theorem restoresLeft {s : σ} (p : Prog I α) : Restores (beside (I := I) acts) s (left p) := by
  induction p with
  | ret a => exact restoresRet a
  | call c k ih =>
    intro es a s' played ran
    cases played with
    | @call _ _ t r rest _ onward =>
      cases ran with
      | cons now later =>
        cases (now : _ = s)
        exact ih r rest a s' onward later

theorem ranRight {s s' : σ} {p : Prog J α} {es : List (Event (both I J))} {a} (played : Plays (right p) es a)
    (ran : Ran (beside acts) s es s') : Ran acts s (es.filterMap rightOf) s' := by
  induction p generalizing es s with
  | ret a =>
    cases played
    cases ran
    exact .nil
  | call c k ih =>
    cases played with
    | @call _ _ t r rest _ onward =>
      cases ran with
      | cons now later => exact .cons now (ih r onward later)

theorem restoresRight {s : σ} {p : Prog J α} (ok : Restores acts s p) : Restores (beside (I := I) acts) s (right p) :=
  fun _ _ _ played ran => ok _ _ _ (rightPlays played).1 (ranRight played ran)

end Acting

end SssdOidc.Interfaces
