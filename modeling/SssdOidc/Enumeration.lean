import SssdOidc.Packing

/-! The enumerations of crates/nss_oidc/src/ffi.rs. Each keeps a list and a cursor behind a
mutex, which every call holds from start to end, so the calls of all threads come one
after another. -/
namespace SssdOidc.Enumeration
open Model Packing

abbrev State (α : Type) := Option (List α × Nat)

section Calls
variable {α ρ : Type}

/- `listed` is what the SCIM server and the cache made of the list: `none` is a failed fetch. -/
def setent (listed : Option (List α)) (state : State α) : NssStatus × State α :=
  match listed with
  | some entries => (.success,some (entries,0))
  | none => (.unavail,state)

def getent (fill : α → Caller ρ → NssStatus × Caller ρ) (state : State α) (caller : Caller ρ) :
    (NssStatus × Caller ρ) × State α :=
  match state with
  | none => ((.unavail,{ caller with errno := 0 }),none)
  | some (entries,idx) =>
      match entries[idx]? with
      | none => ((.notFound,{ caller with errno := 0 }),some (entries,idx))
      | some entry =>
          let answer := fill entry caller
          (answer,some (entries,if answer.1 = .success then idx + 1 else idx))

def endent (_ : State α) : NssStatus × State α := (.success,none)

end Calls

def setpwent : Option (List User) → State User → NssStatus × State User := setent

def getpwentR : State User → Caller Passwd → (NssStatus × Caller Passwd) × State User := getent fillPasswdBuf

def endpwent : State User → NssStatus × State User := endent

def setgrent : Option (List Group) → State Group → NssStatus × State Group := setent

def getgrentR : State Group → Caller GroupEntry → (NssStatus × Caller GroupEntry) × State Group := getent fillGroupBuf

def endgrent : State Group → NssStatus × State Group := endent

section Rows
variable {α ρ : Type}

def gets (get : State α → Caller ρ → (NssStatus × Caller ρ) × State α) :
    State α → List (Caller ρ) → List (NssStatus × Caller ρ)
  | _, [] => []
  | state, caller :: rest => (get state caller).1 :: gets get (get state caller).2 rest

inductive Call (α ρ : Type) where
  | set (listed : Option (List α))
  | get (caller : Caller ρ)
  | close

def calls (set : Option (List α) → State α → NssStatus × State α)
    (get : State α → Caller ρ → (NssStatus × Caller ρ) × State α) (close : State α → NssStatus × State α) :
    State α → List (Call α ρ) → List (Caller ρ × NssStatus × Caller ρ)
  | _, [] => []
  | state, .set listed :: rest => calls set get close (set listed state).2 rest
  | state, .get caller :: rest => (caller,(get state caller).1) :: calls set get close (get state caller).2 rest
  | state, .close :: rest => calls set get close (close state).2 rest

def succeeded (answer : NssStatus × Caller ρ) : Bool := answer.1 == .success

def Due (fill : α → Caller ρ → NssStatus × Caller ρ) (size : α → Nat) (caller : Caller ρ)
    (answer : NssStatus × Caller ρ) : Option α → Prop
  | some entry => answer = fill entry caller ∧ (answer.1 = .success ↔ size entry ≤ caller.buf.length) ∧
      (answer.1 = .tryAgain ∧ answer.2.errno = ERANGE ↔ caller.buf.length < size entry)
  | none => answer = (.notFound,{ caller with errno := 0 })

/- The successes are the entries in their order; and every call is answered from the entry
whose number is that of the successes so far. -/
structure Delivers (fill : α → Caller ρ → NssStatus × Caller ρ) (size : α → Nat) (entries : List α)
    (callers : List (Caller ρ)) (answers : List (NssStatus × Caller ρ)) : Prop where
  ordered : ∃ served, served.Sublist callers ∧ served.length ≤ entries.length ∧
    answers.filter succeeded = List.zipWith fill entries served
  due : ∀ i caller, callers[i]? = some caller → ∃ answer, answers[i]? = some answer ∧
    Due fill size caller answer entries[(answers.take i).countP succeeded]?

variable {fill : α → Caller ρ → NssStatus × Caller ρ} {size : α → Nat}

structure Sized (fill : α → Caller ρ → NssStatus × Caller ρ) (size : α → Nat) : Prop where
  success : ∀ entry caller, (fill entry caller).1 = .success ↔ size entry ≤ caller.buf.length
  tooSmall : ∀ entry caller, caller.buf.length < size entry →
    (fill entry caller).1 = .tryAgain ∧ (fill entry caller).2.errno = ERANGE

theorem sizedDue (sized : Sized fill size) (entry : α) (caller : Caller ρ) :
    Due fill size caller (fill entry caller) (some entry) := by
  refine ⟨rfl,sized.success entry caller,?_,sized.tooSmall entry caller⟩
  intro due
  obtain ⟨again,-⟩ := due
  refine Nat.lt_of_not_le fun room => ?_
  have done := (sized.success entry caller).mpr room
  rw [again] at done
  cases done

theorem deliversStay {entries : List α} {callers : List (Caller ρ)} {answers} {caller : Caller ρ} {answer}
    (later : Delivers fill size entries callers answers) (failed : succeeded answer = false)
    (due : Due fill size caller answer entries[0]?) :
    Delivers fill size entries (caller :: callers) (answer :: answers) := by
  obtain ⟨⟨served,sub,few,same⟩,rest⟩ := later
  refine ⟨⟨served,sub.cons _,few,?_⟩,?_⟩
  · rw [List.filter_cons_of_neg (by simp [failed])]
    exact same
  · intro i other at'
    cases i with
    | zero =>
      cases at'
      exact ⟨answer,rfl,due⟩
    | succ i =>
      obtain ⟨reply,there,holds⟩ := rest i other at'
      refine ⟨reply,there,?_⟩
      rw [List.take_succ_cons,List.countP_cons_of_neg (by simp [failed])]
      exact holds

theorem deliversNext {entry : α} {entries : List α} {callers : List (Caller ρ)} {answers} {caller : Caller ρ}
    (later : Delivers fill size entries callers answers) (done : succeeded (fill entry caller) = true)
    (due : Due fill size caller (fill entry caller) (some entry)) :
    Delivers fill size (entry :: entries) (caller :: callers) (fill entry caller :: answers) := by
  obtain ⟨⟨served,sub,few,same⟩,rest⟩ := later
  refine ⟨⟨caller :: served,sub.cons_cons _,Nat.succ_le_succ few,?_⟩,?_⟩
  · rw [List.filter_cons_of_pos done,List.zipWith_cons_cons,same]
  · intro i other at'
    cases i with
    | zero =>
      cases at'
      exact ⟨_,rfl,due⟩
    | succ i =>
      obtain ⟨reply,there,holds⟩ := rest i other at'
      refine ⟨reply,there,?_⟩
      rw [List.take_succ_cons,List.countP_cons_of_pos done,List.getElem?_cons_succ]
      exact holds

theorem deliversFrom (sized : Sized fill size) (entries : List α) (callers : List (Caller ρ)) (idx : Nat) :
    Delivers fill size (entries.drop idx) callers (gets (getent fill) (some (entries,idx)) callers) := by
  induction callers generalizing idx with
  | nil => exact ⟨⟨[],List.Sublist.refl _,Nat.zero_le _,by simp [gets]⟩,by simp⟩
  | cons caller rest ih =>
    have first : (entries.drop idx)[0]? = entries[idx]? := by rw [List.getElem?_drop,Nat.add_zero]
    cases under : entries[idx]? with
    | none =>
      have next : getent fill (some (entries,idx)) caller =
          ((.notFound,{ caller with errno := 0 }),some (entries,idx)) := by simp only [getent,under]
      rw [gets,next]
      exact deliversStay (ih idx) rfl (by rw [first,under]; rfl)
    | some entry =>
      have due := sizedDue sized entry caller
      cases done : succeeded (fill entry caller) with
      | true =>
        have success : (fill entry caller).1 = .success := beq_iff_eq.mp done
        have next : getent fill (some (entries,idx)) caller = (fill entry caller,some (entries,idx + 1)) := by
          simp only [getent,under,success,if_true]
        obtain ⟨inside,here⟩ := List.getElem?_eq_some_iff.mp under
        rw [gets,next,List.drop_eq_getElem_cons inside,here]
        exact deliversNext (ih (idx + 1)) done due
      | false =>
        have failed : (fill entry caller).1 ≠ .success := fun success => by simp [succeeded,success] at done
        have next : getent fill (some (entries,idx)) caller = (fill entry caller,some (entries,idx)) := by
          simp only [getent,under,if_neg failed]
        rw [gets,next]
        exact deliversStay (ih idx) done (by rw [first,under]; exact due)

theorem closedCalls (cs : List (Call α ρ)) (unset : ∀ entries, Call.set (some entries) ∉ cs) :
    ∀ answered ∈ calls setent (getent fill) endent none cs,
      answered.2 = (.unavail,{ answered.1 with errno := 0 }) := by
  induction cs with
  | nil => simp [calls]
  | cons c rest ih =>
    have later : ∀ entries, Call.set (some entries) ∉ rest :=
      fun entries inside => unset entries (List.mem_cons_of_mem _ inside)
    cases c with
    | set listed =>
      cases listed with
      | none => exact ih later
      | some entries => exact absurd List.mem_cons_self (unset entries)
    | get caller =>
      intro answered inside
      rcases List.mem_cons.mp inside with rfl | there
      · rfl
      · exact ih later answered there
    | close => exact ih later

end Rows

theorem passwdSized : Sized fillPasswdBuf passwdSize :=
  ⟨fun user caller => fillSuccess (passwdFits user caller.buf),
    fun user caller short => ⟨(fillTooSmall (passwdFits user caller.buf) short).1,
      (fillTooSmall (passwdFits user caller.buf) short).2.1⟩⟩

theorem groupSized : Sized fillGroupBuf groupSize :=
  ⟨fun grp caller => fillSuccess (groupFits grp caller.buf),
    fun grp caller short => ⟨(fillTooSmall (groupFits grp caller.buf) short).1,
      (fillTooSmall (groupFits grp caller.buf) short).2.1⟩⟩

end SssdOidc.Enumeration
