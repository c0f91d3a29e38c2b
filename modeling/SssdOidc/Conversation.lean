import SssdOidc.Login
import SssdOidc.Packing

/-! crates/pam_oidc/src/pam_conv.rs, and the entry points over it: how the user is asked for
and told, by a function of the application that allocates what it answers. -/
namespace SssdOidc.Conversation
open Program Interfaces RelyGuarantee Login
open Pam (PAM_SUCCESS)
open Packing (utf8)
open Database (Db)
open DeviceFlow (sampleClient)
open Stability (fourSlots)

def PAM_TEXT_INFO : Int := 4

structure Response where
  address : Nat
  resp : Option Nat
  deriving DecidableEq, Repr

inductive Call where
  | getUser
  -- PAM_CONV
  | getItem
  | conv (style : Int) (msg : List UInt8)
  | free (block : Nat)
  deriving DecidableEq, Repr

/- A pointer is `none` when it is null; of the conversation it matters whether it has a function. -/
abbrev Call.Resp : Call → Type
  | .getUser => Int × Option (List UInt8)
  | .getItem => Int × Option Bool
  | .conv _ _ => Int × Option Response
  | .free _ => Unit

abbrev pamCalls : Interface := ⟨Call,Call.Resp,Unit⟩

def call (c : Call) : Prog pamCalls c.Resp := perform (I := pamCalls) c

def pamUser (ret : Int) : Option (List UInt8) → Except Int String
  | none => .error ret
  | some user =>
      if ret ≠ PAM_SUCCESS then .error ret
      else match String.fromUTF8? ⟨user.toArray⟩ with
        | none => .error ret
        | some user => .ok user

def getPamUser : Prog pamCalls (Except Int String) := do
  let (ret,user) ← call .getUser
  pure (pamUser ret user)

def getPamConv : Prog pamCalls (Option Bool) := do
  let (ret,item) ← call .getItem
  pure (if ret ≠ PAM_SUCCESS then none else item)

def release : Option Response → Prog pamCalls Unit
  | none => pure ()
  | some response => do
      match response.resp with
      | some text => call (.free text)
      | none => pure ()
      call (.free response.address)

def pamInfo (msg : String) : Prog pamCalls Int := do
  match ← getPamConv with
  | none => pure PAM_SUCCESS
  | some hasFn =>
      -- a message with a NUL is no C string
      if '\x00' ∈ msg.toList then pure PAM_SUCCESS
      else if hasFn then do
        let (ret,resp) ← call (.conv PAM_TEXT_INFO (utf8 msg))
        release resp
        pure ret
      else pure PAM_SUCCESS

abbrev moduleCalls := both loginCalls pamCalls

def prompt (userCode verificationUri : String) : String :=
  "To sign in, visit: " ++ verificationUri ++ "\nEnter code: " ++ userCode ++ "\nWaiting for authentication..."

/- The closure that `authenticate_device_flow` is given; all else is asked outside. -/
def told : (c : loginCalls.Call) → Prog moduleCalls (loginCalls.Resp c)
  | .inl (.display userCode verificationUri) => do
      let _ ← right (pamInfo (prompt userCode verificationUri))
      pure ()
  | .inl (.http r) => left (perform (I := loginCalls) (.inl (.http r)))
  | .inl (.sleep secs) => left (perform (I := loginCalls) (.inl (.sleep secs)))
  | .inl .now => left (perform (I := loginCalls) (.inl .now))
  | .inr c => left (perform (I := loginCalls) (.inr c))

section Entry
variable (b : Mapping.Build) (config : Model.Config) (host : Host) (rounds : Nat)

def pamSmAuthenticate (s : State) : Prog moduleCalls (Except Stop (State × Int)) := do
  let user ← right getPamUser
  carriedOut told (authenticateImpl b config host rounds user.toOption s).run

def pamSmAcctMgmt (s : State) : Prog moduleCalls (Except Stop (State × Int)) := do
  let user ← right getPamUser
  carriedOut told (acctMgmtImpl b config host user.toOption s).run

def pamSmChauthtok (s : State) : Prog moduleCalls (Except Stop (State × Int)) := do
  match ← carriedOut told (chauthtokImpl host s).run with
  | .error stop => pure (.error stop)
  | .ok (s,msg,code) => do
      match msg with
      | some msg => do
          let _ ← right (pamInfo msg)
          pure ()
      | none => pure ()
      pure (.ok (s,code))

end Entry

def blocks : Option Response → List Nat
  | none => []
  | some response => response.resp.toList ++ [response.address]

/- The blocks that the module has been handed and has not freed; `none` once it has freed
another one. -/
abbrev Owed := Option (List Nat)

inductive Acts : Owed → (c : Call) → c.Resp → Owed → Prop where
  | getUser {owed r} : Acts owed .getUser r owed
  | getItem {owed r} : Acts owed .getItem r owed
  | conv {owed style msg ret resp} : Acts (some owed) (.conv style msg) (ret,resp) (some (blocks resp ++ owed))
  | free {owed block} (mine : block ∈ owed) : Acts (some owed) (.free block) () (some (owed.erase block))
  | wrong {owed block} (other : block ∉ owed) : Acts (some owed) (.free block) () none
  | lost {c r} : Acts none c r none

section Owed
variable {owed : List Nat}

theorem freed {block : Nat} {es a s'} (played : Plays (call (.free block)) es a)
    (ran : Ran Acts (some (block :: owed)) es s') : s' = some owed := by
  cases played with
  | call onward =>
    cases onward
    cases ran with
    | cons now later =>
      cases later
      cases now with
      | free mine => rw [List.erase_cons_head]
      | wrong other => exact absurd List.mem_cons_self other

theorem released {resp : Option Response} {es a s'} (played : Plays (release resp) es a)
    (ran : Ran Acts (some (blocks resp ++ owed)) es s') : s' = some owed := by
  cases resp with
  | none =>
    cases played
    cases ran
    rfl
  | some response =>
    obtain ⟨address,resp⟩ := response
    cases resp with
    | none => exact freed played ran
    | some text =>
      obtain ⟨front,u,back,rfl,first,later⟩ := playsBind played
      obtain ⟨middle,before,after⟩ := ranSplit ran
      cases freed first before
      exact freed later after

theorem restoresConv (msg : String) : Restores Acts (some owed) (call (.conv PAM_TEXT_INFO (utf8 msg)) >>= fun answer =>
    release answer.2 >>= fun _ => pure answer.1) := by
  intro es a s' played ran
  cases played with
  | @call _ _ t r rest _ onward =>
    obtain ⟨ret,resp⟩ := r
    cases ran with
    | cons now later =>
      cases now with
      | conv =>
        obtain ⟨u,inner,rfl⟩ := playsAfter onward
        exact released inner later

theorem restoresGetPamConv : Restores Acts (some owed) getPamConv := by
  intro es a s' played ran
  obtain ⟨t,r,rfl,-⟩ := playsPerform played
  cases ran with
  | cons now later =>
    cases later
    cases now
    rfl

theorem restoresPamInfo (msg : String) : Restores Acts (some owed) (pamInfo msg) := by
  refine restoresBind restoresGetPamConv fun conv => ?_
  cases conv with
  | none => exact restoresRet _
  | some hasFn =>
    dsimp only
    split
    · exact restoresRet _
    · split
      · exact restoresConv msg
      · exact restoresRet _

theorem restoresGetPamUser : Restores Acts (some owed) getPamUser := by
  intro es a s' played ran
  obtain ⟨t,r,rfl,-⟩ := playsPerform played
  cases ran with
  | cons now later =>
    cases later
    cases now
    rfl

theorem restoresTold (c : loginCalls.Call) : Restores (beside Acts) (some owed) (told c) := by
  match c with
  | .inl (.display userCode verificationUri) =>
    exact restoresBind (restoresRight (restoresPamInfo _)) fun _ => restoresRet ()
  | .inl (.http r) => exact restoresLeft _
  | .inl (.sleep secs) => exact restoresLeft _
  | .inl .now => exact restoresLeft _
  | .inr c => exact restoresLeft _

theorem blocksReturned (b : Mapping.Build) (config : Model.Config) (host : Host) (rounds : Nat) (s : State) (owed : List Nat) :
    Restores (beside Acts) (some owed) (pamSmAuthenticate b config host rounds s) ∧
    Restores (beside Acts) (some owed) (pamSmAcctMgmt b config host s) ∧
    Restores (beside Acts) (some owed) (pamSmChauthtok host s) := by
  have asked {α : Type} (f : Except Int String → Prog moduleCalls α)
      (later : ∀ user, Restores (beside Acts) (some owed) (f user)) :
      Restores (beside Acts) (some owed) (right getPamUser >>= f) :=
    restoresBind (restoresRight restoresGetPamUser) later
  refine ⟨asked _ fun user => restoresCarriedOut restoresTold _,asked _ fun user => restoresCarriedOut restoresTold _,?_⟩
  refine restoresBind (restoresCarriedOut restoresTold _) fun reply => ?_
  match reply with
  | .error stop => exact restoresRet _
  | .ok (s',none,code) => exact restoresRet _
  | .ok (s',some msg,code) =>
    exact restoresBind (restoresRight (restoresPamInfo msg)) fun _ => restoresRet _

end Owed

def Says (msg : String) : Call → Prop
  | .conv style text => style = PAM_TEXT_INFO ∧ text = utf8 msg ∧ '\x00' ∉ msg.toList
  | _ => True

def saying (msg : String) : Contract pamCalls := ⟨Says msg,fun _ _ => True⟩

theorem pamInfoSays (msg : String) : Ensures (saying msg) (fun _ => True) (pamInfo msg) := by
  refine ensuresBind ⟨trivial,fun r _ => ?_⟩
  show Ensures _ _ (match (if r.1 ≠ PAM_SUCCESS then none else r.2) with
    | none => _
    | some hasFn => _)
  split
  · trivial
  · split
    · trivial
    · rename_i plain
      split
      · refine ⟨⟨rfl,rfl,plain⟩,fun r _ => ?_⟩
        obtain ⟨ret,- | ⟨address,- | text⟩⟩ := r
        · trivial
        · exact ⟨trivial,fun _ _ => trivial⟩
        · exact ⟨trivial,fun _ _ => ⟨trivial,fun _ _ => trivial⟩⟩
      · trivial

def isDisplay : loginCalls.Call → Bool
  | .inl (.display _ _) => true
  | _ => false

/- An event of a session, and what the module does for it: it goes outside as it is, or is told
to the user. -/
def Carried (e : Event loginCalls) (es : List (Event moduleCalls)) : Prop :=
  (isDisplay e.call = false ∧ es.filterMap leftOf = [e] ∧ es.filterMap rightOf = []) ∨
  ∃ userCode verificationUri, e.call = .inl (.display userCode verificationUri) ∧ es.filterMap leftOf = [] ∧
    ∀ f ∈ es.filterMap rightOf, Says (prompt userCode verificationUri) f.call

theorem toldCarried (c : loginCalls.Call) (es : List (Event moduleCalls)) (r : loginCalls.Resp c)
    (played : Plays (told c) es r) : ∃ t, Carried ⟨t,c,r⟩ es := by
  have outside (c : loginCalls.Call) (other : isDisplay c = false) (es : List (Event moduleCalls)) (r : loginCalls.Resp c)
      (played : Plays (left (perform (I := loginCalls) c) : Prog moduleCalls (loginCalls.Resp c)) es r) :
      ∃ t, Carried ⟨t,c,r⟩ es := by
    cases played with
    | @call _ _ t r' rest _ onward =>
      cases onward
      exact ⟨t.1,.inl ⟨other,rfl,rfl⟩⟩
  match c with
  | .inl (.display userCode verificationUri) =>
    obtain ⟨ret,inner,-⟩ := playsAfter played
    obtain ⟨mine,theirs⟩ := rightPlays inner
    have spoken := (ensuresPlays (pamInfoSays _) mine fun _ _ => trivial).2
    exact ⟨(0,0),.inr ⟨userCode,verificationUri,rfl,theirs,spoken⟩⟩
  | .inl (.http request) => exact outside (.inl (.http request)) rfl es r played
  | .inl (.sleep secs) => exact outside (.inl (.sleep secs)) rfl es r played
  | .inl .now => exact outside (.inl .now) rfl es r played
  | .inr call => exact outside (.inr call) rfl es r played

structure Seen (seen : List (Event loginCalls)) (es : List (Event moduleCalls)) : Prop where
  outside : es.filterMap leftOf = seen.filter fun e => !isDisplay e.call
  told : ∀ f ∈ es.filterMap rightOf, ∀ style text, f.call = .conv style text → style = PAM_TEXT_INFO ∧
    ∃ e ∈ seen, ∃ userCode verificationUri, e.call = .inl (.display userCode verificationUri) ∧
      text = utf8 (prompt userCode verificationUri)

theorem seenNil : Seen [] [] where
  outside := rfl
  told := fun _ never => nomatch never

theorem seenCons {e : Event loginCalls} {seen front es} (carried : Carried e front) (rest : Seen seen es) :
    Seen (e :: seen) (front ++ es) := by
  have later {f : Event pamCalls} {style text} (inside : f ∈ es.filterMap rightOf) (spoken : f.call = .conv style text) :
      style = PAM_TEXT_INFO ∧ ∃ e' ∈ e :: seen, ∃ userCode verificationUri,
        e'.call = .inl (.display userCode verificationUri) ∧ text = utf8 (prompt userCode verificationUri) := by
    obtain ⟨info,e',there,shown⟩ := rest.told f inside style text spoken
    exact ⟨info,e',List.mem_cons_of_mem _ there,shown⟩
  obtain ⟨other,mine,none⟩ | ⟨userCode,verificationUri,shown,mine,spoken⟩ := carried
  · refine ⟨?_,fun f inside style text call => ?_⟩
    · rw [List.filterMap_append,mine,rest.outside,List.filter_cons_of_pos (by rw [other]; rfl)]
      rfl
    · rw [List.filterMap_append,none] at inside
      exact later inside call
  · refine ⟨?_,fun f inside style text call => ?_⟩
    · rw [List.filterMap_append,mine,rest.outside,List.filter_cons_of_neg (by rw [shown]; exact Bool.false_ne_true)]
      rfl
    · rw [List.filterMap_append] at inside
      obtain now | then' := List.mem_append.mp inside
      · have said := spoken f now
        rw [call] at said
        exact ⟨said.1,e,List.mem_cons_self,userCode,verificationUri,shown,said.2.1⟩
      · exact later then' call

theorem sessionSeen {α : Type} {p : Prog loginCalls α} {es a} (played : Plays (carriedOut told p) es a) :
    ∃ seen, Plays p seen a ∧ Seen seen es := by
  obtain ⟨calls,onward,rfl,carried⟩ := carriedOutPlays toldCarried played
  refine ⟨calls.map Prod.fst,onward,?_⟩
  clear onward played
  induction calls with
  | nil => exact seenNil
  | cons call rest ih =>
    obtain ⟨first,others⟩ := List.forall_mem_cons.mp carried
    exact seenCons first (ih others)

theorem authenticateRefines {b : Mapping.Build} {config : Model.Config} {host : Host} {rounds : Nat} {s : State}
    {es : List (Event moduleCalls)} {out} (played : Plays (pamSmAuthenticate b config host rounds s) es out) :
    ∃ t ret user seen rest, es = ⟨t,.inr .getUser,(ret,user)⟩ :: rest ∧
      Plays (authenticateImpl b config host rounds (pamUser ret user).toOption s) seen out ∧ Seen seen rest := by
  cases played with
  | @call _ _ t r rest _ onward =>
    obtain ⟨ret,user⟩ := r
    obtain ⟨seen,session,inside⟩ := sessionSeen onward
    exact ⟨t,ret,user,seen,rest,rfl,session,inside⟩

section Example

def atTerminal : (c : moduleCalls.Call) → Db → moduleCalls.Resp c × Db
  | .inl c, db => reply c db
  | .inr .getUser, db => ((PAM_SUCCESS,some [97,110,110]),db)
  | .inr .getItem, db => ((PAM_SUCCESS,some true),db)
  | .inr (.conv _ _), db => ((PAM_SUCCESS,some ⟨4096,some 8192⟩),db)
  | .inr (.free _), db => ((),db)

theorem terminalCall : (run atTerminal (pamSmAuthenticate Mapping.release fourSlots sampleHost 1 redirected) Database.empty).1 =
    .ok (⟨some (some sampleClient),some true⟩,PAM_SUCCESS) := by
  rfl

theorem annAtTerminal : ∃ es s t ret user seen rest,
    Plays (pamSmAuthenticate Mapping.release fourSlots sampleHost 1 redirected) es (.ok (s,PAM_SUCCESS)) ∧
    es = ⟨t,.inr .getUser,(ret,user)⟩ :: rest ∧
    Plays (authenticateImpl Mapping.release fourSlots sampleHost 1 (pamUser ret user).toOption redirected) seen
      (.ok (s,PAM_SUCCESS)) ∧ Seen seen rest := by
  have all (c : moduleCalls.Call) (db : Db) (_ : True) : True := trivial
  obtain ⟨es,played,-⟩ := runPlays ((0,0),()) all
    (pamSmAuthenticate Mapping.release fourSlots sampleHost 1 redirected) (s := Database.empty) trivial
  rw [terminalCall] at played
  obtain ⟨t,ret,user,seen,rest,found⟩ := authenticateRefines played
  exact ⟨es,_,t,ret,user,seen,rest,played,found⟩

end Example

end SssdOidc.Conversation
