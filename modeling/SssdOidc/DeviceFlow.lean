import Mathlib.Data.List.Basic
import SssdOidc.Oidc

/-! The polling loop of `authenticate_device_flow` against a clock, and the sums that it
computes. Time passes only while the process sleeps, or waits for a request or for the
display. -/
namespace SssdOidc.DeviceFlow
open Mapping Program Oidc

/- What may have happened to the clock, which stood at `before`, when a call returns. -/
def Elapsed (before : Nat) : Event oidcCalls → Prop
  | ⟨t,.sleep secs,_⟩ => before + secs.toNat * nanosPerSec ≤ t
  | ⟨t,.now,instant⟩ => instant = before ∧ t = before
  | ⟨t,.http _,_⟩ => before ≤ t
  | ⟨t,.display _ _,_⟩ => before ≤ t

def Timed : (before : Nat) → List (Event oidcCalls) → Prop
  | _, [] => True
  | before, e :: rest => Elapsed before e ∧ Timed e.stamp rest

structure Poll where
  begins : Nat
  ends : Nat
  outcome : Except OidcError TokenResponse

def pollOutcome : Except HttpError TokenAnswer → Except OidcError TokenResponse
  | .ok answer => pollResult answer
  | .error e => .error e.oidc

def polls : (before : Nat) → List (Event oidcCalls) → List Poll
  | _, [] => []
  | before, ⟨t,.http (.token _ _),answer⟩ :: rest => ⟨before,t,pollOutcome answer⟩ :: polls t rest
  | _, e :: rest => polls e.stamp rest

def slowed (p : Poll) : Bool :=
  match p.outcome with
  | .error .slowDown => true
  | _ => false

def waits (p : Poll) : Bool :=
  match p.outcome with
  | .error .authorizationPending => true
  | .error .slowDown => true
  | _ => false

def lastEnd (start : Nat) (ps : List Poll) : Nat := (ps.getLast?.map Poll.ends).getD start

section Round
variable {b : Build} {client : OidcClient} {deviceCode : String} {α : Type} {es : List (Event oidcCalls)}
  {out : Except (Halt OidcError) α}

theorem sleepPlays {secs : UInt64} {f : Unit → Flow α} (played : Plays (sleep secs >>= f : Flow α) es out) :
    ∃ t rest, es = ⟨t,.sleep secs,()⟩ :: rest ∧ Plays (f ()) rest out := by
  cases played with
  | call onward => exact ⟨_,_,rfl,onward⟩

theorem nowPlays {f : Nat → Flow α} (played : Plays (now >>= f : Flow α) es out) :
    ∃ t instant rest, es = ⟨t,.now,instant⟩ :: rest ∧ Plays (f instant) rest out := by
  cases played with
  | call onward => exact ⟨_,_,_,rfl,onward⟩

theorem displayPlays {userCode verificationUri : String} {f : Unit → Flow α}
    (played : Plays (display userCode verificationUri >>= f : Flow α) es out) :
    ∃ t rest, es = ⟨t,.display userCode verificationUri,()⟩ :: rest ∧ Plays (f ()) rest out := by
  cases played with
  | call onward => exact ⟨_,_,rfl,onward⟩

theorem sendPlays {agent : Agent} {request : Request} {es r} (played : Plays (send agent request) es r) :
    (∃ t answer, es = [⟨t,.http request,answer⟩] ∧ r = answered answer) ∨ (es = [] ∧ r = .error (.error .http)) := by
  unfold send at played
  split at played
  · exact .inl (playsPerform played)
  · cases played
    exact .inr ⟨rfl,rfl⟩

theorem pollPlays {es r} (played : Plays (pollForToken client deviceCode) es r) :
    (∃ t url form answer, es = [⟨t,.http (.token url form),answer⟩] ∧
      r = (pollOutcome answer).mapError Halt.error) ∨ (es = [] ∧ r = .error (.error .http)) := by
  rcases playsAttempt played with ⟨front,answer,back,rfl,sent,later⟩ | ⟨e,sent,rfl⟩
  · rcases sendPlays sent with ⟨t,reply,rfl,same⟩ | ⟨rfl,never⟩
    · cases reply with
      | error e => cases same
      | ok body =>
        cases same
        cases result : pollResult answer with
        | ok token =>
          simp only [result] at later
          cases later
          exact .inl ⟨t,_,_,.ok answer,rfl,by simp only [pollOutcome,result,Except.mapError]⟩
        | error e =>
          simp only [result] at later
          cases later
          exact .inl ⟨t,_,_,.ok answer,rfl,by simp only [pollOutcome,result,Except.mapError]⟩
    · cases never
  · rcases sendPlays sent with ⟨t,reply,rfl,same⟩ | ⟨rfl,same⟩
    · cases reply with
      | ok body => cases same
      | error e' =>
        cases same
        exact .inl ⟨t,_,_,.error e',rfl,rfl⟩
    · cases same
      exact .inr ⟨rfl,rfl⟩

theorem attemptPlays {f : Except OidcError TokenResponse → Flow α}
    (played : Plays (attempt (pollForToken client deviceCode) >>= f : Flow α) es out) :
    (∃ t url form answer rest, es = ⟨t,.http (.token url form),answer⟩ :: rest ∧
      Plays (f (pollOutcome answer)) rest out) ∨ Plays (f (.error .http)) es out := by
  obtain ⟨front,r,back,rfl,tried,later⟩ := playsBind played
  obtain ⟨inner,r',outer,rfl,poll,wrapped⟩ := playsBind tried
  cases wrapped
  rw [List.append_nil]
  rcases pollPlays poll with ⟨t,url,form,answer,rfl,rfl⟩ | ⟨rfl,rfl⟩
  · refine .inl ⟨t,url,form,answer,back,rfl,?_⟩
    cases result : pollOutcome answer with
    | ok token =>
      rw [result] at later
      exact later
    | error e =>
      rw [result] at later
      exact later
  · exact .inr later

def afterPoll (b : Build) (client : OidcClient) (deviceCode : String) (deadline rounds : Nat) (interval : UInt64) :
    Except OidcError TokenResponse → Flow (Option TokenResponse)
  | .ok token => pure (some token)
  | .error .authorizationPending => pollLoop b client deviceCode deadline rounds interval
  | .error .slowDown => arith (addU64 b interval 5) >>= pollLoop b client deviceCode deadline rounds
  | .error e => throw (.error e)

inductive Turn (b : Build) (client : OidcClient) (deviceCode : String) (deadline rounds : Nat) (interval : UInt64)
    (instant : Nat) : List (Event oidcCalls) → Except (Halt OidcError) (Option TokenResponse) → Prop where
  | expired (late : deadline ≤ instant) :
      Turn b client deviceCode deadline rounds interval instant [] (.error (.error .expiredToken))
  -- the token endpoint is no URL to send to
  | refused : Turn b client deviceCode deadline rounds interval instant [] (.error (.error .http))
  | poll {t url form answer rest out} (early : instant < deadline)
      (onward : Plays (afterPoll b client deviceCode deadline rounds interval (pollOutcome answer)) rest out) :
      Turn b client deviceCode deadline rounds interval instant (⟨t,.http (.token url form),answer⟩ :: rest) out

theorem roundPlays {deadline rounds : Nat} {interval : UInt64} {es out}
    (played : Plays (pollLoop b client deviceCode deadline (rounds+1) interval) es out) :
    ∃ slept t instant rest, es = ⟨slept,.sleep interval,()⟩ :: ⟨t,.now,instant⟩ :: rest ∧
      Turn b client deviceCode deadline rounds interval instant rest out := by
  obtain ⟨slept,_,rfl,awake⟩ := sleepPlays played
  obtain ⟨t,instant,rest,rfl,seen⟩ := nowPlays awake
  refine ⟨slept,t,instant,rest,rfl,?_⟩
  split at seen
  · rename_i late
    cases seen
    exact .expired late
  · rename_i early
    rcases attemptPlays seen with ⟨t',url,form,answer,back,rfl,later⟩ | later
    · exact .poll (Nat.lt_of_not_le early) later
    · cases later
      exact .refused

end Round

/- Polls from a loop that begins at `start`, with `interval` seconds between them. -/
structure Paced (start interval deadline : Nat) (ps : List Poll) : Prop where
  gaps : ∀ i p, ps[i]? = some p →
    lastEnd start (ps.take i) + (interval + 5 * (ps.take i).countP slowed) * nanosPerSec ≤ p.begins
  early : ∀ p ∈ ps, p.begins < deadline
  few : ps ≠ [] → start + 5 * ps.length * nanosPerSec < deadline

theorem pacedNil {start interval deadline : Nat} : Paced start interval deadline [] where
  gaps := by simp
  early := by simp
  few := fun never => absurd rfl never

theorem pacedCons {start interval next deadline : Nat} {p : Poll} {ps : List Poll} (least : 5 ≤ interval)
    (slept : start + interval * nanosPerSec ≤ p.begins) (early : p.begins < deadline) (lasts : p.begins ≤ p.ends)
    (grows : next = interval + if slowed p = true then 5 else 0) (rest : Paced p.ends next deadline ps) :
    Paced start interval deadline (p :: ps) where
  gaps := by
    intro i q found
    cases i with
    | zero =>
      cases found
      exact slept
    | succ i =>
      have gap := rest.gaps i q found
      have last : lastEnd start (p :: ps.take i) = lastEnd p.ends (ps.take i) := by
        unfold lastEnd
        rw [List.getLast?_cons]
        cases (ps.take i).getLast? <;> rfl
      have slower : interval + 5 * (p :: ps.take i).countP slowed = next + 5 * (ps.take i).countP slowed := by
        rw [List.countP_cons,grows]
        split <;> omega
      rw [List.take_succ_cons,last,slower]
      exact gap
  early := List.forall_mem_cons.mpr ⟨early,rest.early⟩
  few := by
    intro _
    have five : 5 * nanosPerSec ≤ interval * nanosPerSec := Nat.mul_le_mul_right _ least
    rw [List.length_cons,Nat.mul_add,Nat.add_mul]
    rcases ps with _ | ⟨q,ps⟩
    · simp only [List.length_nil]
      omega
    · have := rest.few (by simp)
      omega

structure Ended (ps : List Poll) (out : Except (Halt OidcError) (Option TokenResponse)) : Prop where
  token : ∀ token, out = .ok (some token) ↔
    ps.getLast?.map Poll.outcome = some (.ok token) ∧ ∀ p ∈ ps.dropLast, waits p = true
  sound : out ≠ .error .panic

theorem endedNil {e : OidcError} : Ended [] (.error (.error e)) where
  token := by simp
  sound := by simp

theorem endedRunning : Ended [] (.ok none) where
  token := by simp
  sound := by simp

theorem endedToken {p : Poll} {token : TokenResponse} (last : p.outcome = .ok token) : Ended [p] (.ok (some token)) where
  token := by
    intro other
    simp [last]
  sound := by simp

theorem endedError {p : Poll} {e : OidcError} (last : p.outcome = .error e) : Ended [p] (.error (.error e)) where
  token := by simp [last]
  sound := by simp

theorem endedCons {p : Poll} {ps : List Poll} {out} (waiting : waits p = true) (later : Ended ps out) :
    Ended (p :: ps) out where
  token := by
    intro token
    rw [later.token token]
    cases ps with
    | nil =>
      have refused : p.outcome ≠ .ok token := by
        intro same
        simp [waits,same] at waiting
      simp [refused]
    | cons q ps => simp [List.getLast?_cons,List.dropLast_cons_cons,waiting]
  sound := later.sound

section Loop
variable {b : Build} {client : OidcClient} {deviceCode : String} {deadline expiresIn : Nat}

theorem slowedInterval {interval : UInt64} (fits : interval.toNat < 2^63) :
    addU64 b interval 5 = some (interval + 5) ∧ (interval + 5).toNat = interval.toNat + 5 := by
  have five : (5 : UInt64).toNat = 5 := rfl
  have room : interval.toNat + (5 : UInt64).toNat < 2^64 := by omega
  refine ⟨if_neg fun full => Nat.not_le_of_lt room full.2,?_⟩
  rw [UInt64.toNat_add,Nat.mod_eq_of_lt room,five]

theorem loopPlays (fits : expiresIn < 2^63) {rounds : Nat} {interval : UInt64} {start : Nat} {es out}
    (least : 5 ≤ interval.toNat) (near : deadline ≤ start + expiresIn * nanosPerSec) (timed : Timed start es)
    (played : Plays (pollLoop b client deviceCode deadline rounds interval) es out) :
    Paced start interval.toNat deadline (polls start es) ∧ Ended (polls start es) out ∧
      (rounds ≠ 0 → deadline ≤ start + 5 * rounds * nanosPerSec → out ≠ .ok none) := by
  induction rounds generalizing interval start es with
  | zero =>
    cases played
    exact ⟨pacedNil,endedRunning,fun never => absurd rfl never⟩
  | succ rounds ih =>
    obtain ⟨slept,t,instant,rest,rfl,turn⟩ := roundPlays played
    obtain ⟨asleep,⟨rfl,rfl⟩,timed⟩ := timed
    have five : 5 * nanosPerSec ≤ interval.toNat * nanosPerSec := Nat.mul_le_mul_right _ least
    simp only [Elapsed] at asleep
    cases turn with
    | expired late => exact ⟨pacedNil,endedNil,by simp⟩
    | refused => exact ⟨pacedNil,endedNil,by simp⟩
    | @poll ended url form answer rest _ early onward =>
      obtain ⟨lasts,timed⟩ := timed
      have small : interval.toNat < 2^63 := by
        refine Nat.lt_trans (Nat.lt_of_mul_lt_mul_right (a := nanosPerSec) ?_) fits
        omega
      have near' : deadline ≤ ended + expiresIn * nanosPerSec := by
        simp only [Elapsed] at lasts
        omega
      have bound : deadline ≤ start + 5 * (rounds + 1) * nanosPerSec →
          rounds ≠ 0 ∧ deadline ≤ ended + 5 * rounds * nanosPerSec := by
        simp only [Elapsed] at lasts
        intro close
        rw [Nat.mul_add,Nat.add_mul] at close
        refine ⟨?_,by omega⟩
        rintro rfl
        omega
      show Paced start interval.toNat deadline (⟨t,ended,pollOutcome answer⟩ :: polls ended rest) ∧
        Ended (⟨t,ended,pollOutcome answer⟩ :: polls ended rest) out ∧ _
      cases result : pollOutcome answer with
      | ok token =>
        rw [result] at onward
        cases onward
        exact ⟨pacedCons least asleep early lasts rfl pacedNil,endedToken rfl,by simp⟩
      | error e =>
        rw [result] at onward
        cases e with
        | authorizationPending =>
          obtain ⟨paced,later,runs⟩ := ih least near' timed onward
          exact ⟨pacedCons least asleep early lasts rfl paced,endedCons rfl later,
            fun _ close => runs (bound close).1 (bound close).2⟩
        | slowDown =>
          obtain ⟨sum,wider⟩ := slowedInterval (b := b) small
          simp only [afterPoll,sum] at onward
          obtain ⟨paced,later,runs⟩ := ih (by omega) near' timed onward
          exact ⟨pacedCons least asleep early lasts wider paced,endedCons rfl later,
            fun _ close => runs (bound close).1 (bound close).2⟩
        | _ =>
          cases onward
          exact ⟨pacedCons least asleep early lasts rfl pacedNil,endedError rfl,by simp⟩

end Loop

/- The answer that grants a device code, and the instant from which it counts. -/
def granted : List (Event oidcCalls) → Option (DeviceAuthResponse × Nat)
  | ⟨_,.http (.deviceCode _ _),.ok device⟩ :: ⟨_,.display _ _,_⟩ :: ⟨_,.now,start⟩ :: _ => some (device,start)
  | _ => none

structure Protocol (device : DeviceAuthResponse) (start : Nat) (ps : List Poll)
    (out : Except (Halt OidcError) (Option TokenResponse)) : Prop where
  gaps : ∀ i p, ps[i]? = some p → lastEnd start (ps.take i) +
    (max device.interval.toNat 5 + 5 * (ps.take i).countP slowed) * nanosPerSec ≤ p.begins
  early : ∀ p ∈ ps, p.begins < start + device.expiresIn.toNat * nanosPerSec
  -- ⌈expires_in / 5⌉ - 1, and none where that is 0
  few : ps.length ≤ (device.expiresIn.toNat + 4) / 5 - 1
  ended : Ended ps out

section Flow
variable {b : Build} {client : OidcClient} {scope : String} {rounds before : Nat} {es : List (Event oidcCalls)}
  {out : Except (Halt OidcError) (Option TokenResponse)}

theorem pacedProtocol {device : DeviceAuthResponse} {start : Nat} {ps : List Poll}
    (paced : Paced start (max device.interval.toNat 5) (start + device.expiresIn.toNat * nanosPerSec) ps)
    (ended : Ended ps out) : Protocol device start ps out where
  gaps := paced.gaps
  early := paced.early
  few := by
    rcases ps with _ | ⟨p,ps⟩
    · exact Nat.zero_le _
    · have room := paced.few (by simp)
      have : 5 * (p :: ps).length < device.expiresIn.toNat :=
        Nat.lt_of_mul_lt_mul_right (a := nanosPerSec) (Nat.lt_of_add_lt_add_left room)
      omega
  ended := ended

theorem clampedInterval (interval : UInt64) :
    (max interval MIN_POLL_INTERVAL_SECS).toNat = max interval.toNat 5 := by
  have five : MIN_POLL_INTERVAL_SECS.toNat = 5 := rfl
  show (if interval ≤ MIN_POLL_INTERVAL_SECS then MIN_POLL_INTERVAL_SECS else interval).toNat = _
  split
  · rename_i low
    rw [five,Nat.max_eq_right (five ▸ UInt64.le_iff_toNat_le.mp low)]
  · rename_i high
    exact (Nat.max_eq_left (Nat.le_of_not_le fun low => high (UInt64.le_iff_toNat_le.mpr low))).symm

def counted (b : Build) (client : OidcClient) (rounds : Nat) (device : DeviceAuthResponse) (start : Nat) :
    Flow (Option TokenResponse) := do
  let deadline ← arith (deadlineAfter start device.expiresIn)
  pollLoop b client device.deviceCode deadline rounds (max device.interval MIN_POLL_INTERVAL_SECS)

inductive Granted (b : Build) (client : OidcClient) (rounds : Nat) (device : DeviceAuthResponse) (start : Nat) :
    List (Event oidcCalls) → Except (Halt OidcError) (Option TokenResponse) → Prop where
  | mk {t t' t'' url form rest out} (looped : Plays (counted b client rounds device start) rest out) :
      Granted b client rounds device start (⟨t,.http (.deviceCode url form),.ok device⟩ ::
        ⟨t',.display device.userCode device.verificationUri,()⟩ :: ⟨t'',.now,start⟩ :: rest) out

theorem grantedIs {device start} (run : Granted b client rounds device start es out) :
    granted es = some (device,start) := by
  cases run
  rfl

theorem flowPlays (played : Plays (authenticateDeviceFlow b client scope rounds) es out) :
    (granted es = none ∧ (∀ t, polls t es = []) ∧ ∃ e, out = .error (.error e)) ∨
      ∃ device start, Granted b client rounds device start es out := by
  rcases playsAttempt played with ⟨front,device,back,rfl,sent,shown⟩ | ⟨e,sent,rfl⟩
  · rcases sendPlays sent with ⟨t,answer,rfl,same⟩ | ⟨rfl,never⟩
    · cases answer with
      | error e => cases same
      | ok device' =>
        cases same
        obtain ⟨t',rest,rfl,started⟩ := displayPlays shown
        obtain ⟨t'',start,rest,rfl,looped⟩ := nowPlays started
        exact .inr ⟨device,start,⟨looped⟩⟩
    · cases never
  · rcases sendPlays sent with ⟨t,answer,rfl,same⟩ | ⟨rfl,same⟩
    · cases answer with
      | ok device => cases same
      | error e' =>
        cases same
        exact .inl ⟨rfl,fun _ => rfl,_,rfl⟩
    · cases same
      exact .inl ⟨rfl,fun _ => rfl,_,rfl⟩

theorem grantedProtocol {device : DeviceAuthResponse} {start : Nat} (timed : Timed before es)
    (run : Granted b client rounds device start es out)
    (fits : start / nanosPerSec + device.expiresIn.toNat < 2^63) :
    Protocol device start (polls before es) out ∧ (device.expiresIn.toNat / 5 < rounds → out ≠ .ok none) := by
  obtain @⟨_,_,began,_,_,rest,_,looped⟩ := run
  obtain ⟨-,-,⟨rfl,rfl⟩,timed⟩ := timed
  have small : device.expiresIn.toNat < 2^63 := Nat.lt_of_le_of_lt (Nat.le_add_left _ _) fits
  have known : deadlineAfter began device.expiresIn = some (began + device.expiresIn.toNat * nanosPerSec) :=
    if_neg (Nat.not_le_of_lt fits)
  rw [counted,known] at looped
  obtain ⟨paced,ended,runs⟩ := loopPlays small (by rw [clampedInterval]; exact Nat.le_max_right _ _)
    (Nat.le_refl _) timed looped
  rw [clampedInterval] at paced
  refine ⟨pacedProtocol paced ended,fun enough => runs (Nat.ne_of_gt (Nat.zero_lt_of_lt enough)) ?_⟩
  exact Nat.add_le_add_left (Nat.mul_le_mul_right _ (by omega)) _

theorem deviceFlowProtocol (timed : Timed before es) (played : Plays (authenticateDeviceFlow b client scope rounds) es out) :
    match granted es with
    | none => polls before es = [] ∧ ∃ e, out = .error (.error e)
    | some (device,start) => start / nanosPerSec + device.expiresIn.toNat < 2^63 →
        Protocol device start (polls before es) out ∧ (device.expiresIn.toNat / 5 < rounds → out ≠ .ok none) := by
  rcases flowPlays played with ⟨refused,silent,failed⟩ | ⟨device,start,run⟩
  · rw [refused]
    exact ⟨silent before,failed⟩
  · rw [grantedIs run]
    exact grantedProtocol timed run

/- No sum of the flow leaves its type: the deadline's is a panic, and the last value of
`interval_secs` is below 2^64. -/
structure InRange (before : Nat) (es : List (Event oidcCalls)) (out : Except (Halt OidcError) (Option TokenResponse)) :
    Prop where
  sound : out ≠ .error .panic
  interval : ∀ device start, granted es = some (device,start) →
    max device.interval.toNat 5 + 5 * (polls before es).countP slowed < 2^64

/- The interval was slept before it grew, so the deadline stops it far below its bound. -/
theorem intervalBounded {device : DeviceAuthResponse} {start : Nat} {ps : List Poll} (kept : Protocol device start ps out)
    (fits : device.expiresIn.toNat < 2^63) : max device.interval.toNat 5 + 5 * ps.countP slowed < 2^64 := by
  cases ps with
  | nil =>
    have := device.interval.toNat_lt
    simp only [List.countP_nil]
    omega
  | cons p ps =>
    have slept : start + max device.interval.toNat 5 * nanosPerSec ≤ p.begins := kept.gaps 0 p rfl
    have early := kept.early p List.mem_cons_self
    have first : max device.interval.toNat 5 < device.expiresIn.toNat :=
      Nat.lt_of_mul_lt_mul_right (a := nanosPerSec) (by omega)
    have slower : (p :: ps).countP slowed ≤ (p :: ps).length := List.countP_le_length
    have few := kept.few
    omega

theorem countedPanics {device : DeviceAuthResponse} {start : Nat} (far : 2^63 ≤ start / nanosPerSec + device.expiresIn.toNat) :
    Plays (counted b client rounds device start) [] (.error .panic) := by
  have none : deadlineAfter start device.expiresIn = none := if_pos far
  rw [counted,none]
  exact .ret _

theorem farPanics {device : DeviceAuthResponse} {start : Nat} (run : Granted b client rounds device start es out)
    (far : 2^63 ≤ start / nanosPerSec + device.expiresIn.toNat) : out = .error .panic := by
  obtain ⟨looped⟩ := run
  have none : deadlineAfter start device.expiresIn = none := if_pos far
  rw [counted,none] at looped
  cases looped
  rfl

theorem deviceFlowInRange (timed : Timed before es) (played : Plays (authenticateDeviceFlow b client scope rounds) es out) :
    InRange before es out ↔ ∀ device start, granted es = some (device,start) →
      start / nanosPerSec + device.expiresIn.toNat < 2^63 := by
  rcases flowPlays played with ⟨refused,-,e,rfl⟩ | ⟨device,start,run⟩
  · constructor
    · intro _ device start grant
      rw [refused] at grant
      cases grant
    · intro _
      refine ⟨by simp,fun device start grant => ?_⟩
      rw [refused] at grant
      cases grant
  · constructor
    · intro inRange device' start' grant
      cases (grantedIs run).symm.trans grant
      exact Nat.lt_of_not_le fun far => inRange.sound (farPanics run far)
    · intro fits
      have near := fits device start (grantedIs run)
      obtain ⟨kept,-⟩ := grantedProtocol timed run near
      refine ⟨kept.ended.sound,fun device' start' grant => ?_⟩
      cases (grantedIs run).symm.trans grant
      exact intervalBounded kept (Nat.lt_of_le_of_lt (Nat.le_add_left _ _) near)

end Flow

section Example

def sampleClient : OidcClient where
  http := ⟨fun _ => true⟩
  endpoints := ⟨"https://idp/device","https://idp/token","https://idp","https://idp/jwks"⟩
  clientId := "nss"
  clientSecret := none

def sampleDevice : DeviceAuthResponse := ⟨"d","ABCD","https://idp/verify",20,5⟩

def sampleToken : TokenResponse := ⟨"access",none,"Bearer"⟩

def samplePoll (answer : TokenAnswer) (t : Nat) : Event oidcCalls :=
  ⟨t,.http (.token "https://idp/token" [("client_id","nss"),
    ("grant_type","urn:ietf:params:oauth:grant-type:device_code"),("device_code","d")]),.ok answer⟩

def sampleRun : List (Event oidcCalls) :=
  [⟨0,.http (.deviceCode "https://idp/device" [("client_id","nss"),("scope","openid")]),.ok sampleDevice⟩,
    ⟨0,.display "ABCD" "https://idp/verify",()⟩,⟨0,.now,(0 : Nat)⟩,
    ⟨5000000000,.sleep 5,()⟩,⟨5000000000,.now,(5000000000 : Nat)⟩,
    samplePoll ⟨400,.error .http,.ok "",some "authorization_pending"⟩ 5000000000,
    ⟨10000000000,.sleep 5,()⟩,⟨10000000000,.now,(10000000000 : Nat)⟩,
    samplePoll ⟨200,.ok sampleToken,.ok "",none⟩ 10000000000]

theorem sampleTimed : Timed 0 sampleRun := by
  simp [sampleRun,samplePoll,Timed,Elapsed,nanosPerSec]

theorem samplePolls {answer : TokenAnswer} {t : Nat} : Plays (attempt (pollForToken sampleClient "d"))
    [samplePoll answer t] (.ok (pollResult answer)) := by
  have sent : Plays (pollForToken sampleClient "d") ([samplePoll answer t] ++ [])
      ((pollResult answer).mapError Halt.error) := by
    refine bindPlays (.call (.ret (answered (.ok answer)))) ?_
    simp only [answered,ExceptT.bindCont]
    cases pollResult answer with
    | ok token => exact .ret _
    | error e => exact .ret _
  show Plays _ (([samplePoll answer t] ++ []) ++ []) _
  refine bindPlays sent ?_
  cases pollResult answer with
  | ok token => exact .ret _
  | error e => exact .ret _

theorem sampleRound {b : Build} {deadline rounds t : Nat} {answer : TokenAnswer} {rest out} (early : t < deadline)
    (onward : Plays (afterPoll b sampleClient "d" deadline rounds 5 (pollResult answer)) rest out) :
    Plays (pollLoop b sampleClient "d" deadline (rounds+1) 5)
      (⟨t,.sleep 5,()⟩ :: ⟨t,.now,t⟩ :: samplePoll answer t :: rest) out := by
  refine .call (.call ?_)
  show Plays (ite (deadline ≤ t) _ _) _ _
  rw [if_neg (Nat.not_le_of_lt early)]
  exact bindPlays samplePolls onward

theorem samplePlays (b : Build) : Plays (authenticateDeviceFlow b sampleClient "openid" 5) sampleRun
    (.ok (some sampleToken)) := by
  have pending : pollResult ⟨400,.error .http,.ok "",some "authorization_pending"⟩ = .error .authorizationPending := by
    decide
  have done : pollResult ⟨200,.ok sampleToken,.ok "",none⟩ = .ok sampleToken := by decide
  refine .call (.call (.call ?_))
  show Plays (pollLoop b sampleClient "d" 20000000000 5 5) _ _
  refine sampleRound (by decide) ?_
  rw [pending]
  refine sampleRound (by decide) ?_
  rw [done]
  exact .ret _

theorem deviceFlowExample : Protocol sampleDevice 0 (polls 0 sampleRun) (.ok (some sampleToken)) ∧
    (4 < 5 → Except.ok (some sampleToken) ≠ (.ok none : Except (Halt OidcError) (Option TokenResponse))) :=
  deviceFlowProtocol sampleTimed (samplePlays release) (by decide)

theorem deviceFlowInRangeExample : InRange 0 sampleRun (.ok (some sampleToken)) ↔
    ∀ device start, granted sampleRun = some (device,start) → start / nanosPerSec + device.expiresIn.toNat < 2^63 :=
  deviceFlowInRange sampleTimed (samplePlays release)

def grantedRun (device : DeviceAuthResponse) : List (Event oidcCalls) :=
  [⟨0,.http (.deviceCode "https://idp/device" [("client_id","nss"),("scope","openid")]),.ok device⟩,
    ⟨0,.display device.userCode device.verificationUri,()⟩,⟨0,.now,(0 : Nat)⟩]

theorem grantedRunPanics {device : DeviceAuthResponse} (far : 2^63 ≤ device.expiresIn.toNat) (b : Build) :
    Plays (authenticateDeviceFlow b sampleClient "openid" 5) (grantedRun device) (.error .panic) :=
  .call (.call (.call (countedPanics (Nat.le_trans far (Nat.le_add_left _ _)))))

def endlessDevice : DeviceAuthResponse := ⟨"d","ABCD","https://idp/verify",18446744073709551615,5⟩

theorem endlessPanics : Timed 0 (grantedRun endlessDevice) ∧
    granted (grantedRun endlessDevice) = some (endlessDevice,0) ∧
    (∀ b, Plays (authenticateDeviceFlow b sampleClient "openid" 5) (grantedRun endlessDevice) (.error .panic)) ∧
    ¬InRange 0 (grantedRun endlessDevice) (.error .panic) :=
  ⟨by simp [grantedRun,Timed,Elapsed],rfl,grantedRunPanics (by decide +kernel),fun inRange => inRange.sound rfl⟩

end Example

end SssdOidc.DeviceFlow
