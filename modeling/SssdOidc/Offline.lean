import SssdOidc.ReverseLookup

/-! What an offline lookup by name finds after the last online one. The row of the last
answer is the newest of the table, and a search by login comes to it last. -/
namespace SssdOidc.Offline
open Model Database Mapping Program Cache Service SssdOidc.System Protocol Conformance History Solo Stability
open ReverseLookup (Proper purgeSpares liveWithin two)
open Runs (Reach replay)
open UniqueTable (newest)

variable {b : Build} {config : Config} {may : Sys → Label → Prop} {db0 : Db} {now0 : Int}

/- Longer names are answered without a call. -/
def TooLong : Op → Prop
  | .lookupUserByName n => MAX_NAME_LEN < n.utf8ByteSize
  | .checkUserActive n => MAX_NAME_LEN < n.utf8ByteSize
  | .lookupGroupsForUser n => MAX_NAME_LEN < n.utf8ByteSize
  | .lookupGroupByName n => MAX_NAME_LEN < n.utf8ByteSize
  | _ => False

theorem followsAnything {α : Type} {allowed : Trace calls → Call → Prop} {done : Trace calls → α → Prop}
    (may : ∀ tr c, allowed tr c) (fine : ∀ tr a, done tr a) (p : Prog calls α) (tr : Trace calls) :
    Follows allowed done p tr := by
  induction p generalizing tr with
  | ret a => exact fine tr a
  | call c k ih => exact ⟨may tr c,fun t r => ih r _⟩

theorem tooLongSilent {op : Op} (long : TooLong op) : ∃ out, operation b config op = .ret out := by
  cases op <;> try exact absurd long id
  all_goals
    simp only [operation,lookupUserByName,lookupGroupByName,checkUserActive,lookupGroupsForUser,
      if_pos (show MAX_NAME_LEN < String.utf8ByteSize _ from long)]
    exact ⟨_,rfl⟩

theorem shortFollows {s} (run : Reach (step b config) may (fresh db0 now0) s) :
    ∀ p op tr prog, s.procs p = .running op tr prog →
      Follows (fun _ _ => ¬TooLong op) (fun tr _ => TooLong op → tr = []) prog tr := by
  refine followsRun (fun op => ?_) run
  by_cases long : TooLong op
  · have silent : ∃ out, operation b config op = .ret out := tooLongSilent long
    obtain ⟨out,same⟩ := silent
    rw [same]
    exact fun _ => rfl
  · exact followsAnything (fun _ _ => long) (fun _ _ never => absurd never long) _ _

theorem askingShort {s} (run : Reach (step b config) may (fresh db0 now0) s) {p op tr c k}
    (at' : s.procs p = .running op tr (.call c k)) : ¬TooLong op := (shortFollows run _ _ _ _ at').1

theorem askedShort {s} (run : Reach (step b config) may (fresh db0 now0) s) {p op tr out}
    (at' : s.procs p = .running op tr (.ret out)) (asked : tr ≠ []) : ¬TooLong op :=
  fun long => asked (shortFollows run _ _ _ _ at' long)

structure Timed (s : Sys) (tr : Trace calls) : Prop where
  ordered : tr.Pairwise (fun newer older => older.stamp ≤ newer.stamp)
  past : ∀ e ∈ tr, e.stamp ≤ s.now

theorem timedCons {s s' : Sys} {tr} {e : Event calls} (timed : Timed s tr) (later : s.now ≤ e.stamp) (now : s'.now = e.stamp) :
    Timed s' (e :: tr) := by
  have before (x) (inside : x ∈ tr) : x.stamp ≤ e.stamp := Int.le_trans (timed.past x inside) later
  refine ⟨List.pairwise_cons.mpr ⟨before,timed.ordered⟩,?_⟩
  intro x inside
  rw [now]
  rcases List.mem_cons.mp inside with rfl | old
  · exact Int.le_refl _
  · exact before x old

theorem timedLater {s s' : Sys} {tr} (timed : Timed s tr) (later : s.now ≤ s'.now) : Timed s' tr :=
  ⟨timed.ordered,fun e inside => Int.le_trans (timed.past e inside) later⟩

theorem timed {s} (run : Reach (step b config) may (fresh db0 now0) s) :
    ∀ p op tr prog, s.procs p = .running op tr prog → Timed s tr := by
  refine runningInvariant (fun s _ _ tr _ => Timed s tr) ?_ run
  intro s l s' _ inv _ move q op tr prog at'
  cases arrived b config move at' with
  | stayed other there => exact timedLater (inv q op tr prog there) (stepNow move)
  | started mine db => exact ⟨.nil,by simp⟩
  | heard t r reply chosen fits before db log =>
    obtain ⟨later,now⟩ := eventNow move log
    exact timedCons (inv _ _ _ _ before) later now
  | ran t fault chosen before db log =>
    obtain ⟨later,now⟩ := eventNow move log
    exact timedCons (inv _ _ _ _ before) later now

theorem storedNewest {s} (single : ∀ s l, may s l → Single l) (run : Reach (step b config) may (fresh db0 now0) s)
    {op t u rest prog} (at' : s.procs 0 = .running op (⟨t,.sql (.insertOrReplaceUser u),.ok ()⟩ :: rest) prog) :
    newest s.db.users = some (userRow u t) := by
  refine moveInvariant (fun s => ∀ op t u rest prog,
    s.procs 0 = .running op (⟨t,.sql (.insertOrReplaceUser u),.ok ()⟩ :: rest) prog →
      newest s.db.users = some (userRow u t)) (by intro op t u rest prog at'; cases at') ?_ run op t u rest prog at'
  intro s l s' _ _ chosen move op t u rest prog at'
  generalize same : (⟨t,.sql (.insertOrReplaceUser u),.ok ()⟩ : Event calls) :: rest = tr at at'
  cases arrived b config move at' with
  | stayed other there => exact absurd (single s l chosen).symm other
  | started mine db => cases same
  | heard t r reply chosen fits before db log => cases same
  | @ran tr st cont t' fault label before db log =>
    rcases executeCases t' fault s.db st with ⟨e,failed⟩ | ⟨rfl,r,db',ok,done⟩
    · rw [failed] at same
      cases same
    · rw [done] at same db
      cases same
      cases ok
      rw [db]
      exact UniqueTable.newestInsertOrReplace s.db.users (userRow u t)

def NoUser : Label → Prop
  | .scim _ _ (.user (some _)) => False
  | .scim _ _ (.users us) => us = []
  | _ => True
instance (l : Label) : Decidable (NoUser l) := by unfold NoUser; split <;> infer_instance

def Unfed (s : Sys) : Prop := ∀ op tr prog, s.procs 0 = .running op tr prog →
  receivedUsers tr = [] ∨ ∃ out, prog = .ret out

theorem noUserReceived {p t reply query r tr} (none : NoUser (.scim p t reply)) (fits : Reply.fit reply query = some r) :
    receivedUsers ((⟨t,.scim query,r⟩ : Event calls) :: tr) = receivedUsers tr := by
  cases query <;> cases reply <;> cases fits
  case userByName.user.refl name u =>
    cases u with
    | none => simp [receivedUsers]
    | some su => exact absurd none id
  case listUsers.users.refl us =>
    cases (none : us = [])
    simp [receivedUsers]
  all_goals simp [receivedUsers]

theorem unfedStep {s l s'} (single : Single l) (none : NoUser l) (inv : Unfed s) (move : Move b config s l s') :
    Unfed s' := by
  intro op tr prog at'
  cases arrived b config move at' with
  | stayed other there => exact absurd single.symm other
  | started mine db => exact .inl rfl
  | heard t r reply chosen fits before db log =>
    rcases inv _ _ _ before with old | ⟨out,never⟩
    · rw [chosen] at none
      exact .inl ((noUserReceived none fits).trans old)
    · cases never
  | ran t fault chosen before db log =>
    rcases inv _ _ _ before with old | ⟨out,never⟩
    · exact .inl (receivedUsersSql.trans old)
    · cases never

theorem unfedStores {s l t u} (conf : Conforms b config s) (single : Single l) (inv : Unfed s) :
    executes s l ≠ some (t,.insertOrReplaceUser u) := by
  intro runs
  obtain ⟨op,tr,k,at',-,su,received,-⟩ := executesAllowed conf runs
  rw [single] at at'
  rcases inv _ _ _ at' with nobody | ⟨out,never⟩
  · simp [nobody] at received
  · cases never

theorem newestKept {s l s'} {row : UserRow} (conf : Conforms b config s) (proper : Proper config s l) (inv : Unfed s)
    (move : Move b config s l s') (last : newest s.db.users = some row)
    (young : s'.now < row.cachedAt + config.cache.ttlSeconds.seconds) : newest s'.db.users = some row := by
  cases effect conf move with
  | quiet same => exact same ▸ last
  | ran op tr t st k r chosen at' allowed ok =>
    have runs := ranExecutes chosen at'
    cases quiet : st.writesUsers with
    | false => rwa [execUsers quiet ok]
    | true =>
      cases st <;> cases quiet
      case insertOrReplaceUser.refl u => exact absurd runs (unfedStores conf proper.1 inv)
      case purgeUsers.refl ttl =>
        rw [executesDb move runs]
        refine UniqueTable.newestDelete last ?_
        simp [purgeSpares proper move runs rfl young]

theorem newestRun {s1 s2} {row : UserRow} (first : Reach (step b config) (Proper config) (fresh db0 now0) s1)
    (unfed : Unfed s1) (last : newest s1.db.users = some row)
    (onward : Reach (step b config) (fun s l => Proper config s l ∧ NoUser l) s1 s2)
    (young : s2.now < row.cachedAt + config.cache.ttlSeconds.seconds) : newest s2.db.users = some row := by
  refine (moveInvariantUntil _ (fun s => Unfed s ∧ newest s.db.users = some row) ⟨unfed,last⟩ ?_ onward young).2
  intro s l s' sofar inv chosen move young
  have whole := Runs.reachTrans first (Runs.reachMono (fun _ _ => And.left) sofar)
  exact ⟨unfedStep chosen.1.1 chosen.2 inv.1 move,newestKept (conforms whole) chosen.1 inv.1 move inv.2 young⟩

theorem lookupDown {db : Db} {t : Int} {reply : Replies} {name e} (down : reply (.userByName name) = .error e)
    (short : ¬MAX_NAME_LEN < name.utf8ByteSize) :
    alone t reply (lookupUserByName b config name) db =
      (.ok ((db.users.rows.find? (fun r => r.login == name && live t config.cache.ttlSeconds r.cachedAt)).map
        UserRow.user),db) := by
  unfold lookupUserByName
  rw [if_neg short]
  refine (aloneOk (aloneAsk (.userByName name))).trans ?_
  rw [down]
  exact aloneCached (aloneSql rfl)

theorem receivedMember {tr : Trace calls} {t n su} (inside : (⟨t,.scim (.userByName n),.ok (some su)⟩ : Event calls) ∈ tr) :
    su ∈ receivedUsers tr := by
  induction tr with
  | nil => cases inside
  | cons e tr ih =>
    rcases List.mem_cons.mp inside with rfl | old
    · simp [receivedUsers]
    · have later := ih old
      unfold receivedUsers
      split <;> simp_all

theorem offlineAgrees (b : Build) (config : Config) (db0 : Db) (now0 : Int) (name : String) (su : ScimUser) (u : User)
    (t : Int) (tr : Trace calls) (s1 : Sys) (run : Reach (step b config) (Proper config) (fresh db0 now0) s1)
    (at' : s1.procs 0 = .running (.lookupUserByName name) tr (.ret (.ok (.user (some u)))))
    (answered : (⟨t,.scim (.userByName name),.ok (some su)⟩ : Event calls) ∈ tr) (named : su.userName = name)
    (s2 : Sys) (onward : Reach (step b config) (fun s l => Proper config s l ∧ NoUser l) s1 s2)
    (t' : Int) (later : s2.now ≤ t') (young : t' < t + config.cache.ttlSeconds.seconds)
    (reply : Replies) (e : ScimError) (down : reply (.userByName name) = .error e) :
    (alone t' reply (lookupUserByName b config name) s2.db).1 = .ok (some u) ↔
      ∀ r ∈ s2.db.users.rows, r.login = name → live t' config.cache.ttlSeconds r.cachedAt = true →
        r.externalId = u.externalId := by
  have done : Done b config _ tr _ := conforms run _ _ _ _ at'
  have received := receivedMember answered
  obtain ⟨stored,rest,su',top,only,converted⟩ := done.newest name u rfl rfl (List.ne_nil_of_mem received)
  rw [only] at received
  cases List.mem_singleton.mp received
  have login : u.name = name := by rw [converted]; exact named
  have order : t ≤ stored := by
    have ordered := (timed run _ _ _ _ at').ordered
    rw [top] at ordered answered
    rcases List.mem_cons.mp answered with never | old
    · cases never
    · exact (List.pairwise_cons.mp ordered).1 _ old
  have last : newest s1.db.users = some (userRow u stored) := storedNewest (fun _ _ => And.left) run (top ▸ at')
  have unfed : Unfed s1 := by
    intro op tr' prog there
    rw [at'] at there
    cases there
    exact .inr ⟨_,rfl⟩
  have still : newest s2.db.users = some (userRow u stored) := by
    refine newestRun run unfed last onward ?_
    simp only [userRow]
    omega
  have short := askedShort run at' (List.ne_nil_of_mem answered)
  have hits : (u.name == name && live t' config.cache.ttlSeconds stored) = true := by
    have alive : live t' config.cache.ttlSeconds stored = true := liveWithin (by omega)
    simp [login,alive]
  have first := UniqueTable.findNewestRead (f := UserRow.user)
    (p := fun r => r.login == name && live t' config.cache.ttlSeconds r.cachedAt) still hits
    fun x same => congrArg User.externalId same
  have fallback : alone t' reply (lookupUserByName b config name) s2.db = _ := lookupDown down short
  rw [congrArg Prod.fst fallback,Except.ok.injEq]
  refine first.trans (forall₂_congr fun r there => ?_)
  simp only [Bool.and_eq_true,beq_iff_eq,and_imp]
  rfl

def answered : Event calls → Option (Int × String × Except ScimError (Option ScimUser))
  | ⟨t,.scim (.userByName n),a⟩ => some (t,n,a)
  | _ => none

structure Returning where
  op : Op
  out : Outcome
  answers : List (Int × String × Except ScimError (Option ScimUser))
  deriving DecidableEq

def returning : Proc → Option Returning
  | .running op tr (.ret out) => some ⟨op,out,tr.filterMap answered⟩
  | _ => none

theorem returningSound {x op out answers} (same : returning x = some ⟨op,out,answers⟩) :
    ∃ tr, x = .running op tr (.ret out) ∧
      ∀ t n a, (t,n,a) ∈ answers → (⟨t,.scim (.userByName n),a⟩ : Event calls) ∈ tr := by
  unfold returning at same
  split at same <;> cases same
  refine ⟨_,rfl,?_⟩
  intro t n a inside
  obtain ⟨e,there,is_answer⟩ := List.mem_filterMap.mp inside
  unfold answered at is_answer
  split at is_answer <;> cases is_answer
  exact there

theorem offlineAgreesExample : ∃ s1 s2,
    replay (step release fourSlots) (Proper fourSlots) (fresh empty 0)
      (whole 0 (.lookupUserByName "two") 0 (some (.user (some (scimUser "u2" "two")))) 3).dropLast = some s1 ∧
    replay (step release fourSlots) (fun s l => Proper fourSlots s l ∧ NoUser l) s1
      ([.finish 0] ++ whole 0 .new 100 none 3) = some s2 ∧
    ((alone 3599 offline (lookupUserByName release fourSlots "two") s2.db).1 = .ok (some two) ↔
      ∀ r ∈ s2.db.users.rows, r.login = "two" → live 3599 fourSlots.cache.ttlSeconds r.cachedAt = true →
        r.externalId = two.externalId) := by
  have ends : (replay (step release fourSlots) (Proper fourSlots) (fresh empty 0)
      (whole 0 (.lookupUserByName "two") 0 (some (.user (some (scimUser "u2" "two")))) 3).dropLast).bind (fun s1 =>
        (replay (step release fourSlots) (fun s l => Proper fourSlots s l ∧ NoUser l) s1
          ([.finish 0] ++ whole 0 .new 100 none 3)).map (fun s2 => (returning (s1.procs 0),s2.now))) =
      some (some ⟨.lookupUserByName "two",.ok (.user (some two)),[(0,"two",.ok (some (scimUser "u2" "two")))]⟩,100) := by
    decide +kernel
  obtain ⟨s1,reached,rest⟩ := Option.bind_eq_some_iff.mp ends
  obtain ⟨s2,onward,facts⟩ := Option.map_eq_some_iff.mp rest
  obtain ⟨returns,now⟩ := Prod.mk.inj facts
  obtain ⟨tr,at',answered⟩ := returningSound returns
  refine ⟨s1,s2,reached,onward,?_⟩
  exact offlineAgrees release fourSlots empty 0 "two" (scimUser "u2" "two") two 0 tr s1 (Runs.replayReach reached) at'
    (answered 0 "two" _ (by simp)) rfl s2 (Runs.replayReach onward) 3599 (by omega) (by decide) offline .http rfl

def recreated : List Label :=
  whole 0 (.lookupUserByName "two") 0 (some (.user (some (scimUser "u2" "two")))) 3 ++
  (whole 0 (.lookupUserByName "two") 10 (some (.user (some (scimUser "u3" "two")))) 4).dropLast

theorem offlineOutdated : ∃ s tr, replay (step release fourSlots) (Proper fourSlots) (fresh empty 0) recreated = some s ∧
    s.procs 0 = .running (.lookupUserByName "two") tr
      (.ret (.ok (.user (some ⟨"u3","two",1002,1001,"","/home/two","/bin/bash",true⟩)))) ∧
    (⟨10,.scim (.userByName "two"),.ok (some (scimUser "u3" "two"))⟩ : Event calls) ∈ tr ∧
    (alone 20 offline (lookupUserByName release fourSlots "two") s.db).1 = .ok (some two) := by
  have ends : (replay (step release fourSlots) (Proper fourSlots) (fresh empty 0) recreated).map (fun s =>
      (returning (s.procs 0),(alone 20 offline (lookupUserByName release fourSlots "two") s.db).1)) =
      some (some ⟨.lookupUserByName "two",.ok (.user (some ⟨"u3","two",1002,1001,"","/home/two","/bin/bash",true⟩)),
        [(10,"two",.ok (some (scimUser "u3" "two")))]⟩,.ok (some two)) := by decide +kernel
  obtain ⟨s,reached,facts⟩ := Option.map_eq_some_iff.mp ends
  obtain ⟨returns,outdated⟩ := Prod.mk.inj facts
  obtain ⟨tr,at',answered⟩ := returningSound returns
  exact ⟨s,tr,reached,at',answered 10 "two" _ (by simp),outdated⟩

end SssdOidc.Offline
