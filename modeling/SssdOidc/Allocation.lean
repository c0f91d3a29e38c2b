import SssdOidc.Stability

/-! Who is given which uid, by any number of processes. A process that finds a uid free
has picked it, but the table does not show that before the store; and the table forgets
what a purge deletes. Uids are unique for as long as no probe is misled by either. -/
namespace SssdOidc.Allocation
open Model Database Mapping Program Cache Service SssdOidc.System Protocol Conformance History Solo Stability
open Probing (Open Held Fits)
open Runs (Reach replay)

variable {b : Build} {config : Config} {may : Sys → Label → Prop} {db0 : Db} {now0 : Int}

def underWay (p : Nat) : List Entry → Option Op
  | .start q op :: log => if q = p then some op else underWay p log
  | _ :: log => underWay p log
  | [] => none

/- A store gives its uid to its id, and so does one of an enumeration that has failed: the
enumeration goes on with the user. -/
def gives (log : List Entry) : Entry → List (String × UInt32)
  | .call p ⟨_,.sql (.insertOrReplaceUser u),r⟩ =>
      if r.isOk = true ∨ underWay p log = some .setpwent then [(u.externalId,u.uid)] else []
  | _ => []

def givenIn : List Entry → List (String × UInt32)
  | entry :: log => gives log entry ++ givenIn log
  | [] => []

def given (db0 : Db) (s : Sys) : List (String × UInt32) := givenIn s.log ++ db0.entries .uid

theorem givenGrown {e} {log : List Entry} (news : List Entry) (inside : e ∈ givenIn log) : e ∈ givenIn (news ++ log) := by
  induction news with
  | nil => exact inside
  | cons entry news ih => exact List.mem_append_right _ ih

theorem underWayOther {s l s' p} (move : Move b config s l s') (other : p ≠ l.pid) :
    underWay p s'.log = underWay p s.log := by
  cases move with
  | start q op free => exact if_neg (Ne.symm other)
  | scim q t reply op tr query k r at' later fits => rfl
  | sql q t fault op tr st k at' later => rfl
  | finish q op tr out at' => rfl
  | kill q => rfl

theorem runningUnderWay {s} (run : Reach (step b config) may (fresh db0 now0) s) :
    ∀ p op tr prog, s.procs p = .running op tr prog → underWay p s.log = some op := by
  refine runningInvariant (fun s p op _ _ => underWay p s.log = some op) ?_ run
  intro s l s' _ inv _ move p op tr prog at'
  cases arrived b config move at' with
  | stayed other there => exact (underWayOther move other).trans (inv p op tr prog there)
  | started mine db label log => rw [log,underWay,if_pos rfl]
  | heard t r reply label fits there db log => rw [log]; exact inv p op _ _ there
  | ran t fault label there db log => rw [log]; exact inv p op _ _ there

/- What process `q` was told by `uid_owner` since its last write. -/
def Recalls (s : Sys) (q : Nat) (k : String) (x : UInt32) (r : Option Bool) : Prop :=
  ∃ op tr prog t, s.procs q = .running op tr prog ∧
    (⟨t,.sql (.selectOwner .uid x k),.ok r⟩ : Event calls) ∈ recent tr

def Picked (s : Sys) (q : Nat) (k : String) (x : UInt32) : Prop := ∃ r, r ≠ some false ∧ Recalls s q k x r

theorem recallsStep {s l s' q k x r} (move : Move b config s l s') (recalls : Recalls s' q k x r) :
    (Recalls s q k x r ∧ (q = l.pid → ∀ st, issues s l = some st → st.writes = false)) ∨
    (q = l.pid ∧ ∃ t, executes s l = some (t,.selectOwner .uid x k) ∧
      r = (s.db.owners .uid x).map (fun owner => owner == k)) := by
  obtain ⟨op,tr,prog,time,at',inside⟩ := recalls
  cases arrived b config move at' with
  | stayed other there => exact .inl ⟨⟨op,tr,prog,time,there,inside⟩,fun mine => absurd mine other⟩
  | started mine db => cases inside
  | @heard tr query cont t answer reply chosen fits before db log =>
    rw [recentRead rfl] at inside
    rcases List.mem_cons.mp inside with never | old
    · cases never
    · refine .inl ⟨⟨op,tr,_,time,before,old⟩,?_⟩
      intro same st issued
      obtain ⟨op',tr',k',there⟩ := issuesRunning issued
      rw [← same,before] at there
      cases there
  | @ran tr st cont t fault chosen before db log =>
    subst chosen
    by_cases loud : st.writes = true
    · rw [recentWrite (show writes (.sql st) = true from loud)] at inside
      cases inside
    · have quiet : writes (.sql st) = false := by simpa [writes] using loud
      rw [recentRead quiet] at inside
      rcases List.mem_cons.mp inside with now | old
      · rcases executeCases t fault s.db st with ⟨e,failed⟩ | ⟨rfl,answer,db',ok,done⟩
        · rw [failed] at now
          cases now
        · rw [done] at now
          cases now
          simp only [exec,Except.ok.injEq,Prod.mk.injEq] at ok
          exact .inr ⟨rfl,time,by simp [executes,before],ok.1.symm⟩
      · refine .inl ⟨⟨op,tr,_,time,before,old⟩,?_⟩
        intro _ st' issued
        simp only [issues,before,Option.some.injEq] at issued
        exact issued ▸ quiet

theorem givenStep {s l s' k x} (move : Move b config s l s') (inside : (k,x) ∈ given db0 s') :
    (k,x) ∈ given db0 s ∨ ∃ u, issues s l = some (.insertOrReplaceUser u) ∧ u.externalId = k ∧ u.uid = x := by
  cases move with
  | start p op free => exact .inl inside
  | scim p t reply op tr query cont r at' later fits => exact .inl inside
  | finish p op tr out at' => exact .inl inside
  | kill p => exact .inl inside
  | sql p t fault op tr st cont at' later =>
    cases st with
    | insertOrReplaceUser u =>
      simp only [given,after,givenIn,gives,List.append_assoc] at inside
      rcases List.mem_append.mp inside with now | old
      · split at now
        · cases List.mem_singleton.mp now
          exact .inr ⟨u,by simp [issues,at'],rfl,rfl⟩
        · cases now
      · exact .inl old
    | _ => exact .inl inside

theorem givenOld {s l s' e} (move : Move b config s l s') (inside : e ∈ given db0 s) : e ∈ given db0 s' := by
  obtain ⟨news,grown⟩ := logGrows b config move
  rcases List.mem_append.mp inside with logged | first
  · rw [given,grown]
    exact List.mem_append_left _ (givenGrown news logged)
  · exact List.mem_append_right _ first

theorem givenNow {s : Sys} {log : List Entry} {p t u r} (grown : s.log = .call p ⟨t,.sql (.insertOrReplaceUser u),r⟩ :: log)
    (counts : r.isOk = true ∨ underWay p log = some .setpwent) : (u.externalId,u.uid) ∈ given db0 s := by
  rw [given,grown,givenIn,gives,if_pos counts]
  exact List.mem_cons_self

theorem pickedStep {s l s' q k x} (move : Move b config s l s') (picked : Picked s' q k x) :
    (Picked s q k x ∧ (q = l.pid → ∀ st, issues s l = some st → st.writes = false)) ∨
    (q = l.pid ∧ ∃ t, executes s l = some (t,.selectOwner .uid x k) ∧ Open (s.db.owners .uid) k x) := by
  obtain ⟨r,other,recalls⟩ := picked
  rcases recallsStep move recalls with ⟨old,quiet⟩ | ⟨mine,t,runs,answer⟩
  · exact .inl ⟨⟨r,other,old⟩,quiet⟩
  · exact .inr ⟨mine,t,runs,Probing.openAnswer.mp (answer ▸ other)⟩

theorem storePicked {s l u} (inv : Conforms b config s) (issued : issues s l = some (.insertOrReplaceUser u)) :
    Picked s l.pid u.externalId u.uid := by
  obtain ⟨op,tr,k,at'⟩ := issuesRunning issued
  have reserved := storesReserved (c := .uid) (inv _ _ _ _ at').1 rfl
  obtain ⟨t,r,other,inside⟩ := reserved.claimed
  exact ⟨r,other,op,tr,_,t,at',inside⟩

theorem storeGiven {s l s' t u} (move : Move b config s l s') (runs : executes s l = some (t,.insertOrReplaceUser u)) :
    (u.externalId,u.uid) ∈ given db0 s' := givenNow (executesLog move runs) (.inl rfl)

theorem storesGiven {s} (run : Reach (step b config) may (fresh db0 now0) s) : ∀ p op tr prog,
    s.procs p = .running op tr prog → ∀ t u r, (⟨t,.sql (.insertOrReplaceUser u),r⟩ : Event calls) ∈ tr →
      r = .ok () ∨ op = .setpwent → (u.externalId,u.uid) ∈ given db0 s := by
  refine runningInvariant (fun s _ op tr _ => ∀ t u r, (⟨t,.sql (.insertOrReplaceUser u),r⟩ : Event calls) ∈ tr →
    r = .ok () ∨ op = .setpwent → (u.externalId,u.uid) ∈ given db0 s) ?_ run
  intro s l s' before inv _ move p op tr prog at' t u r inside counts
  cases arrived b config move at' with
  | stayed other there => exact givenOld move (inv p op tr prog there t u r inside counts)
  | started mine db label log => cases inside
  | heard t' r' reply label fits there db log =>
    rcases List.mem_cons.mp inside with now | old
    · cases now
    · exact givenOld move (inv p op _ _ there t u r old counts)
  | ran t' fault label there db log =>
    rcases List.mem_cons.mp inside with now | old
    · cases now
      refine givenNow log (counts.imp (fun ok => by rw [ok]; rfl) ?_)
      rintro rfl
      exact runningUnderWay before p _ _ _ there
    · exact givenOld move (inv p op _ _ there t u r old counts)

def RowsGiven (db0 : Db) (s : Sys) : Prop := ∀ k x, s.db.owners .uid x = some k → (k,x) ∈ given db0 s

theorem rowsGiven {s} (run : Reach (step b config) may (fresh db0 now0) s) : RowsGiven db0 s := by
  refine moveInvariant (RowsGiven db0) (by intro k x own; exact ownersEntries.mp own) ?_ run
  intro s l s' before inv _ move k x own
  rcases ownersStep (conforms before) move .uid with ⟨t,st,key,slot,runs,stores,written⟩ | ⟨fewer,-⟩
  · obtain ⟨u,rfl,rfl,rfl⟩ := storesUser stores
    rw [written] at own
    rcases Probing.assignOwned own with ⟨rfl,rfl⟩ | ⟨-,-,old⟩
    · exact storeGiven move runs
    · exact givenOld move (inv k x old)
  · exact givenOld move (inv k x (fewer x k own))

def shows : Entry → List User
  | .call _ ⟨_,.sql (.selectUserByUid _ _),.ok r⟩ => r.toList
  | .call _ ⟨_,.sql (.selectUserByLogin _ _),.ok r⟩ => r.toList
  | .finish _ _ out => usersOf out
  | _ => []

def ShownGiven (db0 : Db) (s : Sys) : Prop :=
  ∀ e ∈ s.log, ∀ u ∈ shows e, (u.externalId,u.uid) ∈ given db0 s

theorem readGiven {s : Sys} {u} {p : UserRow → Bool} (rows : RowsGiven db0 s)
    (found : (s.db.users.rows.find? p).map UserRow.user = some u) : (u.externalId,u.uid) ∈ given db0 s := by
  obtain ⟨r,at',rfl⟩ := Option.map_eq_some_iff.mp found
  exact rows _ _ (UniqueTable.ownerRow (List.mem_of_find?_eq_some at'))

theorem shownGiven {s} (run : Reach (step b config) may (fresh db0 now0) s) : ShownGiven db0 s := by
  refine moveInvariant (ShownGiven db0) (by intro e inside; cases inside) ?_ run
  intro s l s' before inv _ move e inside u shown
  refine givenOld move ?_
  have inLog := logged before
  cases entered b config move inside with
  | old there => exact inv e there u shown
  | started p op => cases shown
  | heard p t q r => cases shown
  | ran t fault st chosen at' =>
    rcases executeCases t fault s.db st with ⟨e,failed⟩ | ⟨rfl,r,db',ok,done⟩
    · rw [failed] at shown
      cases st <;> cases shown
    · rw [done] at shown
      cases st with
      | selectUserByUid uid ttl =>
        cases ok
        exact readGiven (rowsGiven before) (Option.mem_toList.mp shown)
      | selectUserByLogin name ttl =>
        cases ok
        exact readGiven (rowsGiven before) (Option.mem_toList.mp shown)
      | _ => cases shown
  | finished op out at' =>
    have done : Done b config op _ out := conforms before _ _ _ _ at'
    rcases done.sourced u shown with ⟨t,r,counts,stored⟩ | ⟨t,uid,ttl,read⟩ | ⟨t,n,ttl,read⟩
    · exact storesGiven before _ _ _ _ at' t u r stored counts
    · exact inv _ (inLog _ _ _ _ at' _ read) u List.mem_cons_self
    · exact inv _ (inLog _ _ _ _ at' _ read) u List.mem_cons_self

/- The uid that a probe finds free was not given to anybody else before. -/
def Unspent (db0 : Db) (s : Sys) (l : Label) : Prop :=
  ∀ probe ∈ probed .uid s l, s.db.owners .uid probe.1 = none → ∀ e ∈ given db0 s, e.2 = probe.1 → e.1 = probe.2
instance (s : Sys) (l : Label) : Decidable (Unspent db0 s l) := by unfold Unspent; infer_instance

/- Nor is it picked for anybody else by another process. -/
def Undisputed (s : Sys) (l : Label) : Prop :=
  ∀ t x k, executes s l = some (t,.selectOwner .uid x k) → s.db.owners .uid x = none →
    ∀ q, q ≠ l.pid → ∀ j, Picked s q j x → j = k

structure Separate (db0 : Db) (s : Sys) : Prop where
  opens : ∀ p k x, Picked s p k x → Open (s.db.owners .uid) k x
  apart : ∀ p q j k x, p ≠ q → Picked s p j x → Picked s q k x → j = k
  unspent : ∀ p j k x, Picked s p k x → (j,x) ∈ given db0 s → j = k
  unique : ∀ j k x, (j,x) ∈ given db0 s → (k,x) ∈ given db0 s → j = k

theorem notPickedFresh {p k x} : ¬Picked (fresh db0 now0) p k x := by
  rintro ⟨r,-,op,tr,prog,t,at',-⟩
  cases at'

theorem separateFresh : Separate db0 (fresh db0 now0) where
  opens p k x picked := absurd picked notPickedFresh
  apart p q j k x _ picked := absurd picked notPickedFresh
  unspent p j k x picked := absurd picked notPickedFresh
  unique j k x left right := by
    have here := ownersEntries.mpr (show (j,x) ∈ db0.entries .uid from left)
    exact Option.some.inj (here.symm.trans (ownersEntries.mpr (show (k,x) ∈ db0.entries .uid from right)))

section Step
variable {s s' : Sys} {l : Label}

theorem storesOthers {p u} (quiet : p = l.pid → ∀ st, issues s l = some st → st.writes = false)
    (issued : issues s l = some (.insertOrReplaceUser u)) : p ≠ l.pid :=
  fun mine => absurd (quiet mine _ issued) (by simp [Stmt.writes,Stmt.writesUsers])

theorem separateOpens (conf : Conforms b config s) (inv : Separate db0 s) (move : Move b config s l s')
    {p k x} (picked : Picked s' p k x) : Open (s'.db.owners .uid) k x := by
  rcases pickedStep move picked with ⟨old,quiet⟩ | ⟨rfl,t,runs,free⟩
  · have before := inv.opens p k x old
    rcases ownersStep conf move .uid with ⟨t,st,key,slot,runs,stores,written⟩ | ⟨fewer,-⟩
    · obtain ⟨u,rfl,rfl,rfl⟩ := storesUser stores
      have issued := executesIssues runs
      rw [written]
      refine Probing.openAssign before ?_
      rintro rfl
      exact inv.apart p l.pid k u.externalId u.uid (storesOthers quiet issued) old (storePicked conf issued)
    · exact Probing.openFreed (fewer x) before
  · have same : s'.db = s.db := executesDb move runs
    rwa [same]

theorem separateProbe (inv : Separate db0 s) (undisputed : Undisputed s l) {q j k x t}
    (runs : executes s l = some (t,.selectOwner .uid x k)) (free : Open (s.db.owners .uid) k x) (other : q ≠ l.pid)
    (picked : Picked s q j x) : j = k := by
  rcases free with none | mine
  · exact undisputed t x k runs none q other j picked
  · exact (Probing.openOwned (inv.opens q j x picked) mine).symm

theorem separateApart (inv : Separate db0 s) (undisputed : Undisputed s l) (move : Move b config s l s')
    {p q j k x} (differ : p ≠ q) (left : Picked s' p j x) (right : Picked s' q k x) : j = k := by
  rcases pickedStep move left with ⟨oldLeft,-⟩ | ⟨rfl,t,runs,free⟩
  · rcases pickedStep move right with ⟨oldRight,-⟩ | ⟨rfl,t,runs,free⟩
    · exact inv.apart p q j k x differ oldLeft oldRight
    · exact separateProbe inv undisputed runs free differ oldLeft
  · rcases pickedStep move right with ⟨oldRight,-⟩ | ⟨rfl,-⟩
    · exact (separateProbe inv undisputed runs free differ.symm oldRight).symm
    · exact absurd rfl differ

theorem separateUnspent (conf : Conforms b config s) (rows : RowsGiven db0 s) (inv : Separate db0 s)
    (unspent : Unspent db0 s l) (move : Move b config s l s') {p j k x} (picked : Picked s' p k x)
    (spent : (j,x) ∈ given db0 s') : j = k := by
  rcases pickedStep move picked with ⟨old,quiet⟩ | ⟨rfl,t,runs,free⟩
  · rcases givenStep move spent with before | ⟨u,issued,rfl,rfl⟩
    · exact inv.unspent p j k x old before
    · exact (inv.apart p l.pid k u.externalId u.uid (storesOthers quiet issued) old (storePicked conf issued)).symm
  · rcases givenStep move spent with before | ⟨u,issued,-,-⟩
    · rcases free with none | mine
      · exact unspent (x,k) (executesProbed runs) none (j,x) before rfl
      · exact inv.unique j k x before (rows k x mine)
    · rw [executesIssues runs] at issued
      cases issued

theorem separateUnique (conf : Conforms b config s) (inv : Separate db0 s) (move : Move b config s l s')
    {j k x} (left : (j,x) ∈ given db0 s') (right : (k,x) ∈ given db0 s') : j = k := by
  rcases givenStep move left with oldLeft | ⟨u,issued,rfl,rfl⟩
  · rcases givenStep move right with oldRight | ⟨u,issued,rfl,rfl⟩
    · exact inv.unique j k x oldLeft oldRight
    · exact inv.unspent l.pid j u.externalId u.uid (storePicked conf issued) oldLeft
  · rcases givenStep move right with oldRight | ⟨v,issued',rfl,-⟩
    · exact (inv.unspent l.pid k u.externalId u.uid (storePicked conf issued) oldRight).symm
    · rw [issued] at issued'
      cases issued'
      rfl

end Step

theorem separate {s} (unspent : ∀ s l, may s l → Unspent db0 s l) (undisputed : ∀ s l, may s l → Undisputed s l)
    (run : Reach (step b config) may (fresh db0 now0) s) : Separate db0 s := by
  refine moveInvariant (Separate db0) separateFresh ?_ run
  intro s l s' before inv chosen move
  have conf := conforms before
  have first := unspent s l chosen
  have second := undisputed s l chosen
  exact {
    opens := fun _ _ _ => separateOpens conf inv move
    apart := fun _ _ _ _ _ => separateApart inv second move
    unspent := fun _ _ _ _ => separateUnspent conf (rowsGiven before) inv first move
    unique := fun _ _ _ => separateUnique conf inv move
  }

def returned (s : Sys) : List (String × UInt32) :=
  s.log.flatMap (fun e =>
    match e with
    | .finish _ _ out => (usersOf out).map (fun u => (u.externalId,u.uid))
    | _ => [])

theorem returnedGiven {s} (run : Reach (step b config) may (fresh db0 now0) s) {e} (inside : e ∈ returned s) :
    e ∈ given db0 s := by
  obtain ⟨entry,logged,here⟩ := List.mem_flatMap.mp inside
  cases entry with
  | finish p op out =>
    obtain ⟨u,shown,rfl⟩ := List.mem_map.mp here
    exact shownGiven run _ logged u shown
  | start p op => cases here
  | call p e => cases here

theorem separateReturned {s} (inv : Separate db0 s) (run : Reach (step b config) may (fresh db0 now0) s) :
    ∀ e ∈ returned s, ∀ e' ∈ returned s, e.2 = e'.2 → e.1 = e'.1 := by
  rintro ⟨k,x⟩ left ⟨k',x'⟩ right (rfl : x = x')
  exact inv.unique k k' x (returnedGiven run left) (returnedGiven run right)

theorem singleUndisputed {s} (single : ∀ s l, may s l → Single l)
    (run : Reach (step b config) may (fresh db0 now0) s) {l} (mine : Single l) : Undisputed s l := by
  intro t x k runs free q other j picked
  have idle := idleBeyond 1 (fun s l chosen => by rw [single s l chosen]; decide) run
  obtain ⟨r,-,op,tr,prog,time,at',-⟩ := picked
  rw [idle q (by rw [mine] at other; omega)] at at'
  cases at'

theorem uidsNotReassigned (b : Build) (config : Config) (db0 : Db) (now0 : Int) (s : Sys)
    (run : Reach (step b config) (fun s l => Single l ∧ Unspent db0 s l) (fresh db0 now0) s) :
    ∀ e ∈ returned s, ∀ e' ∈ returned s, e.2 = e'.2 → e.1 = e'.1 := by
  have whole : Reach (step b config) (fun s l => Unspent db0 s l ∧ Undisputed s l) (fresh db0 now0) s := by
    refine Runs.reachWhile ?_ run
    intro s l before chosen
    exact ⟨chosen.2,singleUndisputed (fun _ _ => And.left) before chosen.1⟩
  exact separateReturned (separate (fun _ _ => And.left) (fun _ _ => And.right) whole) run

/- `u2` is returned with 1001, expires and is purged; `u3` then hashes to the free 1001. -/
def succeeding : List Label :=
  whole 0 (.lookupUserByName "two") 0 (some (.user (some (scimUser "u2" "two")))) 3 ++
  whole 0 .new 3600 none 3 ++
  whole 0 (.lookupUserByName "three") 3601 (some (.user (some (scimUser "u3" "three")))) 3

theorem uidReassigned : ∃ s, replay (step release fourSlots) (fun _ l => Single l) (fresh empty 0) succeeding = some s ∧
    returned s = [("u3",1001),("u2",1001)] ∧
    ¬∀ e ∈ returned s, ∀ e' ∈ returned s, e.2 = e'.2 → e.1 = e'.1 := by
  have ends : (replay (step release fourSlots) (fun _ l => Single l) (fresh empty 0) succeeding).map returned =
      some [("u3",1001),("u2",1001)] := by decide +kernel
  obtain ⟨s,reached,both⟩ := Option.map_eq_some_iff.mp ends
  refine ⟨s,reached,both,?_⟩
  rw [both]
  decide

def neighbours : List Label :=
  whole 0 (.lookupUserByName "two") 0 (some (.user (some (scimUser "u2" "two")))) 3 ++
  whole 0 (.lookupUserByName "three") 3601 (some (.user (some (scimUser "u3" "three")))) 4

theorem uidsNotReassignedExample : ∃ s, replay (step release fourSlots)
      (fun s l => Single l ∧ Unspent empty s l) (fresh empty 0) neighbours = some s ∧
    returned s = [("u3",1002),("u2",1001)] ∧ ∀ e ∈ returned s, ∀ e' ∈ returned s, e.2 = e'.2 → e.1 = e'.1 := by
  have ends : (replay (step release fourSlots) (fun s l => Single l ∧ Unspent empty s l)
      (fresh empty 0) neighbours).map returned = some [("u3",1002),("u2",1001)] := by decide +kernel
  obtain ⟨s,reached,both⟩ := Option.map_eq_some_iff.mp ends
  exact ⟨s,reached,both,uidsNotReassigned release fourSlots empty 0 s (Runs.replayReach reached)⟩

/- Without purges and failures what was given stays in the table, so only the picks of
other processes are left to mislead a probe. -/
structure Lasting (b : Build) (config : Config) (db0 : Db) (s : Sys) : Prop where
  settled : SettledColumn b config .uid s.db
  passed : ∀ p k x, Recalls s p k x (some false) → Held (s.db.owners .uid) k x
  kept : ∀ k x, (k,x) ∈ given db0 s → s.db.owners .uid x = some k

abbrev Orderly (s : Sys) (l : Label) : Prop := PurgeFree s l ∧ Faultless l ∧ Undisputed s l

theorem lastingUnspent {s l} (inv : Lasting b config db0 s) : Unspent db0 s l := by
  intro probe _ free e inside same
  have taken := inv.kept e.1 e.2 inside
  rw [same,free] at taken
  cases taken

theorem storeFits {s l u} (conf : Conforms b config s) (separate : Separate db0 s) (inv : Lasting b config db0 s)
    (issued : issues s l = some (.insertOrReplaceUser u)) :
    Fits (s.db.owners .uid) (slots b config .uid u.externalId) u.externalId u.uid := by
  obtain ⟨op,tr,k,at'⟩ := issuesRunning issued
  have reserved := storesReserved (c := .uid) (conf _ _ _ _ at').1 rfl
  refine ⟨Probing.reachesMono ?_ reserved.walk,separate.opens _ _ _ (storePicked conf issued)⟩
  rintro x ⟨t,inside⟩
  exact inv.passed l.pid u.externalId x ⟨op,tr,_,t,at',inside⟩

theorem lastingStep {s l s'} (conf : Conforms b config s) (separate : Separate db0 s) (inv : Lasting b config db0 s)
    (free : PurgeFree s l) (sound : Faultless l) (move : Move b config s l s') : Lasting b config db0 s' := by
  have keeps (k x) (own : s.db.owners .uid x = some k) : s'.db.owners .uid x = some k := by
    rcases ownersStep conf move .uid with ⟨t,st,key,slot,runs,stores,written⟩ | ⟨-,same⟩
    · obtain ⟨u,rfl,rfl,rfl⟩ := storesUser stores
      rw [written]
      exact Probing.assignKeeps inv.settled (storeFits conf separate inv (executesIssues runs)) own
    · rwa [same fun _ _ => purgeFree free]
  refine ⟨?_,?_,?_⟩
  · rcases ownersStep conf move .uid with ⟨t,st,key,slot,runs,stores,written⟩ | ⟨-,same⟩
    · obtain ⟨u,rfl,rfl,rfl⟩ := storesUser stores
      rw [SettledColumn,written]
      exact Probing.settledAssign inv.settled (storeFits conf separate inv (executesIssues runs))
    · rw [SettledColumn,same fun _ _ => purgeFree free]
      exact inv.settled
  · intro p k x recalls
    have before : Held (s.db.owners .uid) k x := by
      rcases recallsStep move recalls with ⟨old,-⟩ | ⟨-,t,-,answer⟩
      · exact inv.passed p k x old
      · exact Probing.heldAnswer.mp answer.symm
    obtain ⟨other,own,foreign⟩ := before
    exact ⟨other,keeps other x own,foreign⟩
  · intro k x inside
    rcases givenStep move inside with old | ⟨u,issued,rfl,rfl⟩
    · exact keeps k x (inv.kept k x old)
    · obtain ⟨t,runs⟩ := faultlessExecutes sound issued
      rw [ownersStored (c := .uid) move runs rfl]
      exact Probing.assignSelf

theorem orderlyLasting {s} (settled : SettledColumn b config .uid db0)
    (run : Reach (step b config) Orderly (fresh db0 now0) s) : Separate db0 s ∧ Lasting b config db0 s := by
  have first : Lasting b config db0 (fresh db0 now0) := by
    refine ⟨settled,?_,?_⟩
    · rintro p k x ⟨op,tr,prog,t,at',-⟩
      cases at'
    · intro k x inside
      exact ownersEntries.mpr inside
  have both : Reach (step b config) (fun s l => Unspent db0 s l ∧ Undisputed s l) (fresh db0 now0) s ∧
      Lasting b config db0 s := by
    refine Runs.reachInto (Lasting b config db0) first ?_ run
    intro s l s' before inv chosen move
    have apart := separate (fun _ _ => And.left) (fun _ _ => And.right) before
    exact ⟨⟨lastingUnspent inv,chosen.2.2⟩,
      lastingStep (conforms before) apart inv chosen.1 chosen.2.1 (stepMove b config move)⟩
  exact ⟨separate (fun _ _ => And.left) (fun _ _ => And.right) both.1,both.2⟩

theorem uidsToldApart (b : Build) (config : Config) (db0 : Db) (now0 : Int)
    (settled : SettledColumn b config .uid db0) (s : Sys)
    (run : Reach (step b config) Orderly (fresh db0 now0) s) :
    (∀ e ∈ returned s, ∀ e' ∈ returned s, e.2 = e'.2 → e.1 = e'.1) ∧
    (∀ l s' t u, step b config s l = some s' → executes s l = some (t,.insertOrReplaceUser u) →
      ∀ r ∈ s.db.users.rows, r.externalId ≠ u.externalId → r ∈ s'.db.users.rows) := by
  obtain ⟨apart,lasting⟩ := orderlyLasting settled run
  constructor
  · exact separateReturned apart run
  · intro l s' t u move runs r inside foreign
    have stored : s'.db = s.db.insertOrReplaceUser u t := executesDb (stepMove b config move) runs
    rw [stored]
    exact UniqueTable.keptInsertOrReplace inside foreign
      (apart.opens _ _ _ (storePicked (conforms run) (executesIssues runs)))

def racing : List Label := [
  .start 0 (.lookupUserByName "two"),.start 1 (.lookupUserByName "three"),
  .scim 0 0 (.user (some (scimUser "u2" "two"))),.scim 1 0 (.user (some (scimUser "u3" "three"))),
  .sql 0 1 false,.sql 1 1 false,.sql 0 2 false,.sql 1 2 false,
  .sql 0 3 false,.sql 1 3 false,.finish 0,.finish 1]

theorem uidsRace :
    (∃ s, replay (step release fourSlots) (fun s l => PurgeFree s l ∧ Faultless l) (fresh empty 0) racing = some s ∧
      returned s = [("u3",1001),("u2",1001)] ∧ ¬∀ e ∈ returned s, ∀ e' ∈ returned s, e.2 = e'.2 → e.1 = e'.1) ∧
    (∃ s s', replay (step release fourSlots) (fun s l => PurgeFree s l ∧ Faultless l) (fresh empty 0)
        (racing.take 9) = some s ∧ step release fourSlots s (.sql 1 3 false) = some s' ∧
      s.db.entries .uid = [("u2",1001)] ∧ s'.db.entries .uid = [("u3",1001)]) := by
  have ends : (replay (step release fourSlots) (fun s l => PurgeFree s l ∧ Faultless l) (fresh empty 0) racing).map
      returned = some [("u3",1001),("u2",1001)] := by decide +kernel
  have store : (replay (step release fourSlots) (fun s l => PurgeFree s l ∧ Faultless l) (fresh empty 0)
      (racing.take 9)).bind (fun s => (step release fourSlots s (.sql 1 3 false)).map
        (fun s' => (s.db.entries .uid,s'.db.entries .uid))) = some ([("u2",1001)],[("u3",1001)]) := by decide +kernel
  constructor
  · obtain ⟨s,reached,both⟩ := Option.map_eq_some_iff.mp ends
    refine ⟨s,reached,both,?_⟩
    rw [both]
    decide
  · obtain ⟨s,reached,onward⟩ := Option.bind_eq_some_iff.mp store
    obtain ⟨s',move,rows⟩ := Option.map_eq_some_iff.mp onward
    exact ⟨s,s',reached,move,(Prod.mk.inj rows).1,(Prod.mk.inj rows).2⟩

def picks : Proc → List (String × UInt32)
  | .running _ tr _ => (recent tr).filterMap (fun e =>
      match e with
      | ⟨_,.sql (.selectOwner .uid x k),.ok r⟩ => if r = some false then none else some (k,x)
      | _ => none)
  | _ => []

theorem pickedPicks {s : Sys} {q k x} (picked : Picked s q k x) : (k,x) ∈ picks (s.procs q) := by
  obtain ⟨r,other,op,tr,prog,t,at',inside⟩ := picked
  rw [at']
  exact List.mem_filterMap.mpr ⟨_,inside,if_neg other⟩

def UndisputedAmong (n : Nat) (s : Sys) (l : Label) : Prop :=
  ∀ probe ∈ probed .uid s l, s.db.owners .uid probe.1 = none →
    ∀ q < n, q ≠ l.pid → ∀ e ∈ picks (s.procs q), e.2 = probe.1 → e.1 = probe.2
instance (n : Nat) (s : Sys) (l : Label) : Decidable (UndisputedAmong n s l) := by
  unfold UndisputedAmong; infer_instance

theorem undisputedAmong {n s l} (idle : ∀ q, n ≤ q → s.procs q = .idle) (among : UndisputedAmong n s l) :
    Undisputed s l := by
  intro t x k runs free q other j picked
  by_cases used : q < n
  · exact among (x,k) (executesProbed runs) free q used other (j,x) (pickedPicks picked) rfl
  · obtain ⟨r,-,op,tr,prog,time,at',-⟩ := picked
    rw [idle q (by omega)] at at'
    cases at'

theorem orderlyAmong {n : Nat} {s} (run : Reach (step b config)
      (fun s l => l.pid < n ∧ PurgeFree s l ∧ Faultless l ∧ UndisputedAmong n s l) (fresh db0 now0) s) :
    Reach (step b config) Orderly (fresh db0 now0) s := by
  refine Runs.reachWhile ?_ run
  intro s l before chosen
  have idle := idleBeyond n (fun _ _ => And.left) before
  exact ⟨chosen.2.1,chosen.2.2.1,undisputedAmong idle chosen.2.2.2⟩

def passing : List Label := [
  .start 0 (.lookupUserByName "two"),.start 1 (.lookupUserByName "zero"),
  .scim 0 0 (.user (some (scimUser "u2" "two"))),.scim 1 0 (.user (some (scimUser "u0" "zero"))),
  .sql 0 1 false,.sql 1 1 false,.sql 0 2 false,.sql 1 2 false,
  .sql 0 3 false,.sql 1 3 false,.finish 0,.finish 1]

theorem uidsToldApartExample : ∃ s, Reach (step release fourSlots) Orderly (fresh empty 0) s ∧
    returned s = [("u0",1003),("u2",1001)] ∧ ∀ e ∈ returned s, ∀ e' ∈ returned s, e.2 = e'.2 → e.1 = e'.1 := by
  have ends : (replay (step release fourSlots)
      (fun s l => l.pid < 2 ∧ PurgeFree s l ∧ Faultless l ∧ UndisputedAmong 2 s l) (fresh empty 0) passing).map
        returned = some [("u0",1003),("u2",1001)] := by decide +kernel
  obtain ⟨s,reached,both⟩ := Option.map_eq_some_iff.mp ends
  have run := orderlyAmong (Runs.replayReach reached)
  exact ⟨s,run,both,(uidsToldApart release fourSlots empty 0 (settledFresh .uid) s run).1⟩

end SssdOidc.Allocation
