import SssdOidc.Conformance

/-! What every run keeps: each running operation is at a place of its own text, its
trace is in the log, and every cached row was written by a store of the log. With a
single process the probes since its last write still describe the database. -/
namespace SssdOidc.History
open Model Database Mapping Program Cache Service SssdOidc.System Protocol Conformance
open Probing (Held Open Fits)
open Runs (Reach)

variable {b : Build} {config : Config} {may : Sys → Label → Prop} {db0 : Db} {now0 : Int}

theorem followsRun {allowed : Op → Trace calls → Call → Prop} {done : Op → Trace calls → Outcome → Prop}
    (rule : ∀ op, Follows (allowed op) (done op) (operation b config op) []) {s}
    (run : Reach (step b config) may (fresh db0 now0) s) :
    ∀ p op tr prog, s.procs p = .running op tr prog → Follows (allowed op) (done op) prog tr := by
  refine runningInvariant (fun _ _ op tr prog => Follows (allowed op) (done op) prog tr) ?_ run
  intro s l s' _ inv _ move q op tr prog at'
  cases arrived b config move at' with
  | stayed other there => exact inv q op tr prog there
  | started mine db => exact rule op
  | heard t r reply chosen fits before db log => exact (inv _ _ _ _ before).2 t r
  | ran t fault chosen before db log => exact (inv _ _ _ _ before).2 t _

def Conforms (b : Build) (config : Config) (s : Sys) : Prop :=
  ∀ p op tr prog, s.procs p = .running op tr prog → Follows (Allowed b config op) (Done b config op) prog tr

theorem conforms {s} (run : Reach (step b config) may (fresh db0 now0) s) : Conforms b config s :=
  followsRun operationFollows run

def Logged (s : Sys) : Prop :=
  ∀ p op tr prog, s.procs p = .running op tr prog → ∀ e ∈ tr, Entry.call p e ∈ s.log

theorem logged {s} (run : Reach (step b config) may (fresh db0 now0) s) : Logged s := by
  refine runningInvariant (fun s p _ tr _ => ∀ e ∈ tr, Entry.call p e ∈ s.log) ?_ run
  intro s l s' _ inv _ move q op tr prog at' e inside
  obtain ⟨news,grown⟩ := logGrows b config move
  have kept {e'} (old : Entry.call q e' ∈ s.log) : Entry.call q e' ∈ s'.log := grown ▸ List.mem_append_right _ old
  cases arrived b config move at' with
  | stayed other there => exact kept (inv q op tr prog there e inside)
  | started mine db => cases inside
  | heard t r reply chosen fits before db log =>
    rcases List.mem_cons.mp inside with rfl | old
    · exact log ▸ List.mem_cons_self
    · exact kept (inv _ _ _ _ before e old)
  | ran t fault chosen before db log =>
    rcases List.mem_cons.mp inside with rfl | old
    · exact log ▸ List.mem_cons_self
    · exact kept (inv _ _ _ _ before e old)

theorem playedOnward {s} (run : Reach (step b config) may (fresh db0 now0) s) :
    ∀ p op tr prog, s.procs p = .running op tr prog → ∀ es out, Plays prog es out →
      Plays (operation b config op) (tr.reverse ++ es) out := by
  refine runningInvariant (fun _ _ op tr prog => ∀ es out, Plays prog es out →
    Plays (operation b config op) (tr.reverse ++ es) out) ?_ run
  intro s l s' _ inv _ move q op tr prog at' es out played
  cases arrived b config move at' with
  | stayed other there => exact inv q op tr prog there es out played
  | started mine db => exact played
  | heard t r reply chosen fits before db log =>
    rw [List.reverse_cons,List.append_assoc]
    exact inv _ _ _ _ before _ out (.call played)
  | ran t fault chosen before db log =>
    rw [List.reverse_cons,List.append_assoc]
    exact inv _ _ _ _ before _ out (.call played)

structure Finished (b : Build) (config : Config) (s : Sys) (p : Nat) (op : Op) (out : Outcome) (tr : Trace calls) :
    Prop where
  logged : ∀ e ∈ tr, Entry.call p e ∈ s.log
  plays : Plays (operation b config op) tr.reverse out

theorem finishedPlays {s} (run : Reach (step b config) may (fresh db0 now0) s) :
    ∀ p op out, Entry.finish p op out ∈ s.log → ∃ tr, Finished b config s p op out tr := by
  refine moveInvariant (fun s => ∀ p op out, Entry.finish p op out ∈ s.log → ∃ tr, Finished b config s p op out tr)
    ?_ ?_ run
  · intro p op out never
    cases never
  · intro s l s' before inv _ move p op out inside
    obtain ⟨news,grown⟩ := logGrows b config move
    have kept {e} (old : Entry.call p e ∈ s.log) : Entry.call p e ∈ s'.log := grown ▸ List.mem_append_right _ old
    cases entered b config move inside with
    | old there =>
      obtain ⟨tr,logged,plays⟩ := inv p op out there
      exact ⟨tr,fun e among => kept (logged e among),plays⟩
    | @finished tr op out at' =>
      have whole := playedOnward before _ _ _ _ at' [] out (.ret out)
      rw [List.append_nil] at whole
      exact ⟨tr,fun e among => kept (logged before _ _ _ _ at' e among),whole⟩

inductive Effect (b : Build) (config : Config) (s : Sys) (l : Label) (db : Db) : Prop where
  | quiet (same : db = s.db)
  | ran (op : Op) (tr : Trace calls) (t : Int) (st : Stmt) (k) (r : st.Resp) (chosen : l = .sql l.pid t false)
      (at' : s.procs l.pid = .running op tr (.call (.sql st) k))
      (allowed : Allowed b config op tr (.sql st)) (ok : exec t s.db st = .ok (r,db))

theorem executeCases (t : Int) (fault : Bool) (db : Db) (st : Stmt) :
    (∃ e, execute t fault db st = (.error e,db)) ∨
    (fault = false ∧ ∃ r db', exec t db st = .ok (r,db') ∧ execute t fault db st = (.ok r,db')) := by
  unfold execute
  split
  · exact .inl ⟨_,rfl⟩
  · rename_i noFault
    split
    · rename_i r db' ok
      exact .inr ⟨by simpa using noFault,r,db',ok,rfl⟩
    · exact .inl ⟨_,rfl⟩

theorem effect {s l s'} (inv : Conforms b config s) (move : Move b config s l s') :
    Effect b config s l s'.db := by
  cases move with
  | start p op free => exact .quiet rfl
  | scim p t reply op tr query k r before later fits => exact .quiet rfl
  | finish p op tr out before => exact .quiet rfl
  | kill p => exact .quiet rfl
  | sql p t fault op tr st k before later =>
    rcases executeCases t fault s.db st with ⟨e,failed⟩ | ⟨rfl,r,db',ok,done⟩
    · exact .quiet (congrArg Prod.snd failed)
    · refine .ran op tr t st k r rfl before (inv _ _ _ _ before).1 ?_
      rw [ok]
      exact congrArg (fun x => Except.ok (r,x)) (congrArg Prod.snd done).symm

theorem ranExecutes {s : Sys} {l : Label} {t st op tr k} (chosen : l = .sql l.pid t false)
    (at' : s.procs l.pid = .running op tr (.call (.sql st) k)) : executes s l = some (t,st) := by
  rw [chosen]
  simp [executes,at']

theorem loggedProbe {s l s' p t c x k r} (move : Move b config s l s')
    (inside : Entry.call p ⟨t,.sql (.selectOwner c x k),.ok r⟩ ∈ s'.log) :
    Entry.call p ⟨t,.sql (.selectOwner c x k),.ok r⟩ ∈ s.log ∨
    (p = l.pid ∧ executes s l = some (t,.selectOwner c x k) ∧ r = (s.db.owners c x).map (fun owner => owner == k)) := by
  generalize same : Entry.call p ⟨t,.sql (.selectOwner c x k),.ok r⟩ = e at inside
  cases entered b config move inside with
  | old there => exact .inl (same ▸ there)
  | started p op => cases same
  | heard p t q r => cases same
  | finished op out at' => cases same
  | ran t fault st chosen at' =>
    rcases executeCases t fault s.db st with ⟨e,failed⟩ | ⟨rfl,answer,db',ok,done⟩
    · rw [failed] at same
      cases same
    · rw [done] at same
      cases same
      simp only [exec,Except.ok.injEq,Prod.mk.injEq] at ok
      exact .inr ⟨rfl,ranExecutes chosen at',ok.1.symm⟩

theorem ownersStored {s l s' t} {st : Stmt} {c k x} (move : Move b config s l s')
    (runs : executes s l = some (t,st)) (stores : st.stores c = some (k,x)) :
    s'.db.owners c = Probing.assign (s.db.owners c) k x := by
  have after := executesDb move runs
  cases st <;> cases c <;> cases stores
  case insertOrReplaceUser.uid.refl u =>
    rw [after]
    exact execStores (s := .insertOrReplaceUser u) (c := .uid) rfl rfl
  case insertOrReplaceGroup.gid.refl g =>
    rw [after]
    exact execStores (s := .insertOrReplaceGroup g) (c := .gid) rfl rfl

theorem ownersStep {s l s'} (inv : Conforms b config s) (move : Move b config s l s') (c : Column) :
    (∃ t st k x, executes s l = some (t,st) ∧ st.stores c = some (k,x) ∧
      s'.db.owners c = Probing.assign (s.db.owners c) k x) ∨
    ((∀ x k, s'.db.owners c x = some k → s.db.owners c x = some k) ∧
      ((∀ t st, executes s l = some (t,st) → st.purges c = false) → s'.db.owners c = s.db.owners c)) := by
  cases effect inv move with
  | quiet same => exact .inr ⟨fun x k own => same ▸ own,fun _ => by rw [same]⟩
  | ran op tr t st k r chosen at' allowed ok =>
    have runs := ranExecutes chosen at'
    cases stores : st.stores c with
    | some entry => exact .inl ⟨t,st,_,_,runs,stores,execStores stores ok⟩
    | none =>
      cases purges : st.purges c with
      | true =>
        refine .inr ⟨fun x k own => execPurges purges ok own,fun free => ?_⟩
        exact absurd (purges.symm.trans (free t st runs)) (by simp)
      | false =>
        have same := execOwners stores purges ok
        exact .inr ⟨fun x k own => same ▸ own,fun _ => same⟩

theorem executesAllowed {s l t st} (inv : Conforms b config s) (runs : executes s l = some (t,st)) :
    ∃ op tr k, s.procs l.pid = .running op tr (.call (.sql st) k) ∧ Allowed b config op tr (.sql st) := by
  obtain ⟨op,tr,k,at'⟩ := issuesRunning (executesIssues runs)
  exact ⟨op,tr,k,at',(inv _ _ _ _ at').1⟩

theorem storesReserved {op tr} {st : Stmt} {c k x} (allowed : Allowed b config op tr (.sql st))
    (stores : st.stores c = some (k,x)) : Reserved b config c k tr x := by
  cases st <;> cases c <;> cases stores
  case insertOrReplaceUser.uid u =>
    obtain ⟨-,su,-,same,uidReserved,-⟩ := allowed
    have named : u.externalId = su.id := by rw [same]; rfl
    rwa [named]
  case insertOrReplaceGroup.gid g =>
    obtain ⟨-,sg,-,same,gidReserved⟩ := allowed
    have named : g.externalId = sg.id := by rw [same]; rfl
    rwa [named]

/- Restarts and crashes included: they stay with the one process number. -/
def Single (l : Label) : Prop := l.pid = 0
instance (l : Label) : Decidable (Single l) := by unfold Single; infer_instance

def PurgeFree (s : Sys) (l : Label) : Prop :=
  ∀ e ∈ executes s l, e.2.purges .uid = false ∧ e.2.purges .gid = false
instance (s : Sys) (l : Label) : Decidable (PurgeFree s l) := by unfold PurgeFree; infer_instance

theorem purgeFree {s l t c} {st : Stmt} (free : PurgeFree s l) (runs : executes s l = some (t,st)) :
    st.purges c = false := by
  have both := free _ runs
  cases c with
  | uid => exact both.1
  | gid => exact both.2

/- The probes since the last write still have the answer they were given. -/
def Reflects (db : Db) (tr : Trace calls) : Prop :=
  ∀ t c x k r, (⟨t,.sql (.selectOwner c x k),.ok r⟩ : Event calls) ∈ recent tr →
    r = (db.owners c x).map (fun owner => owner == k)

theorem reflectsStart (db : Db) : Reflects db [] := by
  intro t c x k r inside
  cases inside

theorem reflectsScim {db : Db} {tr : Trace calls} {t q r} (inv : Reflects db tr) :
    Reflects db (⟨t,.scim q,r⟩ :: tr) := by
  intro t' c x k r' inside
  rw [recentRead rfl] at inside
  rcases List.mem_cons.mp inside with never | old
  · cases never
  · exact inv t' c x k r' old

theorem reflectsSql {db : Db} {tr : Trace calls} {t fault st} (inv : Reflects db tr) :
    Reflects (execute t fault db st).2 (⟨t,.sql st,(execute t fault db st).1⟩ :: tr) := by
  intro t' c x k r' inside
  by_cases loud : writes (.sql st) = true
  · rw [recentWrite loud] at inside
    cases inside
  · have quiet : st.writes = false := by simpa [writes] using loud
    have still : writes (.sql st) = false := quiet
    rw [recentRead still] at inside
    rcases executeCases t fault db st with ⟨e,failed⟩ | ⟨rfl,r,db',ok,done⟩
    · rw [failed] at inside ⊢
      rcases List.mem_cons.mp inside with never | old
      · cases never
      · exact inv t' c x k r' old
    · cases execRead quiet ok
      rw [done] at inside ⊢
      rcases List.mem_cons.mp inside with now | old
      · cases now
        simp only [exec,Except.ok.injEq,Prod.mk.injEq] at ok
        exact ok.1.symm
      · exact inv t' c x k r' old

def Reflected (s : Sys) : Prop := ∀ op tr prog, s.procs 0 = .running op tr prog → Reflects s.db tr

theorem reflectedStep {s l s'} (single : Single l) (inv : Reflected s) (move : Move b config s l s') :
    Reflected s' := by
  intro op tr prog at'
  cases arrived b config move at' with
  | stayed other there => exact absurd single.symm other
  | started mine db => exact reflectsStart s'.db
  | heard t r reply chosen fits before db log =>
    rw [db]
    exact reflectsScim (inv _ _ _ before)
  | ran t fault chosen before db log =>
    rw [db]
    exact reflectsSql (inv _ _ _ before)

theorem reflected {s} (single : ∀ s l, may s l → Single l)
    (run : Reach (step b config) may (fresh db0 now0) s) : Reflected s := by
  refine moveInvariant Reflected (by intro op tr prog at'; cases at') ?_ run
  intro s l s' _ inv chosen move
  exact reflectedStep (single s l chosen) inv move

theorem passedHeld {db : Db} {tr : Trace calls} {c k x} (inv : Reflects db tr) (passed : Passed c k tr x) :
    Held (db.owners c) k x := by
  obtain ⟨t,inside⟩ := passed
  exact Probing.heldAnswer.mp (inv t c x k _ inside).symm

theorem claimedOpen {db : Db} {tr : Trace calls} {c k x} (inv : Reflects db tr) (claimed : Claimed c k tr x) :
    Open (db.owners c) k x := by
  obtain ⟨t,r,other,inside⟩ := claimed
  exact Probing.openAnswer.mp (inv t c x k r inside ▸ other)

theorem reservedFits {db : Db} {tr : Trace calls} {c k x} (inv : Reflects db tr)
    (reserved : Reserved b config c k tr x) : Fits (db.owners c) (slots b config c k) k x :=
  ⟨Probing.reachesMono (fun _ => passedHeld inv) reserved.walk,claimedOpen inv reserved.claimed⟩

theorem singleStores {s : Sys} {l op tr} {st : Stmt} {k c key x} (single : Single l) (inv : Reflected s)
    (at' : s.procs l.pid = .running op tr (.call (.sql st) k)) (allowed : Allowed b config op tr (.sql st))
    (stores : st.stores c = some (key,x)) : Fits (s.db.owners c) (slots b config c key) key x := by
  rw [single] at at'
  exact reservedFits (inv _ _ _ at') (storesReserved allowed stores)

end SssdOidc.History
