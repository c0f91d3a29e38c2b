import SssdOidc.Executors

/-! Where a cached row comes from. Each SCIM answer is a snapshot, named by its place in the
log; a store writes what its operation was told, however long ago, over what is there. What
runs one operation at a time is a process, or one of its threads. -/
namespace SssdOidc.Snapshots
open Model Database Mapping Program Cache Service SssdOidc.System Protocol Conformance History Stability
open Executors (Ran made byThread along alongRan threadsAsExecutors)
open Runs (Reach replay)

variable {b : Build} {config : Config} {may : Sys → Label → Prop} {db0 : Db} {now0 : Int}

def isScim : Call → Bool
  | .scim _ => true
  | .sql _ => false

def readAt (p : Nat) : List Entry → Nat
  | .call q e :: log => if q = p ∧ isScim e.call = true then log.length else readAt p log
  | _ :: log => readAt p log
  | [] => 0

def storedId (e : Event calls) : Option String :=
  match e with
  | ⟨_,.sql (.insertOrReplaceUser u),.ok _⟩ => some u.externalId
  | _ => none

/- The snapshots from which an id was stored, newest store first. -/
def storedFrom (externalId : String) : List Entry → List Nat
  | .call p e :: log =>
      if storedId e = some externalId then readAt p log :: storedFrom externalId log
      else storedFrom externalId log
  | _ :: log => storedFrom externalId log
  | [] => []

/- Another operation has read a snapshot and stored `externalId` from it since that of `p` read
its own. -/
def Overtaken (log : List Entry) (p : Nat) (externalId : String) : Prop :=
  ∃ newer older q e, log = newer ++ .call q e :: older ∧ q ≠ p ∧ storedId e = some externalId ∧
    readAt p log < readAt q older

def Tells (log : List Entry) (n : Nat) (su : ScimUser) : Prop :=
  ∃ newer older p e, log = newer ++ .call p e :: older ∧ older.length = n ∧ su ∈ receivedUsers [e]

theorem tellsGrown {log n su} (news : List Entry) (tells : Tells log n su) : Tells (news ++ log) n su := by
  obtain ⟨newer,older,p,e,rfl,length,inside⟩ := tells
  exact ⟨news ++ newer,older,p,e,by simp,length,inside⟩

theorem readAtCall {p q : Nat} {e : Event calls} {log : List Entry} : readAt p (.call q e :: log) =
    if q = p ∧ isScim e.call = true then log.length else readAt p log := rfl

theorem readInside (p : Nat) (log : List Entry) : readAt p log ≤ log.length := by
  induction log with
  | nil => exact Nat.le_refl 0
  | cons entry log ih =>
    cases entry with
    | call q e =>
      rw [readAtCall]
      split
      · exact Nat.le_succ _
      · exact Nat.le_succ_of_le ih
    | start q op => exact Nat.le_succ_of_le ih
    | finish q op out => exact Nat.le_succ_of_le ih

theorem readGrows (p : Nat) (newer older : List Entry) : readAt p older ≤ readAt p (newer ++ older) := by
  induction newer with
  | nil => exact Nat.le_refl _
  | cons entry newer ih =>
    cases entry with
    | call q e =>
      rw [List.cons_append,readAtCall]
      split
      · exact Nat.le_trans (readInside p older) (by simp)
      · exact ih
    | start q op => exact ih
    | finish q op out => exact ih

theorem memStoredFrom {externalId : String} {log : List Entry} {n : Nat} (inside : n ∈ storedFrom externalId log) :
    ∃ newer older q e, log = newer ++ .call q e :: older ∧ storedId e = some externalId ∧ n = readAt q older := by
  induction log with
  | nil => cases inside
  | cons entry log ih =>
    have further (later : n ∈ storedFrom externalId log) : ∃ newer older q e,
        entry :: log = newer ++ .call q e :: older ∧ storedId e = some externalId ∧ n = readAt q older := by
      obtain ⟨newer,older,q,e,rfl,stores,same⟩ := ih later
      exact ⟨entry :: newer,older,q,e,rfl,stores,same⟩
    cases entry with
    | call q e =>
      unfold storedFrom at inside
      split at inside
      · rename_i stores
        rcases List.mem_cons.mp inside with same | later
        · exact ⟨[],log,q,e,rfl,stores,same⟩
        · exact further later
      · exact further inside
    | start q op => exact further inside
    | finish q op out => exact further inside

theorem olderOvertaken {externalId : String} {log : List Entry} {p n : Nat} (inside : n ∈ storedFrom externalId log)
    (older : readAt p log < n) : Overtaken log p externalId := by
  obtain ⟨newer,before,q,e,rfl,stores,rfl⟩ := memStoredFrom inside
  refine ⟨newer,before,q,e,rfl,?_,stores,older⟩
  rintro rfl
  have grows := readGrows q (newer ++ [.call q e]) before
  rw [List.append_assoc,List.singleton_append] at grows
  exact Nat.not_lt_of_le grows older

theorem readOther {s l s' p} (move : Move b config s l s') (other : p ≠ l.pid) : readAt p s'.log = readAt p s.log := by
  cases move with
  | start q op free => rfl
  | scim q t reply op tr query k r at' later fits => exact if_neg fun here => other here.1.symm
  | sql q t fault op tr st k at' later => exact if_neg fun here => other here.1.symm
  | finish q op tr out at' => rfl
  | kill q => rfl

def ToldLast (s : Sys) : Prop :=
  ∀ p op tr prog, s.procs p = .running op tr prog → ∀ su ∈ receivedUsers tr, Tells s.log (readAt p s.log) su

theorem toldLast {s} (run : Reach (step b config) may (fresh db0 now0) s) : ToldLast s := by
  refine runningInvariant (fun s p _ tr _ => ∀ su ∈ receivedUsers tr, Tells s.log (readAt p s.log) su) ?_ run
  intro s l s' before inv _ move p op tr prog at' su inside
  cases arrived b config move at' with
  | stayed other there =>
    obtain ⟨news,grown⟩ := logGrows b config move
    rw [readOther move other,grown]
    exact tellsGrown news (inv p op tr prog there su inside)
  | started mine db => cases inside
  | heard t r reply chosen fits there db log =>
    -- an operation asks once, before anything else
    obtain ⟨-,rfl⟩ := (conforms before _ _ _ _ there).1
    rw [log,readAtCall,if_pos ⟨rfl,rfl⟩]
    exact ⟨[],s.log,p,_,rfl,rfl,inside⟩
  | ran t fault chosen there db log =>
    rw [receivedUsersSql] at inside
    rw [log,readAtCall,if_neg (by simp [isScim])]
    exact tellsGrown [_] (inv p _ _ _ there su inside)

/- `row` is as the newest store of its id left it, with the data of the snapshot `n`. -/
structure Drawn (config : Config) (log : List Entry) (row : UserRow) (n : Nat) : Prop where
  newest : (storedFrom row.externalId log).head? = some n
  told : ∃ su, Tells log n su ∧ row.user = userModel config su row.uid row.gid

def Drafted (config : Config) (db0 : Db) (s : Sys) : Prop := ∀ row ∈ s.db.users.rows,
  (storedFrom row.externalId s.log = [] ∧ row ∈ db0.users.rows) ∨ ∃ n, Drawn config s.log row n

theorem storedFromCall {externalId : String} {p : Nat} {e : Event calls} {log : List Entry} :
    storedFrom externalId (.call p e :: log) = if storedId e = some externalId
      then readAt p log :: storedFrom externalId log else storedFrom externalId log := rfl

theorem drawnGrown {row n} {log log' : List Entry} (drawn : Drawn config log row n) (grows : ∃ news, log' = news ++ log)
    (same : storedFrom row.externalId log' = storedFrom row.externalId log) : Drawn config log' row n where
  newest := same ▸ drawn.newest
  told := by
    obtain ⟨news,rfl⟩ := grows
    obtain ⟨su,tells,made⟩ := drawn.told
    exact ⟨su,tellsGrown news tells,made⟩

theorem storedStep {s l s'} (move : Move b config s l s') : (∃ t u, executes s l = some (t,.insertOrReplaceUser u)) ∨
    ((∀ row ∈ s'.db.users.rows, row ∈ s.db.users.rows) ∧
      ∀ externalId, storedFrom externalId s'.log = storedFrom externalId s.log) := by
  cases move with
  | start p op free => exact .inr ⟨fun _ => id,fun _ => rfl⟩
  | scim p t reply op tr query k r at' later fits => exact .inr ⟨fun _ => id,fun _ => if_neg (by simp [storedId])⟩
  | finish p op tr out at' => exact .inr ⟨fun _ => id,fun _ => rfl⟩
  | kill p => exact .inr ⟨fun _ => id,fun _ => rfl⟩
  | sql p t fault op tr st k at' later =>
    rcases executeCases t fault s.db st with ⟨e,failed⟩ | ⟨rfl,r,db',ok,done⟩
    · refine .inr ⟨?_,?_⟩
      · intro row inside
        simpa only [after,failed] using inside
      · intro externalId
        simp only [after,failed,storedFromCall]
        exact if_neg (by simp [storedId])
    · by_cases stores : ∃ u, st = .insertOrReplaceUser u
      · obtain ⟨u,rfl⟩ := stores
        exact .inl ⟨t,u,by simp [executes,at']⟩
      · refine .inr ⟨?_,?_⟩
        · intro row inside
          simp only [after,done] at inside
          cases quiet : st.writesUsers with
          | false => rwa [execUsers quiet ok] at inside
          | true =>
            cases st <;> cases quiet
            · exact absurd ⟨_,rfl⟩ stores
            · cases ok
              exact (UniqueTable.memDelete.mp inside).1
        · intro externalId
          simp only [after,done,storedFromCall]
          refine if_neg ?_
          cases st <;> simp_all [storedId]

theorem storedStore {s l s' t u} (move : Move b config s l s') (runs : executes s l = some (t,.insertOrReplaceUser u))
    (externalId : String) : storedFrom externalId s'.log =
      if u.externalId = externalId then readAt l.pid s.log :: storedFrom externalId s.log
      else storedFrom externalId s.log := by
  rw [executesLog move runs,storedFromCall]
  have stores : storedId (⟨t,.sql (.insertOrReplaceUser u),(execute t false s.db (.insertOrReplaceUser u)).1⟩ : Event calls) =
      some u.externalId := rfl
  simp only [stores,Option.some.injEq]

theorem drafted {s} (run : Reach (step b config) may (fresh db0 now0) s) : Drafted config db0 s := by
  refine moveInvariant (Drafted config db0) (fun row inside => .inl ⟨rfl,inside⟩) ?_ run
  intro s l s' before inv _ move row inside
  have grows := logGrows b config move
  rcases storedStep move with ⟨t,u,runs⟩ | ⟨rows,stored⟩
  · have stored := storedStore move runs row.externalId
    rw [executesDb move runs] at inside
    rcases UniqueTable.memInsertOrReplace.mp inside with rfl | ⟨old,differs,-⟩
    · -- the row just stored
      obtain ⟨op,tr,k,at',-,su,told,made,-⟩ := executesAllowed (conforms before) runs
      refine .inr ⟨readAt l.pid s.log,stored.trans (if_pos rfl) ▸ rfl,su,?_,made⟩
      obtain ⟨news,grown⟩ := grows
      rw [grown]
      exact tellsGrown news (toldLast before _ _ _ _ at' su told)
    · have other : ¬u.externalId = row.externalId := Ne.symm differs
      rw [if_neg other] at stored
      rcases inv row old with ⟨none,first⟩ | ⟨n,drawn⟩
      · exact .inl ⟨stored.trans none,first⟩
      · exact .inr ⟨n,drawnGrown drawn grows stored⟩
  · rcases inv row (rows row inside) with ⟨none,old⟩ | ⟨n,drawn⟩
    · exact .inl ⟨(stored _).trans none,old⟩
    · exact .inr ⟨n,drawnGrown drawn grows (stored _)⟩

theorem olderStored {s l s'} {row row' : UserRow} {m n : Nat} (move : Move b config s l s')
    (same : row'.externalId = row.externalId) (before : Drawn config s.log row n) (after : Drawn config s'.log row' m)
    (older : m < n) : ∃ t u, executes s l = some (t,.insertOrReplaceUser u) ∧ u.externalId = row.externalId ∧
      Overtaken s.log l.pid u.externalId := by
  have kept (stored : storedFrom row.externalId s'.log = storedFrom row.externalId s.log) : m = n := by
    have newest := after.newest
    rw [same,stored] at newest
    exact Option.some.inj (newest.symm.trans before.newest)
  rcases storedStep move with ⟨t,u,runs⟩ | ⟨-,stored⟩
  · have stored := storedStore move runs row.externalId
    split at stored
    · rename_i own
      have newest := after.newest
      rw [same,stored,List.head?_cons] at newest
      cases newest
      exact ⟨t,u,runs,own,own ▸ olderOvertaken (List.mem_of_head? before.newest) older⟩
    · exact absurd (kept stored) (Nat.ne_of_lt older)
  · exact absurd (kept (stored _)) (Nat.ne_of_lt older)

def Unovertaken (log : List Entry) : Prop := ∀ newer older p e externalId, log = newer ++ .call p e :: older →
  storedId e = some externalId → ¬Overtaken older p externalId

theorem newestLatest {log : List Entry} (fresh : Unovertaken log) (externalId : String) :
    (storedFrom externalId log).Pairwise (fun newer older => older ≤ newer) := by
  induction log with
  | nil => exact List.Pairwise.nil
  | cons entry log ih =>
    have onward := ih fun newer older p e id split => fresh (entry :: newer) older p e id (congrArg (entry :: ·) split)
    cases entry with
    | call p e =>
      rw [storedFromCall]
      split
      · rename_i stores
        refine List.Pairwise.cons (fun n inside => Nat.le_of_not_lt fun older => ?_) onward
        exact fresh [] log p e externalId rfl stores (olderOvertaken inside older)
      · exact onward
    | start p op => exact onward
    | finish p op out => exact onward

theorem storedStays {s l s'} {externalId : String} (move : Move b config s l s')
    (none : storedFrom externalId s'.log = []) : storedFrom externalId s.log = [] := by
  rcases storedStep move with ⟨t,u,runs⟩ | ⟨-,stored⟩
  · have stored := storedStore move runs externalId
    rw [none] at stored
    split at stored
    · cases stored
    · exact stored.symm
  · exact (stored externalId).symm.trans none

theorem rowReplaced {s l s'} {row row' : UserRow} {n : Nat} (run : Reach (step b config) may (fresh db0 now0) s)
    (chosen : may s l) (move : step b config s l = some s') (inside : row' ∈ s'.db.users.rows)
    (same : row'.externalId = row.externalId) (before : Drawn config s.log row n) :
    (∃ m, Drawn config s'.log row' m ∧ n ≤ m) ∨ ∃ t u, executes s l = some (t,.insertOrReplaceUser u) ∧
      u.externalId = row.externalId ∧ Overtaken s.log l.pid u.externalId := by
  have moved := stepMove b config move
  rcases drafted (run.next l chosen move) row' inside with ⟨none,-⟩ | ⟨m,after⟩
  · rw [same] at none
    have newest := before.newest
    rw [storedStays moved none] at newest
    cases newest
  · rcases Nat.lt_or_ge m n with older | newer
    · exact .inr (olderStored moved same before after older)
    · exact .inl ⟨m,after,newer⟩

def heard (log : List Entry) : List ScimUser :=
  log.flatMap fun
    | .call _ e => receivedUsers [e]
    | _ => []

def flagged (active : Bool) : ScimUser := ⟨"u2","two",none,some active,[]⟩

def enumeratedLast : List Label :=
  [.start 0 .setpwent,.scim 0 0 (.users [flagged true])] ++
  whole 1 (.checkUserActive "two") 1 (some (.user (some (flagged false)))) 3 ++
  List.replicate 3 (.sql 0 2 false) ++ [.finish 0]

def storeFails : List Label :=
  whole 0 (.checkUserActive "two") 0 (some (.user (some (flagged true)))) 3 ++
  [.start 0 (.checkUserActive "two"),.scim 0 1 (.user (some (flagged false))),
    .sql 0 1 false,.sql 0 1 false,.sql 0 1 true,.finish 0]

/- Two threads of one process: the first fetches the list on its way to the mutex, but the second
is there before it. -/
def oneProcess : List Threads.Label := [
  .call 0 1 .setpwent,.boot 0 1 true,.sql 0 1 0 false,.sql 0 1 0 false,.sql 0 1 0 false,.leave 0 1,
  .call 0 2 (.lookupUserByName "two"),.enter 0 1,.enter 0 2,.fetch 0 1 1 (.users [flagged true]),
  .acquire 0 2,.scim 0 2 2 (.user (some (flagged false))),.sql 0 2 2 false,.sql 0 2 2 false,.sql 0 2 2 false,.leave 0 2,
  .acquire 0 1,.sql 0 1 3 false,.sql 0 1 3 false,.sql 0 1 3 false,.leave 0 1]

theorem oneProcessRan : ∃ machine past, Ran release fourSlots (Threads.fresh empty 0) machine past ∧
    machine.db.users.rows.map (fun r => (r.externalId,r.active)) = [("u2",true)] ∧
    past.flatMap (fun made => receivedUsers [made.2]) = [flagged false,flagged true] ∧
    past.all (fun made => made.1.1 == 0) = true := by
  have ends : (along release fourSlots oneProcess (Threads.fresh empty 0,[])).map (fun so =>
      (so.1.db.users.rows.map (fun r => (r.externalId,r.active)),so.2.flatMap (fun made => receivedUsers [made.2]),
        so.2.all (fun made => made.1.1 == 0))) = some ([("u2",true)],[flagged false,flagged true],true) := by decide +kernel
  obtain ⟨⟨machine,past⟩,ran,facts⟩ := Option.map_eq_some_iff.mp ends
  exact ⟨machine,past,alongRan .start ran,congrArg Prod.fst facts,congrArg (fun x => x.2.1) facts,
    congrArg (fun x => x.2.2) facts⟩

end SssdOidc.Snapshots
