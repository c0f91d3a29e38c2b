import SssdOidc.Stability

/-! One call of `store_group` when SQLite may fail at any of its statements, and what it
leaves in the tables when it returns `Err`. -/
namespace SssdOidc.Atomicity
open Model Database Mapping Program Cache Service SssdOidc.System Protocol Conformance History Solo Stability

/- SQLite during one call: the second in which each statement runs, and whether it fails. -/
structure Sqlite where
  clock : Nat → Int
  fails : Nat → Bool

def Sqlite.answer (q : Sqlite) : (c : calls.Call) → Db × Nat → calls.Resp c × (Db × Nat)
  | .scim query, s => (offline query,s)
  | .sql st, (db,n) => ((execute (q.clock n) (q.fails n) db st).1,((execute (q.clock n) (q.fails n) db st).2,n + 1))

def within {α : Type} (q : Sqlite) (n : Nat) (p : Act CacheError α) (db : Db) : Except (Halt CacheError) α × Db :=
  ((run q.answer p (db,n)).1,(run q.answer p (db,n)).2.1)

section Statements
variable {q : Sqlite} {n : Nat} {db : Db}

theorem withinFails {α : Type} {st : Stmt} {e} {f : st.Resp → Act CacheError α}
    (failed : execute (q.clock n) (q.fails n) db st = (.error e,db)) :
    within q n (sql st >>= f) db = (.error (.error (.sqlite e)),db) := by
  have first : run q.answer (sql st) (db,n) = (.error (.error (.sqlite e)),(db,n + 1)) := by
    change (sqlResult (execute (q.clock n) (q.fails n) db st).1,((execute (q.clock n) (q.fails n) db st).2,n + 1)) = _
    rw [failed]
    rfl
  have whole : run q.answer (sql st >>= f : Act CacheError α) (db,n) = _ := runError first
  simp only [within,whole]

theorem withinRuns {α : Type} {st : Stmt} {r db'} {f : st.Resp → Act CacheError α} (sound : q.fails n = false)
    (ok : exec (q.clock n) db st = .ok (r,db')) : within q n (sql st >>= f) db = within q (n + 1) (f r) db' := by
  have first : run q.answer (sql st) (db,n) = (.ok r,(db',n + 1)) := by
    change (sqlResult (execute (q.clock n) (q.fails n) db st).1,((execute (q.clock n) (q.fails n) db st).2,n + 1)) = _
    simp only [execute,sound,ok]
    rfl
  have whole : run q.answer (sql st >>= f : Act CacheError α) (db,n) = _ := runOk first
  simp only [within,whole]

end Statements

/- The names written by the INSERTs from statement `n` on: all, or those in front of the
first failure; a name that is there already fails. -/
def written (q : Sqlite) (n : Nat) (taken : List String) : List String → List String
  | [] => []
  | m :: rest => if q.fails n = true ∨ m ∈ taken then [] else m :: written q (n + 1) (m :: taken) rest

theorem insertsWritten {q : Sqlite} {externalId : String} {names : List String} {n : Nat} {taken : List String} {db : Db}
    (parent : ∃ g ∈ db.groups.rows, g.externalId = externalId)
    (there : ∀ m, (⟨externalId,m⟩ : MemberRow) ∈ db.members ↔ m ∈ taken) :
    (within q n (insertMembers externalId names) db).2.users = db.users ∧
    (within q n (insertMembers externalId names) db).2.groups = db.groups ∧
    (within q n (insertMembers externalId names) db).2.members =
      db.members ++ (written q n taken names).map (MemberRow.mk externalId) ∧
    ((within q n (insertMembers externalId names) db).1 = .ok () ↔ written q n taken names = names) := by
  induction names generalizing n taken db with
  | nil => exact ⟨rfl,rfl,(List.append_nil _).symm,⟨fun _ => rfl,fun _ => rfl⟩⟩
  | cons m rest ih =>
    by_cases stops : q.fails n = true ∨ m ∈ taken
    · have failed : ∃ e, execute (q.clock n) (q.fails n) db (.insertMember externalId m) = (.error e,db) := by
        rcases stops with fault | repeated
        · exact ⟨.failure,by simp [execute,fault]⟩
        · have may : ¬db.MayInsertMember ⟨externalId,m⟩ := fun may => may.1 ((there m).mpr repeated)
          cases fault : q.fails n with
          | true => exact ⟨.failure,by simp [execute]⟩
          | false => exact ⟨.constraint,by simp [execute,exec,may]⟩
      obtain ⟨e,failed⟩ := failed
      simp only [insertMembers,withinFails failed,written,if_pos stops]
      exact ⟨trivial,trivial,(List.append_nil _).symm,by simp⟩
    · have may : db.MayInsertMember ⟨externalId,m⟩ := ⟨fun inside => stops (.inr ((there m).mp inside)),parent⟩
      have ok : exec (q.clock n) db (.insertMember externalId m) = .ok ((),db.insertMember ⟨externalId,m⟩ may) := by
        simp only [exec,dif_pos may]
      have sound : q.fails n = false := by simpa using fun fault => stops (.inl fault)
      have next : ∀ x, (⟨externalId,x⟩ : MemberRow) ∈ (db.insertMember ⟨externalId,m⟩ may).members ↔ x ∈ m :: taken := by
        intro x
        simp only [Db.insertMember,List.mem_append,List.mem_cons,List.not_mem_nil,or_false,there x,MemberRow.mk.injEq,
          true_and]
        exact or_comm
      have parent' : ∃ row ∈ (db.insertMember ⟨externalId,m⟩ may).groups.rows, row.externalId = externalId := parent
      obtain ⟨users,groups,members,done⟩ := ih (n := n + 1) parent' next
      rw [insertMembers,withinRuns sound ok,written,if_neg stops]
      refine ⟨users,groups,members.trans ?_,done.trans ?_⟩
      · simp [Db.insertMember]
      · rw [List.cons.injEq]
        exact ⟨fun all => ⟨rfl,all⟩,And.right⟩

theorem writtenAll {q : Sqlite} {names : List String} {n : Nat} {taken : List String} :
    written q n taken names = names ↔
      (∀ i < names.length, q.fails (n + i) = false) ∧ names.Nodup ∧ ∀ m ∈ names, m ∉ taken := by
  induction names generalizing n taken with
  | nil => simp [written]
  | cons m rest ih =>
    by_cases stops : q.fails n = true ∨ m ∈ taken
    · rw [written,if_pos stops]
      refine ⟨by simp,?_⟩
      intro all
      obtain ⟨sound,-,new⟩ := all
      have first := sound 0 (Nat.succ_pos _)
      rcases stops with fault | repeated
      · exact absurd (fault.symm.trans first) (by simp)
      · exact absurd repeated (new m List.mem_cons_self)
    · obtain ⟨sound,new⟩ := not_or.mp stops
      rw [written,if_neg stops,List.cons.injEq,ih,List.nodup_cons]
      constructor
      · intro whole
        obtain ⟨-,later,distinct,apart⟩ := whole
        refine ⟨?_,⟨fun again => apart m again List.mem_cons_self,distinct⟩,?_⟩
        · intro i before
          cases i with
          | zero => simpa using sound
          | succ i =>
            rw [← Nat.add_assoc,Nat.add_right_comm]
            exact later i (Nat.lt_of_succ_lt_succ before)
        · intro x inside
          rcases List.mem_cons.mp inside with rfl | there
          · exact new
          · exact fun old => apart x there (List.mem_cons_of_mem _ old)
      · intro whole
        obtain ⟨all,⟨once,distinct⟩,apart⟩ := whole
        refine ⟨rfl,?_,distinct,?_⟩
        · intro i before
          have next := all (i + 1) (Nat.succ_lt_succ before)
          rwa [← Nat.add_assoc,Nat.add_right_comm] at next
        · intro x inside old
          rcases List.mem_cons.mp old with rfl | older
          · exact once inside
          · exact apart x (List.mem_cons_of_mem _ inside) older

def leaves (q : Sqlite) (g : Group) : List String := if q.fails 1 = true then [] else written q 2 [] g.members

def others (externalId : String) (members : List MemberRow) : List MemberRow :=
  members.filter (fun m => m.group ≠ externalId)

theorem storeGroupRefused {q : Sqlite} {g : Group} {db : Db} (fault : q.fails 0 = true) :
    within q 0 (storeGroup g) db = (.error (.error (.sqlite .failure)),db) :=
  withinFails (by simp [execute,fault])

theorem storeGroupLeaves {q : Sqlite} {g : Group} {db : Db} (sound : q.fails 0 = false) :
    (within q 0 (storeGroup g) db).2.users = db.users ∧
    (within q 0 (storeGroup g) db).2.groups = UniqueTable.insertOrReplace db.groups (groupRow g (q.clock 0)) ∧
    (within q 0 (storeGroup g) db).2.members =
      (db.insertOrReplaceGroup g (q.clock 0)).members ++ (leaves q g).map (MemberRow.mk g.externalId) ∧
    ((within q 0 (storeGroup g) db).1 = .ok () ↔ q.fails 1 = false ∧ written q 2 [] g.members = g.members) := by
  have replaced : exec (q.clock 0) db (.insertOrReplaceGroup g) = .ok ((),db.insertOrReplaceGroup g (q.clock 0)) := rfl
  have gone (m : String) : (⟨g.externalId,m⟩ : MemberRow) ∉ (db.insertOrReplaceGroup g (q.clock 0)).members := by
    intro inside
    obtain ⟨-,row,kept,same⟩ := memCascade.mp inside
    exact absurd same (UniqueTable.memClear.mp kept).2.1
  rw [storeGroup,withinRuns sound replaced]
  cases fault : q.fails 1 with
  | true =>
    have failed : execute (q.clock 1) (q.fails 1) (db.insertOrReplaceGroup g (q.clock 0)) (.deleteMembers g.externalId) =
        (.error .failure,db.insertOrReplaceGroup g (q.clock 0)) := by simp [execute,fault]
    rw [withinFails failed,leaves,if_pos fault]
    exact ⟨rfl,rfl,(List.append_nil _).symm,by simp⟩
  | false =>
    have deleted : exec (q.clock 1) (db.insertOrReplaceGroup g (q.clock 0)) (.deleteMembers g.externalId) =
        .ok ((),(db.insertOrReplaceGroup g (q.clock 0)).deleteMembers (fun m => m.group == g.externalId)) := rfl
    have nothing : ((db.insertOrReplaceGroup g (q.clock 0)).deleteMembers (fun m => m.group == g.externalId)).members =
        (db.insertOrReplaceGroup g (q.clock 0)).members := by
      refine List.filter_eq_self.mpr ?_
      intro row inside
      obtain ⟨group,m⟩ := row
      by_cases same : group = g.externalId
      · subst same
        exact absurd inside (gone m)
      · simpa using same
    have parent : ∃ row ∈ ((db.insertOrReplaceGroup g (q.clock 0)).deleteMembers
        (fun m => m.group == g.externalId)).groups.rows, row.externalId = g.externalId :=
      ⟨groupRow g (q.clock 0),UniqueTable.memInsertOrReplace.mpr (.inl rfl),rfl⟩
    obtain ⟨users,groups,members,done⟩ : _ ∧ _ ∧ _ ∧ ((within q 2 (insertMembers g.externalId g.members) _).1 = .ok () ↔
        written q 2 [] g.members = g.members) := insertsWritten parent fun m => by
      rw [nothing]
      exact ⟨fun inside => absurd inside (gone m),by simp⟩
    rw [withinRuns fault deleted,leaves,if_neg (by simp [fault])]
    exact ⟨users,groups,members.trans (by rw [nothing]),done.trans ⟨fun all => ⟨rfl,all⟩,And.right⟩⟩

/- A call that writes again what was written last. -/
structure Redundant (q : Sqlite) (g : Group) (db : Db) : Prop where
  row : UniqueTable.newest db.groups = some (groupRow g (q.clock 0))
  members : db.members = others g.externalId db.members ++ (leaves q g).map (MemberRow.mk g.externalId)

theorem cascadeNewest {db : Db} {g : Group} {t : Int} (newest : UniqueTable.newest db.groups = some (groupRow g t)) :
    (db.insertOrReplaceGroup g t).members = others g.externalId db.members := by
  obtain ⟨front,split⟩ := List.getLast?_eq_some_iff.mp newest
  refine List.filter_congr fun m inside => ?_
  rw [UniqueTable.clearNewest split,decide_not]
  by_cases same : m.group = g.externalId
  · rw [same,decide_eq_true rfl]
    refine List.any_eq_false.mpr fun row there => ?_
    have differs : row.externalId ≠ g.externalId := UniqueTable.frontDiffers (split ▸ db.groups.keys) there
    simpa using differs
  · rw [decide_eq_false same]
    obtain ⟨row,there,parent⟩ := db.parents m inside
    rw [split] at there
    rcases List.mem_append.mp there with earlier | last
    · exact List.any_eq_true.mpr ⟨row,earlier,by simpa using parent⟩
    · rw [List.mem_singleton.mp last] at parent
      exact absurd parent.symm same

structure Unchanged (db db' : Db) : Prop where
  gidCache : db'.groups = db.groups
  groupMembers : db'.members = db.members

theorem storeGroupKeeps {q : Sqlite} {g : Group} {db : Db} (sound : q.fails 0 = false) :
    Unchanged db (within q 0 (storeGroup g) db).2 ↔ Redundant q g db := by
  obtain ⟨-,groups,members,-⟩ : (within q 0 (storeGroup g) db).2.users = _ ∧ _ := storeGroupLeaves sound
  constructor
  · intro same
    obtain ⟨sameGroups,sameMembers⟩ := same
    have newest := UniqueTable.insertOrReplaceSame.mp (groups.symm.trans sameGroups)
    rw [members,cascadeNewest newest] at sameMembers
    exact ⟨newest,sameMembers.symm⟩
  · intro redundant
    obtain ⟨newest,same⟩ := redundant
    rw [cascadeNewest newest] at members
    exact ⟨groups.trans (UniqueTable.insertOrReplaceSame.mpr newest),members.trans same.symm⟩

theorem sameDb {db db' : Db} (users : db'.users = db.users) (same : Unchanged db db') : db' = db := by
  obtain ⟨groups,members⟩ := same
  cases db
  cases db'
  cases users
  cases groups
  cases members
  rfl

structure Complete (q : Sqlite) (g : Group) : Prop where
  sound : ∀ i < 2 + g.members.length, q.fails i = false
  distinct : g.members.Nodup

theorem storeGroupOk {q : Sqlite} {g : Group} {db : Db} :
    (within q 0 (storeGroup g) db).1 = .ok () ↔ Complete q g := by
  cases fault : q.fails 0 with
  | true =>
    rw [storeGroupRefused fault]
    refine ⟨by simp,fun complete => ?_⟩
    exact absurd (fault.symm.trans (complete.sound 0 (by omega))) (by simp)
  | false =>
    refine (storeGroupLeaves fault).2.2.2.trans ?_
    rw [writtenAll]
    constructor
    · intro whole
      obtain ⟨deletes,inserts,distinct,-⟩ := whole
      refine ⟨fun i before => ?_,distinct⟩
      rcases i with _ | _ | i
      · exact fault
      · exact deletes
      · have here := inserts i (by omega)
        rwa [Nat.add_comm] at here
    · intro complete
      obtain ⟨sound,distinct⟩ := complete
      exact ⟨sound 1 (by omega),fun i before => sound (2 + i) (by omega),distinct,by simp⟩

/- A call that returns `Err` keeps both tables, if and only if there is no such call, or it
fails at its first statement, or it had nothing to change. Then the whole database is kept,
and with it every later answer. -/
theorem storeGroupAtomic (q : Sqlite) (g : Group) (db : Db) :
    ((∀ h, (within q 0 (storeGroup g) db).1 = .error h → Unchanged db (within q 0 (storeGroup g) db).2) ↔
      Complete q g ∨ q.fails 0 = true ∨ Redundant q g db) ∧
    (Unchanged db (within q 0 (storeGroup g) db).2 → (within q 0 (storeGroup g) db).2 = db) := by
  cases fault : q.fails 0 with
  | true =>
    rw [storeGroupRefused fault]
    exact ⟨⟨fun _ => .inr (.inl rfl),fun _ _ _ => ⟨rfl,rfl⟩⟩,fun _ => rfl⟩
  | false =>
    refine ⟨?_,sameDb (storeGroupLeaves fault).1⟩
    constructor
    · intro keeps
      cases out : (within q 0 (storeGroup g) db).1 with
      | ok u => exact .inl (storeGroupOk.mp out)
      | error h => exact .inr (.inr ((storeGroupKeeps fault).mp (keeps h out)))
    · intro condition h failed
      rcases condition with complete | never | redundant
      · rw [storeGroupOk.mpr complete] at failed
        cases failed
      · cases never
      · exact (storeGroupKeeps fault).mpr redundant

def staff (members : List String) : ScimGroup := ⟨"g2","staff",members.map (fun m => ⟨m,some m⟩)⟩

def answering (scimGroup : ScimGroup) : Replies
  | .groupByName _ => .ok (some scimGroup)
  | _ => .error .http

def lookedUp (t : Int) (members : List String) (db : Db) : Except (Halt ServiceError) (Option Group) × Db :=
  alone t (answering (staff members)) (lookupGroupByName release fourSlots "staff") db

def before : Db := (lookedUp 0 ["alice","bob"] empty).2

def torn : Db := (lookedUp 10 ["alice","alice"] before).2

theorem storeGroupTorn :
    (∃ q g, (within q 0 (storeGroup g) before).1 = .error (.error (.sqlite .constraint)) ∧
      ¬Unchanged before (within q 0 (storeGroup g) before).2) ∧
    (lookedUp 10 ["alice","alice"] before).1 = .error (.error (.cache (.sqlite .constraint))) ∧
    (alone 20 offline (lookupGroupByName release fourSlots "staff") before).1 =
      .ok (some ⟨"g2","staff",1000,["alice","bob"]⟩) ∧
    (alone 20 offline (lookupGroupByName release fourSlots "staff") torn).1 =
      .ok (some ⟨"g2","staff",1000,["alice"]⟩) ∧
    (alone 20 offline (lookupGroupsForUser release fourSlots "bob") before).1 = .ok [1000] ∧
    (alone 20 offline (lookupGroupsForUser release fourSlots "bob") torn).1 = .ok [] := by
  refine ⟨⟨⟨fun _ => 10,fun _ => false⟩,⟨"g2","staff",1000,["alice","alice"]⟩,by decide +kernel,?_⟩,
    by decide +kernel,by decide +kernel,by decide +kernel,by decide +kernel,by decide +kernel⟩
  intro same
  have members : (within ⟨fun _ => 10,fun _ => false⟩ 0 (storeGroup ⟨"g2","staff",1000,["alice","alice"]⟩) before).2.members =
      [⟨"g2","alice"⟩] := by decide +kernel
  rw [same.groupMembers] at members
  exact absurd members (by decide +kernel)

end SssdOidc.Atomicity
