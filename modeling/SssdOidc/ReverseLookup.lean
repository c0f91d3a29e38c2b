import SssdOidc.Stability

/-! What a store leaves behind: its own row until that expires, and every row of another
id. A group brings its members along, and loses them only with its row. -/
namespace SssdOidc.ReverseLookup
open Model Database Mapping Program Cache Service SssdOidc.System Protocol Conformance History Solo Stability
open Runs (Reach replay)

variable {b : Build} {config : Config} {may : Sys → Label → Prop} {db0 : Db} {now0 : Int}

def purgeTtl : Stmt → Option Ttl
  | .purgeMembers ttl => some ttl
  | .purgeGroups ttl => some ttl
  | .purgeUsers ttl => some ttl
  | _ => none

/- One process, whose purges use the TTL of the cache. -/
def Proper (config : Config) (s : Sys) (l : Label) : Prop :=
  Single l ∧ ∀ st ∈ issues s l, ∀ ttl ∈ purgeTtl st, ttl = config.cache.ttlSeconds
instance (s : Sys) (l : Label) : Decidable (Proper config s l) := by unfold Proper; infer_instance

theorem liveWithin {t t' : Int} {ttl : Ttl} (young : t' < t + ttl.seconds) : live t' ttl t = true := by
  simp only [live,decide_eq_true_eq]
  omega

theorem purgeSpares {s l s' t st ttl cachedAt} (proper : Proper config s l) (move : Move b config s l s')
    (runs : executes s l = some (t,st)) (purges : purgeTtl st = some ttl)
    (young : s'.now < cachedAt + config.cache.ttlSeconds.seconds) : live t ttl cachedAt = true := by
  have own := proper.2 st (executesIssues runs) ttl purges
  rw [executesNow move runs] at young
  rw [own]
  exact liveWithin young

theorem userKept {s l s'} {row : UserRow} (proper : Proper config s l) (conf : Conforms b config s)
    (told : Reflected s) (move : Move b config s l s') (inside : row ∈ s.db.users.rows)
    (other : ∀ t u, executes s l = some (t,.insertOrReplaceUser u) → u.externalId ≠ row.externalId)
    (young : s'.now < row.cachedAt + config.cache.ttlSeconds.seconds) : row ∈ s'.db.users.rows := by
  cases effect conf move with
  | quiet same => exact same ▸ inside
  | ran op tr t st k r chosen at' allowed ok =>
    have runs := ranExecutes chosen at'
    have after := executesDb move runs
    cases quiet : st.writesUsers with
    | false => rwa [execUsers quiet ok]
    | true =>
      cases st <;> cases quiet
      case insertOrReplaceUser.refl u =>
        have free := (singleStores (c := .uid) proper.1 told at' allowed rfl).stop
        rw [after]
        exact UniqueTable.keptInsertOrReplace inside (other t u runs).symm free
      case purgeUsers.refl ttl =>
        rw [after]
        refine UniqueTable.memDelete.mpr ⟨inside,?_⟩
        simp [purgeSpares proper move runs rfl young]

theorem lookupByUid {db : Db} {row : UserRow} {t : Int} {reply : Replies} (inside : row ∈ db.users.rows)
    (young : t < row.cachedAt + config.cache.ttlSeconds.seconds) :
    alone t reply (lookupUserByUid config row.uid) db = (.ok (some row.user),db) := by
  have found : db.users.rows.find? (fun r => r.uid == row.uid && live t config.cache.ttlSeconds r.cachedAt) =
      some row := UniqueTable.findSlot inside (liveWithin young)
  have ran : exec t db (.selectUserByUid row.uid config.cache.ttlSeconds) = .ok (some row.user,db) := by
    simp only [exec,found,Option.map_some]
  exact aloneCached (aloneSql ran)

def concerns (externalId : String) : Stmt → Bool
  | .insertOrReplaceGroup g => g.externalId == externalId
  | .deleteMembers group => group == externalId
  | .insertMember group _ => group == externalId
  | _ => false

structure Holds (row : GroupRow) (names : List String) (db : Db) : Prop where
  present : row ∈ db.groups.rows
  members : ∀ m, (⟨row.externalId,m⟩ : MemberRow) ∈ db.members ↔ m ∈ names

theorem holdsPurged {row names} {db : Db} {gone : GroupRow → Bool} (holds : Holds row names db)
    (stays : gone row = false) : Holds row names (db.deleteGroups gone) := by
  have kept : row ∈ (db.deleteGroups gone).groups.rows := UniqueTable.memDelete.mpr ⟨holds.present,stays⟩
  refine ⟨kept,?_⟩
  intro m
  refine (memCascade.trans ?_).trans (holds.members m)
  exact ⟨And.left,fun inside => ⟨inside,row,kept,rfl⟩⟩

theorem holdsReplaced {row names g} {db : Db} {t : Int} (holds : Holds row names db)
    (foreign : g.externalId ≠ row.externalId)
    (free : Probing.Open (db.owners .gid) g.externalId g.gid) : Holds row names (db.insertOrReplaceGroup g t) := by
  have kept : row ∈ (db.insertOrReplaceGroup g t).groups.rows :=
    UniqueTable.keptInsertOrReplace holds.present foreign.symm free
  have spared : row ∈ UniqueTable.clear GroupRow.externalId GroupRow.gid db.groups.rows (groupRow g t) := by
    rcases List.mem_append.mp kept with here | last
    · exact here
    · rw [List.mem_singleton.mp last] at foreign
      exact absurd rfl foreign
  refine ⟨kept,?_⟩
  intro m
  refine (memCascade.trans ?_).trans (holds.members m)
  exact ⟨And.left,fun inside => ⟨inside,row,spared,rfl⟩⟩

theorem holdsDeleted {row names} {db : Db} {gone : MemberRow → Bool} (holds : Holds row names db)
    (others : ∀ m, gone ⟨row.externalId,m⟩ = false) : Holds row names (db.deleteMembers gone) := by
  refine ⟨holds.present,?_⟩
  intro m
  have stays := others m
  refine Iff.trans ?_ (holds.members m)
  simp [Db.deleteMembers,stays]

theorem holdsInserted {row names m'} {db : Db} (holds : Holds row names db) (may : db.MayInsertMember m')
    (foreign : m'.group ≠ row.externalId) : Holds row names (db.insertMember m' may) := by
  refine ⟨holds.present,?_⟩
  intro m
  refine Iff.trans ?_ (holds.members m)
  simp only [Db.insertMember,List.mem_append,List.mem_singleton]
  constructor
  · rintro (old | rfl)
    · exact old
    · exact absurd rfl foreign
  · exact .inl

theorem holdsSame {row names} {db db' : Db} (holds : Holds row names db) (groups : db'.groups = db.groups)
    (members : db'.members = db.members) : Holds row names db' :=
  ⟨groups ▸ holds.present,fun m => members ▸ holds.members m⟩

theorem holdsForeign {row names} {db db' : Db} {t : Int} {st : Stmt} {r : st.Resp} (holds : Holds row names db)
    (ok : exec t db st = .ok (r,db')) (foreign : concerns row.externalId st = false)
    (free : ∀ g, st = .insertOrReplaceGroup g → Probing.Open (db.owners .gid) g.externalId g.gid)
    (spared : ∀ ttl, purgeTtl st = some ttl → live t ttl row.cachedAt = true) : Holds row names db' := by
  cases st with
  | insertOrReplaceGroup g =>
    cases ok
    exact holdsReplaced holds (by simpa [concerns] using foreign) (free g rfl)
  | deleteMembers externalId =>
    have apart : externalId ≠ row.externalId := by simpa [concerns] using foreign
    cases ok
    exact holdsDeleted holds fun m => by simpa using apart.symm
  | insertMember externalId member =>
    have apart : externalId ≠ row.externalId := by simpa [concerns] using foreign
    simp only [exec] at ok
    split at ok <;> cases ok
    exact holdsInserted holds (by assumption) apart
  | purgeMembers ttl =>
    cases ok
    refine holdsDeleted holds fun m => ?_
    refine List.any_eq_false.mpr fun g inside => ?_
    by_cases same : g.externalId = row.externalId
    · rw [UniqueTable.sameKey db.groups inside holds.present same]
      simp [spared ttl rfl]
    · simp [same]
  | purgeGroups ttl =>
    cases ok
    exact holdsPurged holds (by simp [spared ttl rfl])
  | _ => exact holdsSame holds (execGroups rfl ok) (execMembers rfl ok)

theorem groupKept {s l s' row names} (proper : Proper config s l) (conf : Conforms b config s)
    (told : Reflected s) (move : Move b config s l s') (holds : Holds row names s.db)
    (other : ∀ t st, executes s l = some (t,st) → concerns row.externalId st = false)
    (young : s'.now < row.cachedAt + config.cache.ttlSeconds.seconds) : Holds row names s'.db := by
  cases effect conf move with
  | quiet same => exact same ▸ holds
  | ran op tr t st k r chosen at' allowed ok =>
    have runs := ranExecutes chosen at'
    refine holdsForeign holds ok (other t st runs) ?_ (fun ttl purges => purgeSpares proper move runs purges young)
    rintro g rfl
    exact (singleStores (c := .gid) proper.1 told at' allowed rfl).stop

theorem lookupByGid {db : Db} {row : GroupRow} {names} {t : Int} {reply : Replies} (holds : Holds row names db)
    (young : t < row.cachedAt + config.cache.ttlSeconds.seconds) :
    ∃ ms, alone t reply (lookupGroupByGid config row.gid) db =
        (.ok (some ⟨row.externalId,row.name,row.gid,ms⟩),db) ∧ ∀ m, m ∈ ms ↔ m ∈ names := by
  have found : db.groups.rows.find? (fun r => r.gid == row.gid && live t config.cache.ttlSeconds r.cachedAt) =
      some row := UniqueTable.findSlot holds.present (liveWithin young)
  refine ⟨(listed db row).members,?_,?_⟩
  · rw [aloneByGid,found]
    rfl
  · exact fun m => memMembersOf.trans (holds.members m)

/- How far `store_group` has come: `none` before the old members are deleted. -/
inductive Writing (g : Group) (t : Int) : Option (List String) → Trace calls → Prop where
  | stored {tr} : Writing g t none (⟨t,.sql (.insertOrReplaceGroup g),.ok ()⟩ :: tr)
  | cleared {t' tr} (before : Writing g t none tr) :
      Writing g t (some []) (⟨t',.sql (.deleteMembers g.externalId),.ok ()⟩ :: tr)
  | wrote {names m t' tr} (before : Writing g t (some names) tr) :
      Writing g t (some (names ++ [m])) (⟨t',.sql (.insertMember g.externalId m),.ok ()⟩ :: tr)

def writing (g : Group) : Trace calls → Option (Int × Option (List String))
  | ⟨t,.sql (.insertOrReplaceGroup g'),.ok _⟩ :: _ => if g' = g then some (t,none) else none
  | ⟨_,.sql (.deleteMembers group),.ok _⟩ :: tr =>
      match writing g tr with
      | some (t,none) => if group = g.externalId then some (t,some []) else none
      | _ => none
  | ⟨_,.sql (.insertMember group m),.ok _⟩ :: tr =>
      match writing g tr with
      | some (t,some names) => if group = g.externalId then some (t,some (names ++ [m])) else none
      | _ => none
  | _ => none

theorem writingSound {g tr t names} (done : writing g tr = some (t,names)) : Writing g t names tr := by
  fun_induction writing g tr generalizing t names with
  | case1 =>
    cases done
    exact .stored
  | case3 =>
    rename_i before answer ih
    cases done
    exact .cleared (ih before)
  | case6 =>
    rename_i before answer ih
    cases done
    exact .wrote (ih before)
  | _ => cases done

theorem storeGroupWrites (g : Group) (tr : Trace calls) :
    Follows (fun _ _ => True) (fun tr' r => r = .ok () → ∃ t, Writing g t (some g.members) tr') (storeGroup g) tr := by
  have inserts (t : Int) (rest : List String) : ∀ front tr, g.members = front ++ rest → Writing g t (some front) tr →
      Follows (fun _ _ => True) (fun tr' r => r = .ok () → ∃ t, Writing g t (some g.members) tr')
        (insertMembers g.externalId rest) tr := by
    induction rest with
    | nil =>
      intro front tr split writing _
      exact ⟨t,by rw [split,List.append_nil]; exact writing⟩
    | cons m rest ih =>
      intro front tr split writing
      refine followsSql trivial (fun t e never => nomatch never) fun t' r => ?_
      exact ih (front ++ [m]) _ (by simp [split]) (.wrote writing)
  refine followsSql trivial (fun t e never => nomatch never) fun t r => ?_
  refine followsSql trivial (fun t e never => nomatch never) fun t' r => ?_
  exact inserts t g.members [] _ rfl (.cleared .stored)

theorem writingTodo {g t names tr} (writing : Writing g t names tr) : todo tr =
    match names with
    | none => .deleteMembers g.externalId :: g.members.map (.insertMember g.externalId)
    | some written => (g.members.drop written.length).map (.insertMember g.externalId) := by
  induction writing with
  | stored => rfl
  | cleared before ih => simp [todo,ih]
  | wrote before ih => simp [todo,ih,List.tail_drop]

def Written (s : Sys) : Prop := ∀ op tr prog, s.procs 0 = .running op tr prog →
  ∀ g t names, Writing g t names tr → Holds (groupRow g t) (names.getD []) s.db

theorem holdsStored (db : Db) (g : Group) (t : Int) : Holds (groupRow g t) [] (db.insertOrReplaceGroup g t) := by
  refine ⟨UniqueTable.memInsertOrReplace.mpr (.inl rfl),?_⟩
  intro m
  refine ⟨?_,fun never => nomatch never⟩
  intro inside
  obtain ⟨-,row,kept,same⟩ := memCascade.mp inside
  exact absurd same (UniqueTable.memClear.mp kept).2.1

theorem holdsCleared {row names} {db : Db} (holds : Holds row names db) :
    Holds row [] (db.deleteMembers (fun m => m.group == row.externalId)) := by
  refine ⟨holds.present,?_⟩
  intro m
  simp [Db.deleteMembers]

theorem holdsWrote {row names name} {db : Db} (holds : Holds row names db)
    (may : db.MayInsertMember ⟨row.externalId,name⟩) :
    Holds row (names ++ [name]) (db.insertMember ⟨row.externalId,name⟩ may) := by
  refine ⟨holds.present,?_⟩
  intro m
  simp only [Db.insertMember,List.mem_append,List.mem_singleton,MemberRow.mk.injEq,true_and]
  exact or_congr_left (holds.members m)

theorem writtenStep {s l s'} (single : Single l) (inv : Written s) (move : Move b config s l s') : Written s' := by
  intro op tr prog at' g t names writing
  cases arrived b config move at' with
  | stayed other there => exact absurd single.symm other
  | started mine db => cases writing
  | heard t r reply chosen fits before db log => cases writing
  | @ran tr st cont t' fault chosen before db log =>
    rw [db]
    rcases executeCases t' fault s.db st with ⟨e,failed⟩ | ⟨rfl,r,db',ok,done⟩
    · rw [failed] at writing
      cases writing
    · rw [done] at writing ⊢
      cases writing with
      | stored =>
        cases ok
        exact holdsStored s.db g t
      | @cleared t' tr old =>
        have holds := inv _ _ _ before g t none old
        cases ok
        exact holdsCleared holds
      | @wrote front m t' tr old =>
        have holds := inv _ _ _ before g t (some front) old
        simp only [exec] at ok
        split at ok <;> cases ok
        exact holdsWrote holds (by assumption)

theorem written {s} (proper : ∀ s l, may s l → Single l) (run : Reach (step b config) may (fresh db0 now0) s) :
    Written s := by
  refine moveInvariant Written (by intro op tr prog at'; cases at') ?_ run
  intro s l s' _ inv chosen move
  exact writtenStep (proper s l chosen) inv move

def NotStored (c : Column) (externalId : String) (s : Sys) (l : Label) : Prop :=
  ∀ e ∈ executes s l, ∀ entry ∈ e.2.stores c, entry.1 ≠ externalId
instance (c : Column) (externalId : String) (s : Sys) (l : Label) : Decidable (NotStored c externalId s l) := by
  unfold NotStored; infer_instance

def TodoFree (externalId : String) (s : Sys) : Prop := ∀ op tr prog, s.procs 0 = .running op tr prog →
  ∀ st ∈ todo tr, concerns externalId st = false

theorem todoCons {e : Event calls} {tr st} (inside : st ∈ todo (e :: tr)) : st ∈ todo tr ∨
    ∃ t g, e = ⟨t,.sql (.insertOrReplaceGroup g),.ok ()⟩ ∧ ∀ externalId, concerns externalId st = (g.externalId == externalId) := by
  unfold todo at inside
  split at inside
  · rename_i t g r rest same
    cases same
    refine .inr ⟨t,g,rfl,fun externalId => ?_⟩
    rcases List.mem_cons.mp inside with rfl | insert
    · rfl
    · obtain ⟨m,-,rfl⟩ := List.mem_map.mp insert
      rfl
  · rename_i same
    cases same
    exact .inl (List.mem_of_mem_tail inside)
  · rename_i same
    cases same
    exact .inl (List.mem_of_mem_tail inside)
  · cases inside

/- A statement that a process has still to make, to end the `store_group` that it is in. -/
def Due (s : Sys) (p : Nat) (st : Stmt) : Prop := ∃ op tr prog, s.procs p = .running op tr prog ∧ st ∈ todo tr

theorem dueBegun {s l s' st} (move : Move b config s l s') (due : Due s' l.pid st) : Due s l.pid st ∨
    ∃ t' g, executes s l = some (t',.insertOrReplaceGroup g) ∧ ∀ k, concerns k st = (g.externalId == k) := by
  obtain ⟨op,tr,prog,at',inside⟩ := due
  cases arrived b config move at' with
  | stayed other there => exact absurd rfl other
  | started mine db => cases inside
  | heard t' r reply chosen fits before db log =>
    rcases todoCons inside with old | ⟨t'',g,never,-⟩
    · exact .inl ⟨_,_,_,before,old⟩
    · cases never
  | @ran _ st' _ t' fault chosen before db log =>
    rcases todoCons inside with old | ⟨t'',g,same,about⟩
    · exact .inl ⟨_,_,_,before,old⟩
    · rcases executeCases t' fault s.db st' with ⟨e,failed⟩ | ⟨rfl,r,db',ok,done⟩
      · rw [failed] at same
        cases same
      · rw [done] at same
        cases same
        exact .inr ⟨t',g,ranExecutes chosen before,about⟩

theorem todoFreeStep {s l s' externalId} (single : Single l) (inv : TodoFree externalId s)
    (other : NotStored .gid externalId s l) (move : Move b config s l s') : TodoFree externalId s' := by
  intro op tr prog at' st inside
  have here : l.pid = 0 := single
  rcases dueBegun move ⟨op,tr,prog,here ▸ at',inside⟩ with before | ⟨t,g,runs,about⟩
  · obtain ⟨op',tr',prog',there,old⟩ := before
    exact inv op' tr' prog' (here ▸ there) st old
  · have foreign : g.externalId ≠ externalId := other _ runs _ rfl
    rw [about externalId]
    simpa using foreign

theorem executedForeign {s l t st externalId} (single : Single l) (conf : Conforms b config s)
    (inv : TodoFree externalId s) (other : NotStored .gid externalId s l) (runs : executes s l = some (t,st)) :
    concerns externalId st = false := by
  obtain ⟨op,tr,cont,at',allowed⟩ := executesAllowed conf runs
  rw [single] at at'
  have due := inv _ _ _ at'
  cases st with
  | insertOrReplaceGroup g =>
    have foreign : g.externalId ≠ externalId := other _ runs _ rfl
    simpa [concerns] using foreign
  | deleteMembers group => exact due _ (List.mem_of_mem_head? allowed)
  | insertMember group member => exact due _ (List.mem_of_mem_head? allowed)
  | _ => rfl

theorem usersLast {s1 s2} {row : UserRow} (first : Reach (step b config) (Proper config) (fresh db0 now0) s1)
    (present : row ∈ s1.db.users.rows)
    (onward : Reach (step b config) (fun s l => Proper config s l ∧ NotStored .uid row.externalId s l) s1 s2)
    (young : s2.now < row.cachedAt + config.cache.ttlSeconds.seconds) : row ∈ s2.db.users.rows := by
  refine moveInvariantUntil _ (fun s => row ∈ s.db.users.rows) present ?_ onward young
  intro s l s' sofar inv chosen move young
  have whole := Runs.reachTrans first (Runs.reachMono (fun _ _ => And.left) sofar)
  refine userKept chosen.1 (conforms whole) (reflected (fun _ _ => And.left) whole) move inv ?_ young
  intro t u runs
  exact chosen.2 _ runs _ rfl

theorem groupsLast {s1 s2} {row : GroupRow} {names} (first : Reach (step b config) (Proper config) (fresh db0 now0) s1)
    (holds : Holds row names s1.db) (done : TodoFree row.externalId s1)
    (onward : Reach (step b config) (fun s l => Proper config s l ∧ NotStored .gid row.externalId s l) s1 s2)
    (young : s2.now < row.cachedAt + config.cache.ttlSeconds.seconds) : Holds row names s2.db := by
  refine (moveInvariantUntil _ (fun s => TodoFree row.externalId s ∧ Holds row names s.db) ⟨done,holds⟩ ?_ onward young).2
  intro s l s' sofar inv chosen move young
  have whole := Runs.reachTrans first (Runs.reachMono (fun _ _ => And.left) sofar)
  have conf := conforms whole
  refine ⟨todoFreeStep chosen.1.1 inv.1 chosen.2 move,?_⟩
  refine groupKept chosen.1 conf (reflected (fun _ _ => And.left) whole) move inv.2 ?_ young
  intro t st runs
  exact executedForeign chosen.1.1 conf inv.1 chosen.2 runs

theorem reverseLookup (b : Build) (config : Config) (db0 : Db) (now0 t : Int) :
    (∀ u s l s1, Reach (step b config) (Proper config) (fresh db0 now0) s → Proper config s l →
      step b config s l = some s1 → executes s l = some (t,.insertOrReplaceUser u) →
      ∀ s2, Reach (step b config) (fun s l => Proper config s l ∧ NotStored .uid u.externalId s l) s1 s2 →
      ∀ t' reply, s2.now ≤ t' → t' < t + config.cache.ttlSeconds.seconds →
        alone t' reply (lookupUserByUid config u.uid) s2.db = (.ok (some u),s2.db)) ∧
    (∀ g s1 op tr prog, Reach (step b config) (Proper config) (fresh db0 now0) s1 →
      s1.procs 0 = .running op tr prog → Writing g t (some g.members) tr →
      ∀ s2, Reach (step b config) (fun s l => Proper config s l ∧ NotStored .gid g.externalId s l) s1 s2 →
      ∀ t' reply, s2.now ≤ t' → t' < t + config.cache.ttlSeconds.seconds →
        ∃ ms, alone t' reply (lookupGroupByGid config g.gid) s2.db =
          (.ok (some ⟨g.externalId,g.name,g.gid,ms⟩),s2.db) ∧ ∀ m, m ∈ ms ↔ m ∈ g.members) := by
  constructor
  · intro u s l s1 before proper move runs s2 onward t' reply later young
    have stored : s1.db = s.db.insertOrReplaceUser u t := executesDb (stepMove b config move) runs
    have present : userRow u t ∈ s1.db.users.rows := stored ▸ UniqueTable.memInsertOrReplace.mpr (.inl rfl)
    have last := usersLast (.next before l proper move) present onward (Int.lt_of_le_of_lt later young)
    have found : alone t' reply (lookupUserByUid config (userRow u t).uid) s2.db = _ := lookupByUid last young
    exact found
  · intro g s1 op tr prog before at' writing s2 onward t' reply later young
    have holds : Holds (groupRow g t) g.members s1.db := written (fun _ _ => And.left) before _ _ _ at' g t _ writing
    have done : TodoFree g.externalId s1 := by
      intro op' tr' prog' there st inside
      rw [at'] at there
      cases there
      simp [writingTodo writing] at inside
    have last := groupsLast before holds done onward (Int.lt_of_le_of_lt later young)
    have found : ∃ ms, alone t' reply (lookupGroupByGid config (groupRow g t).gid) s2.db = _ ∧ _ := lookupByGid last young
    exact found

def two : User := ⟨"u2","two",1001,1001,"","/home/two","/bin/bash",true⟩

def staff : Group := ⟨"g1","staff",1002,["alice","bob"]⟩

def scimStaff : ScimGroup := ⟨"g1","staff",[⟨"u1",some "alice"⟩,⟨"u5",none⟩,⟨"u6",some "bob"⟩]⟩

def meanwhile (statements : Nat) : List Label :=
  [.finish 0] ++
  whole 0 (.lookupUserByName "three") 10 (some (.user (some (scimUser "u3" "three")))) statements ++
  whole 0 .new 3599 none 3

theorem reverseLookupExamples :
    (∃ s s1 s2, replay (step release fourSlots) (Proper fourSlots) (fresh empty 0)
        ((whole 0 (.lookupUserByName "two") 0 (some (.user (some (scimUser "u2" "two")))) 3).take 4) = some s ∧
      step release fourSlots s (.sql 0 0 false) = some s1 ∧
      replay (step release fourSlots) (fun s l => Proper fourSlots s l ∧ NotStored .uid two.externalId s l) s1
        (meanwhile 4) = some s2 ∧
      alone 3599 offline (lookupUserByUid fourSlots two.uid) s2.db = (.ok (some two),s2.db)) ∧
    (∃ s1 s2, replay (step release fourSlots) (Proper fourSlots) (fresh empty 0)
        (whole 0 (.lookupGroupByName "staff") 0 (some (.group (some scimStaff))) 5).dropLast = some s1 ∧
      replay (step release fourSlots) (fun s l => Proper fourSlots s l ∧ NotStored .gid staff.externalId s l) s1
        (meanwhile 3) = some s2 ∧
      ∃ ms, alone 3599 offline (lookupGroupByGid fourSlots staff.gid) s2.db =
        (.ok (some ⟨staff.externalId,staff.name,staff.gid,ms⟩),s2.db) ∧
        ∀ m, m ∈ ms ↔ m ∈ staff.members) := by
  have first : ((replay (step release fourSlots) (Proper fourSlots) (fresh empty 0)
      ((whole 0 (.lookupUserByName "two") 0 (some (.user (some (scimUser "u2" "two")))) 3).take 4)).bind (fun s =>
        (step release fourSlots s (.sql 0 0 false)).bind (fun s1 =>
          (replay (step release fourSlots) (fun s l => Proper fourSlots s l ∧ NotStored .uid two.externalId s l) s1
            (meanwhile 4)).map (fun s2 => (decide (Proper fourSlots s (.sql 0 0 false)),executes s (.sql 0 0 false),s2.now))))) =
      some (true,some (0,.insertOrReplaceUser two),3599) := by decide +kernel
  have second : ((replay (step release fourSlots) (Proper fourSlots) (fresh empty 0)
      (whole 0 (.lookupGroupByName "staff") 0 (some (.group (some scimStaff))) 5).dropLast).bind (fun s1 =>
        (replay (step release fourSlots) (fun s l => Proper fourSlots s l ∧ NotStored .gid staff.externalId s l) s1
          (meanwhile 3)).map (fun s2 => (writing staff (calledBy s1 0),s2.now)))) = some (some (0,some ["alice","bob"]),3599) := by decide +kernel
  constructor
  · obtain ⟨s,reached,rest⟩ := Option.bind_eq_some_iff.mp first
    obtain ⟨s1,move,rest⟩ := Option.bind_eq_some_iff.mp rest
    obtain ⟨s2,onward,facts⟩ := Option.map_eq_some_iff.mp rest
    simp only [Prod.mk.injEq,decide_eq_true_eq] at facts
    obtain ⟨proper,runs,now⟩ := facts
    refine ⟨s,s1,s2,reached,move,onward,?_⟩
    exact (reverseLookup release fourSlots empty 0 0).1 two s _ s1 (Runs.replayReach reached) proper move runs s2
      (Runs.replayReach onward) 3599 offline (by omega) (by decide)
  · obtain ⟨s1,reached,rest⟩ := Option.bind_eq_some_iff.mp second
    obtain ⟨s2,onward,facts⟩ := Option.map_eq_some_iff.mp rest
    obtain ⟨done,now⟩ := Prod.mk.inj facts
    cases at' : s1.procs 0 with
    | idle => simp [calledBy,at',writing] at done
    | dead => simp [calledBy,at',writing] at done
    | running op tr prog =>
      simp only [calledBy,at'] at done
      refine ⟨s1,s2,reached,onward,?_⟩
      exact (reverseLookup release fourSlots empty 0 0).2 staff s1 op tr prog (Runs.replayReach reached) at'
        (writingSound done) s2 (Runs.replayReach onward) 3599 offline (by omega) (by decide)

end SssdOidc.ReverseLookup
