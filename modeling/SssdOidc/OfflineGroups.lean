import Mathlib.Data.List.Perm.Subperm
import SssdOidc.ForeignGroups
import SssdOidc.LinearProbing
import SssdOidc.LostWrites
import SssdOidc.ProbeChain
import SssdOidc.Snapshots

/-! Offline against online group membership in the runs that follow a listing. Any number
of processes may go on with the cache. What sets the two apart is a `store_group` that is
cut short, or under way. -/
namespace SssdOidc.OfflineGroups
open Model Database Mapping Program Cache Service SssdOidc.System Protocol Conformance History Solo Stability
open SssdOidc.Membership
open LostWrites (ticking)
open ProbeChain (Bounded)
open Probing (Owners Fits Settled firstFit)
open ReverseLookup (purgeTtl concerns Holds holdsForeign holdsStored holdsCleared holdsWrote Writing writingTodo Due
  dueBegun)
open Runs (Reach replay)

variable {b : Build} {config : Config} {d : Directory} {t : Int} {db0 : Db}

def tells (d : Directory) : ScimQuery → Reply
  | .userByName n => .user (d.users.find? (fun su => su.userName == n))
  | .groupByName n => .group (d.groups.find? (fun sg => sg.displayName == n))
  | .listUsers => .users d.users
  | .listGroups => .groups d.groups

def silent : Reply → Bool
  | .error _ => true
  | _ => false

def hears (s : Sys) : Label → Option (ScimQuery × Reply)
  | .scim p _ reply =>
      match s.procs p with
      | .running _ _ (.call (.scim q) _) => some (q,reply)
      | _ => none
  | _ => none

/- No purge, and SCIM answers from the directory or not at all. -/
def Continues (d : Directory) (s : Sys) (l : Label) : Prop :=
  (∀ e ∈ executes s l, purgeTtl e.2 = none) ∧ ∀ e ∈ hears s l, e.2 = tells d e.1 ∨ silent e.2 = true
instance (s : Sys) (l : Label) : Decidable (Continues d s l) := by unfold Continues; infer_instance

theorem tellsServes {q : ScimQuery} {reply r} (answers : reply = tells d q ∨ silent reply = true)
    (fits : Reply.fit reply q = some r) : r = d.serves q ∨ ∃ e, r = .error e := by
  rcases answers with rfl | away
  · left
    cases q <;> cases fits <;> rfl
  · right
    cases reply <;> cases away
    cases q <;> cases fits <;> exact ⟨_,rfl⟩

/- No `store_group` is cut short, and none starts while another process stores that group. -/
structure Untorn (s : Sys) (l : Label) : Prop where
  whole : ∀ st, Due s l.pid st → l.fails = false ∧ l ≠ .kill l.pid
  apart : ∀ t g, executes s l = some (t,.insertOrReplaceGroup g) → ∀ q ≠ l.pid, ∀ st, Due s q st →
    concerns g.externalId st = false

/- The gid column is the one that the listing left; everybody has heard of the directory only. -/
structure Steady (d : Directory) (t : Int) (column : Owners String UInt32) (s : Sys) : Prop where
  clock : t ≤ s.now
  owners : s.db.owners .gid = column
  users : ∀ row ∈ s.db.users.rows, ∃ su ∈ d.users, su.id = row.externalId
  heard : ∀ p op tr prog, s.procs p = .running op tr prog →
    (∀ su ∈ receivedUsers tr, su ∈ d.users) ∧ ∀ sg ∈ receivedGroups tr, sg ∈ d.groups
  told : ∀ p op tr prog, s.procs p = .running op tr prog → ∀ t x k r,
    (⟨t,.sql (.selectOwner .gid x k),.ok r⟩ : Event calls) ∈ tr → r = (column x).map (fun owner => owner == k)

theorem assignOwn {path : String → List UInt32} {owners : Owners String UInt32} {k x} (settled : Settled path owners)
    (own : owners x = some k) : Probing.assign owners k x = owners := by
  funext y
  unfold Probing.assign
  split
  · rename_i same
    rw [same,own]
  · rename_i other
    split
    · rename_i mine
      exact absurd (Probing.settledOneSlot settled (Probing.settledFits settled own) mine) other
    · rfl

theorem reservedOwn {tr : Trace calls} {k : String} {x} {owners : Owners String UInt32}
    (settled : Settled (slots b config .gid) owners)
    (told : ∀ t x k r, (⟨t,.sql (.selectOwner .gid x k),.ok r⟩ : Event calls) ∈ tr →
      r = (owners x).map (fun owner => owner == k))
    (reserved : Reserved b config .gid k tr x) (listed : ∃ y, owners y = some k) : owners x = some k := by
  obtain ⟨y,own⟩ := listed
  have fits : Fits owners (slots b config .gid k) k x := by
    constructor
    · refine Probing.reachesMono ?_ reserved.walk
      intro z passed
      obtain ⟨t,inside⟩ := passed
      exact Probing.heldAnswer.mp (told t z k _ (recentMember inside)).symm
    · obtain ⟨t,r,other,inside⟩ := reserved.claimed
      exact Probing.openAnswer.mp (told t x k r (recentMember inside) ▸ other)
  exact Probing.settledOneSlot settled fits own ▸ own

theorem unpurgedColumn {s l t st} (continues : Continues d s l) (runs : executes s l = some (t,st)) :
    st.purges .gid = false := by
  have none := continues.1 _ runs
  cases st <;> first | rfl | cases none

theorem servedOnly {q : ScimQuery} {r : Except ScimError q.Resp} {t : Int} {tr : Trace calls}
    (answer : r = d.serves q ∨ ∃ e, r = .error e)
    (before : (∀ su ∈ receivedUsers tr, su ∈ d.users) ∧ ∀ sg ∈ receivedGroups tr, sg ∈ d.groups) :
    (∀ su ∈ receivedUsers ((⟨t,.scim q,r⟩ : Event calls) :: tr), su ∈ d.users) ∧
      ∀ sg ∈ receivedGroups ((⟨t,.scim q,r⟩ : Event calls) :: tr), sg ∈ d.groups := by
  rcases answer with rfl | ⟨e,rfl⟩
  · cases q with
    | userByName n =>
      cases first : d.users.find? (fun su => su.userName == n) with
      | none => simpa [Directory.serves,first,receivedUsers,receivedGroups] using before
      | some su =>
        have inside := List.mem_of_find?_eq_some first
        simpa [Directory.serves,first,receivedUsers,receivedGroups,inside] using before
    | groupByName n =>
      cases first : d.groups.find? (fun sg => sg.displayName == n) with
      | none => simpa [Directory.serves,first,receivedUsers,receivedGroups] using before
      | some sg =>
        have inside := List.mem_of_find?_eq_some first
        simpa [Directory.serves,first,receivedUsers,receivedGroups,inside] using before
    | listUsers =>
      refine ⟨fun su inside => ?_,by simpa [receivedGroups] using before.2⟩
      rcases List.mem_append.mp inside with here | old
      · exact here
      · exact before.1 su old
    | listGroups =>
      refine ⟨by simpa [receivedUsers] using before.1,fun sg inside => ?_⟩
      rcases List.mem_append.mp inside with here | old
      · exact here
      · exact before.2 sg old
  · cases q <;> simpa [receivedUsers,receivedGroups] using before

section Fields
variable {column : Owners String UInt32} {s s' : Sys} {l : Label} (steady : Steady d t column s)
  (move : Move b config s l s')
include steady move

theorem steadyUsers (conf : Conforms b config s) :
    ∀ row ∈ s'.db.users.rows, ∃ su ∈ d.users, su.id = row.externalId := by
  intro row inside
  rcases Snapshots.storedStep move with ⟨t',u,runs⟩ | ⟨rows,-⟩
  · rw [executesDb move runs] at inside
    rcases UniqueTable.memInsertOrReplace.mp inside with rfl | ⟨old,-⟩
    · obtain ⟨op,tr,k,at',-,su,received,made,-⟩ := executesAllowed conf runs
      have named : u.externalId = su.id := by rw [made]; rfl
      exact ⟨su,(steady.heard _ _ _ _ at').1 su received,named.symm⟩
    · exact steady.users row old
  · exact steady.users row (rows row inside)

theorem steadyHeard (continues : Continues d s l) : ∀ p op tr prog, s'.procs p = .running op tr prog →
    (∀ su ∈ receivedUsers tr, su ∈ d.users) ∧ ∀ sg ∈ receivedGroups tr, sg ∈ d.groups := by
  intro p op tr prog at'
  cases arrived b config move at' with
  | stayed other there => exact steady.heard p op tr prog there
  | started mine db => simp [receivedUsers,receivedGroups]
  | @heard _ q _ t' r reply chosen fits there db log =>
    have asked : hears s l = some (q,reply) := by simp [hears,chosen,there]
    exact servedOnly (tellsServes (continues.2 _ asked) fits) (steady.heard _ _ _ _ there)
  | ran t' fault chosen there db log =>
    rw [receivedUsersSql,receivedGroupsSql]
    exact steady.heard _ _ _ _ there

theorem steadyTold : ∀ p op tr prog, s'.procs p = .running op tr prog → ∀ t x k r,
    (⟨t,.sql (.selectOwner .gid x k),.ok r⟩ : Event calls) ∈ tr → r = (column x).map (fun owner => owner == k) := by
  intro p op tr prog at' t' x k r inside
  cases arrived b config move at' with
  | stayed other there => exact steady.told p op tr prog there t' x k r inside
  | started mine db => cases inside
  | heard t'' r' reply chosen fits there db log =>
    rcases List.mem_cons.mp inside with never | old
    · cases never
    · exact steady.told _ _ _ _ there t' x k r old
  | @ran _ st _ t'' fault chosen there db log =>
    rcases List.mem_cons.mp inside with now | old
    · rcases executeCases t'' fault s.db st with ⟨e,failed⟩ | ⟨rfl,answer,db',ok,done⟩
      · rw [failed] at now
        cases now
      · rw [done] at now
        cases now
        simp only [exec,Except.ok.injEq,Prod.mk.injEq] at ok
        rw [← ok.1,steady.owners]
    · exact steady.told _ _ _ _ there t' x k r old

end Fields

section Steady
variable {column : Owners String UInt32} (settled : Settled (slots b config .gid) column)
  (listed : ∀ sg ∈ d.groups, ∃ y, column y = some sg.id)
include settled listed

theorem storedOwn {s l t' g} (conf : Conforms b config s) (steady : Steady d t column s)
    (runs : executes s l = some (t',.insertOrReplaceGroup g)) :
    ∃ sg ∈ d.groups, g = groupModel sg g.gid ∧ column g.gid = some g.externalId := by
  obtain ⟨op,tr,k,at',-,sg,received,made,reserved⟩ := executesAllowed conf runs
  have inside := (steady.heard _ _ _ _ at').2 sg received
  have named : g.externalId = sg.id := by rw [made]; rfl
  exact ⟨sg,inside,made,named ▸ reservedOwn settled (steady.told _ _ _ _ at') reserved (listed sg inside)⟩

theorem steadyOwners {s l s'} (conf : Conforms b config s) (steady : Steady d t column s) (continues : Continues d s l)
    (move : Move b config s l s') : s'.db.owners .gid = column := by
  rcases ownersStep conf move .gid with ⟨t',st,k,x,runs,stores,assigned⟩ | ⟨-,same⟩
  · cases st <;> cases stores
    rename_i g
    obtain ⟨-,-,-,own⟩ := storedOwn settled listed conf steady runs
    rw [assigned,steady.owners]
    exact assignOwn settled own
  · rw [same fun t' st runs => unpurgedColumn continues runs]
    exact steady.owners

theorem steadyStep {s l s'} (conf : Conforms b config s) (steady : Steady d t column s) (continues : Continues d s l)
    (move : Move b config s l s') : Steady d t column s' where
  clock := Int.le_trans steady.clock (stepNow move)
  owners := steadyOwners settled listed conf steady continues move
  users := steadyUsers steady move conf
  heard := steadyHeard steady move continues
  told := steadyTold steady move

end Steady

/- `store_group` has come through `names` of the group `sg`. -/
structure Half (t : Int) (sg : ScimGroup) (gid : UInt32) (stamp : Int) (names : Option (List String))
    (tr : Trace calls) (db : Db) : Prop where
  writing : Writing (groupModel sg gid) stamp names tr
  later : t ≤ stamp
  front : names.getD [] <+: displays sg
  holds : Holds (groupRow (groupModel sg gid) stamp) (names.getD []) db

section Half
variable {sg : ScimGroup} {gid : UInt32} {stamp : Int} {names : Option (List String)} {tr : Trace calls} {db db' : Db}

theorem halfUncleared (half : Half t sg gid stamp none tr db) :
    todo tr = .deleteMembers sg.id :: (displays sg).map (.insertMember sg.id) := writingTodo half.writing

theorem halfLeft {written : List String} (half : Half t sg gid stamp (some written) tr db) :
    ∃ rest, displays sg = written ++ rest ∧ todo tr = rest.map (.insertMember sg.id) := by
  obtain ⟨rest,split⟩ := half.front
  have due : todo tr = ((displays sg).drop written.length).map (.insertMember sg.id) := writingTodo half.writing
  refine ⟨rest,split.symm,?_⟩
  rw [due,← split]
  exact congrArg _ List.drop_left

theorem halfConcerns (half : Half t sg gid stamp names tr db) {externalId : String} {st} (inside : st ∈ todo tr) :
    concerns externalId st = (sg.id == externalId) := by
  cases names with
  | none =>
    rw [halfUncleared half] at inside
    rcases List.mem_cons.mp inside with rfl | insert
    · rfl
    · obtain ⟨m,-,rfl⟩ := List.mem_map.mp insert
      rfl
  | some written =>
    obtain ⟨rest,-,due⟩ := halfLeft half
    rw [due] at inside
    obtain ⟨m,-,rfl⟩ := List.mem_map.mp inside
    rfl

theorem halfDone (half : Half t sg gid stamp names tr db) (through : todo tr = []) :
    Holds (groupRow (groupModel sg gid) stamp) (displays sg) db := by
  cases names with
  | none =>
    rw [halfUncleared half] at through
    cases through
  | some written =>
    obtain ⟨rest,split,due⟩ := halfLeft half
    rw [due,List.map_eq_nil_iff] at through
    rw [split,through,List.append_nil]
    exact half.holds

theorem halfNext {op st} (half : Half t sg gid stamp names tr db) (once : (displays sg).Nodup) (busy : todo tr ≠ [])
    (allowed : Allowed b config op tr (.sql st)) (t' : Int) : ∃ names' r db', exec t' db st = .ok (r,db') ∧
      Half t sg gid stamp names' (⟨t',.sql st,.ok r⟩ :: tr) db' := by
  cases st with
  | deleteMembers externalId =>
    have head : (todo tr).head? = some (.deleteMembers externalId) := allowed
    cases names with
    | none =>
      rw [halfUncleared half] at head
      cases head
      exact ⟨some [],(),_,rfl,.cleared half.writing,half.later,List.nil_prefix,holdsCleared half.holds⟩
    | some written =>
      obtain ⟨rest,-,due⟩ := halfLeft half
      rw [due] at head
      cases rest <;> cases head
  | insertMember externalId member =>
    have head : (todo tr).head? = some (.insertMember externalId member) := allowed
    cases names with
    | none =>
      rw [halfUncleared half] at head
      cases head
    | some written =>
      obtain ⟨rest,split,due⟩ := halfLeft half
      rw [due] at head
      cases rest with
      | nil => cases head
      | cons m rest =>
        cases head
        rw [split] at once
        have fresh : member ∉ written := fun inside =>
          (List.nodup_append.mp once).2.2 member inside member List.mem_cons_self rfl
        have may : db.MayInsertMember ⟨sg.id,member⟩ :=
          ⟨fun inside => fresh ((half.holds.members member).mp inside),_,half.holds.present,rfl⟩
        have ran : exec t' db (.insertMember sg.id member) = .ok ((),db.insertMember ⟨sg.id,member⟩ may) := dif_pos may
        exact ⟨some (written ++ [member]),(),_,ran,.wrote half.writing,half.later,⟨rest,by rw [split]; simp⟩,
          holdsWrote half.holds may⟩
  | selectMembers k => exact absurd allowed busy
  | _ => exact absurd allowed.1 busy

end Half

def Stores (s : Sys) (p : Nat) (externalId : String) : Prop := ∃ st, Due s p st ∧ concerns externalId st = true

/- Each group is stored by one process at most, and is whole while it is stored by none. -/
structure Progress (d : Directory) (t : Int) (s : Sys) : Prop where
  half : ∀ p op tr prog, s.procs p = .running op tr prog → todo tr ≠ [] →
    ∃ sg ∈ d.groups, ∃ gid stamp names, Half t sg gid stamp names tr s.db
  whole : ∀ sg ∈ d.groups, (∀ p, ¬Stores s p sg.id) →
    ∃ gid stamp, t ≤ stamp ∧ Holds (groupRow (groupModel sg gid) stamp) (displays sg) s.db
  lone : ∀ p q externalId, Stores s p externalId → Stores s q externalId → p = q

theorem dueOther {s l s' q st} (move : Move b config s l s') (other : q ≠ l.pid) : Due s' q st ↔ Due s q st := by
  unfold Due
  rw [otherProcs move other]

theorem storesOther {s l s' q k} (move : Move b config s l s') (other : q ≠ l.pid) : Stores s' q k ↔ Stores s q k := by
  unfold Stores
  simp only [dueOther move other]

theorem halfStores {s p op tr prog sg gid stamp names} (at' : s.procs p = .running op tr prog)
    (half : Half t sg gid stamp names tr s.db) (busy : todo tr ≠ []) : Stores s p sg.id := by
  obtain ⟨st,inside⟩ := List.exists_mem_of_ne_nil _ busy
  exact ⟨st,⟨op,tr,prog,at',inside⟩,by simp [halfConcerns half inside]⟩

theorem dueHalf {s p st} (progress : Progress d t s) (due : Due s p st) : ∃ sg ∈ d.groups, ∃ op tr prog gid stamp names,
    s.procs p = .running op tr prog ∧ st ∈ todo tr ∧ Half t sg gid stamp names tr s.db := by
  obtain ⟨op,tr,prog,at',inside⟩ := due
  obtain ⟨sg,listed,gid,stamp,names,half⟩ := progress.half p op tr prog at' (List.ne_nil_of_mem inside)
  exact ⟨sg,listed,op,tr,prog,gid,stamp,names,at',inside,half⟩

theorem concernsDue {s l t' st k} (conf : Conforms b config s) (runs : executes s l = some (t',st))
    (about : concerns k st = true) : (∃ g, st = .insertOrReplaceGroup g ∧ g.externalId = k) ∨ Stores s l.pid k := by
  obtain ⟨op,tr,cont,at',allowed⟩ := executesAllowed conf runs
  cases st with
  | insertOrReplaceGroup g => exact .inl ⟨g,rfl,by simpa [concerns] using about⟩
  | deleteMembers externalId => exact .inr ⟨_,⟨op,tr,_,at',List.mem_of_mem_head? allowed⟩,about⟩
  | insertMember externalId member => exact .inr ⟨_,⟨op,tr,_,at',List.mem_of_mem_head? allowed⟩,about⟩
  | _ => cases about

theorem storesBegun {s l s' k} (move : Move b config s l s') (stores : Stores s' l.pid k) : Stores s l.pid k ∨
    ∃ t' g, executes s l = some (t',.insertOrReplaceGroup g) ∧ g.externalId = k := by
  obtain ⟨st,due,about⟩ := stores
  rcases dueBegun move due with before | ⟨t',g,runs,same⟩
  · exact .inl ⟨st,before,about⟩
  · exact .inr ⟨t',g,runs,by simpa [same k] using about⟩

theorem storesStarted {s l s' t' g} (move : Move b config s l s')
    (runs : executes s l = some (t',.insertOrReplaceGroup g)) : Stores s' l.pid g.externalId := by
  obtain ⟨op,tr,k,-,rfl⟩ := executesAfter move runs
  exact ⟨.deleteMembers g.externalId,⟨op,_,_,putSame s.procs l.pid _,List.mem_cons_self⟩,by simp [concerns]⟩

theorem halfMove {s l s' op tr prog sg gid stamp names} (conf : Conforms b config s) (untorn : Untorn s l)
    (move : Move b config s l s') (at' : s.procs l.pid = .running op tr prog) (busy : todo tr ≠ [])
    (once : (displays sg).Nodup) (half : Half t sg gid stamp names tr s.db) :
    ∃ tr' prog' names', s'.procs l.pid = .running op tr' prog' ∧ Half t sg gid stamp names' tr' s'.db := by
  obtain ⟨due,inside⟩ := List.exists_mem_of_ne_nil _ busy
  obtain ⟨sound,alive⟩ := untorn.whole due ⟨op,tr,prog,at',inside⟩
  cases move with
  | start p o free =>
    rw [show s.procs p = _ from at'] at free
    cases free
  | scim p t' reply o older q k r before later fits =>
    cases (show s.procs p = _ from at').symm.trans before
    obtain ⟨-,rfl⟩ := (conf _ _ _ _ before).1
    exact absurd rfl busy
  | finish p o older out before =>
    cases (show s.procs p = _ from at').symm.trans before
    exact absurd (conf _ _ _ _ before).idle busy
  | kill p => exact absurd rfl alive
  | sql p t' fault o older st k before later =>
    cases (show s.procs p = _ from at').symm.trans before
    have never : fault = false := sound
    subst never
    obtain ⟨names',r,db',ok,onward⟩ := halfNext half once busy (conf _ _ _ _ before).1 t'
    have done : execute t' false s.db st = (.ok r,db') := by simp [execute,ok]
    simp only [after,done]
    exact ⟨_,_,names',putSame s.procs p _,onward⟩

theorem progressLone {s l s' p q k} (untorn : Untorn s l) (move : Move b config s l s') (progress : Progress d t s)
    (left : Stores s' p k) (right : Stores s' q k) : p = q := by
  have apart {q} (other : q ≠ l.pid) (mine : Stores s' l.pid k) (theirs : Stores s' q k) : False := by
    rw [storesOther move other] at theirs
    rcases storesBegun move mine with before | ⟨t',g,runs,rfl⟩
    · exact other (progress.lone q l.pid k theirs before)
    · obtain ⟨st,due,about⟩ := theirs
      rw [untorn.apart t' g runs q other st due] at about
      cases about
  by_cases mine : p = l.pid
  · by_contra differ
    subst mine
    exact apart (fun same => differ same.symm) left right
  · by_cases other : q = l.pid
    · subst other
      exact (apart mine right left).elim
    · exact progress.lone p q k ((storesOther move mine).mp left) ((storesOther move other).mp right)

section Progress
variable {column : Owners String UInt32} (settled : Settled (slots b config .gid) column)
  (listed : ∀ sg ∈ d.groups, ∃ y, column y = some sg.id)
include settled listed

theorem heldForeign {s l s' row names} (conf : Conforms b config s) (steady : Steady d t column s)
    (continues : Continues d s l) (move : Move b config s l s') (holds : Holds row names s.db)
    (foreign : ∀ t st, executes s l = some (t,st) → concerns row.externalId st = false) : Holds row names s'.db := by
  cases effect conf move with
  | quiet same => exact same ▸ holds
  | ran op tr t' st k r chosen at' allowed ok =>
    have runs := ranExecutes chosen at'
    refine holdsForeign holds ok (foreign t' st runs) ?_ fun ttl purges => ?_
    · intro g same
      subst same
      obtain ⟨-,-,-,own⟩ := storedOwn settled listed conf steady runs
      rw [steady.owners]
      exact .inr own
    · cases (continues.1 _ runs).symm.trans purges

theorem halfBegun {s l s' op tr prog} (conf : Conforms b config s) (steady : Steady d t column s)
    (move : Move b config s l s') (at' : s'.procs l.pid = .running op tr prog) {t' g}
    (runs : executes s l = some (t',.insertOrReplaceGroup g)) :
    ∃ sg ∈ d.groups, ∃ gid stamp names, Half t sg gid stamp names tr s'.db := by
  obtain ⟨sg,inside,made,-⟩ := storedOwn settled listed conf steady runs
  have clock : t ≤ t' := by
    have now := stepNow move
    rw [executesNow move runs] at now
    exact Int.le_trans steady.clock now
  obtain ⟨op',tr',k,before,rfl⟩ := executesAfter move runs
  cases (putSame s.procs l.pid _).symm.trans at'
  refine ⟨sg,inside,g.gid,t',none,?_,clock,List.nil_prefix,?_⟩
  · rw [← made]
    exact .stored
  · rw [← made]
    exact holdsStored s.db g t'

section Step
variable {s s' : Sys} {l : Label} (conf : Conforms b config s) (steady : Steady d t column s)
  (once : ∀ sg ∈ d.groups, (displays sg).Nodup) (continues : Continues d s l) (untorn : Untorn s l)
  (move : Move b config s l s') (progress : Progress d t s)
include conf steady once continues untorn move progress

theorem progressHalf {q op tr prog} (at' : s'.procs q = .running op tr prog) (busy : todo tr ≠ []) :
    ∃ sg ∈ d.groups, ∃ gid stamp names, Half t sg gid stamp names tr s'.db := by
  by_cases mine : q = l.pid
  · subst mine
    obtain ⟨st,inside⟩ := List.exists_mem_of_ne_nil _ busy
    rcases dueBegun move ⟨op,tr,prog,at',inside⟩ with before | ⟨t',g,runs,-⟩
    · obtain ⟨sg,listed,op',tr',prog',gid,stamp,names,there,member,half⟩ := dueHalf progress before
      obtain ⟨tr'',prog'',names',here,onward⟩ :=
        halfMove conf untorn move there (List.ne_nil_of_mem member) (once sg listed) half
      cases here.symm.trans at'
      exact ⟨sg,listed,gid,stamp,names',onward⟩
    · exact halfBegun settled listed conf steady move at' runs
  · have there : s.procs q = .running op tr prog := otherProcs move mine ▸ at'
    obtain ⟨sg,inside,gid,stamp,names,half⟩ := progress.half q op tr prog there busy
    have theirs := halfStores there half busy
    refine ⟨sg,inside,gid,stamp,names,half.writing,half.later,half.front,?_⟩
    refine heldForeign settled listed conf steady continues move half.holds fun t' st runs => ?_
    by_contra about
    rcases concernsDue conf runs (by simpa using about) with ⟨g,rfl,same⟩ | stores
    · obtain ⟨due,at'',concerned⟩ := theirs
      rw [← show g.externalId = sg.id from same,untorn.apart t' g runs q mine due at''] at concerned
      cases concerned
    · exact mine (progress.lone q l.pid sg.id theirs stores)

theorem progressWhole {sg} (inside : sg ∈ d.groups) (idle : ∀ p, ¬Stores s' p sg.id) :
    ∃ gid stamp, t ≤ stamp ∧ Holds (groupRow (groupModel sg gid) stamp) (displays sg) s'.db := by
  by_cases before : ∃ q, Stores s q sg.id
  · -- the step has ended the store
    obtain ⟨q,stores⟩ := before
    obtain rfl : q = l.pid := by
      by_contra other
      exact idle q ((storesOther move other).mpr stores)
    obtain ⟨st,due,about⟩ := stores
    obtain ⟨sg',listed',op,tr,prog,gid,stamp,names,at',member,half⟩ := dueHalf progress due
    have ids : sg'.id = sg.id := by simpa [halfConcerns half member] using about
    obtain rfl : sg' = sg := List.inj_on_of_nodup_map d.ids listed' inside ids
    obtain ⟨tr',prog',names',here,onward⟩ :=
      halfMove conf untorn move at' (List.ne_nil_of_mem member) (once sg' inside) half
    by_cases through : todo tr' = []
    · exact ⟨gid,stamp,onward.later,halfDone onward through⟩
    · exact absurd (halfStores here onward through) (idle l.pid)
  · obtain ⟨gid,stamp,later,holds⟩ := progress.whole sg inside fun p stores => before ⟨p,stores⟩
    refine ⟨gid,stamp,later,heldForeign settled listed conf steady continues move holds fun t' st runs => ?_⟩
    by_contra about
    rcases concernsDue conf runs (by simpa using about) with ⟨g,rfl,same⟩ | stores
    · have own : g.externalId = sg.id := same
      exact idle l.pid (own ▸ storesStarted move runs)
    · exact before ⟨l.pid,stores⟩

theorem progressStep : Progress d t s' where
  half _ _ _ _ at' busy := progressHalf settled listed conf steady once continues untorn move progress at' busy
  whole _ inside idle := progressWhole settled listed conf steady once continues untorn move progress inside idle
  lone _ _ _ left right := progressLone untorn move progress left right

end Step
end Progress

theorem halfWritten {sg : ScimGroup} {gid stamp names tr db m} (half : Half t sg gid stamp names tr db)
    (once : (displays sg).Nodup) : m ∈ names.getD [] ↔ m ∈ displays sg ∧ .insertMember sg.id m ∉ todo tr := by
  cases names with
  | none =>
    rw [halfUncleared half]
    simp
  | some written =>
    obtain ⟨rest,split,due⟩ := halfLeft half
    rw [split] at once ⊢
    have apart := (List.nodup_append.mp once).2.2
    rw [due]
    simp only [Option.getD_some,List.mem_append,List.mem_map,Stmt.insertMember.injEq,true_and,exists_eq_right]
    constructor
    · intro inside
      exact ⟨.inl inside,fun later => apart m inside m later rfl⟩
    · intro shown
      rcases shown.1 with inside | later
      · exact inside
      · exact absurd later shown.2

open Classical in
noncomputable def written (s : Sys) (sg : ScimGroup) : List String :=
  (displays sg).filter (fun m => decide (∀ p, ¬Due s p (.insertMember sg.id m)))

theorem memWritten {s sg m} : m ∈ written s sg ↔ m ∈ displays sg ∧ ∀ p, ¬Due s p (.insertMember sg.id m) := by
  simp [written]

theorem insertStores {s p} {sg : ScimGroup} {m} (due : Due s p (.insertMember sg.id m)) : Stores s p sg.id :=
  ⟨_,due,by simp [concerns]⟩

theorem progressWritten {s sg} (once : (displays sg).Nodup) (progress : Progress d t s) (inside : sg ∈ d.groups) :
    ∃ gid stamp, t ≤ stamp ∧ Holds (groupRow (groupModel sg gid) stamp) (written s sg) s.db := by
  by_cases storing : ∃ p, Stores s p sg.id
  · obtain ⟨p,st,due,about⟩ := storing
    obtain ⟨sg',listed,op,tr,prog,gid,stamp,names,at',member,half⟩ := dueHalf progress due
    have ids : sg'.id = sg.id := by simpa [halfConcerns half member] using about
    obtain rfl : sg' = sg := List.inj_on_of_nodup_map d.ids listed inside ids
    have mine (m : String) : (∀ q, ¬Due s q (.insertMember sg'.id m)) ↔ .insertMember sg'.id m ∉ todo tr := by
      refine ⟨fun never here => never p ⟨op,tr,prog,at',here⟩,?_⟩
      intro gone q later
      obtain rfl : q = p := progress.lone q p sg'.id (insertStores later) ⟨st,due,about⟩
      obtain ⟨op',tr',prog',there,here⟩ := later
      cases at'.symm.trans there
      exact gone here
    refine ⟨gid,stamp,half.later,half.holds.present,fun m => ?_⟩
    rw [half.holds.members m,halfWritten half once,memWritten,mine m]
  · obtain ⟨gid,stamp,later,holds⟩ := progress.whole sg inside fun p stores => storing ⟨p,stores⟩
    refine ⟨gid,stamp,later,holds.present,fun m => ?_⟩
    rw [holds.members m,memWritten]
    exact ⟨fun shown => ⟨shown,fun p due => storing ⟨p,insertStores due⟩⟩,And.left⟩

theorem timedTicking {clock : Nat → Int} {reply : Replies} {stamps : Int → Prop} (stamped : ∀ n, stamps (clock n)) :
    Timed stamps reply Prod.fst ((ticking clock).answer reply) where
  asks _ _ := rfl
  owns _ _ _ _ := rfl
  runs st s := by
    refine ⟨clock s.2,stamped s.2,?_⟩
    simp [LostWrites.Writes.answer,ticking]

theorem progressRun {s now} (loaded : Loaded b config (t ≤ ·) d.groups db0)
    (once : ∀ sg ∈ d.groups, (displays sg).Nodup) (ended : t ≤ now)
    (run : Reach (step b config) (fun s l => Continues d s l ∧ Untorn s l) (fresh db0 now) s) :
    Steady d t (db0.owners .gid) s ∧ Progress d t s := by
  have listed : ∀ sg ∈ d.groups, ∃ y, db0.owners .gid y = some sg.id := by
    intro sg inside
    obtain ⟨gid,stamp,-,holds⟩ := loaded.holds sg inside
    exact ⟨gid,UniqueTable.ownerRow holds.present⟩
  have idle {p st} : ¬Due (fresh db0 now) p st := by
    intro due
    obtain ⟨op,tr,prog,at',-⟩ := due
    cases at'
  refine moveInvariant (fun s => Steady d t (db0.owners .gid) s ∧ Progress d t s) ⟨?_,?_⟩ ?_ run
  · refine ⟨ended,rfl,?_,?_,?_⟩
    · simp [fresh,loaded.nobody]
    · intro p op tr prog never
      cases never
    · intro p op tr prog never
      cases never
  · refine ⟨?_,?_,?_⟩
    · intro p op tr prog never
      cases never
    · intro sg inside _
      exact loaded.holds sg inside
    · intro p q k left _
      obtain ⟨st,due,-⟩ := left
      exact absurd due idle
  · intro s l s' before inv chosen move
    have conf := conforms before
    exact ⟨steadyStep loaded.settled listed conf inv.1 chosen.1 move,
      progressStep loaded.settled listed conf inv.1 once chosen.1 chosen.2 move inv.2⟩

theorem mirrorsRun {s} (loaded : Loaded b config (t ≤ ·) d.groups db0) (once : ∀ sg ∈ d.groups, (displays sg).Nodup)
    (steady : Steady d t (db0.owners .gid) s) (progress : Progress d t s) :
    Mirrors b config (t ≤ ·) (written s) d.groups s.db where
  holds sg inside := progressWritten (once sg inside) progress inside
  known row inside := by
    have own : db0.owners .gid row.gid = some row.externalId := steady.owners ▸ UniqueTable.ownerRow inside
    obtain ⟨old,listed,-,same⟩ := UniqueTable.ownerSome.mp own
    obtain ⟨sg,here,id⟩ := loaded.known old listed
    exact ⟨sg,here,id.trans same⟩
  settled := by
    rw [SettledColumn,steady.owners]
    exact loaded.settled

theorem slotsNodup {c} (bounded : Bounded config c) (k : String) : (slots b config c k).Nodup := by
  rw [slots,pathRing bounded.range bounded.small]
  refine List.Nodup.map_on (fun i left j right same => ?_) List.nodup_range
  exact LinearProbing.ringSlotInjective bounded.range (List.mem_range.mp left) (List.mem_range.mp right) same

theorem roomLeft {c} (bounded : Bounded config c) {db : Db} {ids : List String}
    (known : ∀ x k, db.owners c x = some k → k ∈ ids) (few : ids.length < (rangeSize config c).toNat) (k : String) :
    ∃ x, firstFit (db.owners c) k (slots b config c k) = some x := by
  cases stops : firstFit (db.owners c) k (slots b config c k) with
  | some x => exact ⟨x,rfl⟩
  | none =>
    have held : slots b config c k ⊆ (db.entries c).map Prod.snd := by
      intro x inside
      obtain ⟨other,own,-⟩ := Probing.firstFitNone.mp stops x inside
      exact List.mem_map_of_mem (ownersEntries.mp own)
    have names : (db.entries c).map Prod.fst ⊆ ids := by
      intro other inside
      obtain ⟨⟨_,x⟩,entry,rfl⟩ := List.mem_map.mp inside
      exact known x _ (ownersEntries.mpr entry)
    have slotsFit := (List.subperm_of_subset (slotsNodup bounded k) held).length_le
    have namesFit := (List.subperm_of_subset (entriesKeys db c) names).length_le
    have size : (slots b config c k).length = (rangeSize config c).toNat := by
      rw [slots,pathRing bounded.range bounded.small,List.length_map,List.length_range]
    simp only [List.length_map] at slotsFit namesFit
    omega

/- Ids and logins are distinct; each member of a group is a user, shown once and under its login. -/
structure Faithful (d : Directory) : Prop where
  people : (d.users.map ScimUser.id).Nodup
  logins : ∀ sg ∈ d.groups, ∀ m ∈ sg.members, ∃ su ∈ d.users, m.value = su.id ∧ m.display = some su.userName
  once : ∀ sg ∈ d.groups, (displays sg).Nodup

structure Roomy (config : Config) (d : Directory) : Prop where
  bounded : ∀ c, Bounded config c
  users : d.users.length < (rangeSize config .uid).toNat
  groups : d.groups.length < (rangeSize config .gid).toNat

theorem displaysLogin {su : ScimUser} {sg : ScimGroup} (faithful : Faithful d) (user : su ∈ d.users)
    (inside : sg ∈ d.groups) : su.userName ∈ displays sg ↔ Contains sg su.id := by
  simp only [displays,List.mem_filterMap,Contains]
  constructor
  · intro display
    obtain ⟨m,member,shown⟩ := display
    obtain ⟨other,listed,value,display⟩ := faithful.logins sg inside m member
    have names : other.userName = su.userName := Option.some.inj (display.symm.trans shown)
    rw [List.inj_on_of_nodup_map d.names listed user names] at value
    exact ⟨m,member,value⟩
  · intro contained
    obtain ⟨m,member,value⟩ := contained
    obtain ⟨other,listed,same,display⟩ := faithful.logins sg inside m member
    have ids : other.id = su.id := same.symm.trans value
    rw [List.inj_on_of_nodup_map faithful.people listed user ids] at display
    exact ⟨m,member,display⟩

section Statements
variable (b : Build) (config : Config) (d : Directory)

def SameGroups (db : Db) (su : ScimUser) (t1 t2 : Int) (down : Replies) : Prop :=
  ∃ gids db1 gids' db2, alone t1 down (lookupGroupsForUser b config su.userName) db = (.ok gids,db1) ∧
    alone t2 d.serves (lookupGroupsForUser b config su.userName) db = (.ok gids',db2) ∧ ∀ x, x ∈ gids ↔ x ∈ gids'

def OfflineAsOnline (may : Sys → Label → Prop) : Prop :=
  ∀ t gs db, alone t d.serves (listAllGroups b config) empty = (.ok gs,db) →
  ∀ s, Reach (step b config) (fun s l => Continues d s l ∧ may s l) (fresh db t) s →
  ∀ su ∈ d.users, ∀ t1 t2 down e, s.now ≤ t1 → t1 < t + config.cache.ttlSeconds.seconds → s.now ≤ t2 →
    down (.userByName su.userName) = .error e → SameGroups b config d s.db su t1 t2 down

/- The name is too long to be looked up, or no process has still to insert it into a group. -/
def Inserted (s : Sys) (su : ScimUser) : Prop := MAX_NAME_LEN < su.userName.utf8ByteSize ∨
  ∀ p, ∀ sg ∈ d.groups, Contains sg su.id → ¬Due s p (.insertMember sg.id su.userName)

end Statements

theorem onlineRun {s su} (t2 : Int) {shown} (roomy : Roomy config d) (steady : Steady d t (db0.owners .gid) s)
    (mirrors : Mirrors b config (t ≤ ·) shown d.groups s.db) (user : su ∈ d.users)
    (short : ¬MAX_NAME_LEN < su.userName.utf8ByteSize) :
    ∃ gids db2, alone t2 d.serves (lookupGroupsForUser b config su.userName) s.db = (.ok gids,db2) ∧
      ∀ x, x ∈ gids ↔ ∃ sg ∈ d.groups, Contains sg su.id ∧
        firstFit (s.db.owners .gid) sg.id (slots b config .gid sg.id) = some x := by
  have uids (x k) (own : s.db.owners .uid x = some k) : k ∈ d.users.map ScimUser.id := by
    obtain ⟨row,inside,-,rfl⟩ := UniqueTable.ownerSome.mp own
    obtain ⟨other,listed,same⟩ := steady.users row inside
    exact same ▸ List.mem_map_of_mem listed
  have gids (x k) (own : s.db.owners .gid x = some k) : k ∈ d.groups.map ScimGroup.id := by
    obtain ⟨row,inside,-,rfl⟩ := UniqueTable.ownerSome.mp own
    obtain ⟨sg,listed,same⟩ := mirrors.known row inside
    exact same ▸ List.mem_map_of_mem listed
  have few : (d.users.map ScimUser.id).length < (rangeSize config .uid).toNat := by
    rw [List.length_map]
    exact roomy.users
  have few' : (d.groups.map ScimGroup.id).length < (rangeSize config .gid).toNat := by
    rw [List.length_map]
    exact roomy.groups
  obtain ⟨uid,first⟩ : ∃ x, firstFit (s.db.owners .uid) su.id (slots b config .uid su.id) = some x :=
    roomLeft (roomy.bounded .uid) uids few su.id
  obtain ⟨gid,second⟩ : ∃ x, firstFit (s.db.owners .gid) (gidExternal su) (slots b config .gid (gidExternal su)) = some x :=
    roomLeft (roomy.bounded .gid) gids few' (gidExternal su)
  obtain ⟨found,db2,online,members⟩ := aloneOnline (t := t2) short (servesUser user) first second
    (ForeignGroups.listedSlots mirrors user)
  refine ⟨found,db2,online,fun x => ?_⟩
  rw [members x]
  constructor
  · intro online
    obtain ⟨r,ref,stops⟩ := online
    obtain ⟨sg,listed,same,member⟩ := (d.exact su user r.value).mp ⟨r,ref,rfl⟩
    exact ⟨sg,listed,member,same ▸ stops⟩
  · intro belongs
    obtain ⟨sg,listed,member,stops⟩ := belongs
    obtain ⟨r,ref,same⟩ := (d.exact su user sg.id).mpr ⟨sg,listed,rfl,member⟩
    exact ⟨r,ref,same ▸ stops⟩

theorem offlineAsOnline {s su gs k} {clock : Nat → Int} {now t1 t2 : Int} {down : Replies} {e} (faithful : Faithful d)
    (roomy : Roomy config d) (later : ∀ n, t ≤ clock n) (ended : t ≤ now)
    (listing : Program.run ((ticking clock).answer d.serves) (listAllGroups b config) (empty,0) = (.ok gs,(db0,k)))
    (run : Reach (step b config) (fun s l => Continues d s l ∧ Untorn s l) (fresh db0 now) s) (user : su ∈ d.users)
    (young : t1 < t + config.cache.ttlSeconds.seconds) (away : down (.userByName su.userName) = .error e) :
    SameGroups b config d s.db su t1 t2 down ↔ Inserted d s su := by
  have loaded : Loaded b config (t ≤ ·) d.groups db0 := loadedBy (timedTicking later) rfl d.ids rfl listing
  obtain ⟨steady,progress⟩ := progressRun loaded faithful.once ended run
  have mirrors := mirrorsRun loaded faithful.once steady progress
  by_cases short : MAX_NAME_LEN < su.userName.utf8ByteSize
  · exact ⟨fun _ => .inl short,fun _ => ⟨[],s.db,[],s.db,ForeignGroups.aloneTooLong short,
      ForeignGroups.aloneTooLong short,fun _ => Iff.rfl⟩⟩
  · obtain ⟨gids,db2,online,members⟩ := onlineRun t2 roomy steady mirrors user short
    have offline : alone t1 down (lookupGroupsForUser b config su.userName) s.db = _ := aloneDown away short
    have cached (x) : x ∈ cachedFor config t1 su.userName s.db ↔ ∃ sg ∈ d.groups, su.userName ∈ written s sg ∧ _ :=
      memCachedSlot mirrors fun stamp later => ReverseLookup.liveWithin (by omega)
    constructor
    · intro agree
      obtain ⟨gids1,db1,gids2,db3,first,second,same⟩ := agree
      cases offline.symm.trans first
      cases online.symm.trans second
      refine .inr fun p sg listed member => ?_
      obtain ⟨x,stops⟩ := mirroredSlot mirrors listed
      obtain ⟨other,there,inside,here⟩ := (cached x).mp ((same x).mpr ((members x).mpr ⟨sg,listed,member,stops⟩))
      obtain rfl : other = sg := oneGroup mirrors d.ids there listed here stops
      exact (memWritten.mp inside).2 p
    · intro inserted
      rcases inserted with never | inserted
      · exact absurd never short
      · refine ⟨_,_,gids,db2,offline,online,fun x => ?_⟩
        rw [cached,members]
        refine exists_congr fun sg => and_congr_right fun listed => and_congr_left fun _ => ?_
        rw [memWritten,displaysLogin faithful user listed]
        exact ⟨And.left,fun member => ⟨member,fun p => inserted p sg listed member⟩⟩

theorem singleUntorn {may : Sys → Label → Prop} {s} (uncut : ∀ s l, may s l → Single l ∧ Faultless l ∧ l ≠ .kill l.pid)
    (run : Reach (step b config) may (fresh db0 t) s) :
    Reach (step b config) (fun s l => may s l ∧ Untorn s l) (fresh db0 t) s := by
  refine Runs.reachWhile (fun s l before chosen => ⟨chosen,fun st _ => (uncut s l chosen).2,?_⟩) run
  intro t' g _ q other st due
  obtain ⟨op,tr,prog,at',-⟩ := due
  have single (s l) (chosen : may s l) : l.pid = 0 := (uncut s l chosen).1
  have idle := idleBeyond 1 (fun s l chosen => by simp [single s l chosen]) before q (by have := single s l chosen; omega)
  cases idle.symm.trans at'

def staffed : Directory where
  users := [⟨"u1","alice",none,none,[⟨"g1",none⟩]⟩]
  groups := [⟨"g1","staff",[⟨"u1",some "alice"⟩]⟩]
  names := by decide
  ids := by decide
  exact := by simp [Contains]

theorem staffedFaithful : Faithful staffed := ⟨by decide,by simp [staffed],by decide⟩

theorem staffedRoomy : Roomy fourSlots staffed := ⟨ProbeChain.fourSlotsBounded,by decide,by decide⟩

def listing : Except (Halt ServiceError) (List Group) × Db :=
  alone 0 staffed.serves (listAllGroups release fourSlots) empty

theorem staffedLists : ∃ gs, alone 0 staffed.serves (listAllGroups release fourSlots) empty = (.ok gs,listing.2) := by
  have lists : listing.1.isOk = true := by decide +kernel
  cases same : listing.1 with
  | error e =>
    rw [same] at lists
    cases lists
  | ok gs => exact ⟨gs,Prod.ext same rfl⟩

def Uncut (l : Label) : Prop := Faultless l ∧ l ≠ .kill l.pid
instance (l : Label) : Decidable (Uncut l) := by unfold Uncut; infer_instance

def lookedUp (p : Nat) : List Label :=
  [.start p (.lookupGroupByName "staff"),.scim p 1 (.group (some ⟨"g1","staff",[⟨"u1",some "alice"⟩]⟩))]

def ticked : Except (Halt ServiceError) (List Group) × (Db × Nat) :=
  Program.run ((ticking fun n => min n 1).answer staffed.serves) (listAllGroups release fourSlots) (empty,0)

theorem offlineAsOnlineExample : ∃ s,
    replay (step release fourSlots) (fun s l => Continues staffed s l ∧ Single l ∧ Uncut l) (fresh ticked.2.1 1)
      (lookedUp 0 ++ List.replicate 3 (.sql 0 1 false)) = some s ∧
    ∀ su ∈ staffed.users, SameGroups release fourSlots staffed s.db su 2 2 offline ↔ Inserted staffed s su := by
  have ends : (replay (step release fourSlots) (fun s l => Continues staffed s l ∧ Single l ∧ Uncut l) (fresh ticked.2.1 1)
      (lookedUp 0 ++ List.replicate 3 (.sql 0 1 false))).isSome = true := by decide +kernel
  obtain ⟨s,reached⟩ := Option.isSome_iff_exists.mp ends
  have lists : ticked.1.isOk = true := by decide +kernel
  cases same : ticked.1 with
  | error e =>
    rw [same] at lists
    cases lists
  | ok gs =>
    have listing : ticked = (.ok gs,(ticked.2.1,ticked.2.2)) := Prod.ext same rfl
    have whole := singleUntorn (fun s l may => may.2) (Runs.replayReach reached)
    have run := Runs.reachMono (fun s l (may : (Continues staffed s l ∧ _) ∧ Untorn s l) => And.intro may.1.1 may.2) whole
    exact ⟨s,reached,fun su user => offlineAsOnline staffedFaithful staffedRoomy (t := 0) (fun n => by omega) (by decide)
      listing run user (by decide) (e := .http) rfl⟩

def looked (s : Sys) (reply : Replies) : Except (Halt ServiceError) (List UInt32) :=
  (alone 2 reply (lookupGroupsForUser release fourSlots "alice") s.db).1

theorem lookedDiffers {may : Sys → Label → Prop} [∀ s l, Decidable (may s l)] (labels : List Label) (x : UInt32)
    (ends : (replay (step release fourSlots) (fun s l => Continues staffed s l ∧ may s l) (fresh listing.2 0) labels).map
      (fun s => (s.now,looked s offline,looked s staffed.serves)) = some (1,.ok [],.ok [x])) :
    ¬OfflineAsOnline release fourSlots staffed may := by
  intro same
  obtain ⟨s,reached,facts⟩ := Option.map_eq_some_iff.mp ends
  obtain ⟨now,answers⟩ := Prod.mk.inj facts
  obtain ⟨away,online⟩ := Prod.mk.inj answers
  obtain ⟨gs,lists⟩ := staffedLists
  obtain ⟨gids,db1,gids',db2,first,second,members⟩ := same 0 gs _ lists s (Runs.replayReach reached)
    ⟨"u1","alice",none,none,[⟨"g1",none⟩]⟩ (by simp [staffed]) 2 2 offline .http (by omega) (by decide) (by omega) rfl
  cases (congrArg Prod.fst first).symm.trans away
  cases (congrArg Prod.fst second).symm.trans online
  simpa using members x

theorem offlineTorn : Faithful staffed ∧ Roomy fourSlots staffed ∧
    ¬OfflineAsOnline release fourSlots staffed (fun _ l => Uncut l) ∧
    ¬OfflineAsOnline release fourSlots staffed (fun _ l => Single l) := by
  refine ⟨staffedFaithful,staffedRoomy,?_,?_⟩
  · exact lookedDiffers (lookedUp 1 ++ List.replicate 2 (.sql 1 1 false)) 1002 (by decide +kernel)
  · exact lookedDiffers (lookedUp 0 ++ List.replicate 2 (.sql 0 1 false) ++ [.sql 0 1 true,.finish 0]) 1002
      (by decide +kernel)

end SssdOidc.OfflineGroups
