import SssdOidc.Allocation
import SssdOidc.Offline

/-! Two servers, each with its own empty cache, that ask one directory. They agree on every
uid unless two users of the directory start their probing at the same slot: then the
one that was looked up first has it. -/
namespace SssdOidc.Agreement
open Model Database Mapping Program Cache Service SssdOidc.System Protocol Conformance History Solo Stability
open Probing (Held Open Fits Reaches firstFit)
open Allocation (given givenStep givenOld rowsGiven returned returnedGiven)
open Offline (TooLong askingShort)
open Runs (Reach replay)

variable {b : Build} {config : Config} {directory : String → Option ScimUser} {now0 : Int}

def userLookup : Op → Bool
  | .lookupUserByName _ => true
  | .lookupUserByUid _ => true
  | .checkUserActive _ => true
  | .lookupGroupsForUser _ => true
  | _ => false

structure Serves (directory : String → Option ScimUser) (s : Sys) (l : Label) : Prop where
  single : Single l
  lookups : ∀ op ∈ l.starts, userLookup op = true
  answers : ∀ a ∈ l.answer, ∀ n ∈ asked s l.pid, a.2 = directory n
instance (s : Sys) (l : Label) : Decidable (Serves directory s l) :=
  decidable_of_iff (Single l ∧ (∀ op ∈ l.starts, userLookup op = true) ∧
    ∀ a ∈ l.answer, ∀ n ∈ asked s l.pid, a.2 = directory n)
    ⟨fun ⟨single,lookups,answers⟩ => ⟨single,lookups,answers⟩,fun h => ⟨h.single,h.lookups,h.answers⟩⟩

theorem servesQuiet {s l} (single : Single l) (starts : l.starts = none) (answer : l.answer = none) :
    Serves directory s l := ⟨single,by simp [starts],by simp [answer]⟩

/- An id that can get a row: its user has a name that is asked for, and a gid. -/
def Cacheable (b : Build) (config : Config) (directory : String → Option ScimUser) (k : String) : Prop :=
  ∃ n su, directory n = some su ∧ ¬MAX_NAME_LEN < n.utf8ByteSize ∧ su.id = k ∧ slots b config .gid (gidExternal su) ≠ []

/- Two ids with the same first slot, of which the second can go elsewhere. -/
def Clash (b : Build) (config : Config) (directory : String → Option ScimUser) : Prop :=
  ∃ j k x, Cacheable b config directory j ∧ Cacheable b config directory k ∧ j ≠ k ∧
    (slots b config .uid j).head? = some x ∧ (slots b config .uid k).head? = some x ∧
    ∃ y ∈ slots b config .uid k, y ≠ x

def Heard (directory : String → Option ScimUser) (op : Op) (tr : Trace calls) : Prop :=
  userLookup op = true ∧ ∀ su ∈ receivedUsers tr, ∃ n, directory n = some su ∧ ¬MAX_NAME_LEN < n.utf8ByteSize

theorem lookupQuery {op q} (lookup : userLookup op = true) (asks : query op = some q) :
    ∃ n, q = .userByName n ∧ (¬TooLong op → ¬MAX_NAME_LEN < n.utf8ByteSize) := by
  cases op <;> cases lookup <;> cases asks
  all_goals exact ⟨_,rfl,id⟩

theorem heardDirectory {s} (run : Reach (step b config) (Serves directory) (fresh empty now0) s) :
    ∀ p op tr prog, s.procs p = .running op tr prog → Heard directory op tr := by
  refine runningInvariant (fun _ _ op tr _ => Heard directory op tr) ?_ run
  intro s l s' before inv chosen move p op tr prog at'
  cases arrived b config move at' with
  | stayed other there => exact inv p op tr prog there
  | started mine db label =>
    subst label
    exact ⟨chosen.lookups op rfl,by simp [receivedUsers]⟩
  | @heard tr q k t r reply label fits there db log =>
    subst label
    obtain ⟨lookup,-⟩ := inv _ _ _ _ there
    obtain ⟨asks,rfl⟩ := (conforms before _ _ _ _ there).1
    obtain ⟨n,rfl,short⟩ := lookupQuery lookup asks
    refine ⟨lookup,?_⟩
    intro su received
    cases reply <;> cases fits
    case error.refl e => simp [receivedUsers] at received
    case user.refl u =>
      have same : u = directory n := chosen.answers (t,u) rfl n (by simp [asked,Label.pid,there])
      subst same
      refine ⟨n,?_,short (askingShort before there)⟩
      cases answer : directory n with
      | none => simp [receivedUsers,answer] at received
      | some su' =>
        simp only [receivedUsers,answer,List.mem_singleton] at received
        rw [received]
  | ran t fault label there db log =>
    obtain ⟨lookup,heard⟩ := inv _ _ _ _ there
    exact ⟨lookup,by simpa using heard⟩

def Homed (b : Build) (config : Config) (directory : String → Option ScimUser) (s : Sys) : Prop :=
  ∀ k x, (k,x) ∈ given empty s → Cacheable b config directory k ∧ (slots b config .uid k).head? = some x

theorem homedStep {s l s'} (apart : ¬Clash b config directory) (before : Reach (step b config) (Serves directory) (fresh empty now0) s)
    (inv : Homed b config directory s) (single : Single l) (move : Move b config s l s') : Homed b config directory s' := by
  intro k x inside
  rcases givenStep move inside with old | ⟨u,issued,rfl,rfl⟩
  · exact inv k x old
  · obtain ⟨op,tr,cont,at'⟩ := issuesRunning issued
    obtain ⟨-,su,received,same,uidReserved,gidReserved⟩ := (conforms before _ _ _ _ at').1
    obtain ⟨n,listed,short⟩ := (heardDirectory before _ _ _ _ at').2 su received
    have named : u.externalId = su.id := by rw [same]; rfl
    have cacheable : Cacheable b config directory su.id :=
      ⟨n,su,listed,short,rfl,List.ne_nil_of_mem (Probing.reachesMember gidReserved.walk)⟩
    rw [named]
    refine ⟨cacheable,?_⟩
    have told := reflected (fun _ _ => Serves.single) before
    rw [single] at at'
    rcases Probing.reachesFirst uidReserved.walk with first | ⟨y,first,passed,differ⟩
    · exact first
    · -- the first slot is taken, by an id whose first slot it is as well
      obtain ⟨j,own,foreign⟩ := passedHeld (told _ _ _ at') passed
      obtain ⟨cacheable',first'⟩ := inv j y (rowsGiven before j y own)
      exact absurd ⟨j,su.id,y,cacheable',cacheable,foreign,first',first,u.uid,
        Probing.reachesMember uidReserved.walk,differ⟩ apart

theorem homed {s} (apart : ¬Clash b config directory)
    (run : Reach (step b config) (Serves directory) (fresh empty now0) s) : Homed b config directory s := by
  refine moveInvariant (Homed b config directory) (by rintro k x ⟨⟩) ?_ run
  intro s l s' before inv chosen move
  exact homedStep apart before inv chosen.single move

theorem homedAgree {now0 now0'} {s s' : Sys} (apart : ¬Clash b config directory)
    (run : Reach (step b config) (Serves directory) (fresh empty now0) s)
    (run' : Reach (step b config) (Serves directory) (fresh empty now0') s') {k x y}
    (left : (k,x) ∈ returned s) (right : (k,y) ∈ returned s') : x = y := by
  obtain ⟨-,here⟩ := homed apart run k x (returnedGiven run left)
  obtain ⟨-,there⟩ := homed apart run' k y (returnedGiven run' right)
  exact Option.some.inj (here.symm.trans there)

def serving (directory : String → Option ScimUser) : Replies
  | .userByName n => .ok (directory n)
  | .groupByName _ => .error .http
  | .listUsers => .error .http
  | .listGroups => .error .http

theorem aloneLookup {db : Db} {t : Int} {reply : Replies} {n su x g} (short : ¬MAX_NAME_LEN < n.utf8ByteSize)
    (listed : reply (.userByName n) = .ok (some su))
    (uid : firstFit (db.owners .uid) su.id (slots b config .uid su.id) = some x)
    (gid : firstFit (db.owners .gid) (gidExternal su) (slots b config .gid (gidExternal su)) = some g) :
    alone t reply (lookupUserByName b config n) db =
      (.ok (some (userModel config su x g)),db.insertOrReplaceUser (userModel config su x g) t) := by
  unfold lookupUserByName
  rw [if_neg short]
  refine (aloneOk (aloneAsk (.userByName n))).trans ?_
  rw [listed]
  exact aloneMap (aloneRefreshUser uid gid)

theorem lookupReach {s : Sys} {t : Int} {n u db'} (idle : s.procs 0 = .idle) (later : s.now ≤ t)
    (ok : alone t (serving directory) (lookupUserByName b config n) s.db = (.ok (some u),db')) :
    ∃ s', Reach (step b config) (Serves directory) s s' ∧ s'.procs 0 = .idle ∧ s'.db = db' ∧ s'.now ≤ t ∧
      (u.externalId,u.uid) ∈ returned s' := by
  have begins : step b config s (.start 0 (.lookupUserByName n)) = some (begin b config s 0 (.lookupUserByName n)) := by
    simp [step,idle,mayStart]
  have hears (s : Sys) (tr q k) (at' : s.procs 0 = .running (.lookupUserByName n) tr (.call (.scim q) k)) :
      ∃ r, Reply.fit r q = some (serving directory q) ∧ Serves directory s (.scim 0 t r) := by
    cases q with
    | userByName name =>
      refine ⟨.user (directory name),rfl,rfl,by rintro o ⟨⟩,?_⟩
      rintro a ⟨⟩ n' same
      simp only [asked,Label.pid,at',Option.mem_def,Option.some.injEq] at same
      rw [same]
    | groupByName name => exact ⟨.error .http,rfl,servesQuiet rfl rfl rfl⟩
    | listUsers => exact ⟨.error .http,rfl,servesQuiet rfl rfl rfl⟩
    | listGroups => exact ⟨.error .http,rfl,servesQuiet rfl rfl rfl⟩
  have result : run (answer t (serving directory)) (operation b config (.lookupUserByName n)) s.db =
      (.ok (.user (some u)),db') := aloneMap ok
  have finished : ∃ s' tr, Reach (step b config) (Serves directory) (begin b config s 0 (.lookupUserByName n)) s' ∧
      s'.procs 0 = .running (.lookupUserByName n) tr (.ret (.ok (.user (some u)))) ∧ s'.db = db' ∧ s'.now ≤ t := by
    obtain ⟨s',tr,onward,at',db,now⟩ := aloneReach hears (fun _ => servesQuiet rfl rfl rfl)
      (s := begin b config s 0 (.lookupUserByName n)) (putSame s.procs 0 _) later
    have same : (begin b config s 0 (.lookupUserByName n)).db = s.db := rfl
    rw [same,result] at at' db
    exact ⟨s',tr,onward,at',db,now⟩
  obtain ⟨s1,tr,onward,at',db,now⟩ := finished
  have ends : step b config s1 (.finish 0) = some (done s1 0 (.lookupUserByName n) (.ok (.user (some u)))) := by
    simp [step,at']
  have first : Serves directory s (.start 0 (.lookupUserByName n)) := ⟨rfl,by rintro o ⟨⟩; rfl,by rintro a ⟨⟩⟩
  have last : Serves directory s1 (.finish 0) := servesQuiet rfl rfl rfl
  refine ⟨_,.next (Runs.reachTrans (.next .start _ first begins) onward) _ last ends,?_,db,now,?_⟩
  · simp [done]
  · exact List.mem_flatMap.mpr ⟨_,List.mem_cons_self,List.mem_singleton.mpr rfl⟩

theorem firstLookup {t : Int} {n su x g} (short : ¬MAX_NAME_LEN < n.utf8ByteSize) (listed : directory n = some su)
    (uid : (slots b config .uid su.id).head? = some x) (gid : (slots b config .gid (gidExternal su)).head? = some g) :
    alone t (serving directory) (lookupUserByName b config n) empty =
      (.ok (some (userModel config su x g)),empty.insertOrReplaceUser (userModel config su x g) t) := by
  refine aloneLookup short (congrArg Except.ok listed) ?_ ?_
  · rw [Probing.firstFitFree (fun y => congrFun (ownersEmpty .uid) y),uid]
  · rw [Probing.firstFitFree (fun y => congrFun (ownersEmpty .gid) y),gid]

theorem clashDisagrees (clash : Clash b config directory) (now0 now0' : Int) : ∃ s s' k x y,
    Reach (step b config) (Serves directory) (fresh empty now0) s ∧
    Reach (step b config) (Serves directory) (fresh empty now0') s' ∧
    (k,x) ∈ returned s ∧ (k,y) ∈ returned s' ∧ x ≠ y := by
  obtain ⟨_,_,x,⟨n,su,listed,short,rfl,gid⟩,⟨n',su',listed',short',rfl,gid'⟩,apart,first,first',y,onPath,differ⟩ := clash
  obtain ⟨g,gidFirst⟩ := Option.ne_none_iff_exists'.mp (mt List.head?_eq_none_iff.mp gid)
  obtain ⟨g',gidFirst'⟩ := Option.ne_none_iff_exists'.mp (mt List.head?_eq_none_iff.mp gid')
  -- here the first id is looked up before the second
  obtain ⟨s1,run1,idle1,db1,now1,-⟩ := lookupReach (s := fresh empty now0) rfl (Int.le_refl _)
    (firstLookup short listed first gidFirst)
  have owners : s1.db.owners .uid = Probing.assign (fun _ => none) su.id x := by
    rw [db1,← ownersEmpty .uid]
    exact execStores (c := .uid) (s := .insertOrReplaceUser (userModel config su x g)) rfl rfl
  have free : ¬Held (s1.db.owners .uid) su'.id y := by
    rintro ⟨other,own,-⟩
    simp [owners,Probing.assign,differ] at own
  obtain ⟨z,stops,isOpen⟩ := Probing.firstFitStops onPath free
  have elsewhere : z ≠ x := by
    rintro rfl
    rw [owners] at isOpen
    rcases isOpen with none | mine
    · simp [Probing.assignSelf] at none
    · exact apart (Option.some.inj (Probing.assignSelf.symm.trans mine))
  have gidFree : ∀ y, s1.db.owners .gid y = none := by
    intro y
    rw [db1]
    exact congrFun (ownersEmpty .gid) y
  obtain ⟨s2,run2,-,-,-,there⟩ := lookupReach (s := s1) (t := s1.now) idle1 (Int.le_refl _)
    (aloneLookup short' (congrArg Except.ok listed') stops ((Probing.firstFitFree gidFree).trans gidFirst'))
  -- and here the second alone
  obtain ⟨s',run',-,-,-,here⟩ := lookupReach (s := fresh empty now0') rfl (Int.le_refl _)
    (firstLookup short' listed' first' gidFirst')
  exact ⟨s2,s',su'.id,z,x,Runs.reachTrans run1 run2,run',there,here,elsewhere⟩

theorem serversAgree (b : Build) (config : Config) (directory : String → Option ScimUser) (now0 now0' : Int) :
    (∀ s s', Reach (step b config) (Serves directory) (fresh empty now0) s →
      Reach (step b config) (Serves directory) (fresh empty now0') s' →
      ∀ k x y, (k,x) ∈ returned s → (k,y) ∈ returned s' → x = y) ↔ ¬Clash b config directory := by
  constructor
  · intro agree clash
    obtain ⟨s,s',k,x,y,run,run',left,right,differ⟩ := clashDisagrees clash now0 now0'
    exact differ (agree s s' run run' k x y left right)
  · intro apart s s' run run' k x y
    exact homedAgree apart run run'

theorem slotsWithin {c k} (bounds : InBounds (rangeMin config c) (rangeSize config c)) : slots b config c k ≠ [] := by
  intro none
  have first : (slots b config c k).head? = _ := pathHead bounds
  rw [none] at first
  cases first

theorem cacheableWithin {k} (bounds : InBounds (rangeMin config .gid) (rangeSize config .gid)) :
    Cacheable b config directory k ↔ ∃ n su, directory n = some su ∧ ¬MAX_NAME_LEN < n.utf8ByteSize ∧ su.id = k := by
  constructor
  · rintro ⟨n,su,listed,short,named,-⟩
    exact ⟨n,su,listed,short,named⟩
  · rintro ⟨n,su,listed,short,named⟩
    exact ⟨n,su,listed,short,named,slotsWithin bounds⟩

theorem sameFirst {j k} (bounds : InBounds (rangeMin config .uid) (rangeSize config .uid)) :
    (slots b config .uid j).head? = (slots b config .uid k).head? ↔
      (b.murmur3_32 j).toNat % (rangeSize config .uid).toNat = (b.murmur3_32 k).toNat % (rangeSize config .uid).toNat := by
  rw [show (slots b config .uid j).head? = _ from pathHead bounds,show (slots b config .uid k).head? = _ from pathHead bounds,
    Option.some.injEq,← UInt32.toNat_inj,ringSlotNat bounds,ringSlotNat bounds,Nat.add_zero,Nat.add_zero]
  omega

theorem clashResidues (bounds : ∀ c, InBounds (rangeMin config c) (rangeSize config c)) :
    Clash b config directory ↔ 2 ≤ (rangeSize config .uid).toNat ∧
      ∃ n n' su su', directory n = some su ∧ ¬MAX_NAME_LEN < n.utf8ByteSize ∧ directory n' = some su' ∧
        ¬MAX_NAME_LEN < n'.utf8ByteSize ∧ su.id ≠ su'.id ∧
        (b.murmur3_32 su.id).toNat % (rangeSize config .uid).toNat =
          (b.murmur3_32 su'.id).toNat % (rangeSize config .uid).toNat := by
  constructor
  · rintro ⟨_,_,x,⟨n,su,listed,short,rfl,-⟩,⟨n',su',listed',short',rfl,-⟩,apart,first,first',y,onPath,differ⟩
    refine ⟨?_,n,n',su,su',listed,short,listed',short',apart,(sameFirst (bounds .uid)).mp (first.trans first'.symm)⟩
    by_contra few
    have single : (rangeSize config .uid).toNat = 1 := by
      have positive := (bounds .uid).some
      omega
    rw [slots,pathRing (bounds .uid) (by omega),single] at onPath first'
    simp only [List.range_one,List.map_cons,List.map_nil,List.mem_singleton,List.head?_cons,Option.some.injEq] at onPath first'
    exact differ (onPath.trans first')
  · rintro ⟨more,n,n',su,su',listed,short,listed',short',apart,residue⟩
    have first' : (slots b config .uid su'.id).head? = _ := pathHead (bounds .uid)
    have first := ((sameFirst (bounds .uid)).mpr residue).trans first'
    exact ⟨su.id,su'.id,_,(cacheableWithin (bounds .gid)).mpr ⟨n,su,listed,short,rfl⟩,
      (cacheableWithin (bounds .gid)).mpr ⟨n',su',listed',short',rfl⟩,apart,first,first',_,
      pathSecond (bounds .uid) more,ringSlotNext (bounds .uid) more⟩

def twoThree : String → Option ScimUser
  | "two" => some (scimUser "u2" "two")
  | "three" => some (scimUser "u3" "three")
  | _ => none

def bothOrders (left right : String) : List Label :=
  whole 0 (.lookupUserByName left) 0 (some (.user (twoThree left))) 3 ++
  whole 0 (.lookupUserByName right) 10 (some (.user (twoThree right))) 4

theorem serversDisagree : ∃ s s',
    replay (step release fourSlots) (Serves twoThree) (fresh empty 0) (bothOrders "two" "three") = some s ∧
    replay (step release fourSlots) (Serves twoThree) (fresh empty 0) (bothOrders "three" "two") = some s' ∧
    ("u2",1001) ∈ returned s ∧ ("u2",1002) ∈ returned s' := by
  have left : (replay (step release fourSlots) (Serves twoThree) (fresh empty 0) (bothOrders "two" "three")).map
      returned = some [("u3",1002),("u2",1001)] := by decide +kernel
  have right : (replay (step release fourSlots) (Serves twoThree) (fresh empty 0) (bothOrders "three" "two")).map
      returned = some [("u2",1002),("u3",1001)] := by decide +kernel
  obtain ⟨s,reached,here⟩ := Option.map_eq_some_iff.mp left
  obtain ⟨s',reached',there⟩ := Option.map_eq_some_iff.mp right
  exact ⟨s,s',reached,reached',by simp [here],by simp [there]⟩

end SssdOidc.Agreement
