import SssdOidc.CStrings
import SssdOidc.Provenance

/-! What a C program reads of the entries that the NSS module has packed for it. With the
provenance of the entries this goes from the directory to the program: every byte it reads
is one of the directory's, whatever the processes on the cache did in between. -/
namespace SssdOidc.Delivery
open Model Database Mapping Program Service SssdOidc.System Protocol Packing Layout CStrings Provenance
open SssdOidc.Membership (displays)
open Stability (fourSlots)
open Runs (Reach)

def word (bytes : List UInt8) : Nat := bytes.foldr (fun byte n => byte.toNat + 256 * n) 0

/- The strings behind the pointers of an array, up to its NULL. -/
def pointed (buf : Buffer) : Nat → Nat → List (List UInt8)
  | 0, _ => []
  | left+1, address =>
      let ptr := word (Buffer.slice buf (address - buf.addr) pointerSize)
      if ptr = 0 then [] else cString buf ptr :: pointed buf left (address + pointerSize)

theorem wordBytes (n address : Nat) : word (bytesFrom n address) = address % 256^n := by
  induction n generalizing address with
  | zero => simp [word,bytesFrom,Nat.mod_one]
  | succ n ih =>
    have low : (UInt8.ofNat address).toNat = address % 256 := UInt8.toNat_ofNat' ..
    have later : word (bytesFrom n (address / 256)) = address / 256 % 256^n := ih _
    have split : address % (256 * 256^n) = address % 256 + 256 * (address / 256 % 256^n) := Nat.mod_mul
    rw [Nat.pow_succ,Nat.mul_comm,split,← later,← low]
    rfl

theorem wordPointer {address : Nat} (small : address < 2^64) : word (pointer address) = address :=
  (wordBytes pointerSize address).trans (Nat.mod_eq_of_lt small)

theorem pointerLength (address : Nat) : (pointer address).length = pointerSize := rfl

theorem sliceSplit {buf : Buffer} {offset k : Nat} {front back : List UInt8}
    (held : Buffer.slice buf offset (front.length + k) = front ++ back) :
    Buffer.slice buf offset front.length = front ∧ Buffer.slice buf (offset + front.length) k = back := by
  unfold Buffer.slice at held ⊢
  constructor
  · have first := congrArg (List.take front.length) held
    rwa [List.take_take,Nat.min_eq_left (Nat.le_add_right _ _),List.take_left] at first
  · have rest := congrArg (List.drop front.length) held
    rwa [List.drop_take,Nat.add_sub_cancel_left,List.drop_drop,List.drop_left] at rest

theorem pointedAll {buf : Buffer} {offset : Nat} {ptrs : List Nat} (real : ∀ p ∈ ptrs, p ≠ 0 ∧ p < 2^64)
    (held : Buffer.slice buf offset ((ptrs.length + 1) * pointerSize) = (ptrs ++ [0]).flatMap pointer) :
    pointed buf (ptrs.length + 1) (buf.addr + offset) = ptrs.map (cString buf) := by
  induction ptrs generalizing offset with
  | nil =>
    have null : Buffer.slice buf offset pointerSize = pointer 0 := by simpa using held
    simp [pointed,null,wordPointer]
  | cons p rest ih =>
    obtain ⟨some',small⟩ := real p List.mem_cons_self
    have whole : Buffer.slice buf offset ((pointer p).length + (rest.length + 1) * pointerSize) =
        pointer p ++ (rest ++ [0]).flatMap pointer := by
      have size : (pointer p).length + (rest.length + 1) * pointerSize = ((p :: rest).length + 1) * pointerSize := by
        rw [pointerLength,List.length_cons,Nat.succ_mul (rest.length + 1),Nat.add_comm]
      rw [size,held,List.cons_append,List.flatMap_cons]
    obtain ⟨first,later⟩ := sliceSplit whole
    rw [pointerLength] at first later
    have onward := ih (fun q inside => real q (List.mem_cons_of_mem _ inside)) later
    rw [List.length_cons,pointed,Nat.add_sub_cancel_left,first,wordPointer small,if_neg some',List.map_cons,
      Nat.add_assoc,onward]

structure GroupReadsBack (grp : Group) (after : Caller GroupEntry) : Prop where
  name : cString after.buf after.result.name = utf8 grp.name
  passwd : cString after.buf after.result.passwd = utf8 "x"
  gid : after.result.gid = grp.gid
  members : pointed after.buf (grp.members.length + 1) after.result.mem = grp.members.map utf8

/- Memory of a process: the buffer does not start at NULL, and ends in the address space. -/
structure Placed (buf : Buffer) : Prop where
  somewhere : buf.addr ≠ 0
  ends : buf.addr + buf.length ≤ 2^64

section Groups
variable {grp : Group} {caller : Caller GroupEntry}

theorem memberNames (grp : Group) : (memberPlaces grp).map Prod.snd = grp.members := by
  have names (offset : Nat) (ss : List String) : (places offset ss).map Prod.snd = ss := by
    induction ss generalizing offset with
    | nil => rfl
    | cons s rest ih => exact congrArg (s :: ·) (ih _)
  rw [memberPlaces,List.map_drop,names]
  rfl

theorem memberPlaced {o : Nat} {s : String} (inside : (o,s) ∈ memberPlaces grp) : (o,s) ∈ places 0 (groupTexts grp) :=
  List.mem_of_mem_drop inside

theorem groupReadsBack (placed : Placed caller.buf)
    (room : pointersAt grp + (grp.members.length + 1) * 8 ≤ caller.buf.length) :
    GroupReadsBack grp (fillGroupBuf grp caller).2 ↔ NulFree grp.name ∧ ∀ m ∈ grp.members, NulFree m := by
  have packed := groupPacked room
  have addr : (fillGroupBuf grp caller).2.buf.addr = caller.buf.addr := by rw [fillGroupDone room]; rfl
  generalize (fillGroupBuf grp caller).2 = after at packed addr ⊢
  -- every string is read back where it was placed, up to its first NUL
  have reads {o : Nat} {s : String} (inside : (o,s) ∈ places 0 (groupTexts grp)) :
      cString after.buf (caller.buf.addr + o) = utf8 s ↔ NulFree s := by
    rw [← addr]
    exact cStringWhole (packed.strings o s inside)
  have name : (0,grp.name) ∈ places 0 (groupTexts grp) := List.mem_cons_self
  have x : (needed grp.name,"x") ∈ places 0 (groupTexts grp) := by
    simp [groupTexts,places]
  have plain : NulFree "x" := by unfold NulFree; decide
  have walked : pointed after.buf (grp.members.length + 1) after.result.mem =
      (memberPlaces grp).map fun m => cString after.buf (caller.buf.addr + m.1) := by
    have real : ∀ p ∈ (memberPlaces grp).map (fun m : Nat × String => caller.buf.addr + m.1), p ≠ 0 ∧ p < 2^64 := by
      intro p inside
      obtain ⟨⟨o,s⟩,there,rfl⟩ := List.mem_map.mp inside
      obtain ⟨front,back,split,here⟩ := placesWithin (memberPlaced there)
      have start := placed.somewhere
      have stop := placed.ends
      have size := groupTextSum grp
      have before := textsBefore grp
      rw [split,texts,List.flatMap_append,List.flatMap_cons,List.length_append,List.length_append,← texts,textLength,
        needed] at size
      dsimp only
      omega
    have held : Buffer.slice after.buf (pointersAt grp)
        ((((memberPlaces grp).map (fun m : Nat × String => caller.buf.addr + m.1)).length + 1) * pointerSize) =
          ((memberPlaces grp).map (fun m : Nat × String => caller.buf.addr + m.1) ++ [0]).flatMap pointer := by
      rw [List.length_map,memberPlacesLength]
      exact packed.pointers
    have all := pointedAll real held
    rw [List.length_map,memberPlacesLength,List.map_map,addr,← packed.mem] at all
    exact all
  have members : pointed after.buf (grp.members.length + 1) after.result.mem = grp.members.map utf8 ↔
      ∀ m ∈ grp.members, NulFree m := by
    rw [walked,← memberNames grp,List.map_map,List.map_inj_left,List.forall_mem_map]
    constructor
    · intro same m inside
      exact (reads (memberPlaced inside)).mp (same m inside)
    · intro clean m inside
      exact (reads (memberPlaced inside)).mpr (clean m inside)
  constructor
  · intro back
    have first := back.name
    rw [packed.name,← Nat.add_zero caller.buf.addr] at first
    exact ⟨(reads name).mp first,members.mp back.members⟩
  · rintro ⟨clean,all⟩
    refine ⟨?_,?_,packed.gid,members.mpr all⟩
    · rw [packed.name,← Nat.add_zero caller.buf.addr]
      exact (reads name).mpr clean
    · rw [packed.passwd]
      exact (reads x).mpr plain

end Groups

structure Clean (config : Config) (d : Source) : Prop where
  names : ∀ su ∈ d.users, NulFree su.userName
  displayNames : ∀ su ∈ d.users, ∀ n ∈ su.displayName, NulFree n
  groups : ∀ sg ∈ d.groups, NulFree sg.displayName
  members : ∀ sg ∈ d.groups, ∀ n ∈ displays sg, NulFree n
  home : NulFree config.userDefaults.homeTemplate
  shell : NulFree config.userDefaults.shell

def outputUsers : Output → List User
  | .user u => u.toList
  | .users us => us
  | _ => []

def outputGroups : Output → List Group
  | .group g => g.toList
  | .groups gs => gs
  | _ => []

section Directory
variable {b : Build} {config : Config} {d : Source}

theorem memExpand {user template : List Char} {c : Char} (inside : c ∈ expandUser user template) :
    c ∈ user ∨ c ∈ template := by
  fun_induction expandUser user template with
  | case1 rest ih =>
    rcases List.mem_append.mp inside with name | later
    · exact .inl name
    · exact (ih later).imp id fun there => List.mem_append_right ['\x7b','u','s','e','r','\x7d'] there
  | case2 c' rest other ih =>
    rcases List.mem_cons.mp inside with rfl | later
    · exact .inr List.mem_cons_self
    · exact (ih later).imp id (List.mem_cons_of_mem _)
  | case3 => cases inside

theorem homeClean {name : String} (user : NulFree name) (template : NulFree config.userDefaults.homeTemplate) :
    NulFree (homeFor config name) := by
  intro nul
  rw [homeFor,String.toList_ofList] at nul
  exact (memExpand nul).elim user template

theorem userClean (clean : Clean config d) {su : ScimUser} (inside : su ∈ d.users) (uid gid : UInt32) :
    NulFree (userModel config su uid gid).name ∧ NulFree (userModel config su uid gid).gecos ∧
      NulFree (userModel config su uid gid).home ∧ NulFree (userModel config su uid gid).shell := by
  have name := clean.names su inside
  refine ⟨name,?_,homeClean name clean.home,clean.shell⟩
  change NulFree (su.displayName.getD "")
  cases shown : su.displayName with
  | none => exact List.not_mem_nil
  | some n => exact clean.displayNames su inside n (by rw [shown]; rfl)

theorem groupClean (clean : Clean config d) {g : Group} (sourced : FromGroup b config d g) :
    NulFree g.name ∧ ∀ m ∈ g.members, NulFree m := by
  obtain ⟨⟨sg,inside,-,named,-⟩,members⟩ := sourced
  refine ⟨named ▸ clean.groups sg inside,fun m listed => ?_⟩
  obtain ⟨sg',inside',-,shown⟩ := members m listed
  exact clean.members sg' inside' m shown

theorem sourcedUsers {told : Telling} {out : Output} (sourced : Sourced b config d told out) {u : User} (shown : u ∈ outputUsers out) :
    FromUser b config d u := by
  cases out with
  | user found => exact sourced u (Option.mem_toList.mp shown)
  | users us => exact sourced u shown
  | group g => cases shown
  | groups gs => cases shown
  | gids gids => cases shown
  | active a => cases shown
  | done => cases shown
  | unavail => cases shown

theorem sourcedGroups {told : Telling} {out : Output} (sourced : Sourced b config d told out) {g : Group} (shown : g ∈ outputGroups out) :
    FromGroup b config d g := by
  cases out with
  | group found => exact sourced g (Option.mem_toList.mp shown)
  | groups gs => exact sourced g shown
  | user u => cases shown
  | users us => cases shown
  | gids gids => cases shown
  | active a => cases shown
  | done => cases shown
  | unavail => cases shown

end Directory

structure ReadsUser (b : Build) (config : Config) (su : ScimUser) (after : Caller Passwd) : Prop where
  name : cString after.buf after.result.name = utf8 su.userName
  passwd : cString after.buf after.result.passwd = utf8 "x"
  uid : after.result.uid ∈ slots b config .uid su.id
  gid : after.result.gid ∈ slots b config .gid (gidExternal su)
  gecos : cString after.buf after.result.gecos = utf8 (su.displayName.getD "")
  dir : cString after.buf after.result.dir = utf8 (homeFor config su.userName)
  shell : cString after.buf after.result.shell = utf8 config.userDefaults.shell

structure ReadsGroup (b : Build) (config : Config) (d : Source) (after : Caller GroupEntry) (n : Nat) : Prop where
  group : ∃ sg ∈ d.groups, cString after.buf after.result.name = utf8 sg.displayName ∧
    after.result.gid ∈ slots b config .gid sg.id ∧
    ∀ m ∈ pointed after.buf (n + 1) after.result.mem, ∃ name, m = utf8 name ∧ Lists d sg.id name
  passwd : cString after.buf after.result.passwd = utf8 "x"

theorem usersDelivered (b : Build) (config : Config) (d : Source) (clean : Clean config d) (db : Db) (now : Int) (s : Sys)
    (begins : FromSource b config d db) (run : Reach (step b config) (Hears d.Says) (fresh db now) s) :
    ∀ p op out, Entry.finish p op (.ok out) ∈ s.log → ∀ u ∈ outputUsers out, ∀ caller : Caller Passwd,
      passwdSize u ≤ caller.buf.length → (fillPasswdBuf u caller).1 = .success ∧ (fillPasswdBuf u caller).2.errno = 0 ∧
        ∃ su ∈ d.users, ReadsUser b config su (fillPasswdBuf u caller).2 := by
  intro p op out inside u shown caller room
  obtain ⟨tr,-,sourced,-⟩ := finishedAnswers begins run p op out inside
  obtain ⟨su,among,made,uid,gid⟩ := sourcedUsers sourced shown
  have texts := userClean clean among u.uid u.gid
  rw [← made] at texts
  have back := (passwdReadsBack room).mpr texts
  refine ⟨fillSuccess (passwdFits u caller.buf) |>.mpr room,by rw [fillPasswdDone room],su,among,?_⟩
  have fields (f : User → String) : f u = f (userModel config su u.uid u.gid) := congrArg f made
  exact ⟨back.name.trans (congrArg utf8 (fields User.name)),back.passwd,back.uid ▸ uid,back.gid ▸ gid,
    back.gecos.trans (congrArg utf8 (fields User.gecos)),back.dir.trans (congrArg utf8 (fields User.home)),
    back.shell.trans (congrArg utf8 (fields User.shell))⟩

theorem officeClean : Clean fourSlots office where
  names := by
    rintro su rfl
    unfold NulFree
    decide
  displayNames := by
    rintro su rfl n shown
    cases shown
    unfold NulFree
    decide
  groups := by
    rintro sg rfl
    unfold NulFree
    decide
  members := by
    rintro sg rfl n shown
    cases List.mem_singleton.mp shown
    unfold NulFree
    decide
  home := by
    unfold NulFree
    decide
  shell := by
    unfold NulFree
    decide

theorem annDelivered : ∃ s, Runs.replay (step release fourSlots) (Hears office.Says) (fresh empty 0) crossing = some s ∧
    ∀ p op out, Entry.finish p op (.ok out) ∈ s.log → ∀ u ∈ outputUsers out, ∀ caller : Caller Passwd,
      passwdSize u ≤ caller.buf.length → (fillPasswdBuf u caller).1 = .success ∧ (fillPasswdBuf u caller).2.errno = 0 ∧
        ∃ su ∈ office.users, ReadsUser release fourSlots su (fillPasswdBuf u caller).2 := by
  obtain ⟨s,reached,-⟩ := crossed
  exact ⟨s,reached,usersDelivered release fourSlots office officeClean empty 0 s (fromNothing _ _ _)
    (Runs.replayReach reached)⟩

theorem groupsDelivered (b : Build) (config : Config) (d : Source) (clean : Clean config d) (db : Db) (now : Int) (s : Sys)
    (begins : FromSource b config d db) (run : Reach (step b config) (Hears d.Says) (fresh db now) s) :
    ∀ p op out, Entry.finish p op (.ok out) ∈ s.log → ∀ g ∈ outputGroups out, ∀ caller : Caller GroupEntry,
      Placed caller.buf → pointersAt g + (g.members.length + 1) * 8 ≤ caller.buf.length →
        (fillGroupBuf g caller).1 = .success ∧ (fillGroupBuf g caller).2.errno = 0 ∧
          ReadsGroup b config d (fillGroupBuf g caller).2 g.members.length := by
  intro p op out inside g shown caller placed room
  obtain ⟨tr,-,answer,-⟩ := finishedAnswers begins run p op out inside
  have sourced := sourcedGroups answer shown
  have back := (groupReadsBack placed room).mpr (groupClean clean sourced)
  obtain ⟨⟨sg,among,key,named,gid⟩,members⟩ := sourced
  refine ⟨(fillGroupSuccess g caller).mpr room,(groupPacked room).errno,⟨sg,among,?_,back.gid ▸ gid,?_⟩,back.passwd⟩
  · rw [back.name,named]
  · intro m read
    rw [back.members] at read
    obtain ⟨name,listed,rfl⟩ := List.mem_map.mp read
    exact ⟨name,rfl,key ▸ members name listed⟩

theorem staffDelivered : ∃ s, Runs.replay (step release fourSlots) (Hears office.Says) (fresh empty 0) crossing = some s ∧
    ∀ p op out, Entry.finish p op (.ok out) ∈ s.log → ∀ g ∈ outputGroups out, ∀ caller : Caller GroupEntry,
      Placed caller.buf → pointersAt g + (g.members.length + 1) * 8 ≤ caller.buf.length →
        (fillGroupBuf g caller).1 = .success ∧ (fillGroupBuf g caller).2.errno = 0 ∧
          ReadsGroup release fourSlots office (fillGroupBuf g caller).2 g.members.length := by
  obtain ⟨s,reached,-⟩ := crossed
  exact ⟨s,reached,groupsDelivered release fourSlots office officeClean empty 0 s (fromNothing _ _ _)
    (Runs.replayReach reached)⟩

end SssdOidc.Delivery
