import Mathlib.Data.List.TakeWhile
import SssdOidc.Layout
import SssdOidc.Stability

/-! `fill_passwd_buf` of crates/nss_oidc/src/passwd.rs and what its caller reads: the entry
points to C strings, which end at the first NUL. -/
namespace SssdOidc.CStrings
open Model Packing Layout

def cString (buf : Buffer) (address : Nat) : List UInt8 :=
  (buf.bytes.drop (address - buf.addr)).takeWhile (· != 0)

theorem zeroByte {n : Nat} : 0 = UInt8.ofNat n ↔ n % 256 = 0 := by
  rw [← UInt8.toNat_inj,UInt8.toNat_ofNat',eq_comm]
  rfl

theorem encodesNul {c : Char} : (0 : UInt8) ∈ String.utf8EncodeChar c ↔ c = '\x00' := by
  have value : c = '\x00' ↔ c.val.toNat = 0 := by
    constructor
    · intro same
      rw [same]
      rfl
    · intro zero
      exact Char.ext (UInt32.toNat_inj.mp zero)
  rw [value,String.utf8EncodeChar]
  generalize c.val.toNat = v
  split
  · rw [List.mem_singleton,zeroByte]
    omega
  · -- the bytes of a longer sequence all carry a mark
    split
    · simp only [List.mem_cons,zeroByte,List.not_mem_nil,or_false]
      omega
    · split
      · simp only [List.mem_cons,zeroByte,List.not_mem_nil,or_false]
        omega
      · simp only [List.mem_cons,zeroByte,List.not_mem_nil,or_false]
        omega

theorem utf8Chars (s : String) : utf8 s = s.toList.flatMap String.utf8EncodeChar := by
  have encoded : (s.toList.flatMap String.utf8EncodeChar).toByteArray = s.toByteArray := String.utf8Encode_toList
  rw [utf8,String.toUTF8,← encoded,List.data_toByteArray]

theorem nulByte {s : String} : (0 : UInt8) ∈ utf8 s ↔ '\x00' ∈ s.toList := by
  rw [utf8Chars,List.mem_flatMap]
  constructor
  · intro ⟨c,inside,nul⟩
    rw [← encodesNul.mp nul]
    exact inside
  · intro inside
    exact ⟨_,inside,encodesNul.mpr rfl⟩

theorem cStringWhole {buf : Buffer} {o : Nat} {s : String} (held : Buffer.slice buf o (needed s) = text s) :
    cString buf (buf.addr + o) = utf8 s ↔ '\x00' ∉ s.toList := by
  have split : buf.bytes.drop o = utf8 s ++ (0 :: (buf.bytes.drop o).drop (needed s)) := by
    rw [Buffer.slice] at held
    rw [← List.singleton_append,← List.append_assoc,← text,← held,List.take_append_drop]
  rw [cString,Nat.add_sub_cancel_left,split,← nulByte]
  by_cases nul : (0 : UInt8) ∈ utf8 s
  · refine ⟨fun same => ?_,fun never => absurd nul never⟩
    have read : (0 : UInt8) ∈ (utf8 s ++ (0 :: (buf.bytes.drop o).drop (needed s))).takeWhile (· != 0) := by
      rw [same]
      exact nul
    exact absurd (List.mem_takeWhile_imp read) (by simp)
  · refine ⟨fun _ => nul,fun _ => ?_⟩
    have clean (x : UInt8) (inside : x ∈ utf8 s) : (x != 0) = true := bne_iff_ne.mpr fun zero => nul (zero ▸ inside)
    rw [List.takeWhile_append_of_pos clean]
    simp

def passwdTexts (user : User) : List String := [user.name,"x",user.gecos,user.home,user.shell]

theorem passwdTextSum (user : User) : (texts (passwdTexts user)).length = passwdSize user := by
  rw [textsLength]
  rfl

theorem packPasswdTexts (user : User) : packPasswd user = writeMembers (passwdTexts user) >>= fun ptrs =>
    pure ⟨ptrs.getD 0 0,ptrs.getD 1 0,user.uid,user.gid,ptrs.getD 2 0,ptrs.getD 3 0,ptrs.getD 4 0⟩ := by
  simp only [packPasswd,passwdTexts,writeMembers,bind_assoc,pure_bind]
  rfl

def passwdPlace (user : User) (i : Nat) : Nat := (texts ((passwdTexts user).take i)).length

structure ReadsBack (user : User) (after : Caller Passwd) : Prop where
  name : cString after.buf after.result.name = utf8 user.name
  passwd : cString after.buf after.result.passwd = utf8 "x"
  uid : after.result.uid = user.uid
  gid : after.result.gid = user.gid
  gecos : cString after.buf after.result.gecos = utf8 user.gecos
  dir : cString after.buf after.result.dir = utf8 user.home
  shell : cString after.buf after.result.shell = utf8 user.shell

/- A user as the caller finds it behind a success, whatever is in its strings. -/
structure PasswdPacked (user : User) (buf : Buffer) (after : Caller Passwd) : Prop where
  name : after.result.name = buf.addr
  passwd : after.result.passwd = buf.addr + passwdPlace user 1
  uid : after.result.uid = user.uid
  gid : after.result.gid = user.gid
  gecos : after.result.gecos = buf.addr + passwdPlace user 2
  dir : after.result.dir = buf.addr + passwdPlace user 3
  shell : after.result.shell = buf.addr + passwdPlace user 4
  errno : after.errno = 0
  strings : ∀ i s, (passwdTexts user)[i]? = some s → Buffer.slice after.buf (passwdPlace user i) (needed s) = text s

structure RoundTrips (user : User) (caller : Caller Passwd) : Prop where
  success : (fillPasswdBuf user caller).1 = .success ↔ passwdSize user ≤ caller.buf.length
  reads : (fillPasswdBuf user caller).1 = .success → ReadsBack user (fillPasswdBuf user caller).2
  tooSmall : (fillPasswdBuf user caller).1 ≠ .success → (fillPasswdBuf user caller).1 = .tryAgain ∧
    (fillPasswdBuf user caller).2.errno = ERANGE ∧ (fillPasswdBuf user caller).2.result = caller.result

def NulFree (s : String) : Prop := '\x00' ∉ s.toList

section Fill
variable {user : User} {caller : Caller Passwd}

theorem fillPasswdDone (room : passwdSize user ≤ caller.buf.length) :
    fillPasswdBuf user caller = (.success,⟨⟨caller.buf.addr,caller.buf.addr + passwdPlace user 1,user.uid,user.gid,
      caller.buf.addr + passwdPlace user 2,caller.buf.addr + passwdPlace user 3,caller.buf.addr + passwdPlace user 4⟩,
      caller.buf.write 0 (texts (passwdTexts user)),0⟩) := by
  have size := passwdTextSum user
  have inside : 0 + (texts (passwdTexts user)).length ≤ caller.buf.length := by omega
  have strings := membersDone (p := ⟨caller.buf,0,[]⟩) inside
  have packed : packPasswd user ⟨caller.buf,0,[]⟩ = (some ⟨caller.buf.addr,caller.buf.addr + passwdPlace user 1,user.uid,
      user.gid,caller.buf.addr + passwdPlace user 2,caller.buf.addr + passwdPlace user 3,
      caller.buf.addr + passwdPlace user 4⟩,⟨caller.buf.write 0 (texts (passwdTexts user)),0 + passwdSize user,
      consecutive 0 (fitting caller.buf.length 0 (passwdTexts user))⟩) := by
    rw [packPasswdTexts,packBind,strings,size]
    simp only [passwdPlace,textsLength,passwdTexts,places,List.map_cons,List.getD_cons_zero,List.getD_cons_succ,
      List.take_succ_cons,List.take_zero,List.map_nil,List.sum_cons,List.sum_nil,Nat.add_zero,Nat.zero_add,Nat.add_assoc]
    rfl
  rw [fillPasswdBuf,fill,packed]

theorem passwdHolds {buf : Buffer} {i : Nat} {s : String} (here : (passwdTexts user)[i]? = some s) :
    Buffer.slice (buf.write 0 (texts (passwdTexts user))) (passwdPlace user i) (needed s) = text s := by
  have split : passwdTexts user = (passwdTexts user).take i ++ s :: (passwdTexts user).drop (i + 1) := by
    obtain ⟨inside,rfl⟩ := List.getElem?_eq_some_iff.mp here
    rw [List.getElem_cons_drop,List.take_append_drop]
  have parts : texts (passwdTexts user) = texts ((passwdTexts user).take i) ++ text s ++
      texts ((passwdTexts user).drop (i + 1)) := by
    conv => lhs; rw [split]
    simp only [texts,List.flatMap_append,List.flatMap_cons,List.append_assoc]
  rw [parts,← textLength,← Nat.zero_add (passwdPlace user i)]
  exact sliceWritten (Nat.zero_le _)

theorem passwdReads {i : Nat} {s : String} (here : (passwdTexts user)[i]? = some s) :
    cString (caller.buf.write 0 (texts (passwdTexts user))) (caller.buf.addr + passwdPlace user i) = utf8 s ↔
      NulFree s := @cStringWhole (caller.buf.write 0 (texts (passwdTexts user))) _ _ (passwdHolds here)

theorem passwdPacked (room : passwdSize user ≤ caller.buf.length) :
    PasswdPacked user caller.buf (fillPasswdBuf user caller).2 := by
  rw [fillPasswdDone room]
  exact ⟨rfl,rfl,rfl,rfl,rfl,rfl,rfl,rfl,fun i s here => passwdHolds here⟩

theorem passwdReadsBack (room : passwdSize user ≤ caller.buf.length) :
    ReadsBack user (fillPasswdBuf user caller).2 ↔
      NulFree user.name ∧ NulFree user.gecos ∧ NulFree user.home ∧ NulFree user.shell := by
  have plain : NulFree "x" := by unfold NulFree; decide
  rw [fillPasswdDone room]
  constructor
  · intro back
    exact ⟨(passwdReads (i := 0) rfl).mp back.name,(passwdReads (i := 2) rfl).mp back.gecos,
      (passwdReads (i := 3) rfl).mp back.dir,(passwdReads (i := 4) rfl).mp back.shell⟩
  · intro ⟨name,gecos,home,shell⟩
    exact ⟨(passwdReads (i := 0) rfl).mpr name,(passwdReads (i := 1) rfl).mpr plain,rfl,rfl,
      (passwdReads (i := 2) rfl).mpr gecos,(passwdReads (i := 3) rfl).mpr home,
      (passwdReads (i := 4) rfl).mpr shell⟩

end Fill

theorem fillPasswdRoundTrips (user : User) (caller : Caller Passwd) : RoundTrips user caller ↔
    (passwdSize user ≤ caller.buf.length →
      NulFree user.name ∧ NulFree user.gecos ∧ NulFree user.home ∧ NulFree user.shell) := by
  have success : (fillPasswdBuf user caller).1 = .success ↔ passwdSize user ≤ caller.buf.length :=
    fillSuccess (passwdFits user caller.buf)
  constructor
  · intro trips room
    exact (passwdReadsBack room).mp (trips.reads (success.mpr room))
  · intro clean
    refine ⟨success,fun done => ?_,fun failed => ?_⟩
    · have room := success.mp done
      exact (passwdReadsBack room).mpr (clean room)
    · exact fillTooSmall (passwdFits user caller.buf) (Nat.lt_of_not_le fun room => failed (success.mpr room))

/- SCIM lists a display name with a NUL, which JSON can write. -/
def nulName : ScimUser := ⟨"u1","ann",some "Ann\x00Lee",none,[]⟩

def listsAnn : Solo.Replies
  | .userByName _ => .ok (some nulName)
  | _ => .error .http

def ann : User := ⟨"u1","ann",1000,1000,"Ann\x00Lee","/home/ann","/bin/bash",true⟩

def roomy : Caller Passwd := ⟨⟨0,0,0,0,0,0,0⟩,⟨4096,List.replicate 64 0⟩,0⟩

theorem gecosCutShort :
    (Solo.alone 0 listsAnn (Service.lookupUserByName Mapping.release Stability.fourSlots "ann") Database.empty).1 =
      .ok (some ann) ∧
    (fillPasswdBuf ann roomy).1 = .success ∧
    cString (fillPasswdBuf ann roomy).2.buf (fillPasswdBuf ann roomy).2.result.gecos = utf8 "Ann" ∧
    ¬RoundTrips ann roomy := by
  have packed : (fillPasswdBuf ann roomy).1 = .success := by decide +kernel
  refine ⟨by decide +kernel,packed,by decide +kernel,fun trips => ?_⟩
  have clean := (passwdReadsBack (by decide +kernel)).mp (trips.reads packed)
  exact clean.2.1 (by decide +kernel)

end SssdOidc.CStrings
