import Mathlib.Algebra.GroupWithZero.Nat
import Mathlib.Data.List.Basic
import SssdOidc.Model

/-! crates/nss_oidc/src/passwd.rs and group.rs: packing an entry into the buffer of the
caller. The buffer is its start address and its bytes; a pointer is an address. Lengths
stay below 2^63, so `usize` sums do not wrap. -/
namespace SssdOidc.Packing
open Model

inductive NssStatus where
  | tryAgain
  | unavail
  | notFound
  | success
  deriving DecidableEq, Repr

def ERANGE : Int := 34

structure Buffer where
  addr : Nat
  bytes : List UInt8
  deriving DecidableEq, Repr

def Buffer.length (buf : Buffer) : Nat := buf.bytes.length

def Buffer.write (buf : Buffer) (offset : Nat) (data : List UInt8) : Buffer :=
  ⟨buf.addr,buf.bytes.take offset ++ data ++ buf.bytes.drop (offset + data.length)⟩

structure Caller (ρ : Type) where
  result : ρ
  buf : Buffer
  errno : Int
  deriving DecidableEq, Repr

structure Passwd where
  name : Nat
  passwd : Nat
  uid : UInt32
  gid : UInt32
  gecos : Nat
  dir : Nat
  shell : Nat
  deriving DecidableEq, Repr

structure GroupEntry where
  name : Nat
  passwd : Nat
  gid : UInt32
  mem : Nat
  deriving DecidableEq, Repr

structure Write where
  offset : Nat
  data : List UInt8
  deriving DecidableEq, Repr

def Write.stop (w : Write) : Nat := w.offset + w.data.length

/- The buffer and the local `offset`, and what was written so far, in its order. -/
structure Packer where
  buf : Buffer
  offset : Nat
  writes : List Write

def Packer.write (p : Packer) (offset : Nat) (data : List UInt8) : Packer :=
  ⟨p.buf.write offset data,p.offset,p.writes ++ [⟨offset,data⟩]⟩

abbrev Pack := OptionT (StateM Packer)

def utf8 (s : String) : List UInt8 := s.toUTF8.data.toList

def needed (s : String) : Nat := s.utf8ByteSize + 1

def writeStr (s : String) : Pack Nat := fun p =>
  if p.buf.length < p.offset + needed s then (none,p)
  else
    let done := (p.write p.offset (utf8 s)).write (p.offset + s.utf8ByteSize) [0]
    (some (p.buf.addr + p.offset),{ done with offset := p.offset + needed s })

def writeMembers : List String → Pack (List Nat)
  | [] => pure []
  | member :: rest => do
      let ptr ← writeStr member
      let ptrs ← writeMembers rest
      pure (ptr :: ptrs)

def pointerSize : Nat := 8

def pointerAlign : Nat := 8

def align (offset : Nat) : Nat :=
  let misalign := offset % pointerAlign
  if misalign ≠ 0 then offset + (pointerAlign - misalign) else offset

def bytesFrom : Nat → Nat → List UInt8
  | 0, _ => []
  | n+1, address => UInt8.ofNat address :: bytesFrom n (address / 256)

/- A pointer in memory, little-endian. -/
def pointer (address : Nat) : List UInt8 := bytesFrom pointerSize address

/- `gr_mem.add(i).write_unaligned(..)`, for one word after the other. -/
def writeWords : Nat → List Nat → Packer → Packer
  | _, [], p => p
  | offset, address :: rest, p => writeWords (offset + pointerSize) rest (p.write offset (pointer address))

def writePointers (ptrs : List Nat) : Pack Nat := fun p =>
  let offset := align p.offset
  if p.buf.length < offset + (ptrs.length + 1) * pointerSize then (none,{ p with offset })
  else (some (p.buf.addr + offset),writeWords offset (ptrs ++ [0]) { p with offset })

def bufferTooSmall {ρ : Type} (caller : Caller ρ) (buf : Buffer) : NssStatus × Caller ρ :=
  (.tryAgain,⟨caller.result,buf,ERANGE⟩)

/- The result is written only when everything has found its place. -/
def fill {ρ : Type} (pack : Pack ρ) (caller : Caller ρ) : NssStatus × Caller ρ :=
  match pack ⟨caller.buf,0,[]⟩ with
  | (some result,p) => (.success,⟨result,p.buf,0⟩)
  | (none,p) => bufferTooSmall caller p.buf

def writesOf {ρ : Type} (pack : Pack ρ) (buf : Buffer) : List Write := (pack ⟨buf,0,[]⟩).2.writes

def packPasswd (user : User) : Pack Passwd := do
  let name ← writeStr user.name
  let passwd ← writeStr "x"
  let gecos ← writeStr user.gecos
  let dir ← writeStr user.home
  let shell ← writeStr user.shell
  pure { name, passwd, uid := user.uid, gid := user.gid, gecos, dir, shell }

def fillPasswdBuf (user : User) : Caller Passwd → NssStatus × Caller Passwd := fill (packPasswd user)

def packGroup (grp : Group) : Pack GroupEntry := do
  let name ← writeStr grp.name
  let passwd ← writeStr "x"
  let ptrs ← writeMembers grp.members
  let mem ← writePointers ptrs
  pure { name, passwd, gid := grp.gid, mem }

def fillGroupBuf (grp : Group) : Caller GroupEntry → NssStatus × Caller GroupEntry := fill (packGroup grp)

/- Packing that takes `n` bytes from the offset on: it succeeds where they fit, and the
length of the buffer stays. -/
structure Takes {α : Type} (pack : Pack α) (n : Nat) : Prop where
  fits : ∀ p : Packer, p.offset ≤ p.buf.length → ((pack p).1.isSome ↔ p.offset + n ≤ p.buf.length)
  length : ∀ p : Packer, p.offset ≤ p.buf.length → (pack p).2.buf.length = p.buf.length
  offset : ∀ p : Packer, p.offset ≤ p.buf.length → (pack p).1.isSome → (pack p).2.offset = p.offset + n

theorem writeLength {buf : Buffer} {offset : Nat} {data : List UInt8} (fits : offset + data.length ≤ buf.length) :
    (buf.write offset data).length = buf.length := by
  simp only [Buffer.length,Buffer.write,List.length_append,List.length_take,List.length_drop] at fits ⊢
  omega

theorem utf8Length (s : String) : (utf8 s).length = s.utf8ByteSize := by
  rw [utf8,Array.length_toList]
  rfl

theorem takesStr (s : String) : Takes (writeStr s) (needed s) := by
  have size : needed s = (utf8 s).length + 1 := congrArg (· + 1) (utf8Length s).symm
  constructor
  · intro p _
    unfold writeStr
    split
    · simp; omega
    · simp; omega
  · intro p _
    unfold writeStr
    split
    · rfl
    · have first : (p.buf.write p.offset (utf8 s)).length = p.buf.length := writeLength (by omega)
      have second : ((p.buf.write p.offset (utf8 s)).write (p.offset + s.utf8ByteSize) [0]).length = _ :=
        writeLength (by rw [first,List.length_singleton,← utf8Length]; omega)
      exact second.trans first
  · intro p _ done
    unfold writeStr at done ⊢
    split at done
    · simp at done
    · rename_i fits
      rw [if_neg fits]

theorem packBind {α β : Type} (pack : Pack α) (f : α → Pack β) (p : Packer) :
    (pack >>= f : Pack β) p = match pack p with
      | (some a,p') => f a p'
      | (none,p') => (none,p') := by
  simp only [bind,OptionT.bind,OptionT.mk,StateT.bind]
  rcases pack p with ⟨_ | a,p'⟩ <;> rfl

theorem takesPure {α : Type} (a : α) : Takes (pure a) 0 :=
  ⟨fun _ inside => ⟨fun _ => inside,fun _ => rfl⟩,fun _ _ => rfl,fun _ _ _ => rfl⟩

theorem takesBind {α β : Type} {pack : Pack α} {f : α → Pack β} {n k : Nat} (first : Takes pack n)
    (then' : ∀ a, Takes (f a) k) : Takes (pack >>= f) (n + k) := by
  have cases' (p : Packer) (inside : p.offset ≤ p.buf.length) :
      (∃ p', pack p = (none,p') ∧ (pack >>= f : Pack β) p = (none,p') ∧ p.buf.length < p.offset + n ∧
        p'.buf.length = p.buf.length) ∨
      (∃ a p', (pack >>= f : Pack β) p = f a p' ∧ p'.offset = p.offset + n ∧ p.offset + n ≤ p.buf.length ∧
        p'.buf.length = p.buf.length) := by
    have fits := first.fits p inside
    have length := first.length p inside
    have offset := first.offset p inside
    rw [packBind]
    rcases step : pack p with ⟨_ | a,p'⟩
    · rw [step] at fits length
      exact .inl ⟨p',rfl,rfl,Nat.lt_of_not_le fun room => by simpa using fits.mpr room,length⟩
    · rw [step] at fits length offset
      exact .inr ⟨a,p',rfl,offset rfl,fits.mp rfl,length⟩
  constructor
  · intro p inside
    rcases cases' p inside with ⟨p',-,out,short,-⟩ | ⟨a,p',out,offset,room,length⟩
    · rw [out]
      simp
      omega
    · rw [out,(then' a).fits p' (by omega),offset,length,Nat.add_assoc]
  · intro p inside
    rcases cases' p inside with ⟨p',-,out,-,length⟩ | ⟨a,p',out,offset,room,length⟩
    · rw [out]
      exact length
    · rw [out,(then' a).length p' (by omega),length]
  · intro p inside done
    rcases cases' p inside with ⟨p',-,out,-,-⟩ | ⟨a,p',out,offset,room,length⟩
    · rw [out] at done
      cases done
    · rw [out] at done ⊢
      rw [(then' a).offset p' (by omega) done,offset,Nat.add_assoc]

theorem takesMembers (members : List String) : Takes (writeMembers members) (members.map needed).sum := by
  induction members with
  | nil => exact takesPure []
  | cons member rest ih => exact takesBind (takesStr member) fun _ => takesBind ih fun _ => takesPure _

theorem writeMembersLength {members : List String} {p p' : Packer} {ptrs : List Nat}
    (done : writeMembers members p = (some ptrs,p')) : ptrs.length = members.length := by
  induction members generalizing p ptrs with
  | nil => cases done; rfl
  | cons member rest ih =>
    rw [writeMembers,packBind] at done
    rcases first : writeStr member p with ⟨_ | ptr,p1⟩
    · rw [first] at done
      cases done
    · rw [first] at done
      simp only [packBind] at done
      rcases second : writeMembers rest p1 with ⟨_ | later,p2⟩
      · rw [second] at done
        cases done
      · rw [second] at done
        cases done
        simp [ih second]

def passwdSize (user : User) : Nat :=
  needed user.name + (needed "x" + (needed user.gecos + (needed user.home + (needed user.shell + 0))))

def groupStrings (grp : Group) : Nat := needed grp.name + (needed "x" + (grp.members.map needed).sum)

def groupSize (grp : Group) : Nat := align (groupStrings grp) + (grp.members.length + 1) * pointerSize

theorem takesPasswd (user : User) : Takes (packPasswd user) (passwdSize user) :=
  takesBind (takesStr _) fun _ => takesBind (takesStr _) fun _ => takesBind (takesStr _) fun _ =>
    takesBind (takesStr _) fun _ => takesBind (takesStr _) fun _ => takesPure _

theorem passwdFits (user : User) (buf : Buffer) :
    (packPasswd user ⟨buf,0,[]⟩).1.isSome ↔ passwdSize user ≤ buf.length := by
  have fits := (takesPasswd user).fits ⟨buf,0,[]⟩ (Nat.zero_le _)
  rwa [Nat.zero_add] at fits

def groupText (grp : Group) : Pack (Nat × Nat × List Nat) := do
  let name ← writeStr grp.name
  let passwd ← writeStr "x"
  let ptrs ← writeMembers grp.members
  pure (name,passwd,ptrs)

theorem takesText (grp : Group) : Takes (groupText grp) (groupStrings grp) :=
  takesBind (takesStr _) fun _ => takesBind (takesStr _) fun _ => takesBind (takesMembers _) fun _ => takesPure _

theorem groupTextLength {grp : Group} {p p' : Packer} {name passwd : Nat} {ptrs : List Nat}
    (done : groupText grp p = (some (name,passwd,ptrs),p')) : ptrs.length = grp.members.length := by
  rw [groupText,packBind] at done
  rcases first : writeStr grp.name p with ⟨_ | ptr,p1⟩
  · rw [first] at done
    cases done
  · rw [first] at done
    simp only [packBind] at done
    rcases second : writeStr "x" p1 with ⟨_ | x,p2⟩
    · rw [second] at done
      cases done
    · rw [second] at done
      rcases third : writeMembers grp.members p2 with ⟨_ | later,p3⟩
      · simp only [third] at done
        cases done
      · simp only [third] at done
        cases done
        exact writeMembersLength third

theorem packGroupText (grp : Group) : packGroup grp = groupText grp >>= fun text =>
    writePointers text.2.2 >>= fun mem => pure ⟨text.1,text.2.1,grp.gid,mem⟩ := by
  simp only [packGroup,groupText,bind_assoc,pure_bind]

theorem finishes {α β : Type} {pack : Pack α} {f : α → β} {p : Packer} :
    ((pack >>= fun a => pure (f a) : Pack β) p).1.isSome = (pack p).1.isSome := by
  rw [packBind]
  rcases pack p with ⟨_ | a,p'⟩ <;> rfl

theorem pointersFit {ptrs : List Nat} {p : Packer} : (writePointers ptrs p).1.isSome ↔
    align p.offset + (ptrs.length + 1) * pointerSize ≤ p.buf.length := by
  simp only [writePointers]
  split
  · rename_i short
    exact ⟨fun never => (nomatch never),fun room => absurd room (Nat.not_le_of_lt short)⟩
  · rename_i room
    exact ⟨fun _ => Nat.le_of_not_lt room,fun _ => rfl⟩

/- The alignment gap and the pointers come behind the strings, so the room they take
depends on the strings. -/
theorem groupFits (grp : Group) (buf : Buffer) :
    (packGroup grp ⟨buf,0,[]⟩).1.isSome ↔ groupSize grp ≤ buf.length := by
  have takes := takesText grp
  have fits := takes.fits ⟨buf,0,[]⟩ (Nat.zero_le _)
  have length := takes.length ⟨buf,0,[]⟩ (Nat.zero_le _)
  have offset := takes.offset ⟨buf,0,[]⟩ (Nat.zero_le _)
  have aligned : groupStrings grp ≤ align (groupStrings grp) := by
    unfold align
    dsimp only
    split <;> omega
  rw [packGroupText,packBind]
  rcases text : groupText grp ⟨buf,0,[]⟩ with ⟨_ | ⟨name,passwd,ptrs⟩,p⟩
  · rw [text] at fits
    have short : ¬0 + groupStrings grp ≤ buf.length := fun room => by simpa using fits.mpr room
    simp only [Option.isSome_none,Bool.false_eq_true,false_iff,groupSize]
    omega
  · rw [text] at length offset
    have count := groupTextLength text
    have place : p.offset = groupStrings grp := (offset rfl).trans (Nat.zero_add _)
    have size : p.buf.length = buf.length := length
    rw [finishes,pointersFit,place,size,count,groupSize]

section Verdict
variable {ρ : Type} {pack : Pack ρ} {n : Nat} {caller : Caller ρ}

theorem fillSuccess (fits : (pack ⟨caller.buf,0,[]⟩).1.isSome ↔ n ≤ caller.buf.length) :
    (fill pack caller).1 = .success ↔ n ≤ caller.buf.length := by
  rw [← fits,fill]
  rcases pack ⟨caller.buf,0,[]⟩ with ⟨_ | result,p⟩
  · simp [bufferTooSmall]
  · simp

theorem fillTooSmall (fits : (pack ⟨caller.buf,0,[]⟩).1.isSome ↔ n ≤ caller.buf.length) (short : caller.buf.length < n) :
    (fill pack caller).1 = .tryAgain ∧ (fill pack caller).2.errno = ERANGE ∧
      (fill pack caller).2.result = caller.result := by
  have none' : ¬(pack ⟨caller.buf,0,[]⟩).1.isSome := fun some' => absurd (fits.mp some') (Nat.not_le_of_lt short)
  rw [fill]
  rcases step : pack ⟨caller.buf,0,[]⟩ with ⟨_ | result,p⟩
  · exact ⟨rfl,rfl,rfl⟩
  · rw [step] at none'
    exact absurd rfl none'

end Verdict

end SssdOidc.Packing
