import Mathlib.Algebra.Group.Nat.Defs
import Mathlib.Data.List.Basic
import SssdOidc.Murmur3

/-! src/mapping.rs. External ids are hashed into a configured u32 range and probed
linearly from there. Every u32 operation of the source is kept: a division by zero
panics in each build, an overflow only in a build with overflow checks. -/
namespace SssdOidc.Mapping

structure Build where
  murmur3_32 : String → UInt32
  overflowChecks : Bool

/- What `cargo build --release` and `cargo build` make of the crate. -/
def release : Build := ⟨Murmur3.murmur3_32 0,false⟩
/- How a function of the crate ends early: by `Err` or by a panic. -/
inductive Halt (ε : Type) where
  | error (e : ε)
  | panic
  deriving DecidableEq, Repr

def addU32 (b : Build) (x y : UInt32) : Option UInt32 :=
  if b.overflowChecks ∧ 2^32 ≤ x.toNat + y.toNat then none else some (x + y)

def subU32 (b : Build) (x y : UInt32) : Option UInt32 :=
  if b.overflowChecks ∧ x.toNat < y.toNat then none else some (x - y)

def remU32 (x y : UInt32) : Option UInt32 := if y = 0 then none else some (x % y)

def idToUid (b : Build) (externalId : String) (rangeMin rangeSize : UInt32) : Option UInt32 := do
  addU32 b rangeMin (← remU32 (b.murmur3_32 externalId) rangeSize)

def candidate (b : Build) (rangeMin rangeSize base offset : UInt32) : Option UInt32 := do
  let distance ← subU32 b base rangeMin
  let sum ← addU32 b distance offset
  addU32 b rangeMin (← remU32 sum rangeSize)

section Resolve
variable {m : Type → Type} [Monad m] {ε : Type} (b : Build) (exhausted : ε)
  (rangeMin rangeSize : UInt32) (isTaken : UInt32 → ExceptT (Halt ε) m (Option Bool))

def arith {α : Type} : Option α → ExceptT (Halt ε) m α
  | some a => pure a
  | none => throw .panic

/- The loop `for offset in 0..range_size`, with `left` rounds to go. -/
def probe (base : UInt32) : (left : Nat) → (offset : UInt32) → ExceptT (Halt ε) m UInt32
  | 0, _ => throw (.error exhausted)
  | left+1, offset => do
      let c ← arith (candidate b rangeMin rangeSize base offset)
      match ← isTaken c with
      | none => pure c
      | some true => pure c
      | some false => probe base left (offset+1)

def resolveId (externalId : String) : ExceptT (Halt ε) m UInt32 := do
  let base ← arith (idToUid b externalId rangeMin rangeSize)
  probe b exhausted rangeMin rangeSize isTaken base rangeSize.toNat 0

end Resolve

section Path
variable (b : Build) (rangeMin rangeSize : UInt32)

def slotsFrom (base : UInt32) : Nat → UInt32 → List UInt32
  | 0, _ => []
  | left+1, offset =>
      match candidate b rangeMin rangeSize base offset with
      | none => []
      | some c => c :: slotsFrom base left (offset+1)

def endFrom {ε : Type} (exhausted : ε) (base : UInt32) : Nat → UInt32 → Halt ε
  | 0, _ => .error exhausted
  | left+1, offset =>
      match candidate b rangeMin rangeSize base offset with
      | none => .panic
      | some _ => endFrom exhausted base left (offset+1)

def path (externalId : String) : List UInt32 :=
  match idToUid b externalId rangeMin rangeSize with
  | none => []
  | some base => slotsFrom b rangeMin rangeSize base rangeSize.toNat 0

def pathEnd {ε : Type} (exhausted : ε) (externalId : String) : Halt ε :=
  match idToUid b externalId rangeMin rangeSize with
  | none => .panic
  | some base => endFrom b rangeMin rangeSize exhausted base rangeSize.toNat 0

end Path

theorem endFromExhausted {b : Build} {rangeMin rangeSize base : UInt32} {ε : Type} {exhausted e : ε}
    {left offset} (ends : endFrom b rangeMin rangeSize exhausted base left offset = .error e) :
    e = exhausted ∧ (slotsFrom b rangeMin rangeSize base left offset).length = left := by
  induction left generalizing offset with
  | zero => simpa [endFrom,slotsFrom,eq_comm] using ends
  | succ left ih =>
    simp only [endFrom] at ends
    split at ends <;> try contradiction
    rename_i c at'
    have tail := ih ends
    simp [slotsFrom,at',tail.1,tail.2]

theorem remU32Some {x y r : UInt32} (ok : remU32 x y = some r) : y ≠ 0 ∧ r = x % y := by
  unfold remU32 at ok
  split at ok <;> cases ok
  exact ⟨by assumption,rfl⟩

theorem idToUidSome {b : Build} {externalId} {rangeMin rangeSize base : UInt32}
    (ok : idToUid b externalId rangeMin rangeSize = some base) : rangeSize ≠ 0 := by
  obtain ⟨_,rem,-⟩ := Option.bind_eq_some_iff.mp ok
  exact (remU32Some rem).1

/- Only a range with a slot can be exhausted: an empty one panics before the loop. -/
theorem pathEndExhausted {b : Build} {rangeMin rangeSize : UInt32} {externalId} {ε : Type} {exhausted e : ε}
    (ends : pathEnd b rangeMin rangeSize exhausted externalId = .error e) :
    e = exhausted ∧ path b rangeMin rangeSize externalId ≠ [] := by
  unfold pathEnd at ends
  unfold path
  split at ends <;> try contradiction
  rename_i base at'
  obtain ⟨same,length⟩ := endFromExhausted ends
  refine ⟨same,?_⟩
  intro empty
  rw [empty] at length
  exact idToUidSome at' (UInt32.toNat_inj.mp length.symm)

def walk {m : Type → Type} [Monad m] {ε : Type} (isTaken : UInt32 → ExceptT (Halt ε) m (Option Bool))
    (stop : Halt ε) : List UInt32 → ExceptT (Halt ε) m UInt32
  | [] => throw stop
  | c :: rest => do
      match ← isTaken c with
      | none => pure c
      | some true => pure c
      | some false => walk isTaken stop rest

section Walk
variable {m : Type → Type} [Monad m] [LawfulMonad m] {ε : Type} {b : Build} {exhausted : ε}
  {rangeMin rangeSize : UInt32} {isTaken : UInt32 → ExceptT (Halt ε) m (Option Bool)}

theorem arithNone {α β : Type} (f : α → ExceptT (Halt ε) m β) :
    (arith none : ExceptT (Halt ε) m α) >>= f = throw .panic := by
  apply ExceptT.ext
  simp [arith]

theorem probeWalk (base : UInt32) (left : Nat) (offset : UInt32) :
    probe b exhausted rangeMin rangeSize isTaken base left offset =
      walk isTaken (endFrom b rangeMin rangeSize exhausted base left offset)
        (slotsFrom b rangeMin rangeSize base left offset) := by
  induction left generalizing offset with
  | zero => rfl
  | succ left ih =>
    cases at' : candidate b rangeMin rangeSize base offset with
    | none => simp only [probe,slotsFrom,endFrom,at',walk,arithNone]
    | some c => simp only [probe,slotsFrom,endFrom,at',walk,arith,pure_bind,ih]

theorem resolveIdWalk (externalId : String) :
    resolveId b exhausted rangeMin rangeSize isTaken externalId =
      walk isTaken (pathEnd b rangeMin rangeSize exhausted externalId)
        (path b rangeMin rangeSize externalId) := by
  cases at' : idToUid b externalId rangeMin rangeSize with
  | none => simp only [resolveId,path,pathEnd,at',walk,arithNone]
  | some base => simp only [resolveId,path,pathEnd,at',arith,pure_bind,probeWalk]

end Walk

structure InBounds (rangeMin rangeSize : UInt32) : Prop where
  some : 1 ≤ rangeSize.toNat
  ends : rangeMin.toNat + rangeSize.toNat ≤ 2^32

theorem addU32Exact {b : Build} {x y : UInt32} (fits : x.toNat + y.toNat < 2^32) : addU32 b x y = some (x + y) := by
  have no : ¬(b.overflowChecks ∧ 2^32 ≤ x.toNat + y.toNat) := by
    rintro ⟨-,wraps⟩
    omega
  simp only [addU32,if_neg no]

theorem subU32Exact {b : Build} {x y : UInt32} (fits : y.toNat ≤ x.toNat) : subU32 b x y = some (x - y) := by
  have no : ¬(b.overflowChecks ∧ x.toNat < y.toNat) := by
    rintro ⟨-,under⟩
    omega
  simp only [subU32,if_neg no]

theorem remU32Exact {x y : UInt32} (some' : 1 ≤ y.toNat) : remU32 x y = some (x % y) := by
  have no : y ≠ 0 := by
    rintro rfl
    simp at some'
  simp only [remU32,if_neg no]

/- The slot that is `j` steps behind the hash slot. -/
def ringSlot (b : Build) (rangeMin rangeSize : UInt32) (externalId : String) (j : Nat) : UInt32 :=
  UInt32.ofNat (rangeMin.toNat + ((b.murmur3_32 externalId).toNat + j) % rangeSize.toNat)

section Ring
variable {b : Build} {rangeMin rangeSize : UInt32} {externalId : String}

theorem ringSlotNat (bounds : InBounds rangeMin rangeSize) (j : Nat) :
    (ringSlot b rangeMin rangeSize externalId j).toNat =
      rangeMin.toNat + ((b.murmur3_32 externalId).toNat + j) % rangeSize.toNat := by
  have ends := bounds.ends
  have below := Nat.mod_lt ((b.murmur3_32 externalId).toNat + j) bounds.some
  simp only [ringSlot,UInt32.toNat_ofNat']
  exact Nat.mod_eq_of_lt (by omega)

theorem idToUidRing (bounds : InBounds rangeMin rangeSize) :
    idToUid b externalId rangeMin rangeSize = some (ringSlot b rangeMin rangeSize externalId 0) := by
  have ends := bounds.ends
  have below := Nat.mod_lt (b.murmur3_32 externalId).toNat bounds.some
  have fits : rangeMin.toNat + (b.murmur3_32 externalId % rangeSize).toNat < 2^32 := by
    rw [UInt32.toNat_mod]
    omega
  simp only [idToUid,remU32Exact bounds.some,Option.bind_eq_bind,Option.bind_some,addU32Exact fits]
  refine congrArg some (UInt32.toNat_inj.mp ?_)
  rw [ringSlotNat bounds,UInt32.toNat_add,Nat.mod_eq_of_lt fits,UInt32.toNat_mod,Nat.add_zero]

theorem candidateRing (bounds : InBounds rangeMin rangeSize) {j : Nat} {offset : UInt32} (same : offset.toNat = j)
    (fits : (b.murmur3_32 externalId).toNat % rangeSize.toNat + j < 2^32) :
    candidate b rangeMin rangeSize (ringSlot b rangeMin rangeSize externalId 0) offset =
      some (ringSlot b rangeMin rangeSize externalId j) := by
  have ends := bounds.ends
  have base : (ringSlot b rangeMin rangeSize externalId 0).toNat = _ := ringSlotNat bounds 0
  have below := Nat.mod_lt ((b.murmur3_32 externalId).toNat + j) bounds.some
  have above : rangeMin.toNat ≤ (ringSlot b rangeMin rangeSize externalId 0).toNat := by omega
  have distance : (ringSlot b rangeMin rangeSize externalId 0 - rangeMin).toNat =
      (b.murmur3_32 externalId).toNat % rangeSize.toNat := by
    rw [UInt32.toNat_sub_of_le _ _ (UInt32.le_iff_toNat_le.mpr above),base,Nat.add_zero]
    omega
  have sumFits : (ringSlot b rangeMin rangeSize externalId 0 - rangeMin).toNat + offset.toNat < 2^32 := by
    omega
  have residue : ((ringSlot b rangeMin rangeSize externalId 0 - rangeMin + offset) % rangeSize).toNat =
      ((b.murmur3_32 externalId).toNat + j) % rangeSize.toNat := by
    rw [UInt32.toNat_mod,UInt32.toNat_add,Nat.mod_eq_of_lt sumFits,distance,same,Nat.mod_add_mod]
  have resultFits : rangeMin.toNat +
      ((ringSlot b rangeMin rangeSize externalId 0 - rangeMin + offset) % rangeSize).toNat < 2^32 := by
    omega
  simp only [candidate,subU32Exact above,addU32Exact sumFits,remU32Exact bounds.some,addU32Exact resultFits,
    Option.bind_eq_bind,Option.bind_some]
  refine congrArg some (UInt32.toNat_inj.mp ?_)
  rw [ringSlotNat bounds,UInt32.toNat_add,Nat.mod_eq_of_lt resultFits,residue]

theorem pathHead (bounds : InBounds rangeMin rangeSize) :
    (path b rangeMin rangeSize externalId).head? = some (ringSlot b rangeMin rangeSize externalId 0) := by
  have below := Nat.mod_lt (b.murmur3_32 externalId).toNat bounds.some
  have ends := bounds.ends
  have first : candidate b rangeMin rangeSize (ringSlot b rangeMin rangeSize externalId 0) 0 =
      some (ringSlot b rangeMin rangeSize externalId 0) := candidateRing bounds rfl (by omega)
  obtain ⟨left,size⟩ := Nat.exists_eq_add_one.mpr bounds.some
  simp only [path,idToUidRing bounds,size,slotsFrom,first,List.head?_cons]

theorem pathSecond (bounds : InBounds rangeMin rangeSize) (more : 2 ≤ rangeSize.toNat) :
    ringSlot b rangeMin rangeSize externalId 1 ∈ path b rangeMin rangeSize externalId := by
  have below := Nat.mod_lt (b.murmur3_32 externalId).toNat bounds.some
  have width := rangeSize.toNat_lt
  have first : candidate b rangeMin rangeSize (ringSlot b rangeMin rangeSize externalId 0) 0 =
      some (ringSlot b rangeMin rangeSize externalId 0) := candidateRing bounds rfl (by omega)
  have second : candidate b rangeMin rangeSize (ringSlot b rangeMin rangeSize externalId 0) 1 =
      some (ringSlot b rangeMin rangeSize externalId 1) := candidateRing bounds rfl (by omega)
  obtain ⟨left,size⟩ := Nat.exists_eq_add_of_le more
  rw [Nat.add_comm] at size
  simp [path,idToUidRing bounds,size,slotsFrom,first,second]

theorem ringSlotNext (bounds : InBounds rangeMin rangeSize) (more : 2 ≤ rangeSize.toNat) :
    ringSlot b rangeMin rangeSize externalId 1 ≠ ringSlot b rangeMin rangeSize externalId 0 := by
  intro same
  have numbers := congrArg UInt32.toNat same
  simp only [ringSlotNat bounds,Nat.add_zero] at numbers
  have next : ((b.murmur3_32 externalId).toNat + 1) % rangeSize.toNat =
      ((b.murmur3_32 externalId).toNat % rangeSize.toNat + 1) % rangeSize.toNat := by
    rw [Nat.add_mod,Nat.mod_eq_of_lt more]
  have below := Nat.mod_lt (b.murmur3_32 externalId).toNat bounds.some
  rcases Nat.lt_or_ge ((b.murmur3_32 externalId).toNat % rangeSize.toNat + 1) rangeSize.toNat with inside | wraps
  · rw [next,Nat.mod_eq_of_lt inside] at numbers
    omega
  · have last : (b.murmur3_32 externalId).toNat % rangeSize.toNat + 1 = rangeSize.toNat := by omega
    rw [next,last,Nat.mod_self] at numbers
    omega

theorem roomSmall (bounds : InBounds rangeMin rangeSize) (small : rangeSize.toNat ≤ 2^31) :
    (b.murmur3_32 externalId).toNat % rangeSize.toNat + rangeSize.toNat ≤ 2^32 := by
  have below := Nat.mod_lt (b.murmur3_32 externalId).toNat bounds.some
  omega

section Room
variable (bounds : InBounds rangeMin rangeSize)
  (room : (b.murmur3_32 externalId).toNat % rangeSize.toNat + rangeSize.toNat ≤ 2^32)
include bounds room

theorem roundRing {j : Nat} {offset : UInt32} (same : offset.toNat = j) (more : j < rangeSize.toNat) :
    candidate b rangeMin rangeSize (ringSlot b rangeMin rangeSize externalId 0) offset =
      some (ringSlot b rangeMin rangeSize externalId j) ∧ (offset + 1).toNat = j + 1 := by
  have width := rangeSize.toNat_lt
  refine ⟨candidateRing bounds same (by omega),?_⟩
  rw [UInt32.toNat_add,same]
  exact Nat.mod_eq_of_lt (by change j + 1 < 2^32; omega)

theorem slotsFromRing {left j : Nat} {offset : UInt32} (same : offset.toNat = j) (total : j + left ≤ rangeSize.toNat) :
    slotsFrom b rangeMin rangeSize (ringSlot b rangeMin rangeSize externalId 0) left offset =
      (List.range' j left).map (ringSlot b rangeMin rangeSize externalId) := by
  induction left generalizing j offset with
  | zero => rfl
  | succ left ih =>
    have round : candidate b rangeMin rangeSize (ringSlot b rangeMin rangeSize externalId 0) offset = _ ∧ _ :=
      roundRing bounds room same (by omega)
    obtain ⟨here,next⟩ := round
    simp only [slotsFrom,here,List.range'_succ,List.map_cons,ih next (by omega)]

theorem endFromRing {ε : Type} {exhausted : ε} {left j : Nat} {offset : UInt32} (same : offset.toNat = j)
    (total : j + left ≤ rangeSize.toNat) :
    endFrom b rangeMin rangeSize exhausted (ringSlot b rangeMin rangeSize externalId 0) left offset =
      .error exhausted := by
  induction left generalizing j offset with
  | zero => rfl
  | succ left ih =>
    have round : candidate b rangeMin rangeSize (ringSlot b rangeMin rangeSize externalId 0) offset = _ ∧ _ :=
      roundRing bounds room same (by omega)
    obtain ⟨here,next⟩ := round
    simp only [endFrom,here,ih next (by omega)]

theorem pathRoom : path b rangeMin rangeSize externalId =
    (List.range rangeSize.toNat).map (ringSlot b rangeMin rangeSize externalId) := by
  rw [path,idToUidRing bounds,List.range_eq_range']
  exact slotsFromRing bounds room (j := 0) rfl (by omega)

theorem pathEndRoom {ε : Type} {exhausted : ε} :
    pathEnd b rangeMin rangeSize exhausted externalId = .error exhausted := by
  rw [pathEnd,idToUidRing bounds]
  exact endFromRing bounds room (j := 0) rfl (by omega)

end Room

theorem pathRing (bounds : InBounds rangeMin rangeSize) (small : rangeSize.toNat ≤ 2^31) :
    path b rangeMin rangeSize externalId =
      (List.range rangeSize.toNat).map (ringSlot b rangeMin rangeSize externalId) :=
  pathRoom bounds (roomSmall bounds small)

theorem pathEndRing {ε : Type} {exhausted : ε} (bounds : InBounds rangeMin rangeSize)
    (small : rangeSize.toNat ≤ 2^31) : pathEnd b rangeMin rangeSize exhausted externalId = .error exhausted :=
  pathEndRoom bounds (roomSmall bounds small)

theorem ringSlotHits (bounds : InBounds rangeMin rangeSize) {x : UInt32} (above : rangeMin.toNat ≤ x.toNat)
    (below : x.toNat < rangeMin.toNat + rangeSize.toNat) :
    ∃ j < rangeSize.toNat, ringSlot b rangeMin rangeSize externalId j = x := by
  have positive := bounds.some
  have residue := Nat.mod_lt (b.murmur3_32 externalId).toNat positive
  -- as many steps forward as `x` lies past the hash slot, counted around the range
  refine ⟨(x.toNat - rangeMin.toNat + rangeSize.toNat - (b.murmur3_32 externalId).toNat % rangeSize.toNat)
    % rangeSize.toNat,Nat.mod_lt _ positive,UInt32.toNat_inj.mp ?_⟩
  rw [ringSlotNat bounds,Nat.add_mod_mod,← Nat.mod_add_mod]
  have total : (b.murmur3_32 externalId).toNat % rangeSize.toNat +
      (x.toNat - rangeMin.toNat + rangeSize.toNat - (b.murmur3_32 externalId).toNat % rangeSize.toNat) =
        x.toNat - rangeMin.toNat + rangeSize.toNat := by omega
  rw [total,Nat.add_mod_right,Nat.mod_eq_of_lt (by omega)]
  omega

end Ring
end SssdOidc.Mapping
