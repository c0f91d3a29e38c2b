import Mathlib.Data.Nat.ModEq
import SssdOidc.Mapping
import SssdOidc.Probing

/-! `resolve_id` against an occupancy that gives no error: first fit around the ring of
the range. An occupancy is a table whose only key is `true`, the id that is resolved. -/
namespace SssdOidc.LinearProbing
open Mapping
open Probing (Held firstFit)

/- The candidate of one round, from the hash on. -/
def probed (b : Build) (externalId : String) (rangeMin rangeSize offset : UInt32) : Option UInt32 := do
  candidate b rangeMin rangeSize (← idToUid b externalId rangeMin rangeSize) offset

def occupancy {ε : Type} (isTaken : UInt32 → Option Bool) (c : UInt32) : ExceptT (Halt ε) Id (Option Bool) :=
  pure (isTaken c)

def resolved {ε : Type} (b : Build) (exhausted : ε) (rangeMin rangeSize : UInt32) (isTaken : UInt32 → Option Bool)
    (externalId : String) : Except (Halt ε) UInt32 :=
  (resolveId b exhausted rangeMin rangeSize (occupancy isTaken) externalId).run

section Ring
variable {b : Build} {externalId : String} {rangeMin rangeSize : UInt32}

theorem probedRing (bounds : InBounds rangeMin rangeSize) (small : rangeSize.toNat ≤ 2^31) (checks : Bool)
    {offset : UInt32} (more : offset < rangeSize) :
    probed ⟨b.murmur3_32,checks⟩ externalId rangeMin rangeSize offset =
      some (ringSlot b rangeMin rangeSize externalId offset.toNat) := by
  have round : candidate ⟨b.murmur3_32,checks⟩ rangeMin rangeSize
      (ringSlot ⟨b.murmur3_32,checks⟩ rangeMin rangeSize externalId 0) offset = _ ∧ _ :=
    roundRing bounds (roomSmall bounds small) rfl (UInt32.lt_iff_toNat_lt.mp more)
  simp only [probed,idToUidRing bounds,Option.bind_eq_bind,Option.bind_some,round.1]
  rfl

theorem ringSlotInjective (bounds : InBounds rangeMin rangeSize) {i j : Nat} (left : i < rangeSize.toNat)
    (right : j < rangeSize.toNat)
    (same : ringSlot b rangeMin rangeSize externalId i = ringSlot b rangeMin rangeSize externalId j) : i = j := by
  have numbers := congrArg UInt32.toNat same
  simp only [ringSlotNat bounds,Nat.add_left_cancel_iff] at numbers
  have residues : i % rangeSize.toNat = j % rangeSize.toNat := Nat.ModEq.add_left_cancel' _ numbers
  rwa [Nat.mod_eq_of_lt left,Nat.mod_eq_of_lt right] at residues

theorem ringSlotRange (bounds : InBounds rangeMin rangeSize) (x : UInt32) :
    (∃ j < rangeSize.toNat, ringSlot b rangeMin rangeSize externalId j = x) ↔
      rangeMin.toNat ≤ x.toNat ∧ x.toNat < rangeMin.toNat + rangeSize.toNat := by
  constructor
  · intro slot
    obtain ⟨j,-,rfl⟩ := slot
    have below := Nat.mod_lt ((b.murmur3_32 externalId).toNat + j) bounds.some
    rw [ringSlotNat bounds]
    omega
  · intro inside
    obtain ⟨above,below⟩ := inside
    exact ringSlotHits bounds above below

end Ring

theorem heldTrue {isTaken : UInt32 → Option Bool} {x : UInt32} : Held isTaken true x ↔ isTaken x = some false := by
  simp [Held]

theorem walkFirst {ε : Type} (isTaken : UInt32 → Option Bool) (stop : Halt ε) (path : List UInt32) :
    (walk (occupancy isTaken) stop path).run = (firstFit isTaken true path).elim (Except.error stop) Except.ok := by
  induction path with
  | nil => rfl
  | cons x rest ih =>
    simp only [walk,occupancy,pure_bind]
    cases taken : isTaken x with
    | none =>
      simp only [firstFit,taken,Option.elim_some]
      rfl
    | some mine =>
      cases mine with
      | true =>
        simp only [firstFit,taken]
        rfl
      | false =>
        simp only [firstFit,taken]
        exact ih

theorem resolvedFirst {b : Build} {externalId : String} {rangeMin rangeSize : UInt32} {ε : Type} {exhausted : ε}
    {isTaken : UInt32 → Option Bool} (bounds : InBounds rangeMin rangeSize) (small : rangeSize.toNat ≤ 2^31) :
    resolved b exhausted rangeMin rangeSize isTaken externalId =
      (firstFit isTaken true (path b rangeMin rangeSize externalId)).elim (Except.error (.error exhausted)) Except.ok := by
  rw [resolved,resolveIdWalk,walkFirst,pathEndRing bounds small]

theorem pathIndex {b : Build} {externalId : String} {rangeMin rangeSize : UInt32} (bounds : InBounds rangeMin rangeSize)
    (small : rangeSize.toNat ≤ 2^31) {j : Nat} {x : UInt32} :
    (path b rangeMin rangeSize externalId)[j]? = some x ↔
      j < rangeSize.toNat ∧ ringSlot b rangeMin rangeSize externalId j = x := by
  rw [pathRing bounds small,List.getElem?_map,Option.map_eq_some_iff]
  constructor
  · intro index
    obtain ⟨i,at',rfl⟩ := index
    obtain ⟨below,rfl⟩ := List.getElem?_eq_some_iff.mp at'
    rw [List.length_range] at below
    simp only [List.getElem_range]
    exact ⟨below,trivial⟩
  · intro slot
    obtain ⟨below,rfl⟩ := slot
    exact ⟨j,List.getElem?_range below,rfl⟩

section Outcome
variable {b : Build} {externalId : String} {rangeMin rangeSize : UInt32} {ε : Type} {exhausted : ε}
  {isTaken : UInt32 → Option Bool}

theorem resolvedOk (bounds : InBounds rangeMin rangeSize) (small : rangeSize.toNat ≤ 2^31) (x : UInt32) :
    resolved b exhausted rangeMin rangeSize isTaken externalId = .ok x ↔
      ∃ j < rangeSize.toNat, ringSlot b rangeMin rangeSize externalId j = x ∧ isTaken x ≠ some false ∧
        ∀ i < j, isTaken (ringSlot b rangeMin rangeSize externalId i) = some false := by
  have answer : resolved b exhausted rangeMin rangeSize isTaken externalId = .ok x ↔
      firstFit isTaken true (path b rangeMin rangeSize externalId) = some x := by
    rw [resolvedFirst bounds small]
    cases firstFit isTaken true (path b rangeMin rangeSize externalId) <;> simp
  simp only [answer,Probing.firstFitIndex,heldTrue]
  constructor
  · intro first
    obtain ⟨j,at',free,passed⟩ := first
    obtain ⟨below,here⟩ := (pathIndex bounds small).mp at'
    exact ⟨j,below,here,free,fun i before =>
      passed i before _ ((pathIndex bounds small).mpr ⟨Nat.lt_trans before below,rfl⟩)⟩
  · intro first
    obtain ⟨j,below,here,free,passed⟩ := first
    refine ⟨j,(pathIndex bounds small).mpr ⟨below,here⟩,free,?_⟩
    intro i before y at'
    obtain ⟨-,rfl⟩ := (pathIndex bounds small).mp at'
    exact passed i before

theorem resolvedExhausted (bounds : InBounds rangeMin rangeSize) (small : rangeSize.toNat ≤ 2^31) :
    resolved b exhausted rangeMin rangeSize isTaken externalId = .error (.error exhausted) ↔
      ∀ x : UInt32, rangeMin.toNat ≤ x.toNat → x.toNat < rangeMin.toNat + rangeSize.toNat →
        isTaken x = some false := by
  have answer : resolved b exhausted rangeMin rangeSize isTaken externalId = .error (.error exhausted) ↔
      firstFit isTaken true (path b rangeMin rangeSize externalId) = none := by
    rw [resolvedFirst bounds small]
    cases firstFit isTaken true (path b rangeMin rangeSize externalId) <;> simp
  have slots (x : UInt32) : (∃ j < rangeSize.toNat, ringSlot b rangeMin rangeSize externalId j = x) ↔ _ :=
    ringSlotRange bounds x
  rw [answer,Probing.firstFitNone]
  constructor
  · intro full x above below
    obtain ⟨j,inside,rfl⟩ := (slots x).mpr ⟨above,below⟩
    exact heldTrue.mp (full _ (List.mem_of_getElem? ((pathIndex bounds small).mpr ⟨inside,rfl⟩)))
  · intro full x inside
    obtain ⟨j,at'⟩ := List.mem_iff_getElem?.mp inside
    obtain ⟨below,rfl⟩ := (pathIndex bounds small).mp at'
    obtain ⟨above,under⟩ := (slots _).mp ⟨j,below,rfl⟩
    exact heldTrue.mpr (full _ above under)

end Outcome

theorem resolveIdLinear (b : Build) (externalId : String) (rangeMin rangeSize : UInt32)
    (bounds : InBounds rangeMin rangeSize) (small : rangeSize.toNat ≤ 2^31) {ε : Type} (exhausted : ε)
    (isTaken : UInt32 → Option Bool) :
    (∀ checks, ∀ offset < rangeSize, probed ⟨b.murmur3_32,checks⟩ externalId rangeMin rangeSize offset =
      some (ringSlot b rangeMin rangeSize externalId offset.toNat)) ∧
    (∀ j, (ringSlot b rangeMin rangeSize externalId j).toNat =
      rangeMin.toNat + ((b.murmur3_32 externalId).toNat + j) % rangeSize.toNat) ∧
    (∀ i < rangeSize.toNat, ∀ j < rangeSize.toNat,
      ringSlot b rangeMin rangeSize externalId i = ringSlot b rangeMin rangeSize externalId j → i = j) ∧
    (∀ x, (∃ j < rangeSize.toNat, ringSlot b rangeMin rangeSize externalId j = x) ↔
      rangeMin.toNat ≤ x.toNat ∧ x.toNat < rangeMin.toNat + rangeSize.toNat) ∧
    (∀ x, resolved b exhausted rangeMin rangeSize isTaken externalId = .ok x ↔
      ∃ j < rangeSize.toNat, ringSlot b rangeMin rangeSize externalId j = x ∧ isTaken x ≠ some false ∧
        ∀ i < j, isTaken (ringSlot b rangeMin rangeSize externalId i) = some false) ∧
    (resolved b exhausted rangeMin rangeSize isTaken externalId = .error (.error exhausted) ↔
      ∀ x : UInt32, rangeMin.toNat ≤ x.toNat → x.toNat < rangeMin.toNat + rangeSize.toNat →
        isTaken x = some false) :=
  ⟨fun checks _ more => probedRing bounds small checks more,ringSlotNat bounds,
    fun _ left _ right same => ringSlotInjective bounds left right same,ringSlotRange bounds,
    resolvedOk bounds small,resolvedExhausted bounds small⟩

theorem resolveIdLinearExample :
    resolved release () 1000 4 (fun x => if x = 1001 then some false else none) "u3" = .ok 1002 := by
  refine ((resolveIdLinear release "u3" 1000 4 ⟨by decide,by decide⟩ (by decide) ()
    (fun x => if x = 1001 then some false else none)).2.2.2.2.1 1002).mpr ⟨1,by decide,by decide +kernel,by decide,?_⟩
  intro i before
  obtain rfl : i = 0 := by omega
  decide +kernel

end SssdOidc.LinearProbing
