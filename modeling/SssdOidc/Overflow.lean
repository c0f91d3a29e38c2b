import Mathlib.Data.List.Dedup
import SssdOidc.ConfigFile
import SssdOidc.Solo

/-! Which ranges are safe. `load_from` takes any four u32 values, so a range may be empty,
pass 2^32, or be so large that a hash slot plus an offset does. -/
namespace SssdOidc.Overflow
open Model Database Mapping Program Cache Service SssdOidc.System Protocol Conformance Solo
open Probing (Held firstFit)

/- The build that panics where the release build would wrap. -/
def checked (b : Build) : Build := ⟨b.murmur3_32,true⟩

structure Roomy (b : Build) (rangeMin rangeSize : UInt32) (externalId : String) : Prop where
  range : InBounds rangeMin rangeSize
  room : (b.murmur3_32 externalId).toNat % rangeSize.toNat + rangeSize.toNat ≤ 2^32

section Path
variable {b : Build} {rangeMin rangeSize : UInt32} {externalId : String}

theorem addU32Checked {x y z : UInt32} (ok : addU32 (checked b) x y = some z) :
    x.toNat + y.toNat < 2^32 ∧ z.toNat = x.toNat + y.toNat := by
  unfold addU32 at ok
  split at ok <;> cases ok
  rename_i fits
  have small : x.toNat + y.toNat < 2^32 := by
    by_contra wraps
    exact fits ⟨rfl,Nat.le_of_not_lt wraps⟩
  exact ⟨small,by rw [UInt32.toNat_add,Nat.mod_eq_of_lt small]⟩

theorem subU32Checked {x y z : UInt32} (ok : subU32 (checked b) x y = some z) :
    y.toNat ≤ x.toNat ∧ z.toNat = x.toNat - y.toNat := by
  unfold subU32 at ok
  split at ok <;> cases ok
  rename_i fits
  have small : y.toNat ≤ x.toNat := by
    by_contra under
    exact fits ⟨rfl,Nat.lt_of_not_le under⟩
  exact ⟨small,UInt32.toNat_sub_of_le _ _ (UInt32.le_iff_toNat_le.mpr small)⟩

theorem idToUidChecked {base : UInt32} (ok : idToUid (checked b) externalId rangeMin rangeSize = some base) :
    1 ≤ rangeSize.toNat ∧
      base.toNat = rangeMin.toNat + (b.murmur3_32 externalId).toNat % rangeSize.toNat := by
  obtain ⟨residue,divided,added⟩ := Option.bind_eq_some_iff.mp ok
  obtain ⟨positive,rfl⟩ := remU32Some divided
  obtain ⟨-,sum⟩ := addU32Checked added
  refine ⟨Nat.pos_of_ne_zero fun zero => positive (UInt32.toNat_inj.mp zero),?_⟩
  rw [sum,UInt32.toNat_mod]
  rfl

theorem candidateChecked {base offset x : UInt32}
    (ok : candidate (checked b) rangeMin rangeSize base offset = some x) :
    base.toNat - rangeMin.toNat + offset.toNat < 2^32 ∧
      rangeMin.toNat + (base.toNat - rangeMin.toNat + offset.toNat) % rangeSize.toNat < 2^32 := by
  obtain ⟨distance,subtracted,later⟩ := Option.bind_eq_some_iff.mp ok
  obtain ⟨sum,summed,last⟩ := Option.bind_eq_some_iff.mp later
  obtain ⟨residue,divided,added⟩ := Option.bind_eq_some_iff.mp last
  obtain ⟨-,far⟩ := subU32Checked subtracted
  obtain ⟨fits,total⟩ := addU32Checked summed
  obtain ⟨-,rfl⟩ := remU32Some divided
  obtain ⟨ends,-⟩ := addU32Checked added
  rw [UInt32.toNat_mod,total,far] at ends
  rw [far] at fits
  exact ⟨fits,ends⟩

theorem endFromEvery {base : UInt32} {ε : Type} {exhausted : ε} {left : Nat} {offset : UInt32}
    (ends : endFrom (checked b) rangeMin rangeSize exhausted base left offset ≠ .panic) {j : Nat} (before : j < left)
    (fits : offset.toNat + j < 2^32) :
    ∃ step x, step.toNat = offset.toNat + j ∧ candidate (checked b) rangeMin rangeSize base step = some x := by
  induction left generalizing j offset with
  | zero => exact absurd before (Nat.not_lt_zero j)
  | succ left ih =>
    simp only [endFrom] at ends
    split at ends
    · exact absurd rfl ends
    · rename_i x here
      cases j with
      | zero => exact ⟨offset,x,rfl,here⟩
      | succ j =>
        have next : (offset + 1).toNat = offset.toNat + 1 := by
          rw [UInt32.toNat_add]
          exact Nat.mod_eq_of_lt (by change offset.toNat + 1 < 2^32; omega)
        obtain ⟨step,y,same,there⟩ := ih ends (Nat.lt_of_succ_lt_succ before) (by omega)
        exact ⟨step,y,by omega,there⟩

theorem pathEndChecked {ε : Type} {exhausted : ε} :
    pathEnd (checked b) rangeMin rangeSize exhausted externalId ≠ .panic ↔ Roomy b rangeMin rangeSize externalId := by
  constructor
  · intro ends
    unfold pathEnd at ends
    split at ends
    · exact absurd rfl ends
    · rename_i base hashed
      obtain ⟨positive,start⟩ := idToUidChecked hashed
      have width := rangeSize.toNat_lt
      have below := Nat.mod_lt (b.murmur3_32 externalId).toNat positive
      have every (j : Nat) (before : j < rangeSize.toNat) :
          (b.murmur3_32 externalId).toNat % rangeSize.toNat + j < 2^32 ∧
            rangeMin.toNat + ((b.murmur3_32 externalId).toNat % rangeSize.toNat + j) % rangeSize.toNat < 2^32 := by
        obtain ⟨step,x,same,here⟩ := endFromEvery ends before (by change 0 + j < 2^32; omega)
        have numbers := candidateChecked here
        have distance : base.toNat - rangeMin.toNat = (b.murmur3_32 externalId).toNat % rangeSize.toNat := by omega
        have number : step.toNat = j := same.trans (Nat.zero_add j)
        rwa [distance,number] at numbers
      -- the last offset needs the most room, and one offset comes to the last slot
      have last := (every (rangeSize.toNat - 1) (by omega)).1
      have top := (every (rangeSize.toNat - 1 - (b.murmur3_32 externalId).toNat % rangeSize.toNat) (by omega)).2
      have slot : (b.murmur3_32 externalId).toNat % rangeSize.toNat +
          (rangeSize.toNat - 1 - (b.murmur3_32 externalId).toNat % rangeSize.toNat) = rangeSize.toNat - 1 := by omega
      rw [slot,Nat.mod_eq_of_lt (by omega)] at top
      exact ⟨⟨positive,by omega⟩,by omega⟩
  · intro roomy panics
    obtain ⟨range,room⟩ := roomy
    have same : ((checked b).murmur3_32 externalId).toNat % rangeSize.toNat + rangeSize.toNat ≤ 2^32 := room
    rw [pathEndRoom range same] at panics
    cases panics

end Path

def foreign (k : String) (x : UInt32) : String := String.ofList (List.replicate (k.length + 1 + x.toNat) 'x')

theorem foreignLength (k : String) (x : UInt32) : (foreign k x).length = k.length + 1 + x.toNat := by
  simp [foreign]

theorem foreignOther (k : String) (x : UInt32) : foreign k x ≠ k := by
  intro same
  have lengths := congrArg String.length same
  rw [foreignLength] at lengths
  omega

theorem foreignInjective (k : String) {x y : UInt32} (same : foreign k x = foreign k y) : x = y := by
  have lengths := congrArg String.length same
  rw [foreignLength,foreignLength] at lengths
  exact UInt32.toNat_inj.mp (by omega)

theorem foreignKeys (k : String) {xs : List UInt32} (distinct : xs.Nodup) : (xs.map (foreign k)).Nodup :=
  distinct.map (fun _ _ same => foreignInjective k same)

def occupied (k : String) (xs : List UInt32) (distinct : xs.Nodup) : Db where
  users := {
    rows := xs.map (fun x => ⟨foreign k x,"",x,"","","",0,true,0⟩)
    keys := by simpa [Function.comp_def] using foreignKeys k distinct
    slots := by simpa [Function.comp_def] using distinct }
  groups := {
    rows := xs.map (fun x => ⟨foreign k x,"",x,0⟩)
    keys := by simpa [Function.comp_def] using foreignKeys k distinct
    slots := by simpa [Function.comp_def] using distinct }
  members := []
  memberKeys := List.nodup_nil
  parents := by simp

theorem occupiedHeld (k : String) {xs : List UInt32} (distinct : xs.Nodup) (c : Column) {x : UInt32} (inside : x ∈ xs) :
    Held ((occupied k xs distinct).owners c) k x := by
  refine ⟨foreign k x,ownersEntries.mpr ?_,foreignOther k x⟩
  cases c with
  | uid =>
    simp only [Db.entries,occupied,List.map_map,List.mem_map]
    exact ⟨x,inside,rfl⟩
  | gid =>
    simp only [Db.entries,occupied,List.map_map,List.mem_map]
    exact ⟨x,inside,rfl⟩

structure Safe (b : Build) (config : Config) : Prop where
  completes : ∀ c k db t reply, (alone t reply (resolveColumn (checked b) config c k) db).1 ≠ .error .panic
  within : ∀ c k db t reply x, (alone t reply (resolveColumn b config c k) db).1 = .ok x →
    (rangeMin config c).toNat ≤ x.toNat ∧ x.toNat < (rangeMin config c).toNat + (rangeSize config c).toNat

def Ample (b : Build) (config : Config) : Prop :=
  ∀ c k, Roomy b (rangeMin config c) (rangeSize config c) k

section Safe
variable {b : Build} {config : Config}

theorem ampleSmall (bounds : ∀ c, InBounds (rangeMin config c) (rangeSize config c))
    (small : ∀ c, (rangeSize config c).toNat ≤ 2^31) : Ample b config :=
  fun c _ => ⟨bounds c,roomSmall (bounds c) (small c)⟩

theorem safeAmple (ample : Ample b config) : Safe b config := by
  constructor
  · intro c k db t reply panics
    rw [aloneResolve] at panics
    cases stops : firstFit (db.owners c) k (slots (checked b) config c k) with
    | some x => simp [stops,found] at panics
    | none =>
      simp only [stops,found,Except.error.injEq] at panics
      exact pathEndChecked.mpr (ample c k) panics
  · intro c k db t reply x answered
    obtain ⟨range,room⟩ := ample c k
    rw [aloneResolve] at answered
    cases stops : firstFit (db.owners c) k (slots b config c k) with
    | none => simp [stops,found] at answered
    | some y =>
      simp only [stops,found,Except.ok.injEq] at answered
      subst answered
      have inside := Probing.reachesMember (Probing.firstFitSome.mp stops).walk
      rw [slots,pathRoom range room] at inside
      obtain ⟨j,-,rfl⟩ := List.mem_map.mp inside
      have below := Nat.mod_lt ((b.murmur3_32 k).toNat + j) range.some
      rw [ringSlotNat range]
      omega

theorem ampleSafe (safe : Safe b config) : Ample b config := by
  intro c k
  by_contra narrow
  have panics : pathEnd (checked b) (rangeMin config c) (rangeSize config c) CacheError.rangeExhausted k = .panic :=
    not_not.mp (fun orderly => narrow (pathEndChecked.mp orderly))
  have distinct := List.nodup_dedup (slots (checked b) config c k)
  have full : firstFit ((occupied k _ distinct).owners c) k (slots (checked b) config c k) = none :=
    Probing.firstFitNone.mpr fun x inside => occupiedHeld k distinct c (List.mem_dedup.mpr inside)
  refine safe.completes c k (occupied k _ distinct) 0 offline ?_
  rw [aloneResolve,full]
  exact congrArg Except.error panics

end Safe

theorem acceptedSafe (b : Build) (mapping : MappingConfig) :
    (∀ host path config, ConfigFile.loadFrom host path = .ok config → config.mapping = mapping →
      Safe b config.toConfig) ↔ Ample b { mapping } := by
  constructor
  · intro safe
    obtain ⟨config,accepted,same⟩ := ConfigFile.everyMapping mapping
    have ample : Ample b config.toConfig := ampleSafe (safe _ _ config accepted same)
    intro c k
    have room := ample c k
    cases c <;> simpa only [rangeMin,rangeSize,same] using room
  · intro ample host path config accepted same
    refine safeAmple ?_
    intro c k
    have room := ample c k
    cases c <;> simpa only [rangeMin,rangeSize,same] using room

def pastTheEnd : MappingConfig := ⟨4294967295,2,200000,0⟩

theorem unsafeAccepted : ∃ config,
    ConfigFile.loadFrom (ConfigFile.mappingHost pastTheEnd) "/etc/sssd-oidc/config.toml" = .ok config ∧
    (alone 0 offline (resolveUid release "u2" config.mapping.uidRangeMin config.mapping.uidRangeSize) empty).1 = .ok 0 ∧
    (alone 0 offline (resolveGid release "g1" config.mapping.gidRangeMin config.mapping.gidRangeSize) empty).1 =
      .error .panic ∧
    ¬Safe release config.toConfig := by
  obtain ⟨config,accepted,same⟩ := ConfigFile.everyMapping pastTheEnd
  have root : (alone 0 offline (resolveUid release "u2" 4294967295 2) empty).1 = .ok 0 := by decide +kernel
  have empty' : (alone 0 offline (resolveGid release "g1" 200000 0) empty).1 = .error .panic := by decide +kernel
  refine ⟨config,accepted,by rw [same]; exact root,by rw [same]; exact empty',?_⟩
  intro safe
  have inside := safe.within .uid "u2" empty 0 offline 0 (by simp only [resolveColumn,same]; exact root)
  simp only [rangeMin,same] at inside
  exact absurd inside.1 (by decide)

end SssdOidc.Overflow
