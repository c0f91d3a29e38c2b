import Mathlib.Data.List.Nodup
import SssdOidc.Probing

/-! A table with two unique columns, as a list of rows in insertion order, and the
write that first drops every row in conflict with the new one on either column. -/
namespace SssdOidc.UniqueTable
open Probing (Owners assign)

structure Table (ρ κ ς : Type) (key : ρ → κ) (slot : ρ → ς) where
  rows : List ρ
  keys : (rows.map key).Nodup
  slots : (rows.map slot).Nodup

variable {ρ κ ς : Type} {key : ρ → κ} {slot : ρ → ς}

def empty : Table ρ κ ς key slot := ⟨[], List.nodup_nil, List.nodup_nil⟩

theorem sameKey (t : Table ρ κ ς key slot) {a b} (left : a ∈ t.rows) (right : b ∈ t.rows)
    (same : key a = key b) : a = b := List.inj_on_of_nodup_map t.keys left right same

theorem sameSlot (t : Table ρ κ ς key slot) {a b} (left : a ∈ t.rows) (right : b ∈ t.rows)
    (same : slot a = slot b) : a = b := List.inj_on_of_nodup_map t.slots left right same

def clear [DecidableEq κ] [DecidableEq ς] (key : ρ → κ) (slot : ρ → ς) (rows : List ρ) (r : ρ) : List ρ :=
  rows.filter (fun x => key x ≠ key r ∧ slot x ≠ slot r)

theorem memClear [DecidableEq κ] [DecidableEq ς] {rows : List ρ} {r x} :
    x ∈ clear key slot rows r ↔ x ∈ rows ∧ key x ≠ key r ∧ slot x ≠ slot r := by
  simp [clear]

theorem nodupClear [DecidableEq κ] [DecidableEq ς] {γ : Type} (column : ρ → γ) {rows : List ρ} {r}
    (unique : (rows.map column).Nodup) (fresh : ∀ x ∈ clear key slot rows r, column x ≠ column r) :
    ((clear key slot rows r ++ [r]).map column).Nodup := by
  simp only [List.map_append, List.map_cons, List.map_nil]
  refine List.nodup_append.mpr ⟨unique.sublist (List.filter_sublist.map column), by simp, ?_⟩
  intro a left b right
  obtain ⟨x, inside, rfl⟩ := List.mem_map.mp left
  rw [List.mem_singleton.mp right]
  exact fresh x inside

def insertOrReplace [DecidableEq κ] [DecidableEq ς] (t : Table ρ κ ς key slot) (r : ρ) :
    Table ρ κ ς key slot where
  rows := clear key slot t.rows r ++ [r]
  keys := nodupClear key t.keys (fun _ inside => (memClear.mp inside).2.1)
  slots := nodupClear slot t.slots (fun _ inside => (memClear.mp inside).2.2)

def delete (t : Table ρ κ ς key slot) (gone : ρ → Bool) : Table ρ κ ς key slot where
  rows := t.rows.filter (fun r => !gone r)
  keys := t.keys.sublist (List.filter_sublist.map key)
  slots := t.slots.sublist (List.filter_sublist.map slot)

theorem memInsertOrReplace [DecidableEq κ] [DecidableEq ς] {t : Table ρ κ ς key slot} {r x} :
    x ∈ (insertOrReplace t r).rows ↔ x = r ∨ (x ∈ t.rows ∧ key x ≠ key r ∧ slot x ≠ slot r) := by
  simp only [insertOrReplace, List.mem_append, memClear, List.mem_singleton]
  exact or_comm

theorem memDelete {t : Table ρ κ ς key slot} {gone x} :
    x ∈ (delete t gone).rows ↔ x ∈ t.rows ∧ gone x = false := by
  simp [delete]

def atSlot [DecidableEq ς] (t : Table ρ κ ς key slot) (s : ς) : Option ρ :=
  t.rows.find? (fun r => slot r = s)

def owner [DecidableEq ς] (t : Table ρ κ ς key slot) : Owners κ ς := fun s => (atSlot t s).map key

theorem atSlotSome [DecidableEq ς] {t : Table ρ κ ς key slot} {s r} :
    atSlot t s = some r ↔ r ∈ t.rows ∧ slot r = s := by
  constructor
  · intro found
    exact ⟨List.mem_of_find?_eq_some found, by simpa using List.find?_some found⟩
  · intro ⟨inside, here⟩
    cases found : atSlot t s with
    | none =>
      have absent := List.find?_eq_none.mp found r inside
      simp [here] at absent
    | some x =>
      have there : x ∈ t.rows ∧ slot x = s :=
        ⟨List.mem_of_find?_eq_some found, by simpa using List.find?_some found⟩
      rw [sameSlot t there.1 inside (there.2.trans here.symm)]

theorem findSlot [DecidableEq ς] {t : Table ρ κ ς key slot} {r} (inside : r ∈ t.rows) {p : ρ → Bool}
    (holds : p r = true) : t.rows.find? (fun x => slot x == slot r && p x) = some r := by
  cases found : t.rows.find? (fun x => slot x == slot r && p x) with
  | none =>
    have absent := List.find?_eq_none.mp found r inside
    simp [holds] at absent
  | some x =>
    have here := List.find?_some found
    simp only [Bool.and_eq_true,beq_iff_eq] at here
    rw [sameSlot t (List.mem_of_find?_eq_some found) inside here.1]

theorem ownerSome [DecidableEq ς] {t : Table ρ κ ς key slot} {s k} :
    owner t s = some k ↔ ∃ r ∈ t.rows, slot r = s ∧ key r = k := by
  simp only [owner, Option.map_eq_some_iff, atSlotSome, and_assoc]

theorem ownerRow [DecidableEq ς] {t : Table ρ κ ς key slot} {r} (inside : r ∈ t.rows) :
    owner t (slot r) = some (key r) := ownerSome.mpr ⟨r, inside, rfl, rfl⟩

theorem ownerInsertOrReplace [DecidableEq κ] [DecidableEq ς] (t : Table ρ κ ς key slot) (r : ρ) :
    owner (insertOrReplace t r) = assign (owner t) (key r) (slot r) := by
  funext s
  apply Option.ext
  intro k
  simp only [ownerSome, memInsertOrReplace]
  constructor
  · rintro ⟨x, rfl | ⟨inside, otherKey, otherSlot⟩, rfl, rfl⟩
    · simp [assign]
    · have own := ownerRow inside
      simp [assign, otherSlot, own, otherKey]
  · intro own
    rcases Probing.assignOwned own with ⟨rfl, rfl⟩ | ⟨otherSlot, otherKey, old⟩
    · exact ⟨r, .inl rfl, rfl, rfl⟩
    · obtain ⟨x, inside, rfl, rfl⟩ := ownerSome.mp old
      exact ⟨x, .inr ⟨inside, otherKey, otherSlot⟩, rfl, rfl⟩

theorem keptInsertOrReplace [DecidableEq κ] [DecidableEq ς] {t : Table ρ κ ς key slot} {r x}
    (inside : x ∈ t.rows) (foreign : key x ≠ key r) (free : Probing.Open (owner t) (key r) (slot r)) :
    x ∈ (insertOrReplace t r).rows := by
  refine memInsertOrReplace.mpr (.inr ⟨inside,foreign,?_⟩)
  intro same
  have own := ownerRow inside
  rw [same] at own
  exact foreign (Probing.openOwned free own)

theorem ownerDelete [DecidableEq ς] {t : Table ρ κ ς key slot} {gone s k} :
    owner (delete t gone) s = some k ↔ ∃ r ∈ t.rows, gone r = false ∧ slot r = s ∧ key r = k := by
  simp only [ownerSome, memDelete, and_assoc]

theorem ownerDeleteOld [DecidableEq ς] {t : Table ρ κ ς key slot} {gone s k}
    (own : owner (delete t gone) s = some k) : owner t s = some k := by
  obtain ⟨r, inside, -, here, mine⟩ := ownerDelete.mp own
  exact ownerSome.mpr ⟨r, inside, here, mine⟩

def newest (t : Table ρ κ ς key slot) : Option ρ := t.rows.getLast?

theorem newestInsertOrReplace [DecidableEq κ] [DecidableEq ς] (t : Table ρ κ ς key slot) (r : ρ) :
    newest (insertOrReplace t r) = some r := by
  simp [newest, insertOrReplace]

theorem frontDiffers {γ : Type} {column : ρ → γ} {front : List ρ} {r x}
    (unique : ((front ++ [r]).map column).Nodup) (inside : x ∈ front) : column x ≠ column r := by
  rw [List.map_append, List.nodup_append] at unique
  exact unique.2.2 _ (List.mem_map_of_mem inside) _ (by simp)

theorem clearNewest [DecidableEq κ] [DecidableEq ς] {t : Table ρ κ ς key slot} {front : List ρ} {r : ρ}
    (split : t.rows = front ++ [r]) : clear key slot t.rows r = front := by
  have others : ∀ x ∈ front, key x ≠ key r ∧ slot x ≠ slot r :=
    fun x inside => ⟨frontDiffers (split ▸ t.keys) inside, frontDiffers (split ▸ t.slots) inside⟩
  rw [clear, split, List.filter_append, List.filter_eq_self.mpr]
  · simp
  · intro x inside
    simpa using others x inside

theorem sameRows {t t' : Table ρ κ ς key slot} (same : t.rows = t'.rows) : t = t' := by
  cases t
  cases t'
  cases same
  rfl

theorem insertOrReplaceSame [DecidableEq κ] [DecidableEq ς] {t : Table ρ κ ς key slot} {r : ρ} :
    insertOrReplace t r = t ↔ newest t = some r := by
  constructor
  · intro same
    have last := newestInsertOrReplace t r
    rwa [newest, same] at last
  · intro last
    obtain ⟨front, split⟩ := List.getLast?_eq_some_iff.mp last
    exact sameRows ((congrArg (· ++ [r]) (clearNewest split)).trans split.symm)

theorem clearAgain [DecidableEq κ] [DecidableEq ς] {rows : List ρ} {r r' : ρ} (sameKey : key r = key r')
    (sameSlot : slot r = slot r') : clear key slot (clear key slot rows r ++ [r]) r' = clear key slot rows r' := by
  simp [clear,sameKey,sameSlot]

theorem insertOrReplaceAgain [DecidableEq κ] [DecidableEq ς] {t : Table ρ κ ς key slot} {r r' : ρ}
    (sameKey : key r = key r') (sameSlot : slot r = slot r') :
    insertOrReplace (insertOrReplace t r) r' = insertOrReplace t r' :=
  sameRows (congrArg (· ++ [r']) (clearAgain sameKey sameSlot))

theorem newestDelete {t : Table ρ κ ς key slot} {gone r} (last : newest t = some r)
    (stays : gone r = false) : newest (delete t gone) = some r := by
  obtain ⟨front, split⟩ := List.getLast?_eq_some_iff.mp last
  simp [newest, delete, split, stays]

theorem findNewest {t : Table ρ κ ς key slot} {r} (last : newest t = some r) {p : ρ → Bool} (holds : p r = true) :
    t.rows.find? p = some r ↔ ∀ x ∈ t.rows, p x = true → x = r := by
  obtain ⟨front,split⟩ := List.getLast?_eq_some_iff.mp last
  constructor
  · intro found x inside hit
    rw [split] at inside
    rcases List.mem_append.mp inside with earlier | here
    · -- then some row of the front is found first, and it would have to be `r` itself
      cases early : front.find? p with
      | none => exact absurd hit (List.find?_eq_none.mp early x earlier)
      | some y =>
        rw [split,List.find?_append,early,Option.some_or] at found
        cases found
        exact absurd rfl (frontDiffers (split ▸ t.keys) (List.mem_of_find?_eq_some early))
    · exact List.mem_singleton.mp here
  · intro only
    cases found : t.rows.find? p with
    | none =>
      have inside : r ∈ t.rows := by rw [split]; simp
      exact absurd holds (List.find?_eq_none.mp found r inside)
    | some x => rw [only x (List.mem_of_find?_eq_some found) (List.find?_some found)]

theorem findNewestRead {γ : Type} {t : Table ρ κ ς key slot} {r} (last : newest t = some r) {p : ρ → Bool}
    (holds : p r = true) {f : ρ → γ} (tells : ∀ x, f x = f r → key x = key r) :
    (t.rows.find? p).map f = some (f r) ↔ ∀ x ∈ t.rows, p x = true → key x = key r := by
  have inside : r ∈ t.rows := List.mem_of_getLast? last
  constructor
  · intro answer x there hit
    obtain ⟨y,found,same⟩ := Option.map_eq_some_iff.mp answer
    rw [sameKey t (List.mem_of_find?_eq_some found) inside (tells y same)] at found
    rw [(findNewest last holds).mp found x there hit]
  · intro only
    have found := (findNewest last holds).mpr fun x there hit => sameKey t there inside (only x there hit)
    rw [found]
    rfl

end SssdOidc.UniqueTable
