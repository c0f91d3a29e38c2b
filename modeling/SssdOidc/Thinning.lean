/-! Two lists, the second of which may lack elements that are dead. What a search for
living elements finds is the same in both. -/
namespace SssdOidc.Thinning

inductive Thinned {ρ : Type} (dead : ρ → Prop) : List ρ → List ρ → Prop where
  | nil : Thinned dead [] []
  | keep {r xs ys} (rest : Thinned dead xs ys) : Thinned dead (r :: xs) (r :: ys)
  | drop {r xs ys} (gone : dead r) (rest : Thinned dead xs ys) : Thinned dead (r :: xs) ys

variable {ρ : Type} {dead : ρ → Prop} {xs ys : List ρ}

theorem thinnedRefl : Thinned dead xs xs := by
  induction xs with
  | nil => exact .nil
  | cons r rest ih => exact .keep ih

theorem thinnedMono {dead' : ρ → Prop} (weaker : ∀ r, dead r → dead' r) (thinned : Thinned dead xs ys) :
    Thinned dead' xs ys := by
  induction thinned with
  | nil => exact .nil
  | keep rest ih => exact .keep ih
  | drop gone rest ih => exact .drop (weaker _ gone) ih

theorem thinnedDelete {gone : ρ → Bool} (only : ∀ r, gone r = true → dead r) :
    Thinned dead xs (xs.filter fun r => !gone r) := by
  induction xs with
  | nil => exact .nil
  | cons r rest ih =>
    cases out : gone r with
    | true =>
      rw [List.filter_cons_of_neg (by simp [out])]
      exact .drop (only r out) ih
    | false =>
      rw [List.filter_cons_of_pos (by simp [out])]
      exact .keep ih

theorem thinnedFilter (p : ρ → Bool) (thinned : Thinned dead xs ys) : Thinned dead (xs.filter p) (ys.filter p) := by
  induction thinned with
  | nil => exact .nil
  | @keep r xs ys rest ih =>
    cases hit : p r with
    | true =>
      rw [List.filter_cons_of_pos hit,List.filter_cons_of_pos hit]
      exact .keep ih
    | false =>
      rw [List.filter_cons_of_neg (by simp [hit]),List.filter_cons_of_neg (by simp [hit])]
      exact ih
  | @drop r xs ys gone rest ih =>
    cases hit : p r with
    | true =>
      rw [List.filter_cons_of_pos hit]
      exact .drop gone ih
    | false =>
      rw [List.filter_cons_of_neg (by simp [hit])]
      exact ih

theorem thinnedAppend (thinned : Thinned dead xs ys) (zs : List ρ) : Thinned dead (xs ++ zs) (ys ++ zs) := by
  induction thinned with
  | nil => exact thinnedRefl
  | keep rest ih => exact .keep ih
  | drop gone rest ih => exact .drop gone ih

theorem thinnedMem (thinned : Thinned dead xs ys) {r : ρ} (inside : r ∈ ys) : r ∈ xs := by
  induction thinned with
  | nil => exact inside
  | keep rest ih =>
    rcases List.mem_cons.mp inside with rfl | later
    · exact List.mem_cons_self
    · exact List.mem_cons_of_mem _ (ih later)
  | drop gone rest ih => exact List.mem_cons_of_mem _ (ih inside)

section Living
variable {p : ρ → Bool} (living : ∀ r, dead r → p r = false)
include living

theorem thinnedFind (thinned : Thinned dead xs ys) : ys.find? p = xs.find? p := by
  induction thinned with
  | nil => rfl
  | keep rest ih => rw [List.find?_cons,List.find?_cons,ih]
  | drop gone rest ih => rw [List.find?_cons,living _ gone,ih]

end Living

end SssdOidc.Thinning
