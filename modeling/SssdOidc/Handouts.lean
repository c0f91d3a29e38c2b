import SssdOidc.Probing

/-! Slots handed out to one item after another. Each walks its path to the first open slot
and is given it; the state may then have the item in that slot, or be as it was. -/
namespace SssdOidc.Handouts
open Probing

structure Allocator (κ ς ν ι : Type) [DecidableEq κ] [DecidableEq ς] where
  owners : ν → Owners κ ς
  key : ι → κ
  path : ν → ι → List ς
  store : ν → ι → ς → ν
  stores : ∀ state item s, owners (store state item s) = owners state ∨
    owners (store state item s) = assign (owners state) (key item) s

variable {κ ς ν ι : Type} [DecidableEq κ] [DecidableEq ς] (A : Allocator κ ς ν ι)

def Allocator.fit (state : ν) (item : ι) : Option ς := firstFit (A.owners state) (A.key item) (A.path state item)

def handed : ν → List ι → List ς
  | _, [] => []
  | state, item :: rest =>
      match A.fit state item with
      | none => handed state rest
      | some s => s :: handed (A.store state item s) rest

/- No walk ends at a slot that was handed out before, and lost since the state did not get
its owner. -/
def Apart : List ς → ν → List ι → Prop
  | _, _, [] => True
  | lost, state, item :: rest =>
      match A.fit state item with
      | none => Apart lost state rest
      | some s =>
          s ∉ lost ∧ Apart (if A.owners (A.store state item s) s = some (A.key item) then lost else s :: lost)
            (A.store state item s) rest

/- What is known of the slots handed out so far: the state has their owners, or they are lost. -/
structure Known (earlier : List (κ × ς)) (lost : List ς) (state : ν) : Prop where
  owned : ∀ k s, (k,s) ∈ earlier → A.owners state s = some k ∨ s ∈ lost
  lost : ∀ s ∈ lost, ∃ k, (k,s) ∈ earlier

variable {A} {earlier : List (κ × ς)} {lost : List ς} {state : ν} {item : ι} {s : ς}

theorem knownApart (known : Known A earlier lost state) (other : ∀ k x, (k,x) ∈ earlier → k ≠ A.key item)
    (fit : A.fit state item = some s) : s ∈ earlier.map Prod.snd ↔ s ∈ lost := by
  constructor
  · intro inside
    obtain ⟨⟨k,x⟩,before,same⟩ := List.mem_map.mp inside
    cases same
    rcases known.owned k x before with own | gone
    · exact absurd (openOwned (firstFitSome.mp fit).stop own) (other k x before)
    · exact gone
  · intro gone
    obtain ⟨k,before⟩ := known.lost s gone
    exact List.mem_map.mpr ⟨(k,s),before,rfl⟩

theorem knownNext (known : Known A earlier lost state) (other : ∀ k x, (k,x) ∈ earlier → k ≠ A.key item)
    (fit : A.fit state item = some s) : Known A ((A.key item,s) :: earlier)
      (if A.owners (A.store state item s) s = some (A.key item) then lost else s :: lost) (A.store state item s) := by
  -- a store at the end of the item's own walk takes no slot from others
  have kept (k : κ) (x : ς) (before : (k,x) ∈ earlier) (own : A.owners state x = some k) :
      A.owners (A.store state item s) x = some k := by
    rcases A.stores state item s with same | assigned
    · rw [same]
      exact own
    · rw [assigned]
      exact assignOthers (firstFitSome.mp fit).stop own (other k x before)
  constructor
  · intro k x inside
    by_cases recorded : A.owners (A.store state item s) s = some (A.key item)
    · rw [if_pos recorded]
      rcases List.mem_cons.mp inside with same | before
      · cases same
        exact .inl recorded
      · exact (known.owned k x before).imp (kept k x before) id
    · rw [if_neg recorded]
      rcases List.mem_cons.mp inside with same | before
      · cases same
        exact .inr List.mem_cons_self
      · exact (known.owned k x before).imp (kept k x before) (List.mem_cons_of_mem _)
  · intro x inside
    have cases' : x = s ∨ x ∈ lost := by
      split at inside
      · exact .inr inside
      · exact List.mem_cons.mp inside
    rcases cases' with rfl | old
    · exact ⟨A.key item,List.mem_cons_self⟩
    · obtain ⟨k,before⟩ := known.lost x old
      exact ⟨k,List.mem_cons_of_mem _ before⟩

theorem handedApart {items : List ι} (known : Known A earlier lost state) (keys : (items.map A.key).Nodup)
    (other : ∀ k x, (k,x) ∈ earlier → ∀ item ∈ items, k ≠ A.key item) :
    ((handed A state items).Nodup ∧ ∀ s ∈ handed A state items, s ∉ earlier.map Prod.snd) ↔
      Apart A lost state items := by
  induction items generalizing earlier lost state with
  | nil => simp [handed,Apart]
  | cons item rest ih =>
    obtain ⟨fresh,keys⟩ := List.nodup_cons.mp keys
    have others : ∀ k x, (k,x) ∈ earlier → ∀ later ∈ rest, k ≠ A.key later :=
      fun k x before later inside => other k x before later (List.mem_cons_of_mem _ inside)
    rw [handed,Apart]
    cases fit : A.fit state item with
    | none => exact ih known keys others
    | some s =>
      have first : ∀ k x, (k,x) ∈ earlier → k ≠ A.key item := fun k x before => other k x before item List.mem_cons_self
      have next : ∀ k x, (k,x) ∈ (A.key item,s) :: earlier → ∀ later ∈ rest, k ≠ A.key later := by
        intro k x inside later mem
        rcases List.mem_cons.mp inside with same | before
        · cases same
          intro again
          exact fresh (again ▸ List.mem_map_of_mem mem)
        · exact others k x before later mem
      have onward := ih (knownNext known first fit) keys next
      dsimp only
      rw [← onward,← knownApart known first fit,List.nodup_cons]
      simp only [List.map_cons,List.mem_cons,not_or,forall_eq_or_imp]
      constructor
      · intro ⟨⟨new,distinct⟩,apart,others'⟩
        exact ⟨apart,distinct,fun x inside => ⟨fun same => new (same ▸ inside),others' x inside⟩⟩
      · intro ⟨apart,distinct,both⟩
        exact ⟨⟨fun again => (both s again).1 rfl,distinct⟩,apart,fun x inside => (both x inside).2⟩

theorem handedNodup {items : List ι} (keys : (items.map A.key).Nodup) :
    (handed A state items).Nodup ↔ Apart A [] state items := by
  have nothing : Known A [] [] state := ⟨fun _ _ never => (nomatch never),fun _ never => (nomatch never)⟩
  rw [← handedApart nothing keys fun _ _ never => nomatch never]
  simp

theorem apartStored {items : List ι} (recorded : ∀ state item s, A.owners (A.store state item s) s = some (A.key item)) :
    Apart A [] state items := by
  induction items generalizing state with
  | nil => trivial
  | cons item rest ih =>
    rw [Apart]
    cases A.fit state item with
    | none => exact ih
    | some s =>
      dsimp only
      rw [if_pos (recorded state item s)]
      exact ⟨List.not_mem_nil,ih⟩

end SssdOidc.Handouts
