import SssdOidc.Stability

/-! The table of a single process that never purges, in the arithmetic of the ring. -/
namespace SssdOidc.ProbeChain
open Model Database Mapping Program Cache Service SssdOidc.System Protocol Conformance History Solo Stability
open Probing (Fits Held Settled firstFit)
open Runs (Reach replay)

variable {b : Build} {config : Config}

structure Bounded (config : Config) (c : Column) : Prop where
  range : InBounds (rangeMin config c) (rangeSize config c)
  small : (rangeSize config c).toNat ≤ 2^31

def ring (b : Build) (config : Config) (c : Column) (externalId : String) (j : Nat) : Nat :=
  (rangeMin config c).toNat + ((b.murmur3_32 externalId).toNat + j) % (rangeSize config c).toNat

structure Chained (b : Build) (config : Config) (c : Column) (db : Db) : Prop where
  inRange : ∀ k x, (k,x) ∈ db.entries c → (rangeMin config c).toNat ≤ x.toNat ∧
    x.toNat < (rangeMin config c).toNat + (rangeSize config c).toNat
  oneSlot : ((db.entries c).map Prod.fst).Nodup
  oneOwner : ((db.entries c).map Prod.snd).Nodup
  chain : ∀ k x, (k,x) ∈ db.entries c → ∃ n < (rangeSize config c).toNat, x.toNat = ring b config c k n ∧
    ∀ j < n, ∃ other y, (other,y) ∈ db.entries c ∧ y.toNat = ring b config c k j ∧ other ≠ k

theorem slotsRing {c} (bounded : Bounded config c) (k : String) {n x} (at' : (slots b config c k)[n]? = some x) :
    n < (rangeSize config c).toNat ∧ x.toNat = ring b config c k n := by
  rw [slots,pathRing bounded.range bounded.small,List.getElem?_map] at at'
  obtain ⟨j,index,rfl⟩ := Option.map_eq_some_iff.mp at'
  obtain ⟨below,rfl⟩ := List.getElem?_eq_some_iff.mp index
  simp only [List.length_range] at below
  simp only [List.getElem_range]
  exact ⟨below,ringSlotNat bounded.range n⟩

theorem settledChained {c db} (bounded : Bounded config c) (settled : SettledColumn b config c db) :
    Chained b config c db := by
  have chain (k x) (inside : (k,x) ∈ db.entries c) : ∃ n < (rangeSize config c).toNat, x.toNat = ring b config c k n ∧
      ∀ j < n, ∃ other y, (other,y) ∈ db.entries c ∧ y.toNat = ring b config c k j ∧ other ≠ k := by
    obtain ⟨n,stop,passed⟩ := Probing.reachesIndex (settled k x (ownersEntries.mpr inside))
    obtain ⟨below,number⟩ := slotsRing bounded k stop
    refine ⟨n,below,number,?_⟩
    intro j before
    obtain ⟨y,at',other,own,foreign⟩ := passed j before
    exact ⟨other,y,ownersEntries.mp own,(slotsRing bounded k at').2,foreign⟩
  refine ⟨?_,entriesKeys db c,entriesSlots db c,chain⟩
  intro k x inside
  obtain ⟨n,-,number,-⟩ := chain k x inside
  have below := Nat.mod_lt ((b.murmur3_32 k).toNat + n) bounded.range.some
  rw [number,ring]
  omega

abbrev Calm (s : Sys) (l : Label) : Prop := Single l ∧ PurgeFree s l

theorem calmSettled {now s} (run : Reach (step b config) Calm (fresh empty now) s) (c : Column) :
    SettledColumn b config c s.db := by
  refine moveInvariant (fun s => SettledColumn b config c s.db) (settledFresh c) ?_ run
  intro s l s' before settled chosen move
  have single := reflected (fun _ _ => And.left) before
  refine settledEffect chosen.1 single settled (effect (conforms before) move) ?_
  intro t st r runs purges ok
  rw [purgeFree chosen.2 runs] at purges
  cases purges

theorem calmKeeps {now s s'} (first : Reach (step b config) Calm (fresh empty now) s)
    (onward : Reach (step b config) Calm s s') (c : Column) {e} (inside : e ∈ s.db.entries c) :
    e ∈ s'.db.entries c := by
  refine moveInvariant (fun s' => e ∈ s'.db.entries c) inside ?_ onward
  intro mid l after sofar here chosen move
  have before := Runs.reachTrans first sofar
  have own : mid.db.owners c e.2 = some e.1 := ownersEntries.mpr here
  refine ownersEntries.mp ?_
  cases effect (conforms before) move with
  | quiet same => rwa [same]
  | ran op tr t st k r done at' allowed ok =>
    cases stores : st.stores c with
    | none => rwa [execOwners stores (purgeFree chosen.2 (ranExecutes done at')) ok]
    | some entry =>
      rw [execStores stores ok]
      have fits := singleStores chosen.1 (reflected (fun _ _ => And.left) before) at' allowed stores
      exact Probing.assignKeeps (calmSettled before c) fits own

theorem resolvesStored {c db k x} (settled : SettledColumn b config c db) (inside : (k,x) ∈ db.entries c)
    (t : Int) (reply : Replies) : (alone t reply (resolveColumn b config c k) db).1 = .ok x := by
  have stops := Probing.firstFitSome.mpr (Probing.settledFits settled (ownersEntries.mpr inside))
  rw [aloneResolve,stops]
  rfl

theorem failsFull {c db k h} (bounded : Bounded config c) {t : Int} {reply : Replies}
    (failed : (alone t reply (resolveColumn b config c k) db).1 = .error h) {x : UInt32}
    (above : (rangeMin config c).toNat ≤ x.toNat)
    (below : x.toNat < (rangeMin config c).toNat + (rangeSize config c).toNat) :
    ∃ other, (other,x) ∈ db.entries c := by
  rw [aloneResolve] at failed
  cases stops : firstFit (db.owners c) k (slots b config c k) with
  | some y => simp [stops,found] at failed
  | none =>
    have hits : ∃ j < (rangeSize config c).toNat, ringSlot b (rangeMin config c) (rangeSize config c) k j = x :=
      ringSlotHits bounded.range above below
    obtain ⟨j,inside,rfl⟩ := hits
    have onPath : ringSlot b (rangeMin config c) (rangeSize config c) k j ∈ slots b config c k := by
      rw [slots,pathRing bounded.range bounded.small]
      exact List.mem_map_of_mem (List.mem_range.mpr inside)
    obtain ⟨other,own,-⟩ := Probing.firstFitNone.mp stops _ onPath
    exact ⟨other,ownersEntries.mp own⟩

theorem probeChain (b : Build) (config : Config) (now : Int) (bounded : ∀ c, Bounded config c) (s : Sys)
    (run : Reach (step b config) Calm (fresh empty now) s) (c : Column) :
    Chained b config c s.db ∧
    (∀ k x, (k,x) ∈ s.db.entries c → ∀ t reply, (alone t reply (resolveColumn b config c k) s.db).1 = .ok x) ∧
    (∀ s', Reach (step b config) Calm s s' → ∀ e ∈ s.db.entries c, e ∈ s'.db.entries c) ∧
    (∀ k t reply h, (alone t reply (resolveColumn b config c k) s.db).1 = .error h →
      ∀ x : UInt32, (rangeMin config c).toNat ≤ x.toNat →
        x.toNat < (rangeMin config c).toNat + (rangeSize config c).toNat → ∃ other, (other,x) ∈ s.db.entries c) := by
  have settled := calmSettled run c
  refine ⟨settledChained (bounded c) settled,?_,?_,?_⟩
  · intro k x inside t reply
    exact resolvesStored settled inside t reply
  · intro s' onward e inside
    exact calmKeeps run onward c inside
  · intro k t reply h failed x above below
    exact failsFull (bounded c) failed above below

theorem fourSlotsBounded (c : Column) : Bounded fourSlots c := by
  cases c with
  | uid => exact ⟨⟨by decide,by decide⟩,by decide⟩
  | gid => exact ⟨⟨by decide,by decide⟩,by decide⟩

def twoThenThree : List Label :=
  whole 0 (.lookupUserByName "two") 0 (some (.user (some (scimUser "u2" "two")))) 3 ++
  whole 0 (.lookupUserByName "three") 10 (some (.user (some (scimUser "u3" "three")))) 4

theorem probeChainExample : ∃ s, replay (step release fourSlots) Calm (fresh empty 0) twoThenThree = some s ∧
    s.db.entries .uid = [("u2",1001),("u3",1002)] ∧ Chained release fourSlots .uid s.db ∧
    ∀ t reply, (alone t reply (resolveColumn release fourSlots .uid "u3") s.db).1 = .ok 1002 := by
  have ends : (replay (step release fourSlots) Calm (fresh empty 0) twoThenThree).map
      (fun s => s.db.entries .uid) = some [("u2",1001),("u3",1002)] := by decide +kernel
  obtain ⟨s,reached,uids⟩ := Option.map_eq_some_iff.mp ends
  have holds := probeChain release fourSlots 0 fourSlotsBounded s (Runs.replayReach reached) .uid
  exact ⟨s,reached,uids,holds.1,holds.2.1 "u3" 1002 (by simp [uids])⟩

end SssdOidc.ProbeChain
