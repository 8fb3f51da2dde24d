import Mathlib.Algebra.BigOperators.Group.Finset.Basic
import Mathlib.Data.List.GetD

/-!
Projected permutations: maps from dims to results that are dims, each at most once, or zeros.
-/

namespace TtMlir

structure ProjectedPermutation where
  numDims : Nat
  results : List (Option Nat)
  inside : ∀ dim ∈ results.filterMap id, dim < numDims
  distinct : (results.filterMap id).Nodup

namespace ProjectedPermutation

instance : Inhabited ProjectedPermutation := ⟨⟨0, [], by simp, by simp⟩⟩

variable (map : ProjectedPermutation)

def dimAt (position : Nat) : Option Nat := map.results.getD position none

def positionOf (dim : Nat) : Option Nat := map.results.idxOf? (some dim)

/-- `inverseAndBroadcastProjectedPermutation`: a result for each dim, zeros for the absent ones. -/
def inverseAndBroadcast : List (Option Nat) := (List.range map.numDims).map map.positionOf

def apply (results : List (Option Nat)) (values : List Nat) : List Nat :=
  results.map fun result => (result.map fun position => values.getD position 0).getD 0

variable {map} {position other dim : Nat}

theorem lt_of_dimAt (found : map.dimAt position = some dim) : position < map.results.length := by
  by_contra outside
  rw [dimAt, List.getD_eq_default _ _ (Nat.not_lt.mp outside)] at found
  cases found

theorem mem_of_dimAt (found : map.dimAt position = some dim) : some dim ∈ map.results := by
  have known := lt_of_dimAt found
  rw [dimAt, List.getD_eq_getElem _ _ known] at found
  exact found ▸ List.getElem_mem known

theorem dim_lt (found : map.dimAt position = some dim) : dim < map.numDims :=
  map.inside dim (List.mem_filterMap.mpr ⟨some dim, mem_of_dimAt found, rfl⟩)

theorem dimAt_injective (found : map.dimAt position = some dim) (again : map.dimAt other = some dim) :
    position = other := by
  have known := lt_of_dimAt found
  have otherKnown := lt_of_dimAt again
  rw [dimAt, List.getD_eq_getElem _ _ known] at found
  rw [dimAt, List.getD_eq_getElem _ _ otherKnown] at again
  have apart : map.results.Pairwise fun left right => ∀ value, left = some value → right ≠ some value := by
    have distinct := map.distinct
    rw [List.Nodup, List.pairwise_filterMap] at distinct
    exact distinct.imp fun differ value left right => differ value left value right rfl
  rcases Nat.lt_trichotomy position other with before | same | after
  · exact absurd again (List.pairwise_iff_getElem.mp apart position other known otherKnown before dim found)
  · exact same
  · exact absurd found (List.pairwise_iff_getElem.mp apart other position otherKnown known after dim again)

theorem positionOf_eq_some : map.positionOf dim = some position ↔ map.dimAt position = some dim := by
  constructor
  · intro found
    obtain ⟨known, here, -⟩ := List.findIdx?_eq_some_iff_getElem.mp found
    rw [dimAt, List.getD_eq_getElem _ _ known]
    exact eq_of_beq here
  · intro found
    cases search : map.positionOf dim with
    | none =>
        have absent := List.findIdx?_eq_none_iff.mp search _ (mem_of_dimAt found)
        simp at absent
    | some first =>
        obtain ⟨known, here, -⟩ := List.findIdx?_eq_some_iff_getElem.mp search
        have firstFound : map.dimAt first = some dim := by
          rw [dimAt, List.getD_eq_getElem _ _ known]
          exact eq_of_beq here
        rw [dimAt_injective firstFound found]

theorem inverseAndBroadcast_getD (inside : dim < map.numDims) :
    map.inverseAndBroadcast.getD dim none = map.positionOf dim := by
  have length : dim < map.inverseAndBroadcast.length := by simpa [inverseAndBroadcast] using inside
  rw [List.getD_eq_getElem _ _ length]
  simp [inverseAndBroadcast]

theorem apply_getD (results : List (Option Nat)) (values : List Nat) (index : Nat) :
    (apply results values).getD index 0 =
      ((results.getD index none).map fun position => values.getD position 0).getD 0 := by
  rw [apply, List.getD_eq_getElem?_getD, List.getElem?_map, List.getD_eq_getElem?_getD]
  cases results[index]? <;> rfl

theorem prod_positions {α : Type} [CommMonoid α] (map : ProjectedPermutation) (value : Nat → α) :
    ∏ dim ∈ Finset.range map.numDims, (map.positionOf dim).elim 1 value =
      ∏ position ∈ Finset.range map.results.length, if (map.dimAt position).isSome then value position else 1 := by
  rw [← Finset.prod_filter]
  refine (Finset.prod_of_injOn (fun position => (map.dimAt position).getD 0) ?_ ?_ ?_ ?_).symm
  · intro position member other otherMember same
    obtain ⟨dim, found⟩ := Option.isSome_iff_exists.mp (Finset.mem_filter.mp member).2
    obtain ⟨second, again⟩ := Option.isSome_iff_exists.mp (Finset.mem_filter.mp otherMember).2
    simp only [found, again, Option.getD_some] at same
    exact dimAt_injective found (same ▸ again)
  · intro position member
    obtain ⟨dim, found⟩ := Option.isSome_iff_exists.mp (Finset.mem_filter.mp member).2
    simp only [found, Option.getD_some]
    exact Finset.mem_coe.mpr (Finset.mem_range.mpr (dim_lt found))
  · intro dim _ outside
    cases search : map.positionOf dim with
    | none => rfl
    | some position =>
        have found := positionOf_eq_some.mp search
        refine absurd ⟨position, Finset.mem_coe.mpr (Finset.mem_filter.mpr ⟨?_, ?_⟩), ?_⟩ outside
        · exact Finset.mem_range.mpr (lt_of_dimAt found)
        · rw [found]
          rfl
        · simp only [found, Option.getD_some]
  · intro position member
    obtain ⟨dim, found⟩ := Option.isSome_iff_exists.mp (Finset.mem_filter.mp member).2
    simp only [found, Option.getD_some, positionOf_eq_some.mpr found, Option.elim_some]

end ProjectedPermutation

end TtMlir
