import Mathlib.Algebra.Order.Ring.Abs
import TtMlir.Layout.OptimalGrid

/-!
The factors of a value and the combinations of factors. The root of a square is
a low factor and its own high one, so that it is listed twice.
-/

namespace TtMlir.Layout

section Product
variable {T : Type}

def enumerateCombinations : List (List T) → List T → List (List T)
  | [], currentCombination => [currentCombination]
  | choices :: rest, currentCombination =>
      choices.flatMap fun choice => enumerateCombinations rest (currentCombination ++ [choice])

def computeCartesianProduct (possibilities : List (List T)) : List (List T) :=
  if possibilities.isEmpty then [] else enumerateCombinations possibilities []

theorem prefix_of_mem {possibilities : List (List T)} {chosen combination : List T}
    (member : combination ∈ enumerateCombinations possibilities chosen) : chosen <+: combination := by
  induction possibilities generalizing chosen with
  | nil => exact List.mem_singleton.mp member ▸ List.prefix_rfl
  | cons choices rest ih =>
      obtain ⟨choice, -, later⟩ := List.mem_flatMap.mp member
      exact (List.prefix_append _ _).trans (ih later)

theorem enumerateCombinations_ne_nil {possibilities : List (List T)} (some : ∀ choices ∈ possibilities, choices ≠ [])
    (chosen : List T) : enumerateCombinations possibilities chosen ≠ [] := by
  induction possibilities generalizing chosen with
  | nil => exact List.cons_ne_nil _ _
  | cons choices rest ih =>
      obtain ⟨here, later⟩ := List.forall_mem_cons.mp some
      obtain ⟨choice, member⟩ := List.exists_mem_of_ne_nil _ here
      intro empty
      exact ih later _ (List.flatMap_eq_nil_iff.mp empty choice member)

theorem enumerateCombinations_nodup {possibilities : List (List T)} (some : ∀ choices ∈ possibilities, choices ≠ [])
    (chosen : List T) :
    (enumerateCombinations possibilities chosen).Nodup ↔ ∀ choices ∈ possibilities, choices.Nodup := by
  induction possibilities generalizing chosen with
  | nil => simp [enumerateCombinations]
  | cons choices rest ih =>
      obtain ⟨here, later⟩ := List.forall_mem_cons.mp some
      obtain ⟨choice, member⟩ := List.exists_mem_of_ne_nil _ here
      have apart : ∀ first second : T, List.Disjoint (enumerateCombinations rest (chosen ++ [first]))
          (enumerateCombinations rest (chosen ++ [second])) ↔ first ≠ second := by
        intro first second
        constructor
        · rintro disjoint rfl
          exact enumerateCombinations_ne_nil later _ (List.eq_nil_iff_forall_not_mem.mpr fun _ known => disjoint known known)
        · intro differ combination inFirst inSecond
          have same := List.prefix_of_prefix_length_le (prefix_of_mem inFirst) (prefix_of_mem inSecond) (by simp)
          exact differ (by simpa using same.eq_of_length (by simp))
      have branches : (∀ choice ∈ choices, (enumerateCombinations rest (chosen ++ [choice])).Nodup) ↔
          ∀ choices ∈ rest, choices.Nodup :=
        ⟨fun all => (ih later _).mp (all choice member), fun all other _ => (ih later _).mpr all⟩
      rw [enumerateCombinations, List.nodup_flatMap, List.forall_mem_cons, branches, and_comm]
      refine and_congr_left' ?_
      exact ⟨List.Pairwise.imp fun disjoint => (apart _ _).mp disjoint,
        List.Pairwise.imp fun differ => (apart _ _).mpr differ⟩

end Product

def ListsDivisors (value : Int) (factors : List Int) : Prop :=
  factors.Pairwise (· < ·) ∧ ∀ factor, factor ∈ factors ↔ 0 < factor ∧ factor ∣ value

theorem getFactors_nodup_iff {value : Int} (positive : 0 < value) :
    (getFactors value).Nodup ↔ (IsSquare value → value = 1) := by
  rw [getFactors_eq value positive]
  split
  · rename_i one
    exact iff_of_true (List.nodup_singleton 1) fun _ => one
  · rename_i notOne
    have lowNodup : (lowFactors value).Nodup := (lowFactors_descending value).imp fun below => below.ne'
    have quotient : ∀ {low : Int}, low ∈ lowFactors value → low * (value / low) = value ∧ 0 < value / low := by
      intro low member
      obtain ⟨lowPos, -, divides⟩ := (mem_lowFactors value low).mp member
      exact ⟨Int.mul_ediv_cancel' divides, Int.ediv_pos_of_pos_of_dvd positive lowPos.le divides⟩
    have highNodup : ((lowFactors value).map fun low => value / low).Nodup := by
      refine lowNodup.map_on fun first isFirst second isSecond same => ?_
      have product := (quotient isFirst).1
      rw [same] at product
      exact Int.eq_of_mul_eq_mul_right (quotient isSecond).2.ne' (product.trans (quotient isSecond).1.symm)
    constructor
    · rintro nodup ⟨root, rfl⟩
      have rootPos : 0 < |root| := abs_pos.mpr fun zero => by simp [zero] at positive
      have isLow : |root| ∈ lowFactors (root * root) :=
        (mem_lowFactors _ _).mpr ⟨rootPos, by rw [Int.sqrt_eq]; simp, ⟨|root|, (abs_mul_abs_self root).symm⟩⟩
      have isHigh : |root| ∈ (lowFactors (root * root)).map fun low => root * root / low :=
        List.mem_map.mpr ⟨_, isLow, by rw [← abs_mul_abs_self root, Int.mul_ediv_cancel _ rootPos.ne']⟩
      exact absurd rfl ((List.nodup_append.mp nodup).2.2 _ (List.mem_reverse.mpr isLow) _ isHigh)
    · intro notSquare
      refine List.nodup_append.mpr ⟨List.nodup_reverse.mpr lowNodup, highNodup, ?_⟩
      rintro low isLow _ isHigh rfl
      obtain ⟨other, isOther, same⟩ := List.mem_map.mp isHigh
      -- two factors up to the root whose product is the value are both the root
      have product := (quotient isOther).1
      rw [same] at product
      obtain ⟨lowPos, lowRoot, -⟩ := (mem_lowFactors value low).mp (List.mem_reverse.mp isLow)
      obtain ⟨otherPos, otherRoot, -⟩ := (mem_lowFactors value other).mp isOther
      have square := (sqrt_square value positive).1
      have equal : other = low := by nlinarith
      exact notOne (notSquare ⟨low, by rw [← product, equal]⟩)

theorem getFactors_lists_iff {value : Int} (positive : 0 < value) :
    ListsDivisors value (getFactors value) ↔ (IsSquare value → value = 1) := by
  rw [← getFactors_nodup_iff positive]
  constructor
  · rintro ⟨strict, -⟩
    exact strict.imp fun below => below.ne
  · intro nodup
    have strict := ((getFactors_ascending value positive).and nodup).imp fun both => lt_of_le_of_ne both.1 both.2
    exact ⟨strict, mem_getFactors value positive⟩

/-- The factors of a value are listed upwards and once unless the value is a square above one, and the
combinations of the factors of several values are distinct when none of these is. -/
theorem factors_distinct_iff (values : List Int) (positive : ∀ value ∈ values, 1 ≤ value) :
    (∀ value ∈ values, (ListsDivisors value (getFactors value) ↔ (IsSquare value → value = 1))) ∧
    ((computeCartesianProduct (values.map getFactors)).Nodup ↔ ∀ value ∈ values, IsSquare value → value = 1) := by
  refine ⟨fun value known => getFactors_lists_iff (positive value known), ?_⟩
  have some : ∀ factors ∈ values.map getFactors, factors ≠ [] := by
    intro factors member
    obtain ⟨value, known, rfl⟩ := List.mem_map.mp member
    have one := (mem_getFactors value (positive value known) 1).mpr ⟨Int.one_pos, one_dvd _⟩
    exact List.ne_nil_of_mem one
  have each : (∀ factors ∈ values.map getFactors, factors.Nodup) ↔ ∀ value ∈ values, IsSquare value → value = 1 := by
    rw [List.forall_mem_map]
    exact forall₂_congr fun value known => getFactors_nodup_iff (positive value known)
  rw [← each, ← enumerateCombinations_nodup some [], computeCartesianProduct]
  cases values with
  | nil => simp [enumerateCombinations]
  | cons _ _ => rfl

theorem factors_distinct_two_three : (computeCartesianProduct [getFactors 2, getFactors 3]).Nodup := by
  have noSquares : ∀ value ∈ ([2, 3] : List Int), IsSquare value → value = 1 := by with_unfolding_all decide
  exact (factors_distinct_iff [2, 3] (by decide)).2.mpr noSquares

/-- The factors of four are 1, 2, 2 and 4. -/
theorem four_repeats : getFactors 4 = [1, 2, 2, 4] ∧ ¬ListsDivisors 4 (getFactors 4) ∧
    ¬(computeCartesianProduct [getFactors 4]).Nodup := by
  have listed : getFactors 4 = [1, 2, 2, 4] := by with_unfolding_all decide
  rw [listed]
  exact ⟨rfl, fun lists => absurd lists.1 (by decide), by decide⟩

end TtMlir.Layout
