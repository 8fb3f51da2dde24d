import Mathlib.Algebra.Order.BigOperators.Ring.Finset

/-!
Affine functions on a box of counts: where they start and end, when two of them agree and
when their values are apart.
-/

namespace TtMlir.AffineBox

open Finset

def affineAt (base : Int) (pace : Nat → Int) (rank : Nat) (counts : Nat → Nat) : Int :=
  base + ∑ dim ∈ range rank, pace dim * counts dim

def InBox (size : Nat → Nat) (rank : Nat) (counts : Nat → Nat) : Prop := ∀ dim < rank, counts dim < size dim

def lastAt (base : Int) (pace : Nat → Int) (size : Nat → Nat) (rank : Nat) : Int :=
  affineAt base pace rank fun dim => size dim - 1

variable {base other : Int} {pace otherPace : Nat → Int} {size : Nat → Nat} {rank : Nat} {counts : Nat → Nat}

theorem inBox_zero (positive : ∀ dim < rank, 0 < size dim) : InBox size rank fun _ => 0 := positive

theorem inBox_last (positive : ∀ dim < rank, 0 < size dim) : InBox size rank fun dim => size dim - 1 :=
  fun dim known => Nat.sub_lt (positive dim known) Nat.one_pos

theorem affineAt_zero : affineAt base pace rank (fun _ => 0) = base := by simp [affineAt]

theorem affineAt_single {dim : Nat} (known : dim < rank) :
    affineAt base pace rank (fun other => if other = dim then 1 else 0) = base + pace dim := by
  unfold affineAt
  have only : ∑ other ∈ range rank, pace other * ((if other = dim then 1 else 0 : Nat) : Int) = pace dim := by
    rw [sum_eq_single_of_mem dim (mem_range.mpr known)]
    · simp
    · intro other _ apart
      simp [apart]
  rw [only]

theorem base_le (forth : ∀ dim < rank, 0 ≤ pace dim) : base ≤ affineAt base pace rank counts := by
  have some : 0 ≤ ∑ dim ∈ range rank, pace dim * (counts dim : Int) :=
    sum_nonneg fun dim known => mul_nonneg (forth dim (mem_range.mp known)) (Int.natCast_nonneg _)
  unfold affineAt
  omega

theorem le_lastAt (forth : ∀ dim < rank, 0 ≤ pace dim) (inside : InBox size rank counts) :
    affineAt base pace rank counts ≤ lastAt base pace size rank := by
  unfold lastAt affineAt
  apply Int.add_le_add_left
  apply sum_le_sum
  intro dim known
  have below := inside dim (mem_range.mp known)
  have most : (counts dim : Int) ≤ ((size dim - 1 : Nat) : Int) := by omega
  exact mul_le_mul_of_nonneg_left most (forth dim (mem_range.mp known))

/-- Two functions agree on a box when they start alike and move alike in the dims that move. -/
theorem agree_iff (positive : ∀ dim < rank, 0 < size dim) :
    (∀ counts, InBox size rank counts → affineAt base pace rank counts = affineAt other otherPace rank counts) ↔
      base = other ∧ ∀ dim < rank, 2 ≤ size dim → pace dim = otherPace dim := by
  constructor
  · intro agree
    have start := agree _ (inBox_zero positive)
    rw [affineAt_zero, affineAt_zero] at start
    refine ⟨start, fun dim known moves => ?_⟩
    have step := agree (fun other => if other = dim then 1 else 0) fun other inside => by
      have some := positive other inside
      show (if other = dim then 1 else 0) < size other
      split
      · rename_i same
        rw [same]
        omega
      · exact some
    rw [affineAt_single known, affineAt_single known] at step
    omega
  · rintro ⟨rfl, paces⟩ counts inside
    unfold affineAt
    congr 1
    apply sum_congr rfl
    intro dim known
    have below := inside dim (mem_range.mp known)
    by_cases moves : 2 ≤ size dim
    · rw [paces dim (mem_range.mp known) moves]
    · have still : counts dim = 0 := by omega
      rw [still, Nat.cast_zero, mul_zero, mul_zero]

theorem below_iff (positive : ∀ dim < rank, 0 < size dim) (forth : ∀ dim < rank, 0 ≤ pace dim)
    (otherForth : ∀ dim < rank, 0 ≤ otherPace dim) :
    (∀ counts, InBox size rank counts → ∀ counts', InBox size rank counts' →
      affineAt base pace rank counts < affineAt other otherPace rank counts') ↔ lastAt base pace size rank < other := by
  constructor
  · intro below
    have ends := below _ (inBox_last positive) _ (inBox_zero positive)
    rwa [affineAt_zero] at ends
  · intro ends counts inside counts' _
    calc affineAt base pace rank counts ≤ lastAt base pace size rank := le_lastAt forth inside
      _ < other := ends
      _ ≤ affineAt other otherPace rank counts' := base_le otherForth

theorem within_iff (positive : ∀ dim < rank, 0 < size dim) (forth : ∀ dim < rank, 0 ≤ pace dim) (bound : Int) :
    (∀ counts, InBox size rank counts → 0 ≤ affineAt base pace rank counts ∧ affineAt base pace rank counts < bound) ↔
      0 ≤ base ∧ lastAt base pace size rank < bound := by
  constructor
  · intro within
    have start := within _ (inBox_zero positive)
    rw [affineAt_zero] at start
    exact ⟨start.1, (within _ (inBox_last positive)).2⟩
  · intro ends counts inside
    exact ⟨ends.1.trans (base_le forth), (le_lastAt forth inside).trans_lt ends.2⟩

end TtMlir.AffineBox
