import Mathlib

/-!
Finitely many closed intervals of time with weights, and finitely many
half-open intervals of addresses: where they meet, when their load is highest,
and how much of them fits below a bound.
-/

namespace TtMlir.Intervals

section Time
variable {Time : Type*} [LinearOrder Time]

theorem meet_iff_start (left right : Time × Time) (leftOrdered : left.1 ≤ left.2)
    (rightOrdered : right.1 ≤ right.2) :
    (Set.Icc left.1 left.2 ∩ Set.Icc right.1 right.2).Nonempty ↔
      left.1 ∈ Set.Icc right.1 right.2 ∨ right.1 ∈ Set.Icc left.1 left.2 := by
  constructor
  · rintro ⟨time, ⟨leftStarted, leftLive⟩, rightStarted, rightLive⟩
    rcases le_total left.1 right.1 with earlier | earlier
    · exact Or.inr ⟨earlier, rightStarted.trans leftLive⟩
    · exact Or.inl ⟨earlier, leftStarted.trans rightLive⟩
  · rintro (stabbed | stabbed)
    · exact ⟨left.1, ⟨le_rfl, leftOrdered⟩, stabbed⟩
    · exact ⟨right.1, stabbed, ⟨le_rfl, rightOrdered⟩⟩

variable {Index : Type*} {Weight : Type*} [AddCommMonoid Weight] [PartialOrder Weight]

def load (indices : Finset Index) (first last : Index → Time) (weight : Index → Weight) (time : Time) : Weight :=
  ∑ index ∈ indices with first index ≤ time ∧ time ≤ last index, weight index

/-- The load at an instant is exceeded by none at the start of what started last of all that is live
then. -/
theorem load_le_at_start [IsOrderedAddMonoid Weight] (indices : Finset Index) (first last : Index → Time)
    (weight : Index → Weight) (nonneg : ∀ index ∈ indices, 0 ≤ weight index) (time : Time)
    (live : ∃ index ∈ indices, first index ≤ time ∧ time ≤ last index) :
    ∃ index ∈ indices, load indices first last weight time ≤ load indices first last weight (first index) := by
  obtain ⟨some, someIn, someLive⟩ := live
  have nonempty : (indices.filter fun index => first index ≤ time ∧ time ≤ last index).Nonempty :=
    ⟨some, Finset.mem_filter.mpr ⟨someIn, someLive⟩⟩
  obtain ⟨latest, latestLive, after⟩ := Finset.exists_max_image _ first nonempty
  obtain ⟨latestIn, started, _⟩ := Finset.mem_filter.mp latestLive
  refine ⟨latest, latestIn, Finset.sum_le_sum_of_subset_of_nonneg ?_ ?_⟩
  · intro index live
    obtain ⟨member, _, ends⟩ := Finset.mem_filter.mp live
    exact Finset.mem_filter.mpr ⟨member, after index live, started.trans ends⟩
  · intro index live _
    exact nonneg index (Finset.mem_filter.mp live).1

end Time

/-- Disjoint ranges of addresses between zero and a total add up to at most that total. -/
theorem packed_sum_le {Index : Type*} [DecidableEq Index] (indices : Finset Index) (offset size : Index → Int)
    (total : Int) (positive : 0 ≤ total) (sizes : ∀ index ∈ indices, 0 ≤ size index)
    (inside : ∀ index ∈ indices, 0 ≤ offset index ∧ offset index + size index ≤ total)
    (apart : ∀ left ∈ indices, ∀ right ∈ indices, left ≠ right →
      Disjoint (Set.Ico (offset left) (offset left + size left))
        (Set.Ico (offset right) (offset right + size right))) :
    ∑ index ∈ indices, size index ≤ total := by
  have disjoint : Set.PairwiseDisjoint (indices : Set Index)
      fun index => Finset.Ico (offset index) (offset index + size index) := by
    intro left leftIn right rightIn differ
    rw [Function.onFun, ← Finset.disjoint_coe, Finset.coe_Ico, Finset.coe_Ico]
    exact apart left leftIn right rightIn differ
  have within : indices.biUnion (fun index => Finset.Ico (offset index) (offset index + size index)) ⊆
      Finset.Ico 0 total := by
    intro address member
    obtain ⟨index, indexIn, address_in⟩ := Finset.mem_biUnion.mp member
    have bounds := inside index indexIn
    rw [Finset.mem_Ico] at address_in ⊢
    omega
  have counted := Finset.card_le_card within
  rw [Finset.card_biUnion disjoint, Int.card_Ico] at counted
  have sum : ∑ index ∈ indices, size index =
      ((∑ index ∈ indices, (Finset.Ico (offset index) (offset index + size index)).card : Nat) : Int) := by
    rw [Nat.cast_sum]
    apply Finset.sum_congr rfl
    intro index member
    have := sizes index member
    rw [Int.card_Ico]
    omega
  rw [sum]
  omega

end TtMlir.Intervals
