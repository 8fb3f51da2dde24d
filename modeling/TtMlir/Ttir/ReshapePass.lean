import TtMlir.Ttir.ReshapeChain

/-!
Which swaps the decomposition chooses. The swap of one shape is left out where its
last two dims are both 1, and the swap of the other shape is taken whatever its last
two dims are.
-/

namespace TtMlir.Ttir.ComplexReshape

open Tensor

def TrailingOnes (shape : List Nat) : Prop :=
  2 ≤ shape.length ∧ shape.getD (shape.length - 2) 0 = 1 ∧ back shape = 1

/-- The last two dims are longer than 1 and of different extents. -/
def UnevenTail (shape : List Nat) : Prop :=
  2 ≤ shape.length ∧ shape.getD (shape.length - 2) 0 ≠ 1 ∧ back shape ≠ 1 ∧
    shape.getD (shape.length - 2) 0 ≠ back shape

/-- Between the same dims longer than 1, one shape ends with two dims of extent 1 and
the other one with two different longer dims. -/
def Misplaced (inputShape outputShape : List Nat) : Prop :=
  getNonOneDims inputShape = getNonOneDims outputShape ∧
    (TrailingOnes outputShape ∧ UnevenTail inputShape ∨ TrailingOnes inputShape ∧ UnevenTail outputShape)

section Tails
variable (front : List Nat) (first second : Nat)

theorem trailingOnes_pair : TrailingOnes (front ++ [first, second]) ↔ first = 1 ∧ second = 1 := by
  unfold TrailingOnes
  rw [getD_lastButOne, back_pair, length_pair, and_iff_right (Nat.le_add_left 2 _)]

theorem unevenTail_pair : UnevenTail (front ++ [first, second]) ↔ first ≠ 1 ∧ second ≠ 1 ∧ first ≠ second := by
  unfold UnevenTail
  rw [getD_lastButOne, back_pair, length_pair, and_iff_right (Nat.le_add_left 2 _)]

theorem back_mem (shape : List Nat) (some : shape ≠ []) : back shape ∈ shape := by
  have positive := List.length_pos_iff.mpr some
  unfold back
  rw [List.getD_eq_getElem _ _ (by omega)]
  exact List.getElem_mem _

theorem last_split (shape : List Nat) (some : shape ≠ []) : ∃ front last, shape = front ++ [last] :=
  ⟨shape.dropLast, shape.getLast some, (List.dropLast_append_getLast some).symm⟩

/-- A shape that ends with 1 has another dim, when one of the same longer dims is somewhere else. -/
theorem wide_of_trailing (shape other : List Nat) (some : shape ≠ []) (otherSome : other ≠ [])
    (same : getNonOneDims shape = getNonOneDims other) (one : back shape = 1) (long : back other ≠ 1) :
    2 ≤ shape.length := by
  by_contra narrow
  have positive := List.length_pos_iff.mpr some
  obtain ⟨only, rfl⟩ := List.length_eq_one_iff.mp (show shape.length = 1 by omega)
  have unit : only = 1 := one
  have member : back other ∈ getNonOneDims other := List.mem_filter.mpr ⟨back_mem other otherSome, by simpa using long⟩
  rw [← same, unit] at member
  cases member

theorem prod_getNonOneDims (shape : List Nat) : (getNonOneDims shape).prod = shape.prod := by
  unfold getNonOneDims
  induction shape with
  | nil => rfl
  | cons extent rest ih =>
      by_cases unit : extent = 1
      · rw [List.filter_cons_of_neg (by simp [unit]), ih, List.prod_cons, unit, one_mul]
      · rw [List.filter_cons_of_pos (by simp [unit]), List.prod_cons, List.prod_cons, ih]

end Tails

/-- The steps swap once, and one of the swapped dims is 1 unless the shapes are misplaced. -/
def SwapsOnce (inputShape outputShape : List Nat) (steps : List Step) : Prop :=
  ∃ front first second, steps = swapChain inputShape front first second outputShape ∧
    inputShape.prod = (front ++ [first, second]).prod ∧ (front ++ [second, first]).prod = outputShape.prod ∧
      ((first = 1 ∨ second = 1) ↔ ¬ Misplaced inputShape outputShape)

section Cases
variable {inputShape outputShape : List Nat}

theorem reshapeUnless_self (shape : List Nat) : reshapeUnless shape shape = [] := if_neg (not_not.mpr rfl)

theorem prod_swap (front : List Nat) (first second : Nat) :
    (front ++ [second, first]).prod = (front ++ [first, second]).prod := by
  rw [prod_pair, prod_pair, Nat.mul_comm second]

section
variable (volume : inputShape.prod = outputShape.prod)
include volume

theorem swapsOnce_inserted (some : inputShape ≠ [])
    (even : ¬ UnevenTail inputShape) (placed : ¬ (TrailingOnes inputShape ∧ UnevenTail outputShape)) :
    SwapsOnce inputShape outputShape
      ([createReshape (inputShape.take (inputShape.length - 1) ++ 1 :: inputShape.drop (inputShape.length - 1)),
          createPermuteSwapLastTwoDims
            (inputShape.take (inputShape.length - 1) ++ 1 :: inputShape.drop (inputShape.length - 1))] ++
        reshapeUnless
          (swapLastTwoDims (inputShape.take (inputShape.length - 1) ++ 1 :: inputShape.drop (inputShape.length - 1)))
          outputShape) := by
  obtain ⟨front, last, rfl⟩ := last_split inputShape some
  have inserted : (front ++ [last]).take ((front ++ [last]).length - 1) ++
      1 :: (front ++ [last]).drop ((front ++ [last]).length - 1) = front ++ [1, last] := by
    rw [List.length_append, List.length_singleton, Nat.add_sub_cancel, List.take_left, List.drop_left]
  have differs : front ++ [last] ≠ front ++ [1, last] := by
    intro same
    have lengths := congrArg List.length same
    rw [List.length_append, List.length_append] at lengths
    change front.length + 1 = front.length + 2 at lengths
    omega
  rw [inserted]
  refine ⟨front, 1, last, ?_, ?_, ?_, ?_⟩
  · unfold swapChain
    have started : reshapeUnless (front ++ [last]) (front ++ [1, last]) = [createReshape (front ++ [1, last])] :=
      if_pos differs
    rw [createPermuteSwapLastTwoDims_pair, swapLastTwoDims_pair, started]
    rfl
  · rw [prod_pair, List.prod_append, List.prod_singleton, one_mul]
  · rw [← volume, prod_pair, List.prod_append, List.prod_singleton, mul_one]
  · refine iff_of_true (Or.inl rfl) ?_
    rintro ⟨_, ⟨_, uneven⟩ | misplaced⟩
    · exact even uneven
    · exact placed misplaced

theorem swapsOnce_viaInputSwap (some : inputShape ≠ [])
    (same : getNonOneDims inputShape = getNonOneDims outputShape) (long : back inputShape ≠ 1)
    (ones : TrailingOnes outputShape) :
    SwapsOnce inputShape outputShape (decomposeViaInputSwap inputShape outputShape) := by
  have placed : ¬ (TrailingOnes inputShape ∧ UnevenTail outputShape) := fun misplaced => long misplaced.1.2.2
  unfold decomposeViaInputSwap
  dsimp only
  split
  · rename_i swappable
    obtain ⟨front, first, second, rfl⟩ := exists_lastTwo inputShape swappable.1
    rw [getD_last, getD_lastButOne] at swappable
    rw [back_pair] at long
    refine ⟨front, first, second, ?_, rfl, ?_, ?_⟩
    · unfold swapChain
      rw [createPermuteSwapLastTwoDims_pair, swapLastTwoDims_pair, reshapeUnless_self, List.nil_append]
    · rw [prod_swap, volume]
    · unfold Misplaced
      rw [or_iff_left placed, unevenTail_pair, and_iff_right same, and_iff_right ones]
      have apart := swappable.2
      constructor
      · rintro (unit | unit) ⟨notUnit, _⟩
        · exact notUnit unit
        · exact long unit
      · intro even
        by_contra neither
        push Not at neither
        exact even ⟨neither.1, long, Ne.symm apart⟩
  · rename_i unswappable
    refine swapsOnce_inserted volume some ?_ placed
    rintro ⟨wide, _, _, uneven⟩
    exact unswappable ⟨wide, Ne.symm uneven⟩

theorem swapsOnce_outputTrailing (some : inputShape ≠ [])
    (outSome : outputShape ≠ []) (same : getNonOneDims inputShape = getNonOneDims outputShape)
    (long : back inputShape ≠ 1) (one : back outputShape = 1) :
    SwapsOnce inputShape outputShape (decomposeOutputTrailing inputShape outputShape) := by
  have wide := wide_of_trailing outputShape inputShape outSome some same.symm one long
  unfold decomposeOutputTrailing
  dsimp only
  split
  · rename_i differs
    obtain ⟨front, first, second, rfl⟩ := exists_lastTwo outputShape wide
    rw [back_pair] at one
    rw [swapLastTwoDims_pair] at differs ⊢
    refine ⟨front, second, first, ?_, ?_, rfl, ?_⟩
    · unfold swapChain
      rw [buildLastTwoSwapPerm_eq, length_pair, reshapeUnless_self, List.append_nil]
    · rw [prod_swap, volume]
    · refine iff_of_true (Or.inl one) ?_
      rintro ⟨_, ⟨ones, _⟩ | ⟨_, uneven⟩⟩
      · rw [trailingOnes_pair] at ones
        rw [pair_swapped_ne, ones.1, ones.2] at differs
        exact differs rfl
      · rw [unevenTail_pair] at uneven
        exact uneven.2.1 one
  · rename_i identity
    refine swapsOnce_viaInputSwap volume some same long ?_
    obtain ⟨front, first, second, rfl⟩ := exists_lastTwo outputShape wide
    rw [back_pair] at one
    rw [swapLastTwoDims_pair, pair_swapped_ne, not_not] at identity
    rw [trailingOnes_pair]
    exact ⟨identity.trans one, one⟩

theorem swapsOnce_inputTrailing (some : inputShape ≠ [])
    (outSome : outputShape ≠ []) (same : getNonOneDims inputShape = getNonOneDims outputShape)
    (one : back inputShape = 1) (long : back outputShape ≠ 1) (steps : List Step)
    (decomposed : decomposeInputTrailing inputShape outputShape = .some steps) :
    SwapsOnce inputShape outputShape steps := by
  have wide := wide_of_trailing inputShape outputShape some outSome same one long
  obtain ⟨front, first, second, rfl⟩ := exists_lastTwo inputShape wide
  rw [back_pair] at one
  unfold decomposeInputTrailing at decomposed
  rw [swapLastTwoDims_pair, createPermuteSwapLastTwoDims_pair] at decomposed
  dsimp only at decomposed
  split at decomposed
  · rename_i differs
    rw [pair_swapped_ne] at differs
    cases decomposed
    refine ⟨front, first, second, ?_, rfl, ?_, ?_⟩
    · unfold swapChain
      rw [reshapeUnless_self, List.nil_append]
    · rw [prod_swap, volume]
    · refine iff_of_true (Or.inr one) ?_
      rintro ⟨_, ⟨ones, _⟩ | ⟨ones, _⟩⟩
      · exact long ones.2.2
      · rw [trailingOnes_pair] at ones
        exact differs (ones.1.trans ones.2.symm)
  · rename_i identity
    rw [pair_swapped_ne, not_not] at identity
    split at decomposed
    · cases decomposed
    · rename_i outWide
      obtain ⟨outFront, outFirst, outSecond, rfl⟩ := exists_lastTwo outputShape (by omega)
      rw [back_pair] at long
      rw [swapLastTwoDims_pair] at decomposed
      split at decomposed
      · cases decomposed
      · rename_i outDiffers
        have apart := (pair_swapped_ne outFront outFirst outSecond).mp outDiffers
        cases decomposed
        refine ⟨outFront, outSecond, outFirst, ?_, ?_, rfl, ?_⟩
        · unfold swapChain
          rw [buildLastTwoSwapPerm_eq, length_pair, reshapeUnless_self, List.append_nil]
        · rw [volume, prod_swap outFront outFirst outSecond]
        · unfold Misplaced
          rw [trailingOnes_pair, trailingOnes_pair, unevenTail_pair, unevenTail_pair, and_iff_right same]
          constructor
          · rintro (unit | unit) (⟨ones, _⟩ | ⟨_, uneven⟩)
            · exact long ones.2
            · exact long unit
            · exact long ones.2
            · exact uneven.1 unit
          · intro even
            by_contra neither
            push Not at neither
            exact even (Or.inr ⟨⟨identity.trans one, one⟩, neither.2, long, apart⟩)

theorem swapsOnce_flattenAndSwap (different : getNonOneDims inputShape ≠ getNonOneDims outputShape) :
    SwapsOnce inputShape outputShape (decomposeFlattenAndSwap inputShape outputShape) := by
  have product := prod_getNonOneDims inputShape
  refine ⟨[], (getNonOneDims inputShape).prod, 1, rfl, ?_, ?_, ?_⟩
  · rw [prod_pair, product, List.prod_nil, one_mul, mul_one]
  · rw [prod_pair, product, List.prod_nil, one_mul, one_mul, volume]
  · exact iff_of_true (Or.inr rfl) fun misplaced => different misplaced.1

theorem swapsOnce_rewriteReshape (steps : List Step)
    (rewritten : rewriteReshape inputShape outputShape = .some steps) : SwapsOnce inputShape outputShape steps := by
  unfold rewriteReshape at rewritten
  split at rewritten
  · rename_i singleton
    unfold isSingletonTranspose at singleton
    split at singleton
    · cases singleton
    · rename_i filled
      rw [Bool.or_eq_true, not_or, List.isEmpty_iff, List.isEmpty_iff] at filled
      split at singleton
      · cases singleton
      · rename_i same
        rw [not_not] at same
        unfold decomposeSingletonTranspose at rewritten
        split at rewritten
        · rename_i long
          rw [decide_eq_false long, Bool.false_bne, decide_eq_true_iff] at singleton
          cases rewritten
          exact swapsOnce_outputTrailing volume filled.1 filled.2 same long singleton
        · rename_i one
          rw [not_not] at one
          rw [decide_eq_true one, Bool.true_bne, Bool.not_eq_true', decide_eq_false_iff_not] at singleton
          exact swapsOnce_inputTrailing volume filled.1 filled.2 same one singleton steps rewritten
  · split at rewritten
    · rename_i flatten
      unfold needsFlattenAndSwap at flatten
      split at flatten
      · cases flatten
      · split at flatten
        · cases flatten
        · rename_i different
          cases rewritten
          exact swapsOnce_flattenAndSwap volume different
    · cases rewritten

end

end Cases

/-- What replaces a reshape computes it for all contents exactly when the shapes are not misplaced,
and it swaps unit dims only in the same cases. -/
theorem rewriteReshape_reshapes (inputShape outputShape : List Nat) (steps : List Step)
    (positive : ∀ extent ∈ inputShape, 0 < extent) (volume : inputShape.prod = outputShape.prod)
    (rewritten : rewriteReshape inputShape outputShape = some steps) :
    ((∀ (α : Type) (tensor : Tensor α), tensor.shape = inputShape →
        Same (run steps tensor) (tensor.reshape outputShape)) ↔ ¬ Misplaced inputShape outputShape) ∧
      (UnitSwaps inputShape steps ↔ ¬ Misplaced inputShape outputShape) := by
  obtain ⟨front, first, second, rfl, inVolume, outVolume, unit⟩ := swapsOnce_rewriteReshape volume steps rewritten
  rw [← unit]
  refine ⟨⟨?_, ?_⟩, unitSwaps_swapChain front first second outputShape inputShape⟩
  · intro reshapes
    by_contra neither
    push Not at neither
    have total : 0 < (front ++ [first, second]).prod := by
      rw [← inVolume]
      exact List.prod_pos_iff_forall_pos_nat.mpr positive
    have extents := List.prod_pos_iff_forall_pos_nat.mp total
    have frontPositive : 0 < front.prod :=
      List.prod_pos_iff_forall_pos_nat.mpr fun extent member => extents extent (List.mem_append_left _ member)
    have firstPositive := extents first (by simp)
    have secondPositive := extents second (by simp)
    exact swapChain_moves front first second outputShape inputShape inVolume outVolume frontPositive (by omega)
      (by omega) (reshapes Nat (positions inputShape) rfl)
  · rintro one α tensor rfl
    exact swapChain_reshapes front first second outputShape tensor outVolume one

theorem rewriteReshape_reshapes_column :
    Same (run [.permute [1, 0] [128, 1]] (positions [1, 128])) ((positions [1, 128]).reshape [128, 1]) :=
  (rewriteReshape_reshapes [1, 128] [128, 1] [.permute [1, 0] [128, 1]] (by decide) (by decide) (by decide)).1.mpr
    (by
      rintro ⟨_, ⟨⟨_, wide, _⟩, _⟩ | ⟨⟨_, _, one⟩, _⟩⟩
      · exact absurd wide (by decide)
      · exact absurd one (by decide)) Nat (positions [1, 128]) rfl

/-- Two trailing unit dims: the last two dims of the input are transposed. -/
theorem trailing_ones_transposed :
    ¬ ∀ (inputShape outputShape : List Nat) (steps : List Step), (∀ extent ∈ inputShape, 0 < extent) →
      inputShape.prod = outputShape.prod → rewriteReshape inputShape outputShape = some steps →
        ∀ tensor : Tensor Nat, tensor.shape = inputShape →
          Same (run steps tensor) (tensor.reshape outputShape) := by
  intro faithful
  have same := faithful [2, 3] [2, 3, 1, 1] [.permute [1, 0] [3, 2], .reshape [2, 3, 1, 1]] (by decide) (by decide)
    (by decide) (positions [2, 3]) rfl
  have entry := same.2 [0, 1, 0, 0] (by unfold Inside; simp [run, Step.apply, reshape])
  exact absurd entry (by decide)

end TtMlir.Ttir.ComplexReshape
