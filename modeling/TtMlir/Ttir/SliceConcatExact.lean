import Mathlib.Algebra.BigOperators.Ring.List
import TtMlir.Ttir.CommuteSlice

/-!
Exactly when commuting a permute or a reshape through a slice or a concat gives
ops that verify and compute the same tensor.
-/

namespace TtMlir.Ttir.SliceConcat

open Tensor
open ReduceCommute (Tm Direction normalized)

section FromRight

theorem fromRight_append (left right : List Nat) (i : Nat) (inside : i < right.length) :
    fromRight (left ++ right) i = right.getD (right.length - 1 - i) 0 := by
  rw [fromRight, List.length_append, List.getD_append_right _ _ _ _ (by omega)]
  congr 1
  omega

theorem fromRight_front (left right : List Nat) (i : Nat) (beyond : right.length ≤ i)
    (inside : i < left.length + right.length) :
    fromRight (left ++ right) i = left.getD (left.length + right.length - 1 - i) 0 := by
  rw [fromRight, List.length_append, List.getD_append _ _ _ _ (by omega)]

theorem tail_ext (left right left' right' : List Nat) (length : right.length = right'.length)
    (same : ∀ i < right.length, fromRight (left ++ right) i = fromRight (left' ++ right') i) : right = right' := by
  apply ext_getD 0 length
  intro position inside
  have entry := same (right.length - 1 - position) (by omega)
  rw [fromRight_append _ _ _ (by omega), fromRight_append _ _ _ (by omega), ← length] at entry
  rwa [show right.length - 1 - (right.length - 1 - position) = position by omega] at entry

theorem split_tail {β : Type} (values : List β) (size : Nat) (room : size ≤ values.length) :
    ∃ left right, values = left ++ right ∧ right.length = size :=
  ⟨values.take (values.length - size), values.drop (values.length - size), (List.take_append_drop _ _).symm, by
    rw [List.length_drop]
    omega⟩

theorem getRightmostReshapeDimRTL_spec {inputShape outputShape : List Nat} {rightmost : Nat}
    (found : getRightmostReshapeDimRTL inputShape outputShape = some rightmost) :
    rightmost ≤ inputShape.length ∧ rightmost ≤ outputShape.length ∧
      ∀ i < rightmost, fromRight inputShape i = fromRight outputShape i := by
  unfold getRightmostReshapeDimRTL at found
  dsimp only at found
  split at found
  next i changed =>
    cases found
    obtain ⟨-, inside, before⟩ := List.find?_range_eq_some.mp changed
    have known := List.mem_range.mp inside
    exact ⟨by omega, by omega, fun i below => by simpa using before i below⟩
  next unchanged =>
    split at found
    · cases found
    · cases found
      rw [List.find?_eq_none] at unchanged
      refine ⟨Nat.min_le_left _ _, Nat.min_le_right _ _, fun i below => ?_⟩
      simpa using unchanged i (List.mem_range.mpr below)

theorem getLeftmostSlicedDimRTL_spec {attrs : List SliceDim} {inputShape : List Nat} {leftmost : Nat}
    (length : attrs.length = inputShape.length) (found : getLeftmostSlicedDimRTL attrs inputShape = some leftmost) :
    ∃ front back left right, attrs = front ++ back ∧ inputShape = left ++ right ∧ back.length = leftmost + 1 ∧
      right.length = leftmost + 1 ∧ Unsliced front left := by
  obtain ⟨first, here, rfl⟩ := Option.map_eq_some_iff.mp found
  obtain ⟨-, inside, before⟩ := List.find?_range_eq_some.mp here
  have known := List.mem_range.mp inside
  refine ⟨attrs.take first, attrs.drop first, inputShape.take first, inputShape.drop first,
    (List.take_append_drop _ _).symm, (List.take_append_drop _ _).symm, ?_, ?_, ?_⟩
  · rw [List.length_drop]
    omega
  · rw [List.length_drop]
    omega
  · refine List.forall₂_iff_get.mpr ⟨by rw [List.length_take, List.length_take, length], fun dim dimKnown _ => ?_⟩
    rw [List.length_take] at dimKnown
    have whole := before dim (by omega)
    rw [List.getD_eq_getElem _ _ (by omega), List.getD_eq_getElem _ _ (by omega)] at whole
    simpa using whole

theorem createReshapedSliceStaticOp_eq (front back : List SliceDim) (left right : List Nat) (shape sliced : List Nat)
    (size : Nat) (backLength : back.length = size + 1) (rightLength : right.length = size + 1)
    (slicedLength : sliced.length = size + 1) (frontLength : front.length = left.length) :
    createReshapedSliceStaticOp (front ++ back) (left ++ sliced) (shape ++ right) size =
      .slice (wholeDims shape ++ back) (shape ++ sliced) := by
  unfold createReshapedSliceStaticOp
  have total : (shape ++ right).length = shape.length + (size + 1) := by rw [List.length_append, rightLength]
  have attrsTotal : (front ++ back).length = front.length + (size + 1) := by rw [List.length_append, backLength]
  simp only [total, attrsTotal]
  congr 1
  · apply List.ext_getElem
    · simp [wholeDims, backLength]
    · intro dim here _
      rw [List.length_map, List.length_range] at here
      rw [List.getElem_map, List.getElem_range, List.getElem_append]
      split
      next behind =>
        rw [dif_pos (by simp [wholeDims]; omega)]
        simp only [wholeDims, List.getElem_map]
        rw [List.getD_append _ _ _ _ (by omega), List.getD_eq_getElem]
      next kept =>
        rw [dif_neg (by simp [wholeDims]; omega), List.getD_append_right _ _ _ _ (by omega),
          List.getD_eq_getElem _ _ (by omega)]
        simp only [wholeDims, List.length_map]
        congr 1
        omega
  · apply List.ext_getElem
    · simp [slicedLength]
    · intro dim here _
      rw [List.length_map, List.length_range] at here
      rw [List.getElem_map, List.getElem_range, List.getElem_append]
      split
      next behind =>
        rw [dif_pos (by omega), List.getD_append _ _ _ _ (by omega), List.getD_eq_getElem]
      next kept =>
        rw [dif_neg (by omega), List.getD_append_right _ _ _ _ (by omega), List.getD_eq_getElem _ _ (by omega)]
        congr 1
        omega

/-- The new reshape changes the leading dims as before and keeps what is sliced below it. -/
theorem createDeslicedReshapeOp_eq (left right target sliced : List Nat) (rightmost : Nat)
    (length : right.length = sliced.length) (order : right.length ≤ rightmost)
    (leftRoom : rightmost ≤ (left ++ right).length)
    (same : ∀ i < rightmost, fromRight (left ++ sliced) i = fromRight (target ++ sliced) i) :
    createDeslicedReshapeOp (left ++ right) (target ++ sliced) rightmost = target ++ right := by
  unfold createDeslicedReshapeOp
  have total : (target ++ sliced).length = target.length + right.length := by rw [List.length_append, length]
  simp only [total]
  apply ext_getD 0
  · simp
  · intro dim here
    rw [List.length_map, List.length_range] at here
    rw [List.getD_eq_getElem _ _ (by simpa using here), List.getElem_map, List.getElem_range]
    rw [List.length_append] at leftRoom
    by_cases leading : dim < target.length
    · rw [List.getD_append _ _ _ _ leading, List.getD_append _ _ _ _ leading]
      split
      next kept =>
        have entry := same _ kept
        rw [fromRight_front _ _ _ (by omega) (by omega), fromRight_front _ _ _ (by omega) (by omega), ← length,
          show target.length + right.length - 1 - (target.length + right.length - 1 - dim) = dim by omega] at entry
        rw [fromRight_front _ _ _ (by omega) (by omega), entry]
      next changed => rfl
    · rw [if_pos (by omega), fromRight_append _ _ _ (by omega), List.getD_append_right _ _ _ _ (by omega)]
      congr 1
      omega

end FromRight

section Verify
variable (count : Nat) (shapes : Nat → List Nat)

/-- The dims left of the leftmost sliced one keep their volume, or the slice's input is empty in
another one. -/
def HoldsWhen (direction : Direction) (tm : Tm) (op : Through) : Prop :=
  match direction, tm, op with
  | .upwards, .reshape target, .slice attrs outputShape =>
      ∀ leftmost, getLeftmostSlicedDimRTL attrs (shapes 0) = some leftmost →
        (outputShape.take (outputShape.length - (leftmost + 1))).prod =
            (target.take (target.length - (leftmost + 1))).prod ∨
          0 ∈ (shapes 0).drop ((shapes 0).length - (leftmost + 1))
  | _, _, _ => True

end Verify

section Slices
variable {count : Nat} {shapes : Nat → List Nat} {isTm : Nat → Bool}

theorem original_upwards_verify {tm : Tm} {op : Through} (valid : (original .upwards isTm tm op).Verify count shapes) :
    op.verify count shapes ∧ Tm.verify tm op.outputShape := ⟨valid.2.1, valid.2.2 tm rfl⟩

theorem permute_above_slice {permutation : List Nat} {attrs : List SliceDim} {outputShape : List Nat} {new : Ops}
    (valid : (original .upwards isTm (.permute permutation) (.slice attrs outputShape)).Verify count shapes)
    (rewrites : performCommuteUpwardsRewrite shapes (.permute permutation) (.slice attrs outputShape) = some new) :
    Preserves .upwards isTm (.permute permutation) (.slice attrs outputShape) count shapes new := by
  obtain rfl := Option.some.inj rewrites
  obtain ⟨⟨rfl, rank, verified, rfl⟩, permutes⟩ := original_upwards_verify valid
  have length : attrs.length = (shapes 0).length := List.Forall₂.length_eq verified
  change Permutes (slicedShape attrs (shapes 0)).length permutation at permutes
  rw [slicedShape_length length] at permutes
  have below : ∀ axis ∈ permutation, axis < (shapes 0).length := fun axis => (permutes.mem axis).mp
  constructor
  · refine ⟨?_, ⟨rfl, ?_, verifiedDims_applyPermutation verified below, ?_⟩, fun tm impossible => by cases impossible⟩
    · rintro number single tm ⟨⟩
      obtain rfl : number = 0 := by omega
      exact permutes
    · change 0 < (gather (shapes 0) permutation).length
      rwa [gather_length, permutes.length]
    · exact (slicedShape_applyPermutation length below).symm
  · intro α inputs known
    have shape := known 0 Nat.one_pos
    exact slice_permute (inputs 0) (by rw [shape, length]) (by rwa [shape])

theorem downwards_some {tm : Tm} {op : Through} {new : Ops}
    (rewrites : commute count shapes .downwards isTm tm op = some new) :
    (∃ number < count, isTm number = true) ∧ performCommuteDownwardsRewrite shapes isTm tm op = some new := by
  rw [commute, Option.ite_none_right_eq_some, List.any_eq_true] at rewrites
  obtain ⟨⟨number, member, marked⟩, done⟩ := rewrites
  exact ⟨⟨number, List.mem_range.mp member, marked⟩, done⟩

theorem original_downwards_slice {tm : Tm} {attrs : List SliceDim} {outputShape : List Nat}
    (marked : ∃ number < count, isTm number = true)
    (valid : (original .downwards isTm tm (.slice attrs outputShape)).Verify count shapes) :
    count = 1 ∧ isTm 0 = true ∧ Tm.verify tm (shapes 0) ∧ 0 < (Tm.outputShape tm (shapes 0)).length ∧
      VerifiedDims attrs (Tm.outputShape tm (shapes 0)) ∧
        outputShape = slicedShape attrs (Tm.outputShape tm (shapes 0)) := by
  obtain ⟨tms, ⟨rfl, rank, verified, same⟩, -⟩ := valid
  obtain ⟨number, single, here⟩ := marked
  obtain rfl : number = 0 := by omega
  have above : (original .downwards isTm tm (.slice attrs outputShape)).above 0 = some tm := if_pos here
  have operand : (original .downwards isTm tm (.slice attrs outputShape)).operandShape shapes 0 =
      Tm.outputShape tm (shapes 0) := by rw [Ops.operandShape, above]; rfl
  rw [operand] at rank verified same
  exact ⟨rfl, here, tms 0 Nat.one_pos tm above, rank, verified, same⟩

theorem original_downwards_slice_run {α : Type} {tm : Tm} {attrs : List SliceDim} {outputShape : List Nat}
    (marked : isTm 0 = true) (inputs : Nat → Tensor α) :
    (original .downwards isTm tm (.slice attrs outputShape)).run count inputs =
      sliceStatic attrs (Tm.run tm (inputs 0)) := by
  change sliceStatic attrs (optional Tm.run (if isTm 0 then some tm else none) (inputs 0)) = _
  rw [if_pos marked]
  rfl

theorem permute_below_slice {permutation : List Nat} {attrs : List SliceDim} {outputShape : List Nat} {new : Ops}
    (valid : (original .downwards isTm (.permute permutation) (.slice attrs outputShape)).Verify count shapes)
    (rewrites : commute count shapes .downwards isTm (.permute permutation) (.slice attrs outputShape) = some new) :
    Preserves .downwards isTm (.permute permutation) (.slice attrs outputShape) count shapes new := by
  obtain ⟨marked, done⟩ := downwards_some rewrites
  obtain rfl := Option.some.inj done
  obtain ⟨rfl, here, permutes, rank, verified, rfl⟩ := original_downwards_slice marked valid
  change Permutes (shapes 0).length permutation at permutes
  simp only [Tm.outputShape] at rank verified
  have length : attrs.length = (shapes 0).length := by
    rw [List.Forall₂.length_eq verified, gather_length, permutes.length]
  have back : gather (gather (shapes 0) permutation) (inverse permutation) = shapes 0 := by
    rw [gather_gather _ _ _ fun axis member => by rw [permutes.length]; exact (permutes.inverse.mem axis).mp member,
      gather_inverse permutes, gather_range]
  have below : ∀ axis ∈ inverse permutation, axis < (gather (shapes 0) permutation).length := fun axis member => by
    rw [gather_length, permutes.length]
    exact (permutes.inverse.mem axis).mp member
  have moved := verifiedDims_applyPermutation verified below
  have movedShape := slicedShape_applyPermutation (List.Forall₂.length_eq verified) below
  rw [back] at moved movedShape
  have outLength : (gather (slicedShape attrs (gather (shapes 0) permutation)) (inverse permutation)).length =
      (shapes 0).length := by rw [gather_length, inverse_length, permutes.length]
  constructor
  · refine ⟨fun number _ tm impossible => (by cases impossible), ⟨rfl, ?_, moved, movedShape.symm⟩, ?_⟩
    · change 0 < (shapes 0).length
      rwa [gather_length, permutes.length] at rank
    · rintro tm ⟨⟩
      change Permutes (gather (slicedShape attrs (gather (shapes 0) permutation))
        (inverse permutation)).length permutation
      rwa [outLength]
  · intro α inputs known
    have shape := known 0 Nat.one_pos
    rw [original_downwards_slice_run here]
    have lengths : (applyPermutation attrs (inverse permutation)).length = (inputs 0).shape.length := by
      rw [applyPermutation_length, inverse_length, permutes.length, shape]
    have same := slice_permute (inputs 0) lengths (by rwa [shape])
    rw [applyPermutation_inverse attrs (by rwa [length])] at same
    exact same.symm

theorem shared_tail {left right other : List Nat} {rightmost : Nat} (order : right.length ≤ rightmost)
    (room : rightmost ≤ other.length) (same : ∀ i < rightmost, fromRight (left ++ right) i = fromRight other i) :
    ∃ target, other = target ++ right := by
  obtain ⟨target, tail, rfl, length⟩ := split_tail other right.length (by omega)
  exact ⟨target, by rw [tail_ext left right target tail length.symm fun i inside => same i (by omega)]⟩

theorem reshapeSliceDims_eq {attrs : List SliceDim} {sliceInput reshapeInput reshapeOutput : List Nat}
    {dims : Nat × Nat}
    (found : reshapeSliceDims attrs sliceInput reshapeInput reshapeOutput = some dims) :
    getRightmostReshapeDimRTL reshapeInput reshapeOutput = some dims.1 ∧
      getLeftmostSlicedDimRTL attrs sliceInput = some dims.2 ∧ dims.2 < dims.1 := by
  unfold reshapeSliceDims at found
  split at found
  next rightmost leftmost first second =>
    rw [Option.ite_none_right_eq_some] at found
    obtain ⟨order, same⟩ := found
    cases same
    exact ⟨first, second, order⟩
  next => cases found

theorem take_front (left right : List Nat) : (left ++ right).take ((left ++ right).length - right.length) = left := by
  rw [List.length_append, Nat.add_sub_cancel, List.take_left]

theorem drop_back (left right : List Nat) : (left ++ right).drop ((left ++ right).length - right.length) = right := by
  rw [List.length_append, Nat.add_sub_cancel, List.drop_left]

theorem volume_iff (left target right : List Nat) :
    (left ++ right).prod = (target ++ right).prod ↔ left.prod = target.prod ∨ 0 ∈ right := by
  rw [List.prod_append, List.prod_append, mul_eq_mul_right_iff, List.prod_eq_zero_iff]

theorem verifiedDims_back {front back : List SliceDim} {left right : List Nat} (length : front.length = left.length)
    (verified : VerifiedDims (front ++ back) (left ++ right)) : VerifiedDims back right := by
  have behind := List.forall₂_drop_append _ left right verified
  rwa [← length, List.drop_left] at behind

theorem verifiedDims_append {front back : List SliceDim} {left right : List Nat} (whole : Unsliced front left)
    (verified : VerifiedDims back right) : VerifiedDims (front ++ back) (left ++ right) :=
  List.rel_append whole.verified verified

theorem reshape_above_slice {target : List Nat} {attrs : List SliceDim} {outputShape : List Nat} {new : Ops}
    (valid : (original .upwards isTm (.reshape target) (.slice attrs outputShape)).Verify count shapes)
    (rewrites : performCommuteUpwardsRewrite shapes (.reshape target) (.slice attrs outputShape) = some new) :
    Preserves .upwards isTm (.reshape target) (.slice attrs outputShape) count shapes new ↔
      HoldsWhen shapes .upwards (.reshape target) (.slice attrs outputShape) := by
  obtain ⟨⟨rfl, rank, verified, rfl⟩, volume⟩ := original_upwards_verify valid
  simp only [performCommuteUpwardsRewrite, Option.ite_none_left_eq_some, Option.map_eq_some_iff] at rewrites
  obtain ⟨-, ⟨rightmost, leftmost⟩, found, rfl⟩ := rewrites
  obtain ⟨rightmostFound, leftmostFound, order⟩ := reshapeSliceDims_eq found
  obtain ⟨outRoom, targetRoom, same⟩ := getRightmostReshapeDimRTL_spec rightmostFound
  obtain ⟨front, back, left, right, rfl, shapeEq, backLength, rightLength, whole⟩ :=
    getLeftmostSlicedDimRTL_spec (List.Forall₂.length_eq verified) leftmostFound
  have frontLength := List.Forall₂.length_eq whole
  have slicedLength : (slicedShape back right).length = right.length :=
    slicedShape_length (backLength.trans rightLength.symm)
  have sliced : slicedShape (front ++ back) (shapes 0) = left ++ slicedShape back right := by
    rw [shapeEq, slicedShape_append _ _ _ _ frontLength, whole.shape]
  rw [shapeEq] at verified
  have backVerified := verifiedDims_back frontLength verified
  rw [sliced] at same outRoom ⊢
  obtain ⟨other, rfl⟩ := shared_tail (by omega) targetRoom same
  have deslicedEq : createDeslicedReshapeOp (shapes 0) (other ++ slicedShape back right) rightmost = other ++ right := by
    rw [shapeEq]
    exact createDeslicedReshapeOp_eq left right other _ rightmost slicedLength.symm (by omega)
      (by simpa [slicedLength] using outRoom) same
  have newSlice := createReshapedSliceStaticOp_eq front back left right other _ leftmost backLength rightLength
    (slicedLength.trans rightLength) frontLength
  dsimp only
  rw [deslicedEq, newSlice]
  -- only the volume of the dims in front of the slice is left to compare
  have condition : HoldsWhen shapes .upwards (.reshape (other ++ slicedShape back right))
      (.slice (front ++ back) (left ++ slicedShape back right)) ↔ (shapes 0).prod = (other ++ right).prod := by
    simp only [HoldsWhen]
    rw [leftmostFound, shapeEq, volume_iff]
    simp only [Option.some.injEq, forall_eq']
    rw [← rightLength, drop_back, ← slicedLength, take_front, take_front]
  rw [condition]
  constructor
  · intro preserves
    exact preserves.verified.1 0 Nat.one_pos _ rfl
  · intro newVolume
    constructor
    · refine ⟨?_, ⟨rfl, ?_, verifiedDims_append (wholeDims_unsliced other) backVerified, ?_⟩, fun tm impossible => ?_⟩
      · rintro number single tm ⟨⟩
        obtain rfl : number = 0 := by omega
        exact newVolume
      · change 0 < (other ++ right).length
        rw [List.length_append]
        omega
      · change _ = slicedShape _ (other ++ right)
        rw [slicedShape_append _ _ _ _ (List.Forall₂.length_eq (wholeDims_unsliced other)),
          (wholeDims_unsliced other).shape]
      · cases impossible
    · intro α inputs known
      have shape := known 0 Nat.one_pos
      exact slice_reshape (inputs 0) (shape.trans shapeEq) whole (wholeDims_unsliced other) backVerified

theorem reshape_below_slice {mid : List Nat} {attrs : List SliceDim} {outputShape : List Nat} {new : Ops}
    (valid : (original .downwards isTm (.reshape mid) (.slice attrs outputShape)).Verify count shapes)
    (rewrites : commute count shapes .downwards isTm (.reshape mid) (.slice attrs outputShape) = some new) :
    Preserves .downwards isTm (.reshape mid) (.slice attrs outputShape) count shapes new := by
  obtain ⟨marked, done⟩ := downwards_some rewrites
  obtain ⟨rfl, here, volume, rank, verified, rfl⟩ := original_downwards_slice marked valid
  simp only [Tm.outputShape] at rank verified
  simp only [performCommuteDownwardsRewrite, Tm.outputShape, Option.ite_none_left_eq_some, Option.map_eq_some_iff]
    at done
  obtain ⟨-, ⟨rightmost, leftmost⟩, found, rfl⟩ := done
  obtain ⟨rightmostFound, leftmostFound, order⟩ := reshapeSliceDims_eq found
  obtain ⟨inRoom, midRoom, same⟩ := getRightmostReshapeDimRTL_spec rightmostFound
  obtain ⟨front, back, left, right, rfl, rfl, backLength, rightLength, whole⟩ :=
    getLeftmostSlicedDimRTL_spec (List.Forall₂.length_eq verified) leftmostFound
  have frontLength := List.Forall₂.length_eq whole
  have slicedLength : (slicedShape back right).length = right.length :=
    slicedShape_length (backLength.trans rightLength.symm)
  have sliced : slicedShape (front ++ back) (left ++ right) = left ++ slicedShape back right := by
    rw [slicedShape_append _ _ _ _ frontLength, whole.shape]
  have backVerified := verifiedDims_back frontLength verified
  obtain ⟨other, inputEq⟩ := shared_tail (by omega) inRoom fun i below => (same i below).symm
  have newSlice := createReshapedSliceStaticOp_eq front back left right other _ leftmost backLength rightLength
    (slicedLength.trans rightLength) frontLength
  have newSliced : slicedShape (wholeDims other ++ back) (other ++ right) = other ++ slicedShape back right := by
    rw [slicedShape_append _ _ _ _ (List.Forall₂.length_eq (wholeDims_unsliced other)),
      (wholeDims_unsliced other).shape]
  dsimp only
  rw [sliced, inputEq, newSlice]
  constructor
  · refine ⟨fun number _ tm impossible => (by cases impossible), ⟨rfl, ?_, ?_, ?_⟩, ?_⟩
    · change 0 < (shapes 0).length
      rw [inputEq, List.length_append]
      omega
    · change VerifiedDims _ (shapes 0)
      rw [inputEq]
      exact verifiedDims_append (wholeDims_unsliced other) backVerified
    · change _ = slicedShape _ (shapes 0)
      rw [inputEq, newSliced]
    · rintro tm ⟨⟩
      -- an input that is empty behind is sliced to an empty result
      change (other ++ slicedShape back right).prod = (left ++ slicedShape back right).prod
      change (shapes 0).prod = (left ++ right).prod at volume
      rw [inputEq, volume_iff] at volume
      rw [volume_iff]
      exact volume.imp_right (slicedShape_empty backVerified)
  · intro α inputs known
    have shape := (known 0 Nat.one_pos).trans inputEq
    rw [original_downwards_slice_run here]
    exact (slice_reshape (inputs 0) shape (wholeDims_unsliced other) whole backVerified).symm

end Slices

section Concats
variable {count : Nat} {shapes : Nat → List Nat} {isTm : Nat → Bool}

theorem concatDim_natural (dim rank : Nat) : concatDim (dim : Nat) rank = dim := by
  unfold concatDim normalized
  rw [if_neg (by omega), Int.toNat_natCast]

theorem stackable_permute {axes : List Nat} {dim : Nat} (stackable : Stackable count shapes dim)
    (permutes : Permutes (shapes 0).length axes) :
    Stackable count (fun number => gather (shapes number) axes) (axes.idxOf dim) ∧
      stackedExtent count (fun number => gather (shapes number) axes)
        (axes.idxOf dim) = stackedExtent count shapes dim := by
  have located := permutes.idxOf_lt dim stackable.1
  have entry : ∀ number, (gather (shapes number) axes).getD (axes.idxOf dim) 0 =
      (shapes number).getD dim 0 := fun number => by
    rw [gather_getD _ _ _ (by rwa [permutes.length]), permutes.getD_idxOf dim stackable.1]
  refine ⟨⟨?_, fun number below => ?_⟩, stackedExtent_congr count _ _ _ _ fun number _ => entry number⟩
  · rwa [gather_length, permutes.length]
  · rw [entry, ← gather_set permutes _ rfl dim _ stackable.1, ← stackable.2 number below]

theorem concat_verify_permute {axes : List Nat} {dim : Nat} (positive : 0 < count)
    (stackable : Stackable count shapes dim)
    (permutes : Permutes (shapes 0).length axes) :
    (Through.concat (axes.idxOf dim : Nat)
      (gather ((shapes 0).set dim (stackedExtent count shapes dim)) axes)).verify count
      fun number => gather (shapes number) axes := by
  obtain ⟨stackable', total⟩ := stackable_permute stackable permutes
  refine ⟨positive, by omega, ?_, ?_⟩
  · rwa [concatDim_natural]
  · rw [concatDim_natural, total, gather_set permutes _ rfl dim _ stackable.1]

theorem permute_above_concat {permutation : List Nat} {dim : Int} {outputShape : List Nat} {new : Ops}
    (valid : (original .upwards isTm (.permute permutation) (.concat dim outputShape)).Verify count shapes)
    (rewrites : performCommuteUpwardsRewrite shapes (.permute permutation) (.concat dim outputShape) = some new) :
    Preserves .upwards isTm (.permute permutation) (.concat dim outputShape) count shapes new := by
  obtain rfl := Option.some.inj rewrites
  obtain ⟨⟨positive, -, stackable, rfl⟩, permutes⟩ := original_upwards_verify valid
  change Permutes ((shapes 0).set _ _).length permutation at permutes
  rw [List.length_set] at permutes
  rw [List.length_set]
  constructor
  · refine ⟨?_, concat_verify_permute positive stackable permutes, fun tm impossible => (by cases impossible)⟩
    rintro number below tm ⟨⟩
    change Permutes (shapes number).length permutation
    rwa [stackable.length number below]
  · intro α inputs known
    have sizes : ∀ number < count, (inputs number).shape = shapes number := known
    have stacked : Stackable count (fun number => (inputs number).shape) (concatDim dim (shapes 0).length) :=
      stackable.congr positive sizes
    have same := concat_permute count inputs _ stacked (by rwa [sizes 0 positive])
    change Same (concat count (fun number => (inputs number).permute permutation)
      (concatDim (permutation.idxOf _ : Nat) _))
      ((concat count inputs (concatDim dim (inputs 0).shape.length)).permute permutation)
    rw [concatDim_natural, sizes 0 positive]
    exact same

theorem gather_back {axes shape : List Nat} (permutes : Permutes shape.length axes) :
    gather (gather shape axes) (inverse axes) = shape ∧ gather (gather shape (inverse axes)) axes = shape := by
  constructor
  · rw [gather_gather _ _ _ fun axis member => by rw [permutes.length]; exact (permutes.inverse.mem axis).mp member,
      gather_inverse permutes, gather_range]
  · rw [gather_gather _ _ _ fun axis member => by
        rw [inverse_length, permutes.length]
        exact (permutes.mem axis).mp member,
      inverse_gather permutes, gather_range]

theorem idxOf_inverse {rank : Nat} {axes : List Nat} (permutes : Permutes rank axes) (dim : Nat) (known : dim < rank) :
    (inverse axes).idxOf dim = axes.getD dim 0 := by
  have place := permutes.getD_lt dim known
  have back := permutes.inverse.idxOf_getD (axes.getD dim 0) place
  rwa [inverse_getD permutes _ place, permutes.idxOf_getD dim known] at back

theorem concat_verify_congr {dim : Int} {outputShape : List Nat} {left right : Nat → List Nat}
    (verified : (Through.concat dim outputShape).verify count left)
    (same : ∀ number < count, right number = left number) :
    (Through.concat dim outputShape).verify count right := by
  obtain ⟨positive, bound, stackable, shape⟩ := verified
  have first := same 0 positive
  refine ⟨positive, by rwa [first], by rw [first]; exact stackable.congr positive same, ?_⟩
  rw [shape, first, stackedExtent_congr count right left _ _ fun number below => by rw [same number below]]

def permutedOperands (isTm : Nat → Bool) (permutation : List Nat) (shapes : Nat → List Nat) (number : Nat) : List Nat :=
  if isTm number then gather (shapes number) permutation else shapes number

theorem operandShape_downwards (permutation : List Nat) (op : Through) :
    (original .downwards isTm (.permute permutation) op).operandShape shapes =
      permutedOperands isTm permutation shapes := by
  funext number
  change optional Tm.outputShape (if isTm number then some (.permute permutation) else none) (shapes number) = _
  unfold permutedOperands
  split <;> rfl

theorem permute_below_operand {permutation : List Nat} {number : Nat}
    (marked : isTm number = true → Permutes (shapes number).length permutation) :
    gather (permutedOperands isTm permutation shapes number) (inverse permutation) =
      optional Tm.outputShape (if isTm number then none else some (.permute (inverse permutation)))
        (shapes number) := by
  unfold permutedOperands at *
  split
  next here => exact (gather_back (marked here)).1
  next => rfl

theorem permute_below_value {α : Type} {permutation : List Nat} {number : Nat} (tensor : Tensor α)
    (permutes : isTm number = false → Permutes tensor.shape.length permutation) :
    Same (optional Tm.run (if isTm number then some (.permute permutation) else none) tensor)
      ((optional Tm.run (if isTm number then none else some
        (.permute (inverse permutation))) tensor).permute permutation) := by
  cases here : isTm number with
  | true => exact Same.refl _
  | false =>
      have valid := permutes here
      change Same tensor ((tensor.permute (inverse permutation)).permute permutation)
      rw [permute_permute tensor valid.inverse valid, inverse_gather valid]
      exact (permute_range tensor).symm

theorem optional_shape {α : Type} (tm : Option Tm) (tensor : Tensor α) :
    (optional Tm.run tm tensor).shape = optional Tm.outputShape tm tensor.shape := by
  match tm with
  | none => rfl
  | some (.permute _) => rfl
  | some (.reshape _) => rfl

theorem permute_below_concat {permutation : List Nat} {dim : Int} {outputShape : List Nat} {new : Ops}
    (valid : (original .downwards isTm (.permute permutation) (.concat dim outputShape)).Verify count shapes)
    (rewrites : commute count shapes .downwards isTm (.permute permutation) (.concat dim outputShape) = some new) :
    Preserves .downwards isTm (.permute permutation) (.concat dim outputShape) count shapes new := by
  obtain ⟨⟨marked, markedBelow, here⟩, done⟩ := downwards_some rewrites
  obtain rfl := Option.some.inj done
  obtain ⟨tms, verified, -⟩ := valid
  rw [operandShape_downwards] at verified
  obtain ⟨positive, bound, stackable, shapeEq⟩ := verified
  have permutesMarked : ∀ number < count, isTm number = true → Permutes (shapes number).length permutation :=
    fun number below isMarked => tms number below _ (if_pos isMarked)
  have permutes : Permutes (permutedOperands isTm permutation shapes 0).length permutation := by
    rw [← stackable.length marked markedBelow, permutedOperands, if_pos here, gather_length,
      (permutesMarked marked markedBelow here).length]
    exact permutesMarked marked markedBelow here
  have rank : outputShape.length = (permutedOperands isTm permutation shapes 0).length := by
    rw [shapeEq, List.length_set]
  have permutesAll : ∀ number < count, Permutes (permutedOperands isTm permutation shapes number).length permutation :=
    fun number below => by rwa [stackable.length number below]
  -- the concat moves to the axis that the inverse permutation puts there
  have place := idxOf_inverse permutes _ stackable.1
  have newVerified := concat_verify_permute positive stackable permutes.inverse
  rw [place, ← shapeEq, ← rank] at newVerified
  constructor
  · refine ⟨?_, concat_verify_congr newVerified ?_, ?_⟩
    · intro number below tm above
      obtain ⟨unmarked, same⟩ := Option.ite_none_left_eq_some.mp above
      cases same
      have operand := permutesAll number below
      rw [permutedOperands, if_neg unmarked] at operand
      exact operand.inverse
    · intro number below
      exact (permute_below_operand (permutesMarked number below)).symm
    · rintro tm ⟨⟩
      change Permutes (gather outputShape (inverse permutation)).length permutation
      rwa [gather_length, inverse_length, permutes.length]
  · intro α inputs known
    let old (number : Nat) := optional Tm.run (if isTm number then some (.permute permutation) else none)
      (inputs number)
    let next (number : Nat) :=
      optional Tm.run (if isTm number then none else some (.permute (inverse permutation))) (inputs number)
    have oldShapes : ∀ number < count, (old number).shape = permutedOperands isTm permutation shapes number :=
      fun number below => by
        rw [optional_shape, known number below]
        exact congrFun (operandShape_downwards permutation (.concat dim outputShape)) number
    have nextShapes : ∀ number < count, (next number).shape =
        gather (permutedOperands isTm permutation shapes number) (inverse permutation) := fun number below => by
      rw [optional_shape, known number below]
      exact (permute_below_operand (permutesMarked number below)).symm
    -- permuting by the inverse and back changes no operand
    have same : ∀ number < count, Same (old number) ((next number).permute permutation) := fun number below =>
      permute_below_value (inputs number) fun unmarked => by
        have operand := permutesAll number below
        rw [permutedOperands, unmarked] at operand
        rwa [known number below]
    have nextStackable := (stackable_permute stackable permutes.inverse).1.congr positive nextShapes
    have nextRank : (next 0).shape.length = permutation.length := by
      rw [nextShapes 0 positive, gather_length, inverse_length]
    rw [place] at nextStackable
    have joined := concat_congr count old _ _ positive (stackable.congr positive oldShapes) same
    have moved := concat_permute count next _ nextStackable (by rw [nextRank, permutes.length]; exact permutes)
    rw [permutes.idxOf_getD _ stackable.1] at moved
    change Same ((concat count next (concatDim (permutation.getD (concatDim dim outputShape.length) 0 : Nat) _)).permute
      permutation) (concat count old (concatDim dim (old 0).shape.length))
    rw [concatDim_natural, oldShapes 0 positive, rank]
    exact (joined.trans moved).symm

theorem split_dim (shape : List Nat) (dim : Nat) (known : dim < shape.length) :
    ∃ front back, shape = front ++ shape.getD dim 0 :: back ∧ front.length = dim :=
  ⟨shape.take dim, shape.drop (dim + 1), split_getD 0 shape dim known, by rw [List.length_take]; omega⟩

theorem retrieveReshapeUserConcatDim_spec {concatShape target : List Nat} {currentConcatDim newConcatDim : Nat}
    (found : retrieveReshapeUserConcatDim concatShape currentConcatDim target = some newConcatDim) :
    newConcatDim < target.length ∧ target.getD newConcatDim 0 = concatShape.getD currentConcatDim 0 ∧
      (target.take newConcatDim).prod = (concatShape.take currentConcatDim).prod ∧
      (target.drop (newConcatDim + 1)).prod = (concatShape.drop (currentConcatDim + 1)).prod := by
  obtain ⟨matching, inside, -⟩ := List.find?_range_eq_some.mp found
  simp only [Bool.and_eq_true, decide_eq_true_eq] at matching
  exact ⟨List.mem_range.mp inside, matching.1.1, matching.1.2, matching.2⟩

theorem reshape_above_concat {target : List Nat} {dim : Int} {outputShape : List Nat} {new : Ops}
    (valid : (original .upwards isTm (.reshape target) (.concat dim outputShape)).Verify count shapes)
    (rewrites : performCommuteUpwardsRewrite shapes (.reshape target) (.concat dim outputShape) = some new) :
    Preserves .upwards isTm (.reshape target) (.concat dim outputShape) count shapes new := by
  obtain ⟨⟨positive, -, stackable, shapeEq⟩, -⟩ := original_upwards_verify valid
  simp only [performCommuteUpwardsRewrite, Option.ite_none_left_eq_some, Option.map_eq_some_iff] at rewrites
  obtain ⟨-, newConcatDim, found, rfl⟩ := rewrites
  change Stackable count shapes (concatDim dim (shapes 0).length) at stackable
  change outputShape = (shapes 0).set (concatDim dim (shapes 0).length)
    (stackedExtent count shapes (concatDim dim (shapes 0).length)) at shapeEq
  have rank : outputShape.length = (shapes 0).length := by rw [shapeEq, List.length_set]
  rw [rank] at found ⊢
  generalize currentEq : concatDim dim (shapes 0).length = current at *
  obtain ⟨newKnown, extent, frontVolume, backVolume⟩ := retrieveReshapeUserConcatDim_spec found
  -- every operand shape is the same but for the stacked dim
  obtain ⟨front, back, shape0, rfl⟩ := split_dim (shapes 0) current stackable.1
  obtain ⟨front', back', targetEq, rfl⟩ := split_dim target newConcatDim newKnown
  have shapesEq : ∀ number < count, shapes number = front ++ (shapes number).getD front.length 0 :: back :=
    fun number below => by
      rw [← set_middle front back ((shapes 0).getD front.length 0), ← shape0]
      exact stackable.2 number below
  have outEq : outputShape = front ++ stackedExtent count shapes front.length :: back := by
    rw [shapeEq, shape0, set_middle]
  rw [extent, outEq, getD_middle] at targetEq
  have frontPart : ∀ size, (front' ++ size :: back').take front'.length = front' := fun size => List.take_left
  have backPart : ∀ size, (front' ++ size :: back').drop (front'.length + 1) = back' := fun size => by simp
  have outFront : outputShape.take front.length = front := by rw [outEq, List.take_left]
  have outBack : outputShape.drop (front.length + 1) = back := by rw [outEq]; simp
  rw [targetEq, frontPart, outFront] at frontVolume
  rw [targetEq, backPart, outBack] at backVolume
  have operandEq : ∀ number, target.set front'.length ((shapes number).getD front.length 0) =
      front' ++ (shapes number).getD front.length 0 :: back' := fun number => by rw [targetEq, set_middle]
  simp only [operandEq]
  have newStackable : Stackable count
      (fun number => front' ++ (shapes number).getD front.length 0 :: back') front'.length := by
    refine ⟨by simp, fun number _ => ?_⟩
    rw [getD_middle, set_middle]
  -- the reshaped operands stack to the same extent
  have newTotal : stackedExtent count
      (fun number => front' ++ (shapes number).getD front.length 0 :: back') front'.length =
      stackedExtent count shapes front.length :=
    stackedExtent_congr count _ _ _ _ fun number _ => getD_middle _ _ _
  constructor
  · refine ⟨?_, ⟨positive, by omega, ?_, ?_⟩, fun tm impossible => (by cases impossible)⟩
    · rintro number below tm ⟨⟩
      change (shapes number).prod = (front' ++ (shapes number).getD front.length 0 :: back').prod
      conv_lhs => rw [shapesEq number below]
      rw [List.prod_append, List.prod_append, List.prod_cons, List.prod_cons, frontVolume, backVolume]
    · rw [concatDim_natural]
      exact newStackable
    · rw [concatDim_natural]
      change target = (front' ++ (shapes 0).getD front.length 0 :: back').set front'.length (stackedExtent count
        (fun number => front' ++ (shapes number).getD front.length 0 :: back') front'.length)
      rw [set_middle, newTotal]
      exact targetEq
  · intro α inputs known
    have same := concat_reshape front back front' back' count inputs (fun number => (shapes number).getD front.length 0)
      positive (fun number below => (known number below).trans (shapesEq number below)) backVolume.symm
    rw [stackedExtent_congr count (fun number => (inputs number).shape) shapes _ front.length
      fun number below => by rw [known number below], ← targetEq] at same
    change Same (concat count (fun number => (inputs number).reshape
      (front' ++ (shapes number).getD front.length 0 :: back'))
      (concatDim (front'.length : Nat) _)) ((concat count inputs
        (concatDim dim (inputs 0).shape.length)).reshape target)
    rw [concatDim_natural, known 0 positive, currentEq]
    exact same

end Concats

/-- Wherever a pattern rewrites, the new ops verify and compute the same tensor exactly when the condition holds. -/
theorem commute_through_iff (direction : Direction) (isTm : Nat → Bool) (tm : Tm) (op : Through) (count : Nat)
    (shapes : Nat → List Nat) (new : Ops) (valid : (original direction isTm tm op).Verify count shapes)
    (rewrites : commute count shapes direction isTm tm op = some new) :
    Preserves direction isTm tm op count shapes new ↔ HoldsWhen shapes direction tm op := by
  match direction, tm, op with
  | .upwards, .permute _, .slice _ _ => exact iff_of_true (permute_above_slice valid rewrites) trivial
  | .upwards, .reshape _, .slice _ _ => exact reshape_above_slice valid rewrites
  | .upwards, .permute _, .concat _ _ => exact iff_of_true (permute_above_concat valid rewrites) trivial
  | .upwards, .reshape _, .concat _ _ => exact iff_of_true (reshape_above_concat valid rewrites) trivial
  | .downwards, .permute _, .slice _ _ => exact iff_of_true (permute_below_slice valid rewrites) trivial
  | .downwards, .reshape _, .slice _ _ => exact iff_of_true (reshape_below_slice valid rewrites) trivial
  | .downwards, .permute _, .concat _ _ => exact iff_of_true (permute_below_concat valid rewrites) trivial
  | .downwards, .reshape _, .concat _ _ => exact absurd (downwards_some rewrites).2 (by simp [performCommuteDownwardsRewrite])

/-- The first half of the last dim, then the two leading dims merged. -/
theorem commute_through_iff_half :
    let op := Through.slice [⟨0, 2, 1⟩, ⟨0, 3, 1⟩, ⟨-4, 2, 1⟩] [2, 3, 2]
    ∃ new, commute 1 (fun _ => [2, 3, 4]) .upwards (fun _ => false) (.reshape [6, 2]) op = some new ∧
      Preserves .upwards (fun _ => false) (.reshape [6, 2]) op 1 (fun _ => [2, 3, 4]) new := by
  refine ⟨⟨fun _ => some (.reshape [6, 4]), .slice [⟨0, 6, 1⟩, ⟨-4, 2, 1⟩] [6, 2], none⟩, rfl, ?_⟩
  have valid : (original .upwards (fun _ => false) (.reshape [6, 2])
      (.slice [⟨0, 2, 1⟩, ⟨0, 3, 1⟩, ⟨-4, 2, 1⟩] [2, 3, 2])).Verify 1 (fun _ => [2, 3, 4]) :=
    ⟨fun _ _ _ impossible => (by cases impossible), ⟨rfl, by decide, by decide, by decide⟩, by rintro tm ⟨⟩; rfl⟩
  refine (commute_through_iff .upwards _ _ _ 1 _ _ valid rfl).mpr fun leftmost found => ?_
  obtain rfl : 0 = leftmost := Option.some.inj found
  exact Or.inl (by decide)

/-- An empty slice of [2, 3, 4] may be reshaped to [7, 0]; the slice's input cannot be reshaped to [7, 4]. -/
theorem emptySlice_reshape_unverified :
    let op := Through.slice [⟨0, 2, 1⟩, ⟨0, 3, 1⟩, ⟨2, 2, 1⟩] [2, 3, 0]
    (original .upwards (fun _ => false) (.reshape [7, 0]) op).Verify 1 (fun _ => [2, 3, 4]) ∧
      ∃ new, commute 1 (fun _ => [2, 3, 4]) .upwards (fun _ => false) (.reshape [7, 0]) op = some new ∧
        new.above 0 = some (.reshape [7, 4]) ∧
        ¬ Preserves .upwards (fun _ => false) (.reshape [7, 0]) op 1 (fun _ => [2, 3, 4]) new := by
  refine ⟨⟨fun _ _ _ impossible => (by cases impossible), ⟨rfl, by decide, by decide, by decide⟩, by rintro tm ⟨⟩; rfl⟩,
    _, rfl, rfl, fun preserves => ?_⟩
  have volume : [2, 3, 4].prod = [7, 4].prod := preserves.verified.1 0 Nat.one_pos _ rfl
  exact absurd volume (by decide)

end TtMlir.Ttir.SliceConcat
