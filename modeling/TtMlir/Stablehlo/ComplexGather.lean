import TtMlir.Stablehlo.ComplexConversion

/-!
A gather of complex elements and the one that replaces it: the new dim is the last offset dim of
the result and the last kept dim of the operand, and everything else keeps its number.
-/

namespace TtMlir.Stablehlo

theorem getD_front (list : List Nat) (last dim : Nat) (inside : dim < list.length) :
    (list ++ [last]).getD dim 0 = list.getD dim 0 := List.getD_append _ _ _ _ inside

theorem getD_last (list : List Nat) (last : Nat) : (list ++ [last]).getD list.length 0 = last := getD_middle list [] last

theorem forall_dims {count : Nat} {holds : Nat → Prop} (front : ∀ dim < count, holds dim) (last : holds count) :
    ∀ dim < count + 1, holds dim := by
  intro dim inside
  rcases Nat.lt_succ_iff_lt_or_eq.mp inside with before | rfl
  · exact front dim before
  · exact last

theorem gather_before (values axes : List Nat) (last : Nat) (inside : ∀ axis ∈ axes, axis < values.length) :
    gather (values ++ [last]) axes = gather values axes :=
  List.map_congr_left fun axis member => getD_front values last axis (inside axis member)

theorem gather_last (values : List Nat) (last : Nat) : gather (values ++ [last]) [values.length] = [last] :=
  gather_entry values [] last

namespace GatherDimensionNumbers
variable (numbers : GatherDimensionNumbers)

def withTrailing (resultRank : Nat) : GatherDimensionNumbers :=
  { numbers with offsetDims := numbers.offsetDims ++ [resultRank] }

variable {numbers} {operandShape startShape sliceSizes resultShape : List Nat}
  (verified : numbers.Verified operandShape startShape sliceSizes resultShape)
include verified

theorem Verified.rank_notMem_skipped : operandShape.length ∉ numbers.skippedDims :=
  fun member => Nat.lt_irrefl _ (verified.skippedRange _ member)

theorem Verified.rank_notMem_offset : resultShape.length ∉ numbers.offsetDims :=
  fun member => Nat.lt_irrefl _ (verified.offsetRange _ member)

theorem Verified.keptDims_succ : numbers.keptDims (operandShape.length + 1) =
    numbers.keptDims operandShape.length ++ [operandShape.length] := by
  simp [keptDims, List.range_succ, List.filter_append, verified.rank_notMem_skipped]

theorem Verified.keptDims_trailing (rank : Nat) : (numbers.withTrailing rank).keptDims (operandShape ++ [2]).length =
    numbers.keptDims operandShape.length ++ [operandShape.length] := by
  rw [List.length_append, List.length_singleton]
  exact verified.keptDims_succ

omit verified in
theorem keptDims_lt {rank dim : Nat} (member : dim ∈ numbers.keptDims rank) : dim < rank :=
  List.mem_range.mp (List.mem_filter.mp member).1

theorem Verified.keptDims_length : (numbers.keptDims operandShape.length).length = numbers.offsetDims.length := by
  have parts := List.length_eq_length_filter_add (l := List.range operandShape.length) (decide <| · ∈ numbers.skippedDims)
  have skipped : ((List.range operandShape.length).filter (decide <| · ∈ numbers.skippedDims)).Perm
      numbers.skippedDims := by
    refine (List.perm_ext_iff_of_nodup (List.nodup_range.filter _) verified.skippedUnique).mpr fun dim => ?_
    rw [List.mem_filter, List.mem_range, decide_eq_true_eq]
    exact ⟨And.right, fun member => ⟨verified.skippedRange dim member, member⟩⟩
  have count : numbers.skippedDims.length = numbers.collapsedSliceDims.length + numbers.operandBatchingDims.length :=
    List.length_append
  have kept : numbers.keptDims operandShape.length =
      (List.range operandShape.length).filter fun dim => !decide (dim ∈ numbers.skippedDims) := by
    simp [keptDims]
  have rank := verified.operandRank
  rw [List.length_range, skipped.length_eq, ← kept, count] at parts
  omega

omit verified in
theorem mem_withTrailing {rank dim : Nat} (inside : dim < rank) :
    dim ∈ (numbers.withTrailing rank).offsetDims ↔ dim ∈ numbers.offsetDims := by
  have differs : dim ≠ rank := Nat.ne_of_lt inside
  simp [withTrailing, differs]

omit verified in
theorem batchDims_succ (rank : Nat) : (numbers.withTrailing rank).batchDims (rank + 1) = numbers.batchDims rank := by
  have before : ∀ dim ∈ List.range rank, decide (dim ∉ (numbers.withTrailing rank).offsetDims) =
      decide (dim ∉ numbers.offsetDims) := fun dim member => by
    simp [mem_withTrailing (List.mem_range.mp member)]
  have new : rank ∈ (numbers.withTrailing rank).offsetDims := List.mem_append_right _ List.mem_cons_self
  rw [batchDims, batchDims, List.range_succ, List.filter_append, List.filter_congr before]
  simp [new]

omit verified in
theorem batchDims_lt {rank dim : Nat} (member : dim ∈ numbers.batchDims rank) : dim < rank :=
  List.mem_range.mp (List.mem_filter.mp member).1

theorem Verified.offsetSizes_succ :
    gather (sliceSizes ++ [2]) (numbers.keptDims (sliceSizes ++ [2]).length) =
      gather sliceSizes (numbers.keptDims sliceSizes.length) ++ [2] := by
  have kept := verified.keptDims_succ
  rw [← verified.sizesRank] at kept
  rw [List.length_append, List.length_singleton, kept, gather_append, gather_last,
    gather_before _ _ _ fun dim member => keptDims_lt member]

omit verified in
theorem combinedShape_succ (batchSizes offsetSizes : List Nat) (size rank : Nat)
    (count : batchSizes.length + offsetSizes.length = rank) (sizes : offsetSizes.length = numbers.offsetDims.length)
    (fresh : rank ∉ numbers.offsetDims) :
    (numbers.withTrailing rank).combinedShape batchSizes (offsetSizes ++ [size]) =
      numbers.combinedShape batchSizes offsetSizes ++ [size] := by
  have more : batchSizes.length + (offsetSizes ++ [size]).length = rank + 1 := by
    rw [List.length_append, List.length_singleton]
    omega
  have new : rank ∈ (numbers.withTrailing rank).offsetDims := List.mem_append_right _ List.mem_cons_self
  have place : (numbers.withTrailing rank).offsetDims.idxOf rank = offsetSizes.length := by
    simp [withTrailing, List.idxOf_append_of_notMem fresh, sizes]
  rw [combinedShape, combinedShape, more, count, List.range_succ, List.map_append, List.map_singleton, if_pos new,
    place, getD_last, batchDims_succ]
  congr 1
  refine List.map_congr_left fun dim member => ?_
  have inside := List.mem_range.mp member
  by_cases offset : dim ∈ numbers.offsetDims
  · have located : numbers.offsetDims.idxOf dim < offsetSizes.length := sizes ▸ List.idxOf_lt_length_of_mem offset
    have same : (numbers.withTrailing rank).offsetDims.idxOf dim = numbers.offsetDims.idxOf dim :=
      List.idxOf_append_of_mem offset
    rw [if_pos ((mem_withTrailing inside).mpr offset), if_pos offset, same, getD_front _ _ _ located]
  · rw [if_neg fun member => offset ((mem_withTrailing inside).mp member), if_neg offset]

theorem Verified.resultShape_succ :
    (numbers.withTrailing resultShape.length).resultShape startShape (sliceSizes ++ [2]) = resultShape ++ [2] := by
  have sizes : (gather sliceSizes (numbers.keptDims sliceSizes.length)).length = numbers.offsetDims.length := by
    rw [gather_length, verified.sizesRank, verified.keptDims_length]
  have count : (startShape.eraseIdx numbers.indexVectorDim).length +
      (gather sliceSizes (numbers.keptDims sliceSizes.length)).length = resultShape.length := by
    rw [verified.result, GatherDimensionNumbers.resultShape, combinedShape, List.length_map, List.length_range]
  have combined := combinedShape_succ (startShape.eraseIdx numbers.indexVectorDim) _ 2 _ count sizes
    verified.rank_notMem_offset
  rw [← verified.offsetSizes_succ] at combined
  refine combined.trans ?_
  rw [← GatherDimensionNumbers.resultShape, ← verified.result]

theorem Verified.withTrailing : (numbers.withTrailing resultShape.length).Verified (operandShape ++ [2]) startShape
    (sliceSizes ++ [2]) (resultShape ++ [2]) where
  operandRank := by
    have rank := verified.operandRank
    simp only [GatherDimensionNumbers.withTrailing, List.length_append, List.length_singleton]
    omega
  indexVectorDim := verified.indexVectorDim
  indexVector := verified.indexVector
  offsetSorted := by
    refine List.pairwise_append.mpr ⟨verified.offsetSorted, List.pairwise_singleton _ _, fun dim member last single => ?_⟩
    rw [List.mem_singleton.mp single]
    exact verified.offsetRange dim member
  offsetRange := by
    intro dim member
    rw [List.length_append, List.length_singleton]
    rcases List.mem_append.mp member with old | new
    · exact Nat.lt_succ_of_lt (verified.offsetRange dim old)
    · rw [List.mem_singleton.mp new]
      exact Nat.lt_succ_self _
  skippedUnique := verified.skippedUnique
  collapsedSorted := verified.collapsedSorted
  batchingSorted := verified.batchingSorted
  skippedRange dim member := by
    rw [List.length_append]
    exact Nat.lt_succ_of_lt (verified.skippedRange dim member)
  skippedSizes dim member := by
    rw [getD_front _ _ _ (verified.sizesRank ▸ verified.skippedRange dim member)]
    exact verified.skippedSizes dim member
  startBatchingUnique := verified.startBatchingUnique
  startBatchingRange := verified.startBatchingRange
  startBatchingApart := verified.startBatchingApart
  batchingLength := verified.batchingLength
  batchingSizes := by
    rw [gather_before]
    · exact verified.batchingSizes
    · exact fun dim member => verified.skippedRange dim (List.mem_append_right _ member)
  mapUnique := verified.mapUnique
  mapRange dim member := by
    rw [List.length_append]
    exact Nat.lt_succ_of_lt (verified.mapRange dim member)
  sizesRank := by rw [List.length_append, List.length_append, verified.sizesRank]
  sizesWithin := by
    rw [List.length_append, List.length_singleton]
    refine forall_dims (fun dim inside => ?_) ?_
    · rw [getD_front _ _ _ inside, getD_front _ _ _ (verified.sizesRank ▸ inside)]
      exact verified.sizesWithin dim inside
    · have size := getD_last sliceSizes 2
      rw [verified.sizesRank] at size
      rw [size, getD_last]
  result := verified.resultShape_succ.symm

section Position
variable (startIndices : Tensor Int) (batchIndex offsetIndex : List Nat) (part : Nat)

theorem Verified.operandPosition_before (rank : Nat) {dim : Nat} (inside : dim < operandShape.length)
    (offsetLength : offsetIndex.length = numbers.offsetDims.length) :
    (numbers.withTrailing rank).operandPosition (operandShape ++ [2]) (sliceSizes ++ [2]) startIndices batchIndex
        (offsetIndex ++ [part]) dim =
      numbers.operandPosition operandShape sliceSizes startIndices batchIndex offsetIndex dim := by
  have start : (numbers.withTrailing rank).fullStart (operandShape ++ [2]) (sliceSizes ++ [2]) startIndices batchIndex dim =
      numbers.fullStart operandShape sliceSizes startIndices batchIndex dim := by
    rw [fullStart, getD_front _ _ _ inside, getD_front _ _ _ (verified.sizesRank ▸ inside)]
    rfl
  have offset : (numbers.withTrailing rank).fullOffset (operandShape ++ [2]).length (offsetIndex ++ [part]) dim =
      numbers.fullOffset operandShape.length offsetIndex dim := by
    have kept := verified.keptDims_trailing rank
    have differs : dim ≠ operandShape.length := Nat.ne_of_lt inside
    rw [fullOffset, fullOffset, kept]
    by_cases keptDim : dim ∈ numbers.keptDims operandShape.length
    · have located := List.idxOf_lt_length_of_mem keptDim
      rw [verified.keptDims_length, ← offsetLength] at located
      rw [if_pos (List.mem_append_left _ keptDim), if_pos keptDim, List.idxOf_append_of_mem keptDim,
        getD_front _ _ _ located]
    · rw [if_neg (by simp [keptDim, differs]), if_neg keptDim]
  rw [operandPosition, operandPosition, start, offset]
  rfl

theorem Verified.operandPosition_last (rank : Nat) (offsetLength : offsetIndex.length = numbers.offsetDims.length) :
    (numbers.withTrailing rank).operandPosition (operandShape ++ [2]) (sliceSizes ++ [2]) startIndices batchIndex
      (offsetIndex ++ [part]) operandShape.length = part := by
  have unmapped : operandShape.length ∉ numbers.startIndexMap :=
    fun member => Nat.lt_irrefl _ (verified.mapRange _ member)
  have unbatched : operandShape.length ∉ numbers.operandBatchingDims :=
    fun member => verified.rank_notMem_skipped (List.mem_append_right _ member)
  have fresh : operandShape.length ∉ numbers.keptDims operandShape.length :=
    fun member => Nat.lt_irrefl _ (keptDims_lt member)
  have kept := verified.keptDims_trailing rank
  have place : (numbers.keptDims operandShape.length ++ [operandShape.length]).idxOf operandShape.length =
      offsetIndex.length := by
    rw [List.idxOf_append_of_notMem fresh, List.idxOf_cons_self, verified.keptDims_length, offsetLength, Nat.add_zero]
  rw [operandPosition, fullOffset, kept, if_pos (List.mem_append_right _ List.mem_cons_self), place, getD_last]
  change (if operandShape.length ∈ numbers.startIndexMap then _ else 0) +
    (if operandShape.length ∈ numbers.operandBatchingDims then _ else 0) + part = part
  rw [if_neg unmapped, if_neg unbatched, Nat.zero_add]

end Position

theorem Verified.operandIndex_succ (startIndices : Tensor Int) (index : List Nat) (part : Nat)
    (length : index.length = resultShape.length) :
    (numbers.withTrailing resultShape.length).operandIndex (operandShape ++ [2]) (sliceSizes ++ [2]) startIndices
        (index ++ [part]) =
      numbers.operandIndex operandShape sliceSizes startIndices index ++ [part] := by
  have batch : gather (index ++ [part]) ((numbers.withTrailing resultShape.length).batchDims (index ++ [part]).length) =
      gather index (numbers.batchDims index.length) := by
    rw [List.length_append, List.length_singleton, length, batchDims_succ]
    exact gather_before _ _ _ fun dim member => length ▸ batchDims_lt member
  have offset : gather (index ++ [part]) (numbers.withTrailing resultShape.length).offsetDims =
      gather index numbers.offsetDims ++ [part] := by
    have last := gather_last index part
    rw [length] at last
    change gather (index ++ [part]) (numbers.offsetDims ++ [resultShape.length]) = _
    rw [gather_append, last, gather_before _ _ _ fun dim member => length ▸ verified.offsetRange dim member]
  have offsetLength : (gather index numbers.offsetDims).length = numbers.offsetDims.length := gather_length _ _
  rw [operandIndex, operandIndex, batch, offset, List.length_append, List.length_singleton, List.range_succ,
    List.map_append, List.map_singleton, verified.operandPosition_last _ _ _ _ _ offsetLength]
  congr 1
  exact List.map_congr_left fun dim member =>
    verified.operandPosition_before _ _ _ _ _ (List.mem_range.mp member) offsetLength

end GatherDimensionNumbers

end TtMlir.Stablehlo
