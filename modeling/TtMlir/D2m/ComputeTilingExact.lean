import TtMlir.D2m.ComputeTiling
import TtMlir.D2m.DstPackingEntries
import TtMlir.Library.Lists

/-!
The tiling has the iterations of the packing just where the packing's tile counts are those of
row-major blocks, which the analysis, looking at volumes only, does not ask.
-/

namespace TtMlir.D2m.Dst

section Greedy

theorem subblockFactorsFrom_one (dims : List Int) (positive : ∀ dim ∈ dims, 0 < dim) :
    subblockFactorsFrom 1 dims = List.zipWith (· / ·) dims (List.replicate dims.length 1) := by
  induction dims with
  | nil => rfl
  | cons dim rest ih =>
      obtain ⟨-, later⟩ := List.forall_mem_cons.mp positive
      have chunk : chunkFrom dim (1 : Int).toNat = some 1 := by simp [chunkFrom]
      rw [subblockFactorsFrom, chunk, List.length_cons, List.replicate_succ, List.zipWith_cons_cons, ← ih later]
      simp only [Int.ediv_one, ite_self]

theorem subblockFactorsFrom_spec (dims : List Int) (positive : ∀ dim ∈ dims, 0 < dim) (remaining : Int)
    (room : 1 ≤ remaining) : ∃ block, InnerBlock dims block ∧
      subblockFactorsFrom remaining dims = List.zipWith (· / ·) dims block ∧ block.prod ≤ remaining ∧
      ∀ other, InnerBlock dims other → other.prod ≤ remaining → other.prod ≤ block.prod := by
  induction dims generalizing remaining with
  | nil =>
      refine ⟨[], .nil, rfl, room, fun other inner _ => ?_⟩
      cases inner
      exact le_rfl
  | cons dim rest ih =>
      obtain ⟨dimPositive, later⟩ := List.forall_mem_cons.mp positive
      obtain ⟨factor, found, factorPositive, below, divides, largest⟩ :=
        chunkFrom_spec dim remaining.toNat (by omega)
      rw [Int.toNat_of_nonneg (by omega)] at below largest
      simp only [subblockFactorsFrom, found]
      by_cases consumed : dim = factor
      · -- the whole dim fits, and the rest of the room goes to the outer dims
        subst consumed
        rw [if_pos rfl]
        obtain ⟨block, inner, factors, fits, most⟩ := ih later (remaining / dim)
          ((Int.le_ediv_iff_mul_le dimPositive).mpr (by omega))
        have share := (Int.le_ediv_iff_mul_le dimPositive).mp fits
        have blockPositive := MixedRadix.prod_pos block (inner.positive later)
        refine ⟨dim :: block, .whole inner, by rw [factors]; rfl, ?_, fun other otherInner otherFits => ?_⟩
        · rw [List.prod_cons]
          linarith
        · cases otherInner with
          | @whole _ _ otherBlock otherInside =>
              rw [List.prod_cons] at otherFits
              have bound : otherBlock.prod ≤ remaining / dim :=
                (Int.le_ediv_iff_mul_le dimPositive).mpr (by linarith)
              rw [List.prod_cons, List.prod_cons]
              exact Int.mul_le_mul_of_nonneg_left (most _ otherInside bound) dimPositive.le
          | cut sizePositive sizeDivides =>
              rw [List.prod_cons, List.prod_cons, List.prod_replicate, one_pow]
              have bound := Int.le_of_dvd dimPositive sizeDivides
              nlinarith
      · -- a part of the dim is taken, and only ones outside
        rw [if_neg consumed, subblockFactorsFrom_one rest later]
        have tooLarge : remaining < dim := by
          by_contra fits
          exact consumed (le_antisymm (largest dim dimPositive (by omega) (dvd_refl _)) (Int.le_of_dvd dimPositive divides))
        refine ⟨factor :: List.replicate rest.length 1, .cut factorPositive divides, rfl, ?_,
          fun other otherInner otherFits => ?_⟩
        · rw [List.prod_cons, List.prod_replicate, one_pow, mul_one]
          exact below
        · rw [List.prod_cons, List.prod_replicate, one_pow, mul_one]
          cases otherInner with
          | whole otherInside =>
              have otherPositive := MixedRadix.prod_pos _ (otherInside.positive later)
              rw [List.prod_cons] at otherFits
              nlinarith
          | cut sizePositive sizeDivides =>
              rw [List.prod_cons, List.prod_replicate, one_pow, mul_one] at otherFits ⊢
              exact largest _ sizePositive otherFits sizeDivides

def factorsOf (shape block : List Int) : List Int := List.zipWith (· / ·) shape block

theorem calculateOutputSubblockFactors_spec (shape : List Int) (positive : ∀ dim ∈ shape, 0 < dim) (capacity : Int)
    (room : 1 ≤ capacity) : ∃ block, LargestBlock shape capacity block ∧
      calculateOutputSubblockFactors shape capacity = some (factorsOf shape block) := by
  obtain ⟨block, inner, factors, fits, most⟩ := subblockFactorsFrom_spec shape.reverse
    (fun dim member => positive dim (List.mem_reverse.mp member)) capacity room
  have length : block.length = shape.length := by
    rw [inner.length, List.length_reverse]
  refine ⟨block.reverse, ⟨by rw [RowMajorBlock, List.reverse_reverse]; exact inner, by rwa [List.prod_reverse],
    fun other otherInner otherFits => ?_⟩, ?_⟩
  · rw [List.prod_reverse, ← List.prod_reverse other]
    exact most _ otherInner (by rwa [List.prod_reverse])
  · rw [calculateOutputSubblockFactors, factors, if_pos (by simp [length])]
    rw [factorsOf, List.reverse_zipWith (by simp [length]), List.reverse_reverse]

end Greedy

section Inverse

def firstValue (operands : List Indexed) (dim : Nat) : Option Int :=
  operands.findSome? fun operand => (operand.1.positionOf dim).map fun position => operand.2.getD position 0

theorem idxOf_concat (operands : List Indexed)
    (lengths : ∀ operand ∈ operands, operand.2.length = operand.1.results.length) (dim : Nat) :
    ((operands.flatMap fun operand => operand.1.results).idxOf? (some dim)).map
      (fun position => (operands.flatMap Prod.snd).getD position 0) = firstValue operands dim := by
  induction operands with
  | nil => rfl
  | cons operand rest ih =>
      obtain ⟨length, later⟩ := List.forall_mem_cons.mp lengths
      have next := ih later
      rw [firstValue, List.findSome?_cons, ← firstValue, ← next]
      simp only [List.flatMap_cons, List.idxOf?, List.findIdx?_append]
      change Option.map _ (Option.or (operand.1.positionOf dim) _) = _
      cases here : operand.1.positionOf dim with
      | some position =>
          have inside := ProjectedPermutation.lt_of_dimAt (ProjectedPermutation.positionOf_eq_some.mp here)
          simp only [Option.some_or, Option.map_some]
          rw [List.getD_append _ _ _ _ (by rw [length]; exact inside)]
      | none =>
          simp only [Option.none_or, Option.map_none, Option.map_map]
          refine congrArg (Option.map · _) (funext fun position => ?_)
          rw [Function.comp_apply, ← length, List.getD_append_right _ _ _ _ (Nat.le_add_left _ _), Nat.add_sub_cancel]

theorem inversePermutation_values (operands : List Indexed)
    (lengths : ∀ operand ∈ operands, operand.2.length = operand.1.results.length) (numDims : Nat)
    (values : Nat → Int) (found : ∀ dim < numDims, firstValue operands dim = some (values dim)) :
    ∃ inverse, inversePermutation numDims (operands.flatMap fun operand => operand.1.results) = some inverse ∧
      inverse.map ((operands.flatMap Prod.snd).getD · 0) = (List.range numDims).map values := by
  obtain ⟨inverse, run⟩ := mapM_total
    (fun dim => (operands.flatMap fun operand => operand.1.results).idxOf? (some dim)) (List.range numDims)
    fun dim member => by
      have value := found dim (List.mem_range.mp member)
      rw [← idxOf_concat operands lengths] at value
      obtain ⟨position, here, -⟩ := Option.map_eq_some_iff.mp value
      exact ⟨position, here⟩
  obtain ⟨length, entries⟩ := mapM_range run
  refine ⟨inverse, run, List.ext_getElem (by simp [length]) fun dim inside _ => ?_⟩
  rw [List.length_map, length] at inside
  have value := found dim inside
  rw [← idxOf_concat operands lengths, ← entries dim inside,
    List.getElem?_eq_getElem (length.symm ▸ inside), Option.map_some] at value
  rw [List.getElem_map, List.getElem_map, List.getElem_range]
  exact Option.some.inj value

def ones (operand : Indexed) : Indexed := (operand.1, List.replicate operand.2.length 1)

theorem firstValue_append (front back : List Indexed) (dim : Nat) :
    firstValue (front ++ back) dim = (firstValue front dim).or (firstValue back dim) :=
  List.findSome?_append

theorem firstValue_ones (operands : List Indexed)
    (lengths : ∀ operand ∈ operands, operand.2.length = operand.1.results.length) (dim : Nat) :
    firstValue (operands.map ones) dim =
      if operands.any fun operand => (operand.1.positionOf dim).isSome then some 1 else none := by
  induction operands with
  | nil => rfl
  | cons operand rest ih =>
      obtain ⟨length, later⟩ := List.forall_mem_cons.mp lengths
      rw [List.map_cons, firstValue, List.findSome?_cons, ← firstValue, ih later, List.any_cons]
      cases here : operand.1.positionOf dim with
      | none => simp only [ones, here, Option.map_none, Option.isSome_none, Bool.false_or]
      | some position =>
          have inside := ProjectedPermutation.lt_of_dimAt (ProjectedPermutation.positionOf_eq_some.mp here)
          rw [← length] at inside
          simp [ones, here, inside]

end Inverse

namespace LoopNest

/-- What is verified of a compute op on blocks. -/
structure Valid (nest : LoopNest) : Prop where
  ranks : ∀ operand ∈ nest.operands, operand.2.length = operand.1.results.length
  dims : ∀ operand ∈ nest.operands, operand.1.numDims = nest.loopExtents.length
  extents : ∀ operand ∈ nest.operands, ∀ position dim, operand.1.dimAt position = some dim →
    operand.2.getD position 0 = nest.loopExtents.getD dim 0
  covered : ∀ dim < nest.loopExtents.length, ∃ operand ∈ nest.operands, (operand.1.positionOf dim).isSome
  positive : ∀ operand ∈ nest.operands, ∀ size ∈ operand.2, 0 < size

def sharesDim (nest : LoopNest) (dim : Nat) : Bool :=
  nest.otherOutputs.any fun output => (output.1.positionOf dim).isSome

def loopFactor (nest : LoopNest) (block : List Int) (dim : Nat) : Int :=
  if nest.sharesDim dim then 1
  else (nest.firstOutput.1.positionOf dim).elim 1 ((factorsOf nest.firstOutput.2 block).getD · 0)

variable {nest : LoopNest}

theorem mem_operands {operand : Indexed} : operand ∈ nest.operands ↔
    operand ∈ nest.otherOutputs.reverse ++ nest.firstOutput :: nest.inputs.reverse := by
  simp only [operands, List.mem_append, List.mem_cons, List.mem_reverse]
  constructor
  · rintro (input | first | other)
    · exact .inr (.inr input)
    · exact .inr (.inl first)
    · exact .inl other
  · rintro (other | first | input)
    · exact .inr (.inr other)
    · exact .inr (.inl first)
    · exact .inl input

theorem Valid.firstValue_extent (valid : nest.Valid) {dim : Nat} (inside : dim < nest.loopExtents.length) :
    firstValue (nest.otherOutputs.reverse ++ nest.firstOutput :: nest.inputs.reverse) dim =
      some (nest.loopExtents.getD dim 0) := by
  obtain ⟨operand, member, covers⟩ := valid.covered dim inside
  cases found : firstValue (nest.otherOutputs.reverse ++ nest.firstOutput :: nest.inputs.reverse) dim with
  | none =>
      have absent := List.findSome?_eq_none_iff.mp found operand (mem_operands.mp member)
      rw [Option.map_eq_none_iff] at absent
      rw [absent] at covers
      cases covers
  | some value =>
      obtain ⟨owner, owns, here⟩ := List.exists_of_findSome?_eq_some found
      obtain ⟨position, isPosition, rfl⟩ := Option.map_eq_some_iff.mp here
      rw [valid.extents owner (mem_operands.mpr owns) position dim
        (ProjectedPermutation.positionOf_eq_some.mp isPosition)]

/-- The operands with the factors of the first output and ones for the others, in the order of the inverse. -/
def factorOperands (nest : LoopNest) (factors : List Int) : List Indexed :=
  nest.otherOutputs.reverse.map ones ++ (nest.firstOutput.1, factors) :: nest.inputs.reverse.map ones

theorem Valid.lengths (valid : nest.Valid) : ∀ operand ∈ nest.otherOutputs.reverse ++ nest.firstOutput :: nest.inputs.reverse,
    operand.2.length = operand.1.results.length := fun operand member => valid.ranks operand (mem_operands.mpr member)

theorem factorOperands_results (factors : List Int) :
    ((nest.factorOperands factors).flatMap fun operand => operand.1.results) = nest.concatResults := by
  simp only [factorOperands, concatResults, List.flatMap_append, List.flatMap_cons, List.flatMap_map]
  rfl

theorem factorOperands_values (valid : nest.Valid) (factors : List Int)
    (length : factors.length = nest.firstOutput.1.results.length) :
    resizeOnes ((nest.otherOutputs.reverse.flatMap fun output => List.replicate output.2.length (1 : Int)) ++ factors)
      nest.concatResults.length = (nest.factorOperands factors).flatMap Prod.snd := by
  have lengths := valid.lengths
  have sums : ∀ operands : List Indexed, (∀ operand ∈ operands, operand.2.length = operand.1.results.length) →
      (operands.flatMap fun operand => List.replicate operand.2.length (1 : Int)).length =
        (operands.flatMap fun operand => operand.1.results).length := by
    intro operands equal
    rw [List.length_flatMap, List.length_flatMap]
    refine congrArg List.sum (List.map_congr_left fun operand member => ?_)
    rw [List.length_replicate, equal operand member]
  have others := sums nest.otherOutputs.reverse fun operand member => lengths operand (List.mem_append_left _ member)
  have inputs := sums nest.inputs.reverse fun operand member =>
    lengths operand (List.mem_append_right _ (List.mem_cons_of_mem _ member))
  have total : nest.concatResults.length =
      ((nest.otherOutputs.reverse.flatMap fun output => List.replicate output.2.length (1 : Int)) ++ factors).length +
        (nest.inputs.reverse.flatMap fun input => List.replicate input.2.length (1 : Int)).length := by
    rw [concatResults, List.flatMap_append, List.flatMap_cons, List.length_append, List.length_append,
      List.length_append, others, inputs, length]
    omega
  have tail : List.replicate (nest.inputs.reverse.flatMap fun input => List.replicate input.2.length (1 : Int)).length 1 =
      nest.inputs.reverse.flatMap fun input => List.replicate input.2.length (1 : Int) := by
    refine (List.eq_replicate_iff.mpr ⟨rfl, fun value member => ?_⟩).symm
    obtain ⟨input, -, isOne⟩ := List.mem_flatMap.mp member
    exact List.eq_of_mem_replicate isOne
  rw [resizeOnes, total, List.take_of_length_le (Nat.le_add_right _ _), Nat.add_sub_cancel_left, tail]
  simp only [factorOperands, List.flatMap_append, List.flatMap_cons, List.flatMap_map, ones, List.append_assoc]

theorem firstValue_factors (valid : nest.Valid) {block : List Int}
    (length : block.length = nest.firstOutput.2.length) {dim : Nat} (inside : dim < nest.loopExtents.length) :
    firstValue (nest.factorOperands (factorsOf nest.firstOutput.2 block)) dim = some (nest.loopFactor block dim) := by
  have lengths := valid.lengths
  rw [factorOperands, firstValue_append, firstValue_ones _ fun operand member =>
    lengths operand (List.mem_append_left _ member), List.any_reverse, loopFactor, sharesDim]
  split
  · rfl
  · next alone =>
      rw [Option.none_or, firstValue, List.findSome?_cons, ← firstValue, firstValue_ones _ fun operand member =>
        lengths operand (List.mem_append_right _ (List.mem_cons_of_mem _ member))]
      cases here : nest.firstOutput.1.positionOf dim with
      | some position =>
          have known := ProjectedPermutation.lt_of_dimAt (ProjectedPermutation.positionOf_eq_some.mp here)
          have rank := valid.ranks nest.firstOutput (mem_operands.mpr (List.mem_append_right _ List.mem_cons_self))
          have bound : position < (factorsOf nest.firstOutput.2 block).length := by
            simp [factorsOf, length, rank, known]
          rfl
      | none =>
          -- the dim is one of an input's, since some operand has it
          obtain ⟨operand, member, covers⟩ := valid.covered dim inside
          rw [Option.map_none]
          simp only [Option.elim_none]
          rw [if_pos]
          rw [List.any_eq_true]
          refine ⟨operand, ?_, covers⟩
          rcases List.mem_append.mp (mem_operands.mp member) with other | rest
          · exact absurd (List.any_eq_true.mpr ⟨operand, List.mem_reverse.mp other, covers⟩) alone
          · rcases List.mem_cons.mp rest with rfl | input
            · rw [here] at covers
              cases covers
            · exact input

theorem calculateOptimalSubblockSizes_spec (valid : nest.Valid) {capacity : Int} (room : 1 ≤ capacity) :
    ∃ block, LargestBlock nest.firstOutput.2 capacity block ∧
      calculateOutputSubblockFactors nest.firstOutput.2 capacity = some (factorsOf nest.firstOutput.2 block) ∧
      nest.calculateOptimalSubblockSizes capacity =
        some ((List.range nest.loopExtents.length).map fun dim =>
          nest.loopExtents.getD dim 0 / nest.loopFactor block dim) := by
  have isOperand : nest.firstOutput ∈ nest.operands :=
    mem_operands.mpr (List.mem_append_right _ List.mem_cons_self)
  obtain ⟨block, largest, factors⟩ :=
    calculateOutputSubblockFactors_spec nest.firstOutput.2 (valid.positive _ isOperand) capacity room
  have length : block.length = nest.firstOutput.2.length := by
    simpa using InnerBlock.length largest.inOrder
  have factorLength : (factorsOf nest.firstOutput.2 block).length = nest.firstOutput.1.results.length := by
    rw [factorsOf, List.length_zipWith, length, min_self, valid.ranks _ isOperand]
  have factorLengths : ∀ operand ∈ nest.factorOperands (factorsOf nest.firstOutput.2 block),
      operand.2.length = operand.1.results.length := by
    have each := valid.lengths
    intro operand member
    rcases List.mem_append.mp member with other | rest
    · obtain ⟨output, isOutput, rfl⟩ := List.mem_map.mp other
      rw [ones, List.length_replicate]
      exact each output (List.mem_append_left _ isOutput)
    · rcases List.mem_cons.mp rest with rfl | input
      · exact factorLength
      · obtain ⟨source, isInput, rfl⟩ := List.mem_map.mp input
        rw [ones, List.length_replicate]
        exact each source (List.mem_append_right _ (List.mem_cons_of_mem _ isInput))
  obtain ⟨inverse, run, cuts⟩ := inversePermutation_values _ factorLengths nest.loopExtents.length
    (nest.loopFactor block) fun dim inside => firstValue_factors valid length inside
  obtain ⟨second, again, shapes⟩ := inversePermutation_values _ valid.lengths nest.loopExtents.length
    (nest.loopExtents.getD · 0) fun dim inside => valid.firstValue_extent inside
  rw [factorOperands_results] at run
  change inversePermutation _ nest.concatResults = _ at again
  rw [run] at again
  cases again
  refine ⟨block, largest, factors, ?_⟩
  rw [calculateOptimalSubblockSizes, factors, concatInversePermutationMap, run]
  simp only [Option.bind_eq_bind, Option.bind_some, Option.some.injEq]
  rw [factorOperands_values valid _ factorLength, cuts]
  change List.zipWith _ (inverse.map ((List.flatMap Prod.snd _).getD · 0)) _ = _
  rw [shapes, List.zipWith_map, List.zipWith_self]

/-- Every operand's tile has the extents of the first output's subblock in the dims they share. -/
def Consistent (nest : LoopNest) (capacity : Int) (tileSizes : List Int) : Prop :=
  ∀ factors, calculateOutputSubblockFactors nest.firstOutput.2 capacity = some factors →
    ∀ operand ∈ nest.operands, ∀ position dim, operand.1.dimAt position = some dim →
      (tiledShape tileSizes operand).2.getD position 0 =
        (nest.firstOutput.1.positionOf dim).elim (operand.2.getD position 0)
          fun outputPosition => nest.firstOutput.2.getD outputPosition 0 / factors.getD outputPosition 1

theorem tiledShape_getD (tileSizes : List Int) (operand : Indexed) (rank : operand.2.length = operand.1.results.length)
    {position : Nat} (inside : position < operand.2.length) :
    (tiledShape tileSizes operand).2.getD position 0 =
      ((operand.1.dimAt position).map fun dim => tileSizes.getD dim 0).getD (operand.2.getD position 0) := by
  have known : position < operand.1.results.length := rank ▸ inside
  have length : position < (tiledShape tileSizes operand).2.length := by simp [tiledShape, inside, known]
  rw [List.getD_eq_getElem _ _ length, ProjectedPermutation.dimAt, List.getD_eq_getElem _ _ known,
    List.getD_eq_getElem _ _ inside]
  simp [tiledShape]

theorem tiledShape_dim (tileSizes : List Int) (operand : Indexed) (rank : operand.2.length = operand.1.results.length)
    {position dim : Nat} (found : operand.1.dimAt position = some dim) :
    (tiledShape tileSizes operand).2.getD position 0 = tileSizes.getD dim 0 := by
  rw [tiledShape_getD tileSizes operand rank (rank ▸ ProjectedPermutation.lt_of_dimAt found), found]
  rfl

theorem Valid.tile (valid : nest.Valid) {tileSizes : List Int} (length : tileSizes.length = nest.loopExtents.length)
    (positive : ∀ dim < nest.loopExtents.length, 0 < tileSizes.getD dim 0) : (nest.tile tileSizes).Valid := by
  have source : ∀ operand ∈ (nest.tile tileSizes).operands, ∃ original ∈ nest.operands,
      operand = tiledShape tileSizes original := by
    intro operand member
    simp only [operands, LoopNest.tile, List.mem_append, List.mem_cons, List.mem_map] at member
    simp only [operands, List.mem_append, List.mem_cons]
    rcases member with ⟨input, isInput, rfl⟩ | rfl | ⟨output, isOutput, rfl⟩
    · exact ⟨input, .inl isInput, rfl⟩
    · exact ⟨nest.firstOutput, .inr (.inl rfl), rfl⟩
    · exact ⟨output, .inr (.inr isOutput), rfl⟩
  have target : ∀ original ∈ nest.operands, tiledShape tileSizes original ∈ (nest.tile tileSizes).operands := by
    intro original member
    simp only [operands, List.mem_append, List.mem_cons] at member
    simp only [operands, LoopNest.tile, List.mem_append, List.mem_cons, List.mem_map]
    rcases member with input | rfl | output
    · exact .inl ⟨original, input, rfl⟩
    · exact .inr (.inl rfl)
    · exact .inr (.inr ⟨original, output, rfl⟩)
  refine ⟨?_, ?_, ?_, ?_, ?_⟩
  · intro operand member
    obtain ⟨original, isOriginal, rfl⟩ := source operand member
    simp [tiledShape, valid.ranks original isOriginal]
  · intro operand member
    obtain ⟨original, isOriginal, rfl⟩ := source operand member
    exact (valid.dims original isOriginal).trans length.symm
  · intro operand member position dim found
    obtain ⟨original, isOriginal, rfl⟩ := source operand member
    exact tiledShape_dim tileSizes original (valid.ranks original isOriginal) found
  · intro dim inside
    obtain ⟨original, isOriginal, covers⟩ := valid.covered dim (length ▸ inside)
    exact ⟨_, target original isOriginal, covers⟩
  · intro operand member size isSize
    obtain ⟨original, isOriginal, rfl⟩ := source operand member
    obtain ⟨position, inside, rfl⟩ := List.getElem_of_mem isSize
    have rank := valid.ranks original isOriginal
    have known : position < original.2.length := by
      simp only [tiledShape, List.length_zipWith] at inside
      omega
    rw [← List.getD_eq_getElem _ 0 inside, tiledShape_getD tileSizes original rank known]
    cases found : original.1.dimAt position with
    | none =>
        rw [Option.map_none, Option.getD_none, List.getD_eq_getElem _ _ known]
        exact valid.positive original isOriginal _ (List.getElem_mem known)
    | some dim =>
        exact positive dim (valid.dims original isOriginal ▸ ProjectedPermutation.dim_lt found)

end LoopNest

def wholeConstants (output : Indexed) (block : List Int) : List Int :=
  (List.range output.2.length).map fun position =>
    if (output.1.dimAt position).isSome then block.getD position 0 else output.2.getD position 0

/-- The largest row-major block within the capacity has just that many tiles, and is whole in the
dims that another output has. -/
structure Cut (output : Indexed) (shared : Nat → Bool) (capacity : Int) (block : List Int) : Prop where
  largest : LargestBlock output.2 capacity block
  sharedWhole : ∀ position dim, output.1.dimAt position = some dim → shared dim = true →
    block.getD position 0 = output.2.getD position 0
  volume : (wholeConstants output block).prod = capacity

section Phase
variable {nest : LoopNest} {block : List Int} {capacity : Int}

theorem prod_map_range (count : Nat) (value : Nat → Int) :
    ((List.range count).map value).prod = ∏ index ∈ Finset.range count, value index := by
  induction count with
  | zero => rfl
  | succ count ih => rw [List.range_succ, List.map_append, List.prod_append, ih, Finset.prod_range_succ, List.map_singleton, List.prod_singleton]

theorem block_factor {shape : List Int} (positive : ∀ extent ∈ shape, 0 < extent) (inOrder : RowMajorBlock shape block)
    {position : Nat} (inside : position < shape.length) :
    0 < block.getD position 0 ∧ 0 < (factorsOf shape block).getD position 0 ∧
      block.getD position 0 * (factorsOf shape block).getD position 0 = shape.getD position 0 := by
  have length : block.length = shape.length := by
    simpa using InnerBlock.length inOrder
  have blockPositive := InnerBlock.positive inOrder fun extent member => positive extent (List.mem_reverse.mp member)
  have divides := List.forall₂_iff_get.mp (List.rel_reverse (InnerBlock.divides inOrder))
  rw [List.reverse_reverse, List.reverse_reverse] at divides
  have inBlock : position < block.length := length ▸ inside
  have factor : position < (factorsOf shape block).length := by simp [factorsOf, inside, inBlock]
  rw [List.getD_eq_getElem _ _ inBlock, List.getD_eq_getElem _ _ factor, List.getD_eq_getElem _ _ inside]
  have sizePositive := blockPositive _ (List.mem_reverse.mpr (List.getElem_mem inBlock))
  have sizeDivides : block[position] ∣ shape[position] := divides.2 position inBlock inside
  have quotient : (factorsOf shape block)[position] = shape[position] / block[position] := by simp [factorsOf]
  rw [quotient]
  exact ⟨sizePositive, Int.ediv_pos_of_pos_of_dvd (positive _ (List.getElem_mem inside)) sizePositive.le sizeDivides,
    Int.mul_ediv_cancel' sizeDivides⟩

def blockSizes (nest : LoopNest) (block : List Int) : List Int :=
  (List.range nest.loopExtents.length).map fun dim => nest.loopExtents.getD dim 0 / nest.loopFactor block dim

theorem blockSizes_getD {dim : Nat} (inside : dim < nest.loopExtents.length) :
    (blockSizes nest block).getD dim 0 = nest.loopExtents.getD dim 0 / nest.loopFactor block dim := by
  rw [List.getD_eq_getElem _ _ (by simpa [blockSizes] using inside)]
  simp [blockSizes]

variable (valid : nest.Valid) (largest : LargestBlock nest.firstOutput.2 capacity block)
include valid largest

theorem firstOutput_facts : nest.firstOutput ∈ nest.operands ∧
    nest.firstOutput.2.length = nest.firstOutput.1.results.length ∧ block.length = nest.firstOutput.2.length ∧
    ∀ extent ∈ nest.firstOutput.2, 0 < extent := by
  have isOperand : nest.firstOutput ∈ nest.operands :=
    LoopNest.mem_operands.mpr (List.mem_append_right _ List.mem_cons_self)
  refine ⟨isOperand, valid.ranks _ isOperand, ?_, valid.positive _ isOperand⟩
  simpa using InnerBlock.length largest.inOrder

omit valid largest in
theorem loopFactor_output {position dim : Nat} (found : nest.firstOutput.1.dimAt position = some dim) :
    nest.loopFactor block dim =
      if nest.sharesDim dim then 1 else (factorsOf nest.firstOutput.2 block).getD position 0 := by
  rw [LoopNest.loopFactor, ProjectedPermutation.positionOf_eq_some.mpr found]
  rfl

theorem loopFactor_divides {dim : Nat} (inside : dim < nest.loopExtents.length) :
    0 < nest.loopFactor block dim ∧ nest.loopFactor block dim ∣ nest.loopExtents.getD dim 0 ∧
      0 < nest.loopExtents.getD dim 0 := by
  obtain ⟨isOperand, rank, -, positive⟩ := firstOutput_facts valid largest
  have extentPositive : 0 < nest.loopExtents.getD dim 0 := by
    obtain ⟨operand, member, covers⟩ := valid.covered dim inside
    obtain ⟨position, isPosition⟩ := Option.isSome_iff_exists.mp covers
    have found := ProjectedPermutation.positionOf_eq_some.mp isPosition
    have known : position < operand.2.length := (valid.ranks operand member).symm ▸ ProjectedPermutation.lt_of_dimAt found
    rw [← valid.extents operand member position dim found, List.getD_eq_getElem _ _ known]
    exact valid.positive operand member _ (List.getElem_mem known)
  cases search : nest.firstOutput.1.positionOf dim with
  | none =>
      have one : nest.loopFactor block dim = 1 := by
        rw [LoopNest.loopFactor, search]
        split <;> rfl
      rw [one]
      exact ⟨Int.one_pos, one_dvd _, extentPositive⟩
  | some position =>
      have found := ProjectedPermutation.positionOf_eq_some.mp search
      obtain ⟨-, factorPositive, product⟩ := block_factor positive largest.inOrder
        (rank.symm ▸ ProjectedPermutation.lt_of_dimAt found)
      rw [loopFactor_output found]
      split
      · exact ⟨Int.one_pos, one_dvd _, extentPositive⟩
      · rw [valid.extents _ isOperand position dim found] at product
        exact ⟨factorPositive, Dvd.intro_left _ product, extentPositive⟩

theorem tripCount_blockSizes :
    nest.tripCount (blockSizes nest block) = ∏ dim ∈ Finset.range nest.loopExtents.length, nest.loopFactor block dim := by
  have extents : nest.loopExtents = (List.range nest.loopExtents.length).map (nest.loopExtents.getD · 0) :=
    (map_range_getD 0 nest.loopExtents).symm
  rw [LoopNest.tripCount, ← prod_map_range, blockSizes]
  nth_rewrite 1 [extents]
  rw [List.zipWith_map, List.zipWith_self]
  refine congrArg List.prod (List.map_congr_left fun dim member => ?_)
  obtain ⟨factorPositive, ⟨size, product⟩, extentPositive⟩ :=
    loopFactor_divides valid largest (List.mem_range.mp member)
  have sizePositive : 0 < size := by
    rw [product] at extentPositive
    exact (pos_iff_pos_of_mul_pos extentPositive).mp factorPositive
  rw [product, Int.mul_ediv_cancel_left _ factorPositive.ne', if_neg sizePositive.ne']
  -- the last partial tile would be a whole one
  have rounded : nest.loopFactor block dim * size + size - 1 = (size - 1) + nest.loopFactor block dim * size := by ring
  rw [rounded, Int.add_mul_ediv_right _ _ sizePositive.ne', Int.ediv_eq_zero_of_lt (by omega) (by omega), zero_add]

theorem consistent_iff
    (factors : calculateOutputSubblockFactors nest.firstOutput.2 capacity = some (factorsOf nest.firstOutput.2 block)) :
    nest.Consistent capacity (blockSizes nest block) ↔
      ∀ position dim, nest.firstOutput.1.dimAt position = some dim → nest.sharesDim dim = true →
        block.getD position 0 = nest.firstOutput.2.getD position 0 := by
  obtain ⟨isOperand, rank, blockLength, positive⟩ := firstOutput_facts valid largest
  have known : ∀ {position dim : Nat}, nest.firstOutput.1.dimAt position = some dim →
      position < nest.firstOutput.2.length := fun found => rank.symm ▸ ProjectedPermutation.lt_of_dimAt found
  have inside : ∀ {position dim : Nat}, nest.firstOutput.1.dimAt position = some dim →
      dim < nest.loopExtents.length := fun found => valid.dims _ isOperand ▸ ProjectedPermutation.dim_lt found
  -- the subblock's extent is the block's
  have subblock : ∀ {position dim : Nat}, nest.firstOutput.1.dimAt position = some dim →
      nest.firstOutput.2.getD position 0 / (factorsOf nest.firstOutput.2 block).getD position 1 =
        block.getD position 0 := by
    intro position dim found
    obtain ⟨-, factorPositive, product⟩ := block_factor positive largest.inOrder (known found)
    have factorKnown : position < (factorsOf nest.firstOutput.2 block).length := by
      simp [factorsOf, blockLength, known found]
    rw [List.getD_eq_getElem _ _ factorKnown] at factorPositive product ⊢
    rw [← product, Int.mul_ediv_cancel _ factorPositive.ne']
  -- the tile's extent is the block's unless the dim is shared
  have tile : ∀ {position dim : Nat}, nest.firstOutput.1.dimAt position = some dim →
      (blockSizes nest block).getD dim 0 =
        if nest.sharesDim dim then nest.firstOutput.2.getD position 0 else block.getD position 0 := by
    intro position dim found
    obtain ⟨-, factorPositive, product⟩ := block_factor positive largest.inOrder (known found)
    rw [blockSizes_getD (inside found), loopFactor_output found,
      ← valid.extents _ isOperand position dim found]
    split
    · rw [Int.ediv_one]
    · rw [← product, Int.mul_ediv_cancel _ factorPositive.ne']
  constructor
  · intro consistent position dim found shares
    have here := consistent _ factors _ isOperand position dim found
    rw [LoopNest.tiledShape_dim _ _ rank found, tile found, if_pos shares, ProjectedPermutation.positionOf_eq_some.mpr found,
      Option.elim_some, subblock found] at here
    exact here.symm
  · intro whole stated same operand member position dim found
    rw [factors] at same
    cases same
    rw [LoopNest.tiledShape_dim _ operand (valid.ranks operand member) found]
    cases search : nest.firstOutput.1.positionOf dim with
    | none =>
        have dimInside : dim < nest.loopExtents.length := valid.dims operand member ▸ ProjectedPermutation.dim_lt found
        have one : nest.loopFactor block dim = 1 := by
          rw [LoopNest.loopFactor, search]
          split <;> rfl
        rw [blockSizes_getD dimInside, one, Int.ediv_one, Option.elim_none, valid.extents operand member position dim found]
    | some outputPosition =>
        have outputFound := ProjectedPermutation.positionOf_eq_some.mp search
        rw [Option.elim_some, subblock outputFound, tile outputFound]
        split
        · next shares => exact (whole outputPosition dim outputFound shares).symm
        · rfl

theorem trips_times_block (whole : ∀ position dim, nest.firstOutput.1.dimAt position = some dim →
      nest.sharesDim dim = true → block.getD position 0 = nest.firstOutput.2.getD position 0) :
    nest.tripCount (blockSizes nest block) * (wholeConstants nest.firstOutput block).prod = nest.firstOutput.2.prod := by
  obtain ⟨isOperand, rank, -, positive⟩ := firstOutput_facts valid largest
  have factors : ∀ dim, nest.loopFactor block dim =
      (nest.firstOutput.1.positionOf dim).elim 1 ((factorsOf nest.firstOutput.2 block).getD · 0) := by
    intro dim
    rw [LoopNest.loopFactor]
    split
    · next shares =>
        cases search : nest.firstOutput.1.positionOf dim with
        | none => rfl
        | some position =>
            have found := ProjectedPermutation.positionOf_eq_some.mp search
            obtain ⟨blockPositive, -, product⟩ := block_factor positive largest.inOrder
              (rank.symm ▸ ProjectedPermutation.lt_of_dimAt found)
            rw [whole position dim found shares] at product blockPositive
            exact (Int.eq_one_of_mul_eq_self_right blockPositive.ne' product).symm
    · rfl
  have extents : nest.firstOutput.2.prod =
      ∏ position ∈ Finset.range nest.firstOutput.2.length, nest.firstOutput.2.getD position 0 := by
    rw [← prod_map_range, map_range_getD 0 nest.firstOutput.2]
  rw [tripCount_blockSizes valid largest, wholeConstants, prod_map_range, extents, ← valid.dims _ isOperand,
    Finset.prod_congr rfl fun dim _ => factors dim, ProjectedPermutation.prod_positions, ← rank, ← Finset.prod_mul_distrib]
  refine Finset.prod_congr rfl fun position member => ?_
  obtain ⟨-, -, product⟩ := block_factor positive largest.inOrder (Finset.mem_range.mp member)
  split
  · rw [mul_comm, product]
  · rw [one_mul]

omit valid largest in
/-- One phase is consistent and has its iterations just where a block of the output cuts it so. -/
theorem phase_iff (valid : nest.Valid) (room : 1 ≤ capacity) {iters : Int} (several : 1 ≤ iters)
    (volume : nest.firstOutput.2.prod = iters * capacity) :
    ∃ block, nest.calculateOptimalSubblockSizes capacity = some (blockSizes nest block) ∧
      LargestBlock nest.firstOutput.2 capacity block ∧
      ((nest.Consistent capacity (blockSizes nest block) ∧ nest.tripCount (blockSizes nest block) = iters) ↔
        Cut nest.firstOutput nest.sharesDim capacity block) := by
  obtain ⟨block, largest, factors, sizes⟩ := LoopNest.calculateOptimalSubblockSizes_spec valid room
  refine ⟨block, sizes, largest, ?_⟩
  rw [consistent_iff valid largest factors]
  constructor
  · rintro ⟨whole, trips⟩
    have product := trips_times_block valid largest whole
    rw [trips, volume] at product
    exact ⟨largest, whole, Int.eq_of_mul_eq_mul_left (by omega) product⟩
  · intro cut
    have product := trips_times_block valid largest cut.sharedWhole
    rw [cut.volume, volume] at product
    exact ⟨cut.sharedWhole, Int.eq_of_mul_eq_mul_right (by omega) product⟩

omit valid largest in
theorem inner_of_cut (valid : nest.Valid) (cut : Cut nest.firstOutput nest.sharesDim capacity block) :
    (nest.tile (blockSizes nest block)).Valid ∧
      (nest.tile (blockSizes nest block)).firstOutput = (nest.firstOutput.1, wholeConstants nest.firstOutput block) ∧
      (nest.tile (blockSizes nest block)).sharesDim = nest.sharesDim := by
  obtain ⟨isOperand, rank, -, positive⟩ := firstOutput_facts valid cut.largest
  refine ⟨valid.tile (by simp [blockSizes]) fun dim inside => ?_, ?_, ?_⟩
  · obtain ⟨factorPositive, divides, extentPositive⟩ := loopFactor_divides valid cut.largest inside
    rw [blockSizes_getD inside]
    exact Int.ediv_pos_of_pos_of_dvd extentPositive factorPositive.le divides
  · refine Prod.ext rfl (ext_getD 0 (by simp [LoopNest.tile, LoopNest.tiledShape, wholeConstants, rank]) ?_)
    intro position inside
    have known : position < nest.firstOutput.2.length := by
      simpa [LoopNest.tile, LoopNest.tiledShape, rank] using inside
    have entry : (wholeConstants nest.firstOutput block).getD position 0 =
        if (nest.firstOutput.1.dimAt position).isSome then block.getD position 0
        else nest.firstOutput.2.getD position 0 := by
      rw [List.getD_eq_getElem _ _ (by simpa [wholeConstants] using known)]
      simp only [wholeConstants, List.getElem_map, List.getElem_range]
    rw [LoopNest.tile, LoopNest.tiledShape_getD _ _ rank known, entry]
    cases found : nest.firstOutput.1.dimAt position with
    | none => rfl
    | some dim =>
        obtain ⟨-, factorPositive, product⟩ := block_factor positive cut.largest.inOrder known
        have inside : dim < nest.loopExtents.length := valid.dims _ isOperand ▸ ProjectedPermutation.dim_lt found
        rw [Option.map_some, Option.getD_some, Option.isSome_some, if_pos rfl, blockSizes_getD inside,
          loopFactor_output found, ← valid.extents _ isOperand position dim found]
        split
        · next shares => rw [Int.ediv_one, cut.sharedWhole position dim found shares]
        · rw [← product, Int.mul_ediv_cancel _ factorPositive.ne']
  · funext dim
    simp only [LoopNest.sharesDim, LoopNest.tile, List.any_map]
    rfl

end Phase

theorem shape_div_factors {shape block : List Int} (positive : ∀ extent ∈ shape, 0 < extent)
    (inOrder : RowMajorBlock shape block) : List.zipWith (· / ·) shape (factorsOf shape block) = block := by
  have length : block.length = shape.length := by
    simpa using InnerBlock.length inOrder
  have rank : (factorsOf shape block).length = shape.length := by simp [factorsOf, length]
  refine ext_getD 0 (by simp [length, rank]) fun position inside => ?_
  have known : position < shape.length := by
    rw [List.length_zipWith] at inside
    omega
  obtain ⟨-, factorPositive, product⟩ := block_factor positive inOrder known
  have extentEntry : shape.getD position 0 = shape[position] := List.getD_eq_getElem _ _ known
  have factorEntry : (factorsOf shape block).getD position 0 = (factorsOf shape block)[position] :=
    List.getD_eq_getElem _ _ (rank.symm ▸ known)
  rw [List.getD_eq_getElem _ _ inside, List.getElem_zipWith, ← extentEntry, ← factorEntry, ← product,
    Int.mul_ediv_cancel _ factorPositive.ne']

/-- The subblock factors divide, and their subblock fits the capacity and lies together. -/
def SubblocksSound : Prop :=
  ∀ shape : List Int, (∀ dim ∈ shape, 0 < dim) → ∀ capacity : Int, 1 ≤ capacity →
    ∃ factors, calculateOutputSubblockFactors shape capacity = some factors ∧ factors.length = shape.length ∧
      (∀ position < shape.length, factors.getD position 0 ∣ shape.getD position 0) ∧
      (List.zipWith (· / ·) shape factors).prod ≤ capacity ∧ Contiguous shape (List.zipWith (· / ·) shape factors)

theorem subblocksSound : SubblocksSound := by
  intro shape positive capacity room
  obtain ⟨block, largest, factors⟩ := calculateOutputSubblockFactors_spec shape positive capacity room
  have length : block.length = shape.length := by
    simpa using InnerBlock.length largest.inOrder
  refine ⟨factorsOf shape block, factors, by simp [factorsOf, length], fun position inside => ?_, ?_⟩
  · obtain ⟨-, -, product⟩ := block_factor positive largest.inOrder inside
    exact Dvd.intro_left _ product
  · rw [shape_div_factors positive largest.inOrder]
    exact ⟨largest.fits, largest.inOrder.contiguous positive⟩

/-- A compute op with the entry that the analysis of its region gives its first output, and its
operands on blocks. -/
structure PackedOp where
  region : Region
  info : DSTPackingRegionInfo
  packing : region.computeDSTPackingForRegion = .ok info
  op : LinalgOp
  listed : op ∈ region.linalgOps
  perResult : DSTPackingPerResultInfo
  entry : info.perResult op.firstOutput = some perResult
  nest : LoopNest
  valid : nest.Valid
  firstShape : (region.type op.firstOutput).staticShape = some nest.firstOutput.2
  otherShapes : op.otherOutputs.map (fun output => (region.type output).staticShape) =
    nest.otherOutputs.map fun output => some output.2

namespace PackedOp
variable (packed : PackedOp)

/-- The two phases have the iterations of the packing, with tiles that fit the output's subblocks. -/
def TiledAsPacked : Prop :=
  ∃ tiling, tileLinalgOp packed.nest packed.perResult = some tiling ∧
    packed.nest.tripCount tiling.phase1TileSizes = packed.info.numOuterLoopIters ∧
    tiling.innerOp.tripCount tiling.phase2TileSizes = packed.perResult.numDstFlips ∧
    packed.nest.Consistent packed.perResult.numTilesPerResult tiling.phase1TileSizes ∧
    tiling.innerOp.Consistent packed.perResult.numTilesPerFlip tiling.phase2TileSizes

/-- The tiles per result are those of a row-major block of the output, and the tiles per flip
those of one of that block. -/
def Reachable : Prop :=
  ∃ block, Cut packed.nest.firstOutput packed.nest.sharesDim packed.perResult.numTilesPerResult block ∧
    ∃ inner, Cut (packed.nest.firstOutput.1, wholeConstants packed.nest.firstOutput block) packed.nest.sharesDim
      packed.perResult.numTilesPerFlip inner

theorem sized : 0 < packed.info.numOuterLoopIters ∧ 0 < packed.perResult.numDstFlips ∧
    0 < packed.perResult.numTilesPerFlip ∧
    packed.perResult.numTilesPerResult = packed.perResult.numDstFlips * packed.perResult.numTilesPerFlip ∧
    packed.nest.firstOutput.2.prod = packed.info.numOuterLoopIters * packed.perResult.numTilesPerResult := by
  obtain ⟨outer, sized⟩ := Region.computeDSTPackingForRegion_sized packed.packing
  have entry := sized _ _ packed.entry
  refine ⟨outer, entry.flips, entry.tiles, entry.perResult, ?_⟩
  have volume := entry.volume
  rw [Region.shardVolume, packed.firstShape, Option.map_some] at volume
  exact Option.some.inj volume

theorem inner_phase {block : List Int}
    (cut : Cut packed.nest.firstOutput packed.nest.sharesDim packed.perResult.numTilesPerResult block) :
    ∃ inner, (packed.nest.tile (blockSizes packed.nest block)).calculateOptimalSubblockSizes
        packed.perResult.numTilesPerFlip = some (blockSizes (packed.nest.tile (blockSizes packed.nest block)) inner) ∧
      LargestBlock (wholeConstants packed.nest.firstOutput block) packed.perResult.numTilesPerFlip inner ∧
      (((packed.nest.tile (blockSizes packed.nest block)).Consistent packed.perResult.numTilesPerFlip
          (blockSizes (packed.nest.tile (blockSizes packed.nest block)) inner) ∧
        (packed.nest.tile (blockSizes packed.nest block)).tripCount
          (blockSizes (packed.nest.tile (blockSizes packed.nest block)) inner) = packed.perResult.numDstFlips) ↔
        Cut (packed.nest.firstOutput.1, wholeConstants packed.nest.firstOutput block) packed.nest.sharesDim
          packed.perResult.numTilesPerFlip inner) := by
  obtain ⟨-, flips, tiles, perResult, -⟩ := packed.sized
  obtain ⟨valid, output, shares⟩ := inner_of_cut packed.valid cut
  have volume : (packed.nest.tile (blockSizes packed.nest block)).firstOutput.2.prod =
      packed.perResult.numDstFlips * packed.perResult.numTilesPerFlip := by
    rw [output, cut.volume, perResult]
  obtain ⟨inner, sizes, largest, exact⟩ := phase_iff valid tiles flips volume
  rw [output, shares] at exact
  rw [output] at largest
  exact ⟨inner, sizes, largest, exact⟩

/-- The tiling realises the packing just where the tile counts are those of row-major blocks. -/
theorem tiling_iff : (SubblocksSound ∧ packed.TiledAsPacked) ↔ packed.Reachable := by
  obtain ⟨outer, flips, tiles, perResult, volume⟩ := packed.sized
  have room : 1 ≤ packed.perResult.numTilesPerResult := by
    rw [perResult]
    exact Int.mul_pos flips tiles
  obtain ⟨block, sizes, largest, exact⟩ := phase_iff packed.valid room outer volume
  have first : ∀ {tiling : Tiling}, tileLinalgOp packed.nest packed.perResult = some tiling →
      tiling.phase1TileSizes = blockSizes packed.nest block ∧
        tiling.innerOp = packed.nest.tile (blockSizes packed.nest block) ∧
        tiling.innerOp.calculateOptimalSubblockSizes packed.perResult.numTilesPerFlip = some tiling.phase2TileSizes := by
    intro tiling run
    rw [tileLinalgOp, sizes] at run
    obtain ⟨phase1, same, run⟩ := Option.bind_eq_some_iff.mp run
    cases same
    obtain ⟨phase2, inner, run⟩ := Option.bind_eq_some_iff.mp run
    cases run
    exact ⟨rfl, rfl, inner⟩
  constructor
  · rintro ⟨-, tiling, run, trips, innerTrips, consistent, innerConsistent⟩
    obtain ⟨phase1, innerOp, phase2⟩ := first run
    rw [phase1] at trips consistent
    have cut := exact.mp ⟨consistent, trips⟩
    obtain ⟨inner, innerSizes, -, innerExact⟩ := packed.inner_phase cut
    rw [innerOp, innerSizes] at phase2
    rw [innerOp, ← Option.some.inj phase2] at innerTrips innerConsistent
    exact ⟨block, cut, inner, innerExact.mp ⟨innerConsistent, innerTrips⟩⟩
  · rintro ⟨other, cut, otherInner, innerCut⟩
    have positive := (firstOutput_facts packed.valid largest).2.2.2
    obtain rfl : other = block := LargestBlock.unique positive cut.largest largest
    obtain ⟨inner, innerSizes, innerLargest, innerExact⟩ := packed.inner_phase cut
    have innerPositive : ∀ extent ∈ wholeConstants packed.nest.firstOutput other, 0 < extent := by
      obtain ⟨valid, output, -⟩ := inner_of_cut packed.valid cut
      have facts := valid.positive _ (LoopNest.mem_operands.mpr (List.mem_append_right _ List.mem_cons_self))
      rwa [output] at facts
    obtain rfl : otherInner = inner := LargestBlock.unique innerPositive innerCut.largest innerLargest
    obtain ⟨consistent, trips⟩ := exact.mpr cut
    obtain ⟨innerConsistent, innerTrips⟩ := innerExact.mpr innerCut
    refine ⟨subblocksSound, ⟨_, _, blockSizes (packed.nest.tile (blockSizes packed.nest other)) otherInner⟩, ?_,
      trips, innerTrips, consistent, innerConsistent⟩
    rw [tileLinalgOp, sizes]
    exact Option.bind_eq_some_iff.mpr ⟨_, rfl, Option.bind_eq_some_iff.mpr ⟨_, innerSizes, rfl⟩⟩

end PackedOp

def threeByFour : Region where
  linalgOps := [⟨[.tileMatmulOrReduce], 0, []⟩]
  type _ := tiles 3 4
  dstPhysicalSizeTiles := 16
  maxDstPhysicalSizeTiles := 0

theorem threeByFour_packing : threeByFour.computeDSTPackingForRegion =
    .ok ⟨Function.update (fun _ => none) 0 (some ⟨2, 6, 12⟩), 12, 1⟩ := by
  have common : getLargestCommonNumOuterLoopIters 2 [] = .ok 1 := by
    obtain ⟨common, found, positive, fits⟩ := commonIters 2 [] (by simp)
    have twice := (fits 2 List.mem_cons_self).2
    obtain rfl : common = 1 := by omega
    exact found
  have alone : Region.collapses [⟨0, 12, 6, 2⟩] = false := by
    simp [Region.collapses, common]
  have passed : threeByFour.writes.mapM threeByFour.packOutput = .ok [some ⟨0, 12, 6, 2⟩] := rfl
  rw [threeByFour.compute_several passed rfl ⟨0, 12, 6, 2⟩ [] rfl 1 common _ rfl, alone]
  rfl

theorem plane_inside : ∀ dim ∈ [some 0, some 1].filterMap id, dim < 2 := by
  simp

theorem plane_distinct : ([some 0, some 1].filterMap id).Nodup := by
  simp

def plane : ProjectedPermutation := ⟨2, [some 0, some 1], plane_inside, plane_distinct⟩

def threeByFourNest : LoopNest := ⟨[3, 4], [(plane, [3, 4])], (plane, [3, 4]), []⟩

theorem threeByFourNest_valid : threeByFourNest.Valid := by
  have same : ∀ operand ∈ threeByFourNest.operands, operand = (plane, [3, 4]) := by
    intro operand member
    simpa [threeByFourNest, LoopNest.operands] using member
  refine ⟨?_, ?_, ?_, ?_, ?_⟩
  · intro operand member
    rw [same operand member]
    rfl
  · intro operand member
    rw [same operand member]
    rfl
  · intro operand member position dim found
    rw [same operand member] at found ⊢
    match position with
    | 0 =>
        cases found
        rfl
    | 1 =>
        cases found
        rfl
    | _ + 2 => cases found
  · intro dim inside
    refine ⟨(plane, [3, 4]), by simp [threeByFourNest, LoopNest.operands], ?_⟩
    match dim with
    | 0 | 1 => decide
    | _ + 2 => simp [threeByFourNest] at inside
  · intro operand member
    rw [same operand member]
    decide

def threeByFourOp : PackedOp where
  region := threeByFour
  info := ⟨Function.update (fun _ => none) 0 (some ⟨2, 6, 12⟩), 12, 1⟩
  packing := threeByFour_packing
  op := ⟨[.tileMatmulOrReduce], 0, []⟩
  listed := List.mem_cons_self
  perResult := ⟨2, 6, 12⟩
  entry := rfl
  nest := threeByFourNest
  valid := threeByFourNest_valid
  firstShape := rfl
  otherShapes := rfl

/-- Of 3 x 4 tiles the largest row-major block of at most 6 is a row of 4, so there are three
flips instead of two. -/
theorem threeByFourOp_misses : ¬(SubblocksSound ∧ threeByFourOp.TiledAsPacked) := by
  rintro ⟨-, tiling, run, -, flips, -⟩
  have found : tileLinalgOp threeByFourNest ⟨2, 6, 12⟩ = some ⟨[3, 4], threeByFourNest.tile [3, 4], [1, 4]⟩ := rfl
  obtain rfl := Option.some.inj (found.symm.trans run)
  exact absurd flips (by decide)

end TtMlir.D2m.Dst
