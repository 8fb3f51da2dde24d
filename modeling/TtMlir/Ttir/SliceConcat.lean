import TtMlir.Library.Concat
import TtMlir.Ttir.ReduceCommute

/-!
Commuting a permute or a reshape through a static slice or a concat, SliceCommutePatterns.cpp
and ConcatCommutePatterns.cpp. Element types and encodings are left out; the three attributes of a
slice are one entry for each dim.
-/

namespace TtMlir.Ttir.SliceConcat

open ReduceCommute (Tm Direction normalized)

section Ops

/-- Begin, end and step of one dim; negative begins and ends count from the end. -/
structure SliceDim where
  begins : Int
  ends : Int
  step : Int
  deriving DecidableEq

/-- The attributes of the op that a manipulation commutes through, and its result shape. -/
inductive Through where
  | slice (attrs : List SliceDim) (outputShape : List Nat)
  | concat (dim : Int) (outputShape : List Nat)

namespace SliceDim

def expectedDimSize (attrs : SliceDim) (dimSize : Nat) : Nat :=
  ((|normalized dimSize attrs.ends - normalized dimSize attrs.begins| + |attrs.step| - 1) / |attrs.step|).toNat

def verify (attrs : SliceDim) (dimSize : Nat) : Prop :=
  let adjustedBegin := normalized dimSize attrs.begins
  let adjustedEnd := normalized dimSize attrs.ends
  (adjustedEnd = adjustedBegin ∨
      ((0 ≤ adjustedBegin ∧ adjustedBegin < dimSize) ∧ 0 ≤ adjustedEnd ∧ adjustedEnd ≤ dimSize)) ∧
    attrs.step ≠ 0 ∧ (0 < attrs.step → adjustedBegin ≤ adjustedEnd) ∧ (attrs.step < 0 → adjustedEnd ≤ adjustedBegin)

instance (attrs : SliceDim) (dimSize : Nat) : Decidable (attrs.verify dimSize) := inferInstanceAs (Decidable (_ ∧ _))

def place (attrs : SliceDim) (dimSize position : Nat) : Nat :=
  (normalized dimSize attrs.begins + position * attrs.step).toNat

end SliceDim

def slicedShape : List SliceDim → List Nat → List Nat
  | attrs :: rest, dimSize :: shape => attrs.expectedDimSize dimSize :: slicedShape rest shape
  | _, _ => []

def slicedIndex : List SliceDim → List Nat → List Nat → List Nat
  | attrs :: rest, dimSize :: shape, position :: index => attrs.place dimSize position :: slicedIndex rest shape index
  | _, _, _ => []

def VerifiedDims : List SliceDim → List Nat → Prop := List.Forall₂ SliceDim.verify

instance (attrs : List SliceDim) (shape : List Nat) : Decidable (VerifiedDims attrs shape) :=
  inferInstanceAs (Decidable (List.Forall₂ _ _ _))

variable {α : Type}

def sliceStatic (attrs : List SliceDim) (tensor : Tensor α) : Tensor α :=
  { shape := slicedShape attrs tensor.shape, get := fun index => tensor.get (slicedIndex attrs tensor.shape index) }

/-- The dim of a concat, none negative. -/
def concatDim (dim : Int) (rank : Nat) : Nat := (normalized rank dim).toNat

def Tm.verify (tm : Tm) (shape : List Nat) : Prop :=
  match tm with
  | .permute permutation => Permutes shape.length permutation
  | .reshape target => shape.prod = target.prod

def Tm.outputShape (tm : Tm) (shape : List Nat) : List Nat :=
  match tm with
  | .permute permutation => gather shape permutation
  | .reshape target => target

def Tm.run (tm : Tm) (tensor : Tensor α) : Tensor α :=
  match tm with
  | .permute permutation => tensor.permute permutation
  | .reshape target => tensor.reshape target

/-- A slice has one operand, a concat at least one. -/
def Through.verify (op : Through) (count : Nat) (shapes : Nat → List Nat) : Prop :=
  match op with
  | .slice attrs outputShape =>
      count = 1 ∧ 0 < (shapes 0).length ∧ VerifiedDims attrs (shapes 0) ∧ outputShape = slicedShape attrs (shapes 0)
  | .concat dim outputShape =>
      0 < count ∧ -((shapes 0).length : Int) ≤ dim ∧ Stackable count shapes (concatDim dim (shapes 0).length) ∧
        outputShape = (shapes 0).set (concatDim dim (shapes 0).length)
          (stackedExtent count shapes (concatDim dim (shapes 0).length))

def Through.run (op : Through) (count : Nat) (operands : Nat → Tensor α) : Tensor α :=
  match op with
  | .slice attrs _ => sliceStatic attrs (operands 0)
  | .concat dim _ => Tensor.concat count operands (concatDim dim (operands 0).shape.length)

def Through.outputShape : Through → List Nat
  | .slice _ outputShape => outputShape
  | .concat _ outputShape => outputShape

/-- The op with a manipulation of some operands above it and of its result below it. -/
structure Ops where
  above : Nat → Option Tm
  op : Through
  below : Option Tm

def optional {β : Type} (apply : Tm → β → β) (tm : Option Tm) (value : β) : β :=
  match tm with
  | none => value
  | some tm => apply tm value

def Ops.operandShape (ops : Ops) (shapes : Nat → List Nat) (number : Nat) : List Nat :=
  optional Tm.outputShape (ops.above number) (shapes number)

/-- All ops verify; for a reshape this says that the new shape has the volume of what it reshapes. -/
def Ops.Verify (ops : Ops) (count : Nat) (shapes : Nat → List Nat) : Prop :=
  (∀ number < count, ∀ tm, ops.above number = some tm → Tm.verify tm (shapes number)) ∧
    ops.op.verify count (ops.operandShape shapes) ∧ ∀ tm, ops.below = some tm → Tm.verify tm ops.op.outputShape

def Ops.run (ops : Ops) (count : Nat) (inputs : Nat → Tensor α) : Tensor α :=
  optional Tm.run ops.below (ops.op.run count fun number => optional Tm.run (ops.above number) (inputs number))

end Ops

section Slice

def applyPermutation (attrs : List SliceDim) (permutation : List Nat) : List SliceDim :=
  permutation.map fun axis => attrs.getD axis ⟨0, 0, 1⟩

def fromRight (shape : List Nat) (i : Nat) : Nat := shape.getD (shape.length - 1 - i) 0

/-- The rightmost changed dim, counted from the right; `none` for -1. -/
def getRightmostReshapeDimRTL (inputShape outputShape : List Nat) : Option Nat :=
  let minRank := min inputShape.length outputShape.length
  match (List.range minRank).find? fun i => decide (fromRight inputShape i ≠ fromRight outputShape i) with
  | some i => some i
  | none => if inputShape = outputShape then none else some minRank

def isSliced (attrs : SliceDim) (dimSize : Nat) : Bool :=
  decide (normalized dimSize attrs.begins ≠ 0 ∨ normalized dimSize attrs.ends ≠ dimSize ∨ attrs.step ≠ 1)

/-- The leftmost sliced dim, counted from the right; `none` for -1. -/
def getLeftmostSlicedDimRTL (attrs : List SliceDim) (inputShape : List Nat) : Option Nat :=
  ((List.range attrs.length).find? fun i => isSliced (attrs.getD i ⟨0, 0, 1⟩) (inputShape.getD i 0)).map
    fun i => attrs.length - 1 - i

/-- Dims to the left of the leftmost sliced one are taken whole, the others keep their attributes. -/
def createReshapedSliceStaticOp (attrs : List SliceDim) (outputShape shape : List Nat) (leftmostSlicedDimRTL : Nat) :
    Through :=
  let ndims := shape.length
  .slice
    ((List.range ndims).map fun dim =>
      let i := ndims - 1 - dim
      if i > leftmostSlicedDimRTL then ⟨0, (shape.getD dim 0 : Nat), 1⟩ else attrs.getD (attrs.length - 1 - i) ⟨0, 0, 1⟩)
    ((List.range ndims).map fun dim =>
      let i := ndims - 1 - dim
      if i > leftmostSlicedDimRTL then shape.getD dim 0 else outputShape.getD (attrs.length - 1 - i) 0)

def createDeslicedReshapeOp (sliceInputShape originalReshapeShape : List Nat) (rightmostReshapeDimRTL : Nat) : List Nat :=
  let ndims := originalReshapeShape.length
  (List.range ndims).map fun dim =>
    let i := ndims - 1 - dim
    if i < rightmostReshapeDimRTL then fromRight sliceInputShape i else originalReshapeShape.getD dim 0

/-- The two positions from the right, where the reshape only changes dims left of all sliced ones. -/
def reshapeSliceDims (attrs : List SliceDim) (sliceInputShape reshapeInputShape reshapeOutputShape : List Nat) :
    Option (Nat × Nat) :=
  match getRightmostReshapeDimRTL reshapeInputShape reshapeOutputShape, getLeftmostSlicedDimRTL attrs sliceInputShape with
  | some rightmost, some leftmost => if rightmost > leftmost then some (rightmost, leftmost) else none
  | _, _ => none

end Slice

section Concat

def calculateShapeVolumeUpToDim (shape : List Nat) (dim : Nat) : Nat := (shape.take dim).prod

def calculateShapeVolumeFromDim (shape : List Nat) (dim : Nat) : Nat := (shape.drop dim).prod

/-- The dim of the reshaped concat with the extent and the volumes around the concat dim; `none` for -1. -/
def retrieveReshapeUserConcatDim (concatShape : List Nat) (currentConcatDim : Nat) (reshapeShape : List Nat) : Option Nat :=
  (List.range reshapeShape.length).find? fun dim =>
    decide (reshapeShape.getD dim 0 = concatShape.getD currentConcatDim 0) &&
      decide (calculateShapeVolumeUpToDim reshapeShape dim = calculateShapeVolumeUpToDim concatShape currentConcatDim) &&
      decide (calculateShapeVolumeFromDim reshapeShape (dim + 1) =
        calculateShapeVolumeFromDim concatShape (currentConcatDim + 1))

end Concat

section Commute

def isHighRankReductionReshape (inputShape outputShape : List Nat) : Bool :=
  decide (6 ≤ inputShape.length) && decide (outputShape.length < inputShape.length)

variable (count : Nat) (shapes : Nat → List Nat)

def performCommuteUpwardsRewrite (tm : Tm) (op : Through) : Option Ops :=
  match tm, op with
  | .permute permutation, .slice attrs outputShape =>
      some ⟨fun _ => some (.permute permutation),
        .slice (applyPermutation attrs permutation) (gather outputShape permutation), none⟩
  | .reshape target, .slice attrs outputShape =>
      if isHighRankReductionReshape outputShape target then none
      else (reshapeSliceDims attrs (shapes 0) outputShape target).map fun dims =>
        let newShape := createDeslicedReshapeOp (shapes 0) target dims.1
        ⟨fun _ => some (.reshape newShape), createReshapedSliceStaticOp attrs outputShape newShape dims.2, none⟩
  | .permute permutation, .concat dim outputShape =>
      some ⟨fun _ => some (.permute permutation),
        .concat (permutation.idxOf (concatDim dim outputShape.length) : Nat) (gather outputShape permutation), none⟩
  | .reshape target, .concat dim outputShape =>
      let currentConcatDim := concatDim dim outputShape.length
      if isHighRankReductionReshape outputShape target then none
      else (retrieveReshapeUserConcatDim outputShape currentConcatDim target).map fun newConcatDim =>
        ⟨fun number => some (.reshape (target.set newConcatDim ((shapes number).getD currentConcatDim 0))),
          .concat (newConcatDim : Nat) target, none⟩

/-- `isTm` marks the operands that the manipulation computes, from the inputs. -/
def performCommuteDownwardsRewrite (isTm : Nat → Bool) (tm : Tm) (op : Through) : Option Ops :=
  match tm, op with
  | .permute permutation, .slice attrs outputShape =>
      some ⟨fun _ => none,
        .slice (applyPermutation attrs (inverse permutation)) (gather outputShape (inverse permutation)),
        some (.permute permutation)⟩
  | .reshape mid, .slice attrs outputShape =>
      if isHighRankReductionReshape (shapes 0) mid then none
      else (reshapeSliceDims attrs mid (shapes 0) mid).map fun dims =>
        ⟨fun _ => none, createReshapedSliceStaticOp attrs outputShape (shapes 0) dims.2, some (.reshape outputShape)⟩
  | .permute permutation, .concat dim outputShape =>
      some ⟨fun number => if isTm number then none else some (.permute (inverse permutation)),
        .concat (permutation.getD (concatDim dim outputShape.length) 0 : Nat) (gather outputShape (inverse permutation)),
        some (.permute permutation)⟩
  | .reshape _, .concat _ _ => none

/-- The ops before the rewrite: upwards the manipulation uses the result, downwards
it computes the marked operands. -/
def original (direction : Direction) (isTm : Nat → Bool) (tm : Tm) (op : Through) : Ops :=
  match direction with
  | .upwards => ⟨fun _ => none, op, some tm⟩
  | .downwards => ⟨fun number => if isTm number then some tm else none, op, none⟩

/-- The new ops, where a pattern rewrites; downwards some operand has to be the manipulation's. -/
def commute (direction : Direction) (isTm : Nat → Bool) (tm : Tm) (op : Through) : Option Ops :=
  match direction with
  | .upwards => performCommuteUpwardsRewrite shapes tm op
  | .downwards =>
      if (List.range count).any isTm then performCommuteDownwardsRewrite shapes isTm tm op else none

end Commute

/-- The new ops verify and compute the tensor of the ops before, for all contents. -/
structure Preserves (direction : Direction) (isTm : Nat → Bool) (tm : Tm) (op : Through) (count : Nat)
    (shapes : Nat → List Nat) (new : Ops) : Prop where
  verified : new.Verify count shapes
  values : ∀ (α : Type) (inputs : Nat → Tensor α), (∀ number < count, (inputs number).shape = shapes number) →
    Tensor.Same (new.run count inputs) ((original direction isTm tm op).run count inputs)

end TtMlir.Ttir.SliceConcat
