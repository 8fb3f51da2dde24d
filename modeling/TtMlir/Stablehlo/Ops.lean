import TtMlir.Library.Concat

/-!
The StableHLO operations that move data: what their verifiers accept and what they compute, for
elements of any type. Dims and extents are natural numbers; start indices are integers.
-/

namespace TtMlir.Stablehlo

structure GatherDimensionNumbers where
  offsetDims : List Nat
  collapsedSliceDims : List Nat
  operandBatchingDims : List Nat
  startIndicesBatchingDims : List Nat
  startIndexMap : List Nat
  indexVectorDim : Nat
deriving DecidableEq, Repr

namespace GatherDimensionNumbers
variable (numbers : GatherDimensionNumbers)

def skippedDims : List Nat := numbers.collapsedSliceDims ++ numbers.operandBatchingDims

def keptDims (operandRank : Nat) : List Nat := (List.range operandRank).filter (· ∉ numbers.skippedDims)

def batchDims (resultRank : Nat) : List Nat := (List.range resultRank).filter (· ∉ numbers.offsetDims)

def combinedShape (batchSizes offsetSizes : List Nat) : List Nat :=
  (List.range (batchSizes.length + offsetSizes.length)).map fun dim =>
    if dim ∈ numbers.offsetDims then offsetSizes.getD (numbers.offsetDims.idxOf dim) 0
    else batchSizes.getD ((numbers.batchDims (batchSizes.length + offsetSizes.length)).idxOf dim) 0

def resultShape (startShape sliceSizes : List Nat) : List Nat :=
  numbers.combinedShape (startShape.eraseIdx numbers.indexVectorDim)
    (gather sliceSizes (numbers.keptDims sliceSizes.length))

def indexVectorSize (startShape : List Nat) : Nat :=
  if numbers.indexVectorDim < startShape.length then startShape.getD numbers.indexVectorDim 0 else 1

@[mk_iff]
structure Verified (operandShape startShape sliceSizes resultShape : List Nat) : Prop where
  operandRank : operandShape.length =
    numbers.offsetDims.length + numbers.collapsedSliceDims.length + numbers.operandBatchingDims.length
  indexVectorDim : numbers.indexVectorDim ≤ startShape.length
  indexVector : numbers.startIndexMap.length = numbers.indexVectorSize startShape
  offsetSorted : numbers.offsetDims.Pairwise (· < ·)
  offsetRange : ∀ dim ∈ numbers.offsetDims, dim < resultShape.length
  skippedUnique : numbers.skippedDims.Nodup
  collapsedSorted : numbers.collapsedSliceDims.Pairwise (· ≤ ·)
  batchingSorted : numbers.operandBatchingDims.Pairwise (· ≤ ·)
  skippedRange : ∀ dim ∈ numbers.skippedDims, dim < operandShape.length
  skippedSizes : ∀ dim ∈ numbers.skippedDims, sliceSizes.getD dim 0 ≤ 1
  startBatchingUnique : numbers.startIndicesBatchingDims.Nodup
  startBatchingRange : ∀ dim ∈ numbers.startIndicesBatchingDims, dim < startShape.length
  startBatchingApart : numbers.indexVectorDim ∉ numbers.startIndicesBatchingDims
  batchingLength : numbers.operandBatchingDims.length = numbers.startIndicesBatchingDims.length
  batchingSizes : gather operandShape numbers.operandBatchingDims = gather startShape numbers.startIndicesBatchingDims
  mapUnique : (numbers.startIndexMap ++ numbers.operandBatchingDims).Nodup
  mapRange : ∀ dim ∈ numbers.startIndexMap, dim < operandShape.length
  sizesRank : sliceSizes.length = operandShape.length
  sizesWithin : ∀ dim < operandShape.length, sliceSizes.getD dim 0 ≤ operandShape.getD dim 0
  result : resultShape = numbers.resultShape startShape sliceSizes

instance (operandShape startShape sliceSizes resultShape : List Nat) :
    Decidable (numbers.Verified operandShape startShape sliceSizes resultShape) :=
  decidable_of_iff' _ (verified_iff numbers operandShape startShape sliceSizes resultShape)

def startIndex (startIndices : Tensor Int) (batchIndex : List Nat) (entry : Nat) : Int :=
  if numbers.indexVectorDim < startIndices.shape.length then
    startIndices.get (batchIndex.insertIdx numbers.indexVectorDim entry)
  else startIndices.get batchIndex

def fullStart (operandShape sliceSizes : List Nat) (startIndices : Tensor Int) (batchIndex : List Nat) (dim : Nat) :
    Nat :=
  if dim ∈ numbers.startIndexMap then
    (max 0 (min (numbers.startIndex startIndices batchIndex (numbers.startIndexMap.idxOf dim))
      ((operandShape.getD dim 0 : Int) - sliceSizes.getD dim 0))).toNat
  else 0

def fullBatching (batchIndex : List Nat) (dim : Nat) : Nat :=
  if dim ∈ numbers.operandBatchingDims then
    let batching := numbers.startIndicesBatchingDims.getD (numbers.operandBatchingDims.idxOf dim) 0
    batchIndex.getD (batching - if batching < numbers.indexVectorDim then 0 else 1) 0
  else 0

def fullOffset (operandRank : Nat) (offsetIndex : List Nat) (dim : Nat) : Nat :=
  if dim ∈ numbers.keptDims operandRank then offsetIndex.getD ((numbers.keptDims operandRank).idxOf dim) 0 else 0

def operandPosition (operandShape sliceSizes : List Nat) (startIndices : Tensor Int)
    (batchIndex offsetIndex : List Nat) (dim : Nat) : Nat :=
  numbers.fullStart operandShape sliceSizes startIndices batchIndex dim + numbers.fullBatching batchIndex dim +
    numbers.fullOffset operandShape.length offsetIndex dim

def operandIndex (operandShape sliceSizes : List Nat) (startIndices : Tensor Int) (index : List Nat) : List Nat :=
  (List.range operandShape.length).map (numbers.operandPosition operandShape sliceSizes startIndices
    (gather index (numbers.batchDims index.length)) (gather index numbers.offsetDims))

end GatherDimensionNumbers

inductive Op where
  | reshape (resultShape : List Nat)
  | transpose (permutation resultShape : List Nat)
  | slice (startIndices limitIndices strides resultShape : List Nat)
  | concatenate (dimension : Nat) (resultShape : List Nat)
  | broadcastInDim (broadcastDimensions resultShape : List Nat)
  | gather (startIndices : Tensor Int) (dimensionNumbers : GatherDimensionNumbers) (sliceSizes : List Nat)
      (indicesAreSorted : Bool) (resultShape : List Nat)

namespace Op

def slicedShape (startIndices limitIndices strides : List Nat) : List Nat :=
  List.zipWith (fun span stride => (span + stride - 1) / stride) (List.zipWith (· - ·) limitIndices startIndices) strides

def concatShape (dimension : Nat) (first : List Nat) (shapes : List (List Nat)) : List Nat :=
  first.set dimension (stackedExtent shapes.length (fun number => shapes.getD number first) dimension)

def broadcastIndex (operandShape broadcastDimensions index : List Nat) : List Nat :=
  (List.range operandShape.length).map fun dim =>
    if operandShape.getD dim 0 = 1 then 0 else index.getD (broadcastDimensions.getD dim 0) 0

def verify : Op → List (List Nat) → Bool
  | reshape resultShape, [shape] => decide (shape.prod = resultShape.prod)
  | transpose permutation resultShape, [shape] =>
      decide (Permutes shape.length permutation ∧ resultShape = TtMlir.gather shape permutation)
  | slice startIndices limitIndices strides resultShape, [shape] =>
      decide (startIndices.length = shape.length ∧ limitIndices.length = shape.length ∧ strides.length = shape.length ∧
        (∀ dim < shape.length, startIndices.getD dim 0 ≤ limitIndices.getD dim 0 ∧
          limitIndices.getD dim 0 ≤ shape.getD dim 0 ∧ 0 < strides.getD dim 0) ∧
        resultShape = slicedShape startIndices limitIndices strides)
  | concatenate dimension resultShape, first :: rest =>
      decide (dimension < first.length ∧
        (∀ shape ∈ first :: rest, shape = first.set dimension (shape.getD dimension 0)) ∧
        resultShape = concatShape dimension first (first :: rest))
  | broadcastInDim dims resultShape, [shape] =>
      decide (dims.length = shape.length ∧ dims.Nodup ∧ (∀ dim ∈ dims, dim < resultShape.length) ∧
        ∀ dim < shape.length, shape.getD dim 0 = 1 ∨ shape.getD dim 0 = resultShape.getD (dims.getD dim 0) 0)
  | gather startIndices numbers sliceSizes _ resultShape, [shape] =>
      decide (numbers.Verified shape startIndices.shape sliceSizes resultShape)
  | _, _ => false

variable {α : Type}

def value : Op → Tensor α → List (Tensor α) → Tensor α
  | reshape resultShape, operand, _ => operand.reshape resultShape
  | transpose permutation _, operand, _ => operand.permute permutation
  | slice startIndices limitIndices strides _, operand, _ => operand.slice startIndices limitIndices strides
  | concatenate dimension _, operand, rest =>
      Tensor.concat (rest.length + 1) (fun number => (operand :: rest).getD number operand) dimension
  | broadcastInDim dims resultShape, operand, _ =>
      { shape := resultShape, get := fun index => operand.get (broadcastIndex operand.shape dims index) }
  | gather startIndices numbers sliceSizes _ resultShape, operand, _ =>
      { shape := resultShape
        get := fun index => operand.get (numbers.operandIndex operand.shape sliceSizes startIndices index) }

/-- An operation that the verifier rejects has no result. -/
def run (op : Op) : List (Tensor α) → Option (Tensor α)
  | [] => none
  | operand :: rest =>
      if op.verify ((operand :: rest).map Tensor.shape) then some (op.value operand rest) else none

theorem run_cons (op : Op) (operand : Tensor α) (rest : List (Tensor α))
    (accepted : op.verify ((operand :: rest).map Tensor.shape) = true) :
    op.run (operand :: rest) = some (op.value operand rest) := if_pos accepted

end Op

end TtMlir.Stablehlo
