import Mathlib.Algebra.Order.Field.Basic
import TtMlir.Library.Digits

/-!
Commuting a permute or a reshape through a reduction, ReduceCommutePatterns.cpp.
Element types and encodings are left out; the result type of an operation is the
one its verifier expects, and the users of the first operation are the second one.
-/

namespace TtMlir.Ttir.ReduceCommute

/-- The reduce ops that the patterns are registered for. -/
inductive ReduceOp where
  | sum
  | mean
  | max
  | min
  | prod
  | reduceAnd
  | reduceOr
  | argMax
  deriving DecidableEq

/-- What a reduction makes of its elements in row-major order. The index of argmax is that of the
first of the largest. -/
def ReduceOp.eval {K : Type} [Field K] [LinearOrder K] (op : ReduceOp) (values : List K) : K :=
  match op with
  | .sum => values.sum
  | .mean => values.sum / values.length
  | .max => values.max?.getD 0
  | .min => values.min?.getD 0
  | .prod => values.prod
  | .reduceAnd => if values.all fun value => decide (value ≠ 0) then 1 else 0
  | .reduceOr => if values.any fun value => decide (value ≠ 0) then 1 else 0
  | .argMax => (firstMax values : Nat)

structure Reduce where
  op : ReduceOp
  keepDim : Bool
  dimArg : Option (List Int)

/-- The dims of one tensor manipulation. -/
inductive Tm where
  | permute (permutation : List Nat)
  | reshape (shape : List Nat)

inductive Op where
  | tm (tm : Tm)
  | reduce (reduce : Reduce)

section Verifiers

def verifyReduceOp (inputTensorRank : Nat) (reduceDims : Option (List Int)) : Bool :=
  match reduceDims with
  | none => true
  | some dims => (dims.all fun dim => decide (-inputTensorRank ≤ dim ∧ dim < inputTensorRank)) && decide dims.Nodup

def reduceDimsMask (inputTensorRank : Nat) (reduceDims : Option (List Int)) : List Bool :=
  (List.range inputTensorRank).map fun index : Nat =>
    match reduceDims with
    | none => true
    | some dims => dims.any fun dim => decide ((dim + inputTensorRank) % inputTensorRank = index)

def expectedOutputShape (keepDim : Bool) (mask : List Bool) (shape : List Nat) : List Nat :=
  if keepDim then unitsAt mask shape else unmasked mask shape

def Op.resultShape (op : Op) (shape : List Nat) : Option (List Nat) :=
  match op with
  | .tm (.permute permutation) => if Permutes shape.length permutation then some (gather shape permutation) else none
  | .tm (.reshape target) => if shape.prod = target.prod then some target else none
  | .reduce attrs =>
      if verifyReduceOp shape.length attrs.dimArg then
        some (expectedOutputShape attrs.keepDim (reduceDimsMask shape.length attrs.dimArg) shape)
      else none

def resultShape (ops : List Op) (shape : List Nat) : Option (List Nat) :=
  ops.foldlM (fun shape op => op.resultShape shape) shape

end Verifiers

section Values

variable {K : Type} [Field K] [LinearOrder K]

def Reduce.run (attrs : Reduce) (tensor : Tensor K) : Tensor K :=
  let mask := reduceDimsMask tensor.shape.length attrs.dimArg
  let reduced := tensor.reduce attrs.op.eval (keptDims mask)
  if attrs.keepDim then reduced.withUnits mask tensor.shape else reduced

def Op.run (op : Op) (tensor : Tensor K) : Tensor K :=
  match op with
  | .tm (.permute permutation) => tensor.permute permutation
  | .tm (.reshape target) => tensor.reshape target
  | .reduce attrs => attrs.run tensor

def run (ops : List Op) (tensor : Tensor K) : Tensor K := ops.foldl (fun tensor op => op.run tensor) tensor

end Values

section Permute

def normalized (rank : Nat) (d : Int) : Int := if d < 0 then d + rank else d

def getReduceDimValues (rank : Nat) (dimArg : Option (List Int)) : List Nat :=
  match dimArg with
  | none => List.range rank
  | some dims => dims.map fun d => (normalized rank d).toNat

def permuteDims (dimArg : Option (List Int)) (permutation : List Nat) : List Int :=
  let rank := permutation.length
  let dims := dimArg.getD ((List.range rank).map fun d : Nat => (d : Int))
  dims.map fun d => (permutation.getD (normalized rank d).toNat 0 : Nat)

/-- Drops the given positions and renumbers the surviving values contiguously. -/
def contractPermutation (perm removedPositions : List Nat) : List Nat :=
  let n := perm.length
  let removedVals := removedPositions.map fun pos => perm.getD pos 0
  let renumber := (List.range n).map fun v =>
    ((List.range v).filter fun earlier => decide (earlier ∉ removedVals)).length
  ((List.range n).filter fun i => decide (i ∉ removedPositions)).map fun i => renumber.getD (perm.getD i 0) 0

/-- Puts the reduced dims back in place. -/
def expandPermutation (smallPerm reducedDims : List Nat) (fullRank : Nat) : List Nat :=
  let surviving := (List.range fullRank).filter fun i => decide (i ∉ reducedDims)
  (List.range fullRank).map fun d =>
    if d ∈ reducedDims then d else surviving.getD (smallPerm.getD (surviving.idxOf d) 0) 0

def createNewReduceOpWithPermutedDims (attrs : Reduce) (dimPermutation : List Nat) : Reduce :=
  { attrs with dimArg := some (permuteDims attrs.dimArg dimPermutation) }

def inputPermutation (attrs : Reduce) (rank : Nat) (userPerm : List Nat) : List Nat :=
  if attrs.keepDim then userPerm else expandPermutation userPerm (getReduceDimValues rank attrs.dimArg) rank

def commutePermuteUpwards (attrs : Reduce) (shape userPerm : List Nat) : Tm × Reduce :=
  let inputPerm := inputPermutation attrs shape.length userPerm
  (.permute inputPerm, createNewReduceOpWithPermutedDims attrs (inverse inputPerm))

def commutePermuteDownwards (attrs : Reduce) (permutation : List Nat) : Tm × Reduce :=
  let outputPerm :=
    if attrs.keepDim then permutation
    else contractPermutation permutation (getReduceDimValues permutation.length attrs.dimArg)
  (.permute outputPerm, createNewReduceOpWithPermutedDims attrs permutation)

end Permute

section Reshape

/-- From the last of the first `count` dims to the first, with the stride behind. -/
def findFrom (toShape : List Nat) (fromStride dimSize : Nat) : Nat → Nat → Option Nat
  | 0, _ => none
  | i + 1, toStride =>
      if toStride > fromStride then none
      else if toStride = fromStride ∧ toShape.getD i 0 = dimSize then some i
      else findFrom toShape fromStride dimSize i (toStride * toShape.getD i 0)

def stride (shape : List Nat) (dim : Nat) : Nat := (shape.drop (dim + 1)).prod

def findMatchingDim (fromShape toShape : List Nat) (dim : Int) : Option Nat :=
  if dim < 0 ∨ fromShape.length ≤ dim then none
  else findFrom toShape (stride fromShape dim.toNat) (fromShape.getD dim.toNat 0) toShape.length 1

def mapDims (fromShape toShape : List Nat) : List Int → Option (List Nat)
  | [] => some []
  | d :: rest =>
      match findMatchingDim fromShape toShape (normalized fromShape.length d) with
      | some mapped => (mapDims fromShape toShape rest).map (mapped :: ·)
      | none => none

/-- The reduced dims in the other shape; `none` when one of them has no match. -/
def mapReduceDims (fromShape toShape : List Nat) (dimArg : Option (List Int)) : Option (List Nat) :=
  match dimArg with
  | none => some (List.range toShape.length)
  | some dims => mapDims fromShape toShape dims

/-- An empty list of mapped dims is not favorable either. -/
def favorableDims (fromShape toShape : List Nat) (dimArg : Option (List Int)) : Option (List Nat) :=
  match mapReduceDims fromShape toShape dimArg with
  | some (dim :: dims) => some (dim :: dims)
  | _ => none

def createReduceOp (attrs : Reduce) (newDims : List Nat) : Reduce :=
  { attrs with dimArg := some (newDims.map fun d : Nat => (d : Int)) }

def isReshapeUpwardsViable (attrs : Reduce) (reduceInputShape : List Nat) : Bool :=
  attrs.keepDim &&
    match attrs.dimArg with
    | none => reduceInputShape.all fun d => decide (d = 1)
    | some dims => dims.all fun d =>
        decide (reduceInputShape.getD (normalized reduceInputShape.length d).toNat 0 = 1)

def commuteReshapeUpwards (attrs : Reduce) (reduceInputShape reshapeOutputShape : List Nat) : Option (Tm × Reduce) :=
  if isReshapeUpwardsViable attrs reduceInputShape then
    (favorableDims reduceInputShape reshapeOutputShape attrs.dimArg).map fun newDims =>
      (.reshape reshapeOutputShape, createReduceOp attrs newDims)
  else none

def commuteReshapeDownwards (attrs : Reduce) (reshapeInputShape reshapeOutputShape : List Nat) :
    Option (Tm × Reduce) :=
  (favorableDims reshapeOutputShape reshapeInputShape attrs.dimArg).map fun newDims =>
    (.reshape (expectedOutputShape attrs.keepDim (reduceDimsMask reshapeOutputShape.length attrs.dimArg)
      reshapeOutputShape), createReduceOp attrs newDims)

end Reshape

section Commute

inductive Direction where
  | upwards
  | downwards

/-- The two ops before the rewrite: upwards the manipulation uses the reduction,
downwards the reduction uses the manipulation. -/
def original (direction : Direction) (tm : Tm) (attrs : Reduce) : List Op :=
  match direction with
  | .upwards => [.reduce attrs, .tm tm]
  | .downwards => [.tm tm, .reduce attrs]

def rewritten (direction : Direction) (tm : Tm) (attrs : Reduce) : List Op :=
  match direction with
  | .upwards => [.tm tm, .reduce attrs]
  | .downwards => [.reduce attrs, .tm tm]

/-- The new manipulation and the new reduction, where a pattern rewrites the ops
on an input of the given shape. -/
def commute (direction : Direction) (tm : Tm) (attrs : Reduce) (shape : List Nat) : Option (Tm × Reduce) :=
  match direction, tm with
  | .upwards, .permute userPerm => some (commutePermuteUpwards attrs shape userPerm)
  | .downwards, .permute permutation => some (commutePermuteDownwards attrs permutation)
  | .upwards, .reshape target => commuteReshapeUpwards attrs shape target
  | .downwards, .reshape target => commuteReshapeDownwards attrs shape target

end Commute

section Preservation

def reducedRank (direction : Direction) (tm : Tm) (shape : List Nat) : Nat :=
  match direction, tm with
  | .downwards, _ => shape.length
  | .upwards, .permute permutation => permutation.length
  | .upwards, .reshape target => target.length

/-- The dim list stays valid, and the new ops compute the tensor of the two before, for all contents.
-/
structure Preserves (K : Type) [Field K] [LinearOrder K] (direction : Direction) (tm : Tm) (attrs : Reduce)
    (shape : List Nat) (new : Tm × Reduce) : Prop where
  distinct : ∃ dims, new.2.dimArg = some dims ∧ dims.Nodup ∧
    ∀ dim ∈ dims, 0 ≤ dim ∧ dim < reducedRank direction new.1 shape
  result : resultShape (rewritten direction new.1 new.2) shape = resultShape (original direction tm attrs) shape
  values : ∀ tensor : Tensor K, tensor.shape = shape →
    Tensor.Same (run (rewritten direction new.1 new.2) tensor) (run (original direction tm attrs) tensor)

end Preservation

end TtMlir.Ttir.ReduceCommute
