import TtMlir.Stablehlo.Ops
import TtMlir.Library.MoveLast

/-!
The conversion of complex tensors to real ones with a trailing dim of two,
ComplexDataTypeConversion.cpp: the operation that each pattern puts in the place of another.
-/

namespace TtMlir.Stablehlo

@[ext]
structure ComplexElement (R : Type) where
  re : R
  im : R
deriving Inhabited, DecidableEq

def ComplexElement.component (element : ComplexElement R) (part : Nat) : R := if part = 0 then element.re else element.im

def convertType (shape : List Nat) : List Nat := shape ++ [2]

/-- The unpacked layout: real and imaginary part along a trailing dim. -/
def encode (tensor : Tensor (ComplexElement R)) : Tensor R :=
  { shape := convertType tensor.shape
    get := fun index => (tensor.get index.dropLast).component (index.getLast?.getD 0) }

def transposeTrailingToLeading (input : Tensor R) : Option (Tensor R) :=
  let rank := input.shape.length
  let perm := (rank - 1) :: List.range (rank - 1)
  let newShape := input.shape.getD (rank - 1) 0 :: (List.range (rank - 1)).map (input.shape.getD · 0)
  (Op.transpose perm newShape).run [input]

def transposeLeadingToTrailing (input : Tensor R) : Option (Tensor R) :=
  let rank := input.shape.length
  let perm := List.range' 1 (rank - 1) ++ [0]
  let newShape := (List.range' 1 (rank - 1)).map (input.shape.getD · 0) ++ [input.shape.getD 0 0]
  (Op.transpose perm newShape).run [input]

def complexToDecomposed (lhs rhs : Tensor R) : Option (Tensor R) := do
  let unsqueezedShape := 1 :: lhs.shape
  let reshapedLhs ← (Op.reshape unsqueezedShape).run [lhs]
  let reshapedRhs ← (Op.reshape unsqueezedShape).run [rhs]
  let concatOp ← (Op.concatenate 0 (2 :: lhs.shape)).run [reshapedLhs, reshapedRhs]
  transposeLeadingToTrailing concatOp

/-- `real(x)` and `imag(x)` as a transpose, a slice and a reshape, with offset 0 or 1. -/
def realImagToDecomposed (offset : Nat) (operand : Tensor R) (resultType : List Nat) : Option (Tensor R) := do
  let transposed ← transposeTrailingToLeading operand
  let rank := transposed.shape.length
  let begins := (List.replicate rank 0).set 0 offset
  let ends := transposed.shape.set 0 (offset + 1)
  let steps := List.replicate rank 1
  let sliceOp ← (Op.slice begins ends steps (transposed.shape.set 0 1)).run [transposed]
  (Op.reshape resultType).run [sliceOp]

def constant [Inhabited α] (shape : List Nat) (values : List α) : Tensor α :=
  { shape, get := fun index => values.getD (flatten shape index) default }

def floatValues (values : List (ComplexElement R)) : List R :=
  values.flatMap fun complexVal => [complexVal.re, complexVal.im]

/-- The operation on unpacked operands that replaces one on complex operands; a transpose has no
pattern. -/
def Op.convert : Op → Option Op
  | .reshape resultShape => some (.reshape (convertType resultShape))
  | .concatenate dimension resultShape => some (.concatenate dimension (convertType resultShape))
  | .broadcastInDim dims resultShape =>
      some (.broadcastInDim (dims ++ [(convertType resultShape).length - 1]) (convertType resultShape))
  | .gather startIndices numbers sliceSizes indicesAreSorted resultShape =>
      -- the new dim is numbered by the result, which collapsed dims make shorter than the operand
      some (.gather startIndices
        { numbers with offsetDims := numbers.offsetDims ++ [(convertType resultShape).length - 1] }
        (sliceSizes ++ [2]) indicesAreSorted (convertType resultShape))
  | .slice startIndices limitIndices strides resultShape =>
      some (.slice (startIndices ++ [0]) (limitIndices ++ [2]) (strides ++ [1]) (convertType resultShape))
  | .transpose .. => none

/-- An operation that the pass rewrites, with its operands. -/
inductive ComplexOp (R : Type) where
  | complex (lhs rhs : Tensor R)
  | real (operand : Tensor (ComplexElement R))
  | imag (operand : Tensor (ComplexElement R))
  | constant (shape : List Nat) (values : List (ComplexElement R))
  | data (op : Op) (operands : List (Tensor (ComplexElement R)))

namespace ComplexOp
variable [Inhabited R]

/-- What the operation computes, as the conversion must represent it: a complex result unpacked, a
real one plain. Nothing if its verifier rejects it or the pass leaves it. -/
def expected : ComplexOp R → Option (Tensor R)
  | complex lhs rhs =>
      if lhs.shape = rhs.shape then
        some (encode { shape := lhs.shape, get := fun index => ⟨lhs.get index, rhs.get index⟩ })
      else none
  | real operand => some { shape := operand.shape, get := fun index => (operand.get index).re }
  | imag operand => some { shape := operand.shape, get := fun index => (operand.get index).im }
  | constant shape values =>
      if values.length = shape.prod then some (encode (Stablehlo.constant shape values)) else none
  | data op operands =>
      if op.convert.isSome then (op.run operands).map encode else none

def converted : ComplexOp R → Option (Tensor R)
  | complex lhs rhs => complexToDecomposed lhs rhs
  | real operand => realImagToDecomposed 0 (encode operand) operand.shape
  | imag operand => realImagToDecomposed 1 (encode operand) operand.shape
  | constant shape values =>
      if (floatValues values).length = (convertType shape).prod then
        some (Stablehlo.constant (convertType shape) (floatValues values))
      else none
  | data op operands => do
      let newOp ← op.convert
      newOp.run (operands.map encode)

end ComplexOp

section Encode
variable (tensor : Tensor (ComplexElement R))

theorem encode_shape : (encode tensor).shape = tensor.shape ++ [2] := rfl

theorem encode_get (index : List Nat) (part : Nat) :
    (encode tensor).get (index ++ [part]) = (tensor.get index).component part := by
  simp [encode]

theorem inside_convertType {shape index : List Nat} (inside : Inside (convertType shape) index) :
    ∃ front part, index = front ++ [part] ∧ Inside shape front ∧ part < 2 := by
  obtain ⟨front, position, back, rfl, before, below, after⟩ := Inside.split inside
  obtain rfl : back = [] := List.forall₂_nil_right_iff.mp after
  exact ⟨front, position, rfl, before, below⟩

/-- A tensor with a trailing dim of two that agrees with the unpacked one part by part. -/
theorem same_encode {other : Tensor R} (shape : other.shape = convertType tensor.shape)
    (parts : ∀ index part, Inside tensor.shape index → part < 2 →
      other.get (index ++ [part]) = (tensor.get index).component part) :
    Tensor.Same other (encode tensor) := by
  refine ⟨shape, fun index inside => ?_⟩
  rw [shape] at inside
  obtain ⟨front, part, rfl, before, below⟩ := inside_convertType inside
  rw [parts front part before below, encode_get]

end Encode

end TtMlir.Stablehlo
