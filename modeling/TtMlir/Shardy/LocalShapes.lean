import TtMlir.Shardy.Mesh

/-!
The two passes that make constants, iotas and slices local.
ReplicateNonSplittableValues.cpp decides which of them keep their sharding,
`createNewOperationState` in UpdateGlobalToLocalShapes.cpp rewrites those.
-/

namespace TtMlir.Shardy

/-- For every dim the axes it is sharded along, the major one first. -/
abbrev TensorSharding := List (List String)

section Shapes
variable (mesh : Mesh)

/-- The divisibility check is against the old extent for every axis. -/
def calculateUpdatedDim (shardingAxes : List String) (oldShapeDim : Nat) : Option Nat :=
  shardingAxes.foldlM (fun updatedShapeDim axisName =>
    if ¬mesh.Knows axisName ∨ oldShapeDim % mesh.axisSize axisName ≠ 0 then none
    else some (updatedShapeDim / mesh.axisSize axisName)) oldShapeDim

def populateShardedOutputType : TensorSharding → List Nat → Option (List Nat)
  | axes :: sharding, extent :: shape => do
      let updatedShapeDim ← calculateUpdatedDim mesh axes extent
      let newShape ← populateShardedOutputType sharding shape
      return updatedShapeDim :: newShape
  | _, shape => some shape

/-- Without a mesh every dim with an axis counts as sharded, with one the axes of size 1 do not. -/
def isFullyReplicatedTensor (sharding : TensorSharding) (meshOp : Option Mesh) : Bool :=
  sharding.all fun axes => axes.isEmpty || match meshOp with
    | none => false
    | some mesh => axes.all fun axis => !(mesh.Knows axis && 1 < mesh.axisSize axis)

end Shapes

structure DenseElementsAttr (α : Type) where
  shape : List Nat
  values : List α
  counted : values.length = shape.prod

namespace DenseElementsAttr
variable {α : Type} [Inhabited α]

def tensor (attr : DenseElementsAttr α) : Tensor α :=
  { shape := attr.shape, get := fun index => attr.values.getD (flatten attr.shape index) default }

/-- Attributes whose values all agree are stored as splats. -/
def isSplat [DecidableEq α] (attr : DenseElementsAttr α) : Bool :=
  !attr.values.isEmpty && attr.values.all (· == attr.values.headD default)

def splat (shape : List Nat) (value : α) : DenseElementsAttr α :=
  { shape, values := List.replicate shape.prod value, counted := List.length_replicate }

end DenseElementsAttr

/-- Row-major increment: the last dim that can go up does, the dims after it start over. -/
def advance : List Nat → List Nat → List Nat × Bool
  | extent :: shape, position :: index =>
      match advance shape index with
      | (rest, false) => (position :: rest, false)
      | (rest, true) => if position + 1 < extent then ((position + 1) :: rest, false) else (0 :: rest, true)
  | _, _ => ([], true)

def globalStrides : List Nat → List Nat
  | [] => []
  | [_] => [1]
  | _ :: extent :: shape =>
      match globalStrides (extent :: shape) with
      | [] => []
      | stride :: strides => stride * extent :: stride :: strides

section Periodic
variable {α : Type} [Inhabited α] [DecidableEq α]

/-- The sharded dims with their shard counts. Several axes on one dim are not supported. -/
def shardedDims (mesh : Mesh) (sharding : TensorSharding) : Option (List (Nat × Nat)) :=
  sharding.zipIdx.foldlM (fun dims (axisRefs, dimIdx) =>
    match axisRefs with
    | [] => some dims
    | [axis] =>
        if ¬mesh.Knows axis then none
        else if 1 < mesh.axisSize axis then some (dims ++ [(dimIdx, mesh.axisSize axis)])
        else some dims
    | _ => none) []

/-- Every shard along the dim holds what the first one does. -/
def isPeriodic (globalValues : List α) (globalShape : List Nat) (shardingDim numShards : Nat) : Bool :=
  let totalDimSize := globalShape.getD shardingDim 0
  let shardDimSize := totalDimSize / numShards
  let innerBlockSize := (globalShape.drop (shardingDim + 1)).prod
  let outerCount := (globalShape.take shardingDim).prod
  let shardStep := shardDimSize * innerBlockSize
  let rowSize := totalDimSize * innerBlockSize
  totalDimSize % numShards == 0 &&
    (List.range outerCount).all fun out =>
      (List.range' 1 (numShards - 1)).all fun k =>
        (List.range shardDimSize).all fun s =>
          (List.range innerBlockSize).all fun inner =>
            let offset0 := out * rowSize + s * innerBlockSize + inner
            let offsetK := offset0 + k * shardStep
            globalValues.getD offset0 default == globalValues.getD offsetK default

def shardValues (globalValues : List α) (strides localShape : List Nat) : Nat → List Nat → List α
  | 0, _ => []
  | count + 1, localIndices =>
      let globalFlatIdx := (List.zipWith (· * ·) localIndices strides).sum
      globalValues.getD globalFlatIdx default ::
        shardValues globalValues strides localShape count (advance localShape localIndices).1

omit [DecidableEq α] in
theorem shardValues_length (globalValues : List α) (strides localShape : List Nat) (count : Nat)
    (localIndices : List Nat) : (shardValues globalValues strides localShape count localIndices).length = count := by
  induction count generalizing localIndices with
  | zero => rfl
  | succ count ih => rw [shardValues, List.length_cons, ih]

def tryGetPeriodicShardSlice (mesh : Mesh) (globalAttr : DenseElementsAttr α) (localShape : List Nat)
    (sharding : TensorSharding) : Option (DenseElementsAttr α) := do
  let dims ← shardedDims mesh sharding
  if dims = [] then none
  else if dims.all fun (dim, numShards) => isPeriodic globalAttr.values globalAttr.shape dim numShards then
    some
      { shape := localShape
        values := shardValues globalAttr.values (globalStrides globalAttr.shape) localShape localShape.prod
          (List.replicate globalAttr.shape.length 0)
        counted := shardValues_length _ _ _ _ _ }
  else none

end Periodic

inductive ValueOp (α : Type) where
  | constant (value : DenseElementsAttr α)
  | iota (shape : List Nat) (iotaDimension : Nat)
  | slice (startIndices limitIndices strides : List Nat)

namespace ValueOp
variable {α : Type}

def sliceShape (startIndices limitIndices strides : List Nat) : List Nat :=
  List.zipWith (fun span stride => (span + stride - 1) / stride) (List.zipWith (· - ·) limitIndices startIndices)
    strides

def resultShape : ValueOp α → List Nat
  | .constant value => value.shape
  | .iota shape _ => shape
  | .slice startIndices limitIndices strides => sliceShape startIndices limitIndices strides

/-- Only a slice reads the operand. -/
def evaluate [Inhabited α] [NatCast α] (operand : Tensor α) : ValueOp α → Tensor α
  | .constant value => value.tensor
  | .iota shape iotaDimension => { shape, get := fun index => (index.getD iotaDimension 0 : α) }
  | .slice startIndices limitIndices strides => operand.slice startIndices limitIndices strides

end ValueOp

section Passes
variable {α : Type} [Inhabited α] [DecidableEq α] (mesh : Mesh)

def replicated (rank : Nat) : TensorSharding := List.replicate rank []

def dimStaysSharded (axes : List String) (extent start limit stride : Nat) : Bool :=
  axes.isEmpty || (start == 0 && limit == extent && stride == 1) ||
    (1 < stride && start < stride && limit == extent &&
      match calculateUpdatedDim mesh axes extent with
      | some shardWidth => shardWidth % stride == 0
      | none => false)

def sliceStaysSharded : TensorSharding → List Nat → List Nat → List Nat → List Nat → Bool
  | axes :: sharding, extent :: inputShape, start :: startIndices, limit :: limitIndices, stride :: strides =>
      dimStaysSharded mesh axes extent start limit stride &&
        sliceStaysSharded sharding inputShape startIndices limitIndices strides
  | _, _, _, _, _ => true

/-- The sharding the op has after the pass. -/
def replicateNonSplittableValues (sharding : TensorSharding) (inputShape : List Nat) : ValueOp α → TensorSharding
  | .constant value =>
      if value.isSplat then sharding
      else if isFullyReplicatedTensor sharding none then sharding
      else match populateShardedOutputType mesh sharding value.shape with
        | none => sharding
        | some localType =>
            if localType = value.shape then sharding
            else if (tryGetPeriodicShardSlice mesh value localType sharding).isSome then sharding
            else replicated value.shape.length
  | .iota shape iotaDimension =>
      if isFullyReplicatedTensor sharding (some mesh) then sharding
      else if iotaDimension ≥ sharding.length ∨ sharding.getD iotaDimension [] = [] then sharding
      else replicated shape.length
  | .slice startIndices limitIndices strides =>
      if isFullyReplicatedTensor sharding (some mesh) then sharding
      else if sliceStaysSharded mesh sharding inputShape startIndices limitIndices strides then sharding
      else replicated inputShape.length

/-- One dim of a slice. The check for several axes on a dim looks at a list of one element and never fails. -/
def updateSliceDim (axes : List String) (start limit stride : Nat) : Except String (Nat × Nat) :=
  if 1 < stride ∧ start < stride then
    match calculateUpdatedDim mesh axes limit with
    | none => .error "Could not apply propagated tensor shardings for limit indices of attribute dictionary for slice op"
    | some updatedLimitDim => .ok (start, updatedLimitDim)
  else
    match calculateUpdatedDim mesh axes limit with
    | none => .error "Could not apply propagated tensor shardings for limit indices of attribute dictionary for slice op"
    | some updatedLimitDim =>
        match calculateUpdatedDim mesh axes start with
        | none =>
            .error "Could not apply propagated tensor shardings for start indices of attribute dictionary for slice op"
        | some updatedStartDim => .ok (updatedStartDim, updatedLimitDim)

def updateSliceIndices : TensorSharding → List Nat → List Nat → List Nat → Except String (List Nat × List Nat)
  | axes :: sharding, start :: startIndices, limit :: limitIndices, stride :: strides => do
      let (newStart, newLimit) ← updateSliceDim mesh axes start limit stride
      let (newStarts, newLimits) ← updateSliceIndices sharding startIndices limitIndices strides
      return (newStart :: newStarts, newLimit :: newLimits)
  | _, startIndices, limitIndices, _ => .ok (startIndices, limitIndices)

def createNewOperationState (sharding operandSharding : TensorSharding) (newType : List Nat) :
    ValueOp α → Except String (ValueOp α)
  | .constant value =>
      if value.shape = newType then .ok (.constant value)
      else if value.isSplat then .ok (.constant (DenseElementsAttr.splat newType (value.values.headD default)))
      else match tryGetPeriodicShardSlice mesh value newType sharding with
        | none => .error ("Non-splat, non-periodic constant reached UpdateGlobalToLocalShapes with a sharded " ++
            "annotation. ReplicateNonSplittableValuesPass should have marked it as replicated.")
        | some periodicAttr => .ok (.constant periodicAttr)
  | .iota _ iotaDimension => .ok (.iota newType iotaDimension)
  | .slice startIndices limitIndices strides => do
      let (newStarts, newLimits) ← updateSliceIndices mesh operandSharding startIndices limitIndices strides
      return .slice newStarts newLimits strides

def updateShapes (sharding operandSharding : TensorSharding) (op : ValueOp α) :
    Except String (List Nat × ValueOp α) :=
  match populateShardedOutputType mesh sharding op.resultShape with
  | none => .error "Could not apply propagated tensor shardings to tensor dimensions"
  | some newType => do
      let newOp ← createNewOperationState mesh sharding operandSharding newType op
      return (newType, newOp)

end Passes

end TtMlir.Shardy
