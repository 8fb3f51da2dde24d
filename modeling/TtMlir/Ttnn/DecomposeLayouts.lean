import TtMlir.Library.Emission
import TtMlir.Ttnn.LayoutAttr

/-!
Decomposition of a `ttnn.to_tensor_spec` op into single steps: `to_device`,
`from_device`, `to_memory_config`, `typecast` and `to_layout`, and the padded
tilize of a sharded tensor. Every step reads the type of the value before it.
-/

namespace TtMlir.Ttnn.DecomposeLayouts

inductive OpKind
  | toDevice | fromDevice | toMemoryConfig | toLayout | typecast
  | pad (padding : List Nat)
  | sliceStatic (begins ends steps : List Nat)
deriving DecidableEq

/-- An op next to the value: a call, with its CPU-hoisting mark, or another op. -/
inductive Neighbour
  | call (cpuHoisted : Bool)
  | other
deriving DecidableEq

def Neighbour.isCPUHoistedCall : Neighbour → Bool
  | .call cpuHoisted => cpuHoisted
  | .other => false

/-- The element type of a tensor names the data type of its encoding, or is the
one that the factory gives it. -/
def Agrees (tensorType : RankedTensorType) : Prop :=
  elementTypeToDataType tensorType.elementType = some tensorType.encoding.getDataType ∨
    tensorType.elementType = .plain (dataTypeToElementType tensorType.encoding.getDataType)

structure ToTensorSpecOp where
  input : RankedTensorType
  output : TTNNLayoutAttr
  definingOp : Option Neighbour
  users : List Neighbour
  agrees : Agrees input

def isOutputFromCPUHoistedFunction (op : ToTensorSpecOp) : Bool := op.definingOp.any Neighbour.isCPUHoistedCall

def isInputToCPUHoistedFunction (op : ToTensorSpecOp) : Bool :=
  match op.users with
  | [user] => user.isCPUHoistedCall
  | _ => false

def isOnDeviceLayoutChangeSupportedForDataType (dataType : DataType) : Bool :=
  dataType == .bFloat16 || dataType == .float32 || dataType == .uInt32 || dataType == .uInt16 || dataType == .int32

def isFloatFamily : DataType → Bool
  | .uInt32 | .uInt16 | .uInt8 | .int32 | .bool => false
  | _ => true

section Predicates
variable (input output : TTNNLayoutAttr)

def hasLayoutChange : Bool := input.getLayout != output.getLayout

def hasDtypeChange : Bool := input.getDataType != output.getDataType

def hasMemoryChange : Bool :=
  if input.bufferType != output.bufferType then true
  else if input.isSystemBufferType then false
  else if input.memLayout != output.memLayout then true
  -- The same cores can hold different grids, and the same grid different cores.
  else if input.hasShardedTensorMemoryLayout && output.hasShardedTensorMemoryLayout then
    input.gridShape != output.gridShape || input.coreRangeSet != output.coreRangeSet
  else false

def shouldLayoutAndDtypeChangesRunBeforeMemoryMove : Bool :=
  if input.isSystemBufferType || output.isSystemBufferType then !input.isSystemBufferType
  else if hasLayoutChange input output then
    if output.isTiled then true
    else
      let deshardFirst := input.hasShardedL1TensorMemoryLayout ||
        (input.bufferType == .l1 && output.bufferType == .dram)
      !deshardFirst
  else true

def layoutChangeNeedsHost : Bool :=
  if !hasLayoutChange input output then false
  else
    !isOnDeviceLayoutChangeSupportedForDataType input.getDataType &&
      !isOnDeviceLayoutChangeSupportedForDataType output.getDataType

def canKeepTypecastOnDevice : Bool :=
  if input.isTiled then input.isDeviceBufferType else output.isDeviceBufferType

end Predicates

section Ops
variable {source : RankedTensorType} (current : Emission OpKind RankedTensorType source)

def withTargetMemory (currentType : RankedTensorType) (target : TTNNLayoutAttr) : Option RankedTensorType := do
  let encoding ← ((((Builder.ofLayout currentType.encoding).setBufferType target.bufferType).setMemoryLayout
    target.memLayout).setGridShape target.gridShape |>.setCoreRangeSet target.coreRangeSet).build
  some (RankedTensorTypeFactory.createEncoded currentType encoding)

def createToDeviceOp (target : TTNNLayoutAttr) : Option (Emission OpKind RankedTensorType source) := do
  let resultType ← withTargetMemory current.current target
  some (current.emit .toDevice resultType)

def createFromDeviceOp : Option (Emission OpKind RankedTensorType source) := do
  let resultType ← RankedTensorTypeFactory.createOfBufferType current.current .systemMemory
  some (current.emit .fromDevice resultType)

/-- With a data type the result changes its data type as well. -/
def createToLayoutOp (targetLayout : Layout) (dtype : Option DataType) :
    Option (Emission OpKind RankedTensorType source) := do
  let resultType ← RankedTensorTypeFactory.createOfLayout current.current targetLayout
  match dtype with
  | none => some (current.emit .toLayout resultType)
  | some dataType =>
      let castType ← RankedTensorTypeFactory.createOfDataType resultType dataType
      some (current.emit .toLayout castType)

def createTypecastOp (targetDtype : DataType) : Option (Emission OpKind RankedTensorType source) := do
  let resultType ← RankedTensorTypeFactory.createOfDataType current.current targetDtype
  some (current.emit .typecast resultType)

def createToMemoryConfigOp (target : TTNNLayoutAttr) : Option (Emission OpKind RankedTensorType source) := do
  let resultType ← withTargetMemory current.current target
  some (current.emit .toMemoryConfig resultType)

/-- Tilize does not support height-sharded tensors in L1 whose shape is not aligned to tiles. -/
def needsShardedTilizePadWorkaround (type : RankedTensorType) : Bool :=
  if type.encoding.bufferType != .l1 then false
  else if type.encoding.memLayout != some .heightSharded then false
  else
    let rank := type.shape.length
    if rank < 2 then false
    else type.shape.getD (rank - 2) 0 % TILE_HEIGHT != 0 || type.shape.getD (rank - 1) 0 % TILE_WIDTH != 0

def divideCeil (numerator denominator : Nat) : Nat := (numerator + denominator - 1) / denominator

def getPaddedShape (shape : List Nat) : List Nat :=
  let rank := shape.length
  (shape.set (rank - 2) (divideCeil (shape.getD (rank - 2) 0) TILE_HEIGHT * TILE_HEIGHT)).set (rank - 1)
    (divideCeil (shape.getD (rank - 1) 0) TILE_WIDTH * TILE_WIDTH)

def getPadding (shape : List Nat) : List Nat :=
  let rank := shape.length
  let h := shape.getD (rank - 2) 0
  let w := shape.getD (rank - 1) 0
  let padding := List.replicate (rank * 2) 0
  let padding := if h % TILE_HEIGHT != 0 then
    padding.set ((rank - 2) * 2 + 1) (divideCeil h TILE_HEIGHT * TILE_HEIGHT - h) else padding
  if w % TILE_WIDTH != 0 then
    padding.set ((rank - 1) * 2 + 1) (divideCeil w TILE_WIDTH * TILE_WIDTH - w) else padding

/-- Unshard, pad, tilize and slice: the result is interleaved in DRAM. -/
def handleShardedTilizeWithPadding (targetLayout : Layout) : Option (Emission OpKind RankedTensorType source) := do
  let inputType := current.current
  let shape := inputType.shape
  let rank := shape.length
  let dramEncoding ← ((((Builder.ofLayout inputType.encoding).setBufferType .dram).setMemoryLayout
    (some .interleaved)).setGridShape [1, 1]).build
  let unsharded := current.emit .toMemoryConfig (RankedTensorTypeFactory.createEncoded inputType dramEncoding)
  let paddedType ← RankedTensorTypeFactory.createOfShape unsharded.current (getPaddedShape shape)
  let padded := unsharded.emit (.pad (getPadding shape)) paddedType
  let paddedTiledType ← RankedTensorTypeFactory.createOfLayout padded.current targetLayout
  let tilized := padded.emit .toLayout paddedTiledType
  let slicedType ← RankedTensorTypeFactory.createOfShape tilized.current shape
  some (tilized.emit (.sliceStatic (List.replicate rank 0) shape (List.replicate rank 1)) slicedType)

def createMemoryMove (target : TTNNLayoutAttr) : Option (Emission OpKind RankedTensorType source) :=
  let currentOnHost := current.current.encoding.bufferType == .systemMemory
  let targetOnHost := target.isSystemBufferType
  if currentOnHost && !targetOnHost then createToDeviceOp current target
  else if !currentOnHost && targetOnHost then createFromDeviceOp current
  else if currentOnHost && targetOnHost then some current
  else createToMemoryConfigOp current target

def createLayoutStep (output : TTNNLayoutAttr) (padWorkaround : Bool) :
    Option (Emission OpKind RankedTensorType source) :=
  if padWorkaround then handleShardedTilizeWithPadding current output.getLayout
  else createToLayoutOp current output.getLayout none

def layoutAndDtypeTransformations (input output : TTNNLayoutAttr) (onDevice : Bool) :
    Option (Emission OpKind RankedTensorType source) :=
  let needsLayoutChange := hasLayoutChange input output
  let needDtype := hasDtypeChange input output
  if !needsLayoutChange && !needDtype then some current
  else
    let tilizing := needsLayoutChange && output.isTiled
    let padWorkaround := onDevice && tilizing && needsShardedTilizePadWorkaround current.current
    if onDevice && needsLayoutChange && needDtype && tilizing && !input.isTiled &&
        isFloatFamily input.getDataType && isFloatFamily output.getDataType && !padWorkaround then
      createToLayoutOp current output.getLayout (some output.getDataType)
    else if needsLayoutChange && !needDtype then createLayoutStep current output padWorkaround
    else if !needsLayoutChange && needDtype then createTypecastOp current output.getDataType
    else if !onDevice then do
      let current ← createTypecastOp current output.getDataType
      createLayoutStep current output padWorkaround
    else if input.isTiled then
      if isOnDeviceLayoutChangeSupportedForDataType output.getDataType then do
        let current ← createTypecastOp current output.getDataType
        createLayoutStep current output padWorkaround
      else do
        let current ← createLayoutStep current output padWorkaround
        createTypecastOp current output.getDataType
    else if isOnDeviceLayoutChangeSupportedForDataType input.getDataType then do
      let current ← createLayoutStep current output padWorkaround
      createTypecastOp current output.getDataType
    else do
      let current ← createTypecastOp current output.getDataType
      createLayoutStep current output padWorkaround

end Ops

section Orchestration
variable {source : RankedTensorType} (input output : TTNNLayoutAttr)
  (current : Emission OpKind RankedTensorType source)

def bringToHost : Option (Emission OpKind RankedTensorType source) :=
  if input.isDeviceBufferType then createFromDeviceOp current else some current

def landInOutput : Option (Emission OpKind RankedTensorType source) :=
  if output.isDeviceBufferType then createToDeviceOp current output else some current

def typecastIfNeeded : Option (Emission OpKind RankedTensorType source) :=
  if hasDtypeChange input output then createTypecastOp current output.getDataType else some current

/-- All layout and data type work in host memory. -/
def convertOnHost : Option (Emission OpKind RankedTensorType source) := do
  let current ← bringToHost input current
  let current ← layoutAndDtypeTransformations current input output false
  landInOutput output current

def untilizeOnHost : Option (Emission OpKind RankedTensorType source) := do
  let current ← typecastIfNeeded input output current
  let current ← createFromDeviceOp current
  let current ← createLayoutStep current output false
  landInOutput output current

def tilizeOnHost : Option (Emission OpKind RankedTensorType source) := do
  let current ← bringToHost input current
  let current ← createLayoutStep current output false
  let current ← createToDeviceOp current output
  typecastIfNeeded input output current

def convertThenMove : Option (Emission OpKind RankedTensorType source) := do
  let current ← layoutAndDtypeTransformations current input output true
  if hasMemoryChange current.current.encoding output then createMemoryMove current output else some current

-- The memory is not compared with the output again after the conversion.
def moveThenConvert : Option (Emission OpKind RankedTensorType source) := do
  let current ← createMemoryMove current output
  layoutAndDtypeTransformations current input output true

end Orchestration

section Op
variable (op : ToTensorSpecOp)

def fullyOnHost : Bool :=
  let input := op.input.encoding
  let output := op.output
  let isCpuHoistedInputOrResult := isOutputFromCPUHoistedFunction op || isInputToCPUHoistedFunction op
  let bothOnHost := input.isSystemBufferType && output.isSystemBufferType
  bothOnHost || isCpuHoistedInputOrResult ||
    (layoutChangeNeedsHost input output && !canKeepTypecastOnDevice input output)

def buildLayoutConversion : Option (Emission OpKind RankedTensorType op.input) :=
  let input := op.input.encoding
  let output := op.output
  let current := Emission.start op.input
  if fullyOnHost op then convertOnHost input output current
  else if layoutChangeNeedsHost input output then
    if input.isTiled then untilizeOnHost input output current else tilizeOnHost input output current
  else if shouldLayoutAndDtypeChangesRunBeforeMemoryMove input output then convertThenMove input output current
  else moveThenConvert input output current

end Op

/-- An op runs where its input is, and the device changes a layout only on a
data type that it supports. -/
def Legal (op : EmittedOp OpKind RankedTensorType) : Prop :=
  match op.kind with
  | .toDevice => op.input.encoding.isSystemBufferType = true
  | .fromDevice | .toMemoryConfig | .pad _ | .sliceStatic _ _ _ => op.input.encoding.isDeviceBufferType = true
  | .toLayout =>
      op.input.encoding.isDeviceBufferType = true →
        op.result.encoding.getDataType = op.input.encoding.getDataType →
        isOnDeviceLayoutChangeSupportedForDataType op.input.encoding.getDataType = true
  | .typecast => True

def Reaches (output encoding : TTNNLayoutAttr) : Prop :=
  hasLayoutChange encoding output = false ∧ hasDtypeChange encoding output = false ∧
    hasMemoryChange encoding output = false

/-- The conversion is built, reaches the output, and consists of legal ops. -/
def Converts (op : ToTensorSpecOp) : Prop :=
  ∃ value, buildLayoutConversion op = some value ∧ Reaches op.output value.current.encoding ∧
    Emission.AllOps Legal value

end TtMlir.Ttnn.DecomposeLayouts
