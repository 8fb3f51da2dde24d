import Mathlib.Data.List.Basic

/-!
Encodings of TTNN tensors, the builder of layouts, and the factory of tensor types. The memref
and the linear map of a layout are computed from the fields here and are read by no predicate of
the layout passes.
-/

namespace TtMlir.Ttnn

inductive DataType
  | float32 | float16 | bFloat16
  | bfpFloat8 | bfpBFloat8 | bfpFloat4 | bfpBFloat4 | bfpFloat2 | bfpBFloat2
  | uInt32 | uInt16 | uInt8 | int32 | bool
deriving DecidableEq

inductive IntegerWidth
  | one | eight | sixteen | thirtyTwo | sixtyFour
deriving DecidableEq

/-- The scalar types with a data type; `elementTypeToDataType` stops at any other. -/
inductive Scalar
  | bFloat16 | float16 | float32 | float64 | index
  | integer (width : IntegerWidth) (isUnsigned : Bool)
deriving DecidableEq

/-- Element type of a memref: a scalar, or a tile of a data type. -/
inductive ElementType
  | scalar (type : Scalar)
  | tile (dataType : DataType)
deriving DecidableEq

/-- Element type of a tensor; a quantized one has a scalar storage type. -/
inductive TensorElementType
  | plain (type : ElementType)
  | quantized (storage : Scalar)
deriving DecidableEq

def Scalar.dataType : Scalar → DataType
  | .bFloat16 => .bFloat16
  | .float16 => .float16
  | .float32 | .float64 => .float32
  | .index => .uInt32
  | .integer .one _ => .bool
  | .integer .eight _ => .uInt8
  | .integer .sixteen _ => .uInt16
  | .integer .thirtyTwo isUnsigned | .integer .sixtyFour isUnsigned => if isUnsigned then .uInt32 else .int32

def DataType.isTileElementType : DataType → Bool
  | .bfpFloat8 | .bfpBFloat8 | .bfpFloat4 | .bfpBFloat4 | .bfpFloat2 | .bfpBFloat2 => true
  | .float32 | .bFloat16 | .int32 => true
  | _ => false

/-- `none` where the source asserts that the tile is supported. -/
def elementTypeToDataType : TensorElementType → Option DataType
  | .quantized storage => some storage.dataType
  | .plain (.scalar type) => some type.dataType
  | .plain (.tile dataType) => if dataType.isTileElementType then some dataType else none

/-- Half precision becomes bfloat16, and a block format stays a tile. -/
def dataTypeToElementType : DataType → ElementType
  | .float32 => .scalar .float32
  | .float16 | .bFloat16 => .scalar .bFloat16
  | .uInt32 => .scalar (.integer .thirtyTwo true)
  | .uInt16 => .scalar (.integer .sixteen true)
  | .uInt8 => .scalar (.integer .eight true)
  | .int32 => .scalar (.integer .thirtyTwo false)
  | .bool => .scalar (.integer .one false)
  | .bfpFloat8 => .tile .bfpFloat8
  | .bfpBFloat8 => .tile .bfpBFloat8
  | .bfpFloat4 => .tile .bfpFloat4
  | .bfpBFloat4 => .tile .bfpBFloat4
  | .bfpFloat2 => .tile .bfpFloat2
  | .bfpBFloat2 => .tile .bfpBFloat2

inductive Layout
  | rowMajor | tile
deriving DecidableEq

inductive BufferType
  | dram | l1 | systemMemory
deriving DecidableEq

inductive TensorMemoryLayout
  | interleaved | heightSharded | widthSharded | blockSharded
deriving DecidableEq

structure CoreCoord where
  x : Nat
  y : Nat
deriving DecidableEq

structure CoreRange where
  startCoord : CoreCoord
  endCoord : CoreCoord
deriving DecidableEq

abbrev CoreRangeSet := List CoreRange

def TILE_HEIGHT : Nat := 32
def TILE_WIDTH : Nat := 32

def isSystemBufferType (bufferType : BufferType) : Bool := bufferType == .systemMemory
def isDeviceBufferType (bufferType : BufferType) : Bool := bufferType == .l1 || bufferType == .dram
def isL1BufferType (bufferType : BufferType) : Bool := bufferType == .l1
def isDRAMBufferType (bufferType : BufferType) : Bool := bufferType == .dram

def isShardedMemoryLayout (layout : TensorMemoryLayout) : Bool :=
  layout == .heightSharded || layout == .widthSharded || layout == .blockSharded

section Verify
variable (gridShape : List Int) (bufferType : BufferType) (memLayout : Option TensorMemoryLayout)
  (coreRangeSet : Option CoreRangeSet)

def verifyGridShape : Bool :=
  let sharded := memLayout.any isShardedMemoryLayout
  if isL1BufferType bufferType || (isDRAMBufferType bufferType && sharded) then true else gridShape == [1, 1]

def verifyBufferAndMemoryLayout : Bool :=
  match memLayout with
  | some layout => !(bufferType == .systemMemory) && !(bufferType == .dram && layout == .blockSharded)
  | none => bufferType == .systemMemory

def verifyCoreRangeSet : Bool := memLayout.any isShardedMemoryLayout == coreRangeSet.isSome

def verify : Bool :=
  verifyGridShape gridShape bufferType memLayout && verifyBufferAndMemoryLayout bufferType memLayout &&
    verifyCoreRangeSet memLayout coreRangeSet && !gridShape.isEmpty

end Verify

/-- Where a tensor is: buffer, memory layout, virtual grid and physical cores. -/
structure Placement where
  bufferType : BufferType
  memLayout : Option TensorMemoryLayout
  gridShape : List Int
  coreRangeSet : Option CoreRangeSet
  verified : verify gridShape bufferType memLayout coreRangeSet = true
deriving DecidableEq

structure TTNNLayoutAttr extends Placement where
  elementType : ElementType
deriving DecidableEq

namespace TTNNLayoutAttr

def isTiled (layout : TTNNLayoutAttr) : Bool :=
  match layout.elementType with
  | .tile _ => true
  | .scalar _ => false

def getLayout (layout : TTNNLayoutAttr) : Layout := if layout.isTiled then .tile else .rowMajor

def getDataType (layout : TTNNLayoutAttr) : DataType :=
  match layout.elementType with
  | .tile dataType => dataType
  | .scalar type => type.dataType

def isSystemBufferType (layout : TTNNLayoutAttr) : Bool := Ttnn.isSystemBufferType layout.bufferType

def isDeviceBufferType (layout : TTNNLayoutAttr) : Bool := Ttnn.isDeviceBufferType layout.bufferType

def hasShardedTensorMemoryLayout (layout : TTNNLayoutAttr) : Bool :=
  layout.isDeviceBufferType && layout.memLayout.any isShardedMemoryLayout

def hasShardedL1TensorMemoryLayout (layout : TTNNLayoutAttr) : Bool :=
  isL1BufferType layout.bufferType && layout.memLayout.any isShardedMemoryLayout

theorem layout_of_tile {layout : TTNNLayoutAttr} {dataType : DataType} (tiles : layout.elementType = .tile dataType) :
    layout.getLayout = .tile := by
  simp only [getLayout, isTiled, tiles, if_true]

theorem layout_of_scalar {layout : TTNNLayoutAttr} {type : Scalar} (scalars : layout.elementType = .scalar type) :
    layout.getLayout = .rowMajor := by
  simp [getLayout, isTiled, scalars]

theorem layout_tile_iff (layout : TTNNLayoutAttr) : layout.getLayout = .tile ↔ layout.isTiled = true := by
  unfold getLayout
  cases layout.isTiled <;> simp

end TTNNLayoutAttr

structure Builder where
  elementType : ElementType
  bufferType : BufferType
  memLayout : Option TensorMemoryLayout
  gridShape : List Int
  coreRangeSet : Option CoreRangeSet

namespace Builder

def ofLayout (layout : TTNNLayoutAttr) : Builder :=
  ⟨layout.elementType, layout.bufferType, layout.memLayout, layout.gridShape, layout.coreRangeSet⟩

def setElementType (builder : Builder) (elementType : ElementType) : Builder :=
  { builder with elementType := elementType }

-- A changed buffer, memory layout or grid drops the core range set.
def setBufferType (builder : Builder) (bufferType : BufferType) : Builder :=
  if bufferType = builder.bufferType then builder
  else { builder with bufferType := bufferType, coreRangeSet := none }

def setMemoryLayout (builder : Builder) (memLayout : Option TensorMemoryLayout) : Builder :=
  if memLayout = builder.memLayout then builder else { builder with memLayout := memLayout, coreRangeSet := none }

def setGridShape (builder : Builder) (gridShape : List Int) : Builder :=
  if gridShape = builder.gridShape then builder else { builder with gridShape := gridShape, coreRangeSet := none }

def setCoreRangeSet (builder : Builder) (coreRangeSet : Option CoreRangeSet) : Builder :=
  { builder with coreRangeSet := coreRangeSet }

def build (builder : Builder) : Option TTNNLayoutAttr :=
  let onHost := isSystemBufferType builder.bufferType
  let dramInterleaved := isDRAMBufferType builder.bufferType && builder.memLayout == some .interleaved
  let memLayout := if onHost then none else builder.memLayout
  let gridShape := if onHost || dramInterleaved then [1, 1] else builder.gridShape
  if verified : verify gridShape builder.bufferType memLayout builder.coreRangeSet = true then
    some ⟨⟨builder.bufferType, memLayout, gridShape, builder.coreRangeSet, verified⟩, builder.elementType⟩
  else none

end Builder

structure RankedTensorType where
  shape : List Nat
  elementType : TensorElementType
  encoding : TTNNLayoutAttr
deriving DecidableEq

def getElementType (tensorLayout : Layout) (dataType : DataType) : ElementType :=
  match tensorLayout with
  | .tile => .tile dataType
  | .rowMajor => dataTypeToElementType dataType

namespace RankedTensorTypeFactory

def createEncoded (tensorType : RankedTensorType) (encoding : TTNNLayoutAttr) : RankedTensorType :=
  { tensorType with encoding := encoding }

def createOfElementType (tensorType : RankedTensorType) (memrefElementType : ElementType) :
    Option RankedTensorType := do
  let newEncoding ← ((Builder.ofLayout tensorType.encoding).setElementType memrefElementType).build
  let newElementType :=
    match memrefElementType with
    | .tile dataType => dataTypeToElementType dataType
    | .scalar type => .scalar type
  some ⟨tensorType.shape, .plain newElementType, newEncoding⟩

def createOfBufferType (tensorType : RankedTensorType) (bufferType : BufferType) : Option RankedTensorType := do
  let newEncoding ← ((Builder.ofLayout tensorType.encoding).setBufferType bufferType).build
  some (createEncoded tensorType newEncoding)

/-- The data type is read from the element type of the tensor, not from its encoding. -/
def createOfLayout (tensorType : RankedTensorType) (layout : Layout) : Option RankedTensorType := do
  let dataType ← elementTypeToDataType tensorType.elementType
  let memrefElementType := getElementType layout dataType
  match tensorType.elementType with
  | .quantized storage =>
      let newEncoding ← ((Builder.ofLayout tensorType.encoding).setElementType memrefElementType).build
      some ⟨tensorType.shape, .quantized storage, newEncoding⟩
  | .plain _ => createOfElementType tensorType memrefElementType

def createOfDataType (tensorType : RankedTensorType) (dataType : DataType) : Option RankedTensorType :=
  createOfElementType tensorType (getElementType tensorType.encoding.getLayout dataType)

def createOfShape (tensorType : RankedTensorType) (tensorShape : List Nat) : Option RankedTensorType := do
  let newEncoding ← (Builder.ofLayout tensorType.encoding).build
  some ⟨tensorShape, tensorType.elementType, newEncoding⟩

end RankedTensorTypeFactory

/-! What the builder and the factory make of a layout that passes the checks. -/

theorem build_placement (placement : Placement) (elementType : ElementType) :
    Builder.build ⟨elementType, placement.bufferType, placement.memLayout, placement.gridShape,
      placement.coreRangeSet⟩ = some ⟨placement, elementType⟩ := by
  obtain ⟨bufferType, memLayout, gridShape, coreRangeSet, verified⟩ := placement
  have checks := verified
  simp only [verify, verifyGridShape, verifyBufferAndMemoryLayout, Bool.and_eq_true] at checks
  obtain ⟨⟨⟨grid, buffers⟩, -⟩, -⟩ := checks
  cases bufferType with
  | systemMemory =>
      have host : memLayout = none := by
        cases memLayout with
        | none => rfl
        | some layout => cases buffers
      subst host
      have unit : gridShape = [1, 1] := by simpa [isL1BufferType, isDRAMBufferType] using grid
      subst unit
      simp only [Builder.build, isSystemBufferType, beq_self_eq_true, Bool.true_or, if_true]
      rw [dif_pos verified]
  | l1 =>
      simp only [Builder.build, isSystemBufferType, isDRAMBufferType]
      exact dif_pos verified
  | dram =>
      by_cases interleaved : memLayout = some .interleaved
      · subst interleaved
        have unit : gridShape = [1, 1] := by
          simpa [isL1BufferType, isDRAMBufferType, isShardedMemoryLayout] using grid
        subst unit
        simp only [Builder.build, isSystemBufferType, isDRAMBufferType]
        exact dif_pos verified
      · have other : (memLayout == some .interleaved) = false := beq_eq_false_iff_ne.mpr interleaved
        simp only [Builder.build, isSystemBufferType, isDRAMBufferType, other]
        exact dif_pos verified

theorem build_setElementType (layout : TTNNLayoutAttr) (elementType : ElementType) :
    ((Builder.ofLayout layout).setElementType elementType).build = some ⟨layout.toPlacement, elementType⟩ :=
  build_placement layout.toPlacement elementType

theorem build_target (layout target : TTNNLayoutAttr) :
    ((((Builder.ofLayout layout).setBufferType target.bufferType).setMemoryLayout target.memLayout).setGridShape
      target.gridShape |>.setCoreRangeSet target.coreRangeSet).build =
      some ⟨target.toPlacement, layout.elementType⟩ := by
  rw [← build_placement target.toPlacement layout.elementType]
  congr 1
  unfold Builder.setCoreRangeSet Builder.setGridShape Builder.setMemoryLayout Builder.setBufferType Builder.ofLayout
  split_ifs <;> simp_all

def systemPlacement : Placement := ⟨.systemMemory, none, [1, 1], none, by decide⟩

/-- Interleaved over the DRAM banks. -/
def dramInterleaved : Placement := ⟨.dram, some .interleaved, [1, 1], none, by decide⟩

theorem build_system (layout : TTNNLayoutAttr) (onDevice : layout.isDeviceBufferType = true) :
    ((Builder.ofLayout layout).setBufferType .systemMemory).build =
      some ⟨systemPlacement, layout.elementType⟩ := by
  have moved : BufferType.systemMemory ≠ layout.bufferType := by
    intro same
    simp [TTNNLayoutAttr.isDeviceBufferType, isDeviceBufferType, ← same] at onDevice
  have noCores : (Builder.ofLayout layout).setBufferType .systemMemory =
      ⟨layout.elementType, .systemMemory, layout.memLayout, layout.gridShape, none⟩ := if_neg moved
  rw [noCores]
  simp only [Builder.build, isSystemBufferType, beq_self_eq_true, Bool.true_or, if_true]
  exact dif_pos systemPlacement.verified

theorem build_dramInterleaved (layout : TTNNLayoutAttr) (inL1 : layout.bufferType = .l1) :
    ((((Builder.ofLayout layout).setBufferType .dram).setMemoryLayout (some .interleaved)).setGridShape [1, 1]).build =
      some ⟨dramInterleaved, layout.elementType⟩ := by
  have moved : BufferType.dram ≠ layout.bufferType := by simp [inL1]
  have noCores : (((Builder.ofLayout layout).setBufferType .dram).setMemoryLayout (some .interleaved)).setGridShape
      [1, 1] = ⟨layout.elementType, .dram, some .interleaved, [1, 1], none⟩ := by
    unfold Builder.setGridShape Builder.setMemoryLayout Builder.setBufferType Builder.ofLayout
    rw [if_neg moved]
    split_ifs <;> simp_all
  rw [noCores]
  exact build_placement dramInterleaved layout.elementType

namespace RankedTensorType

def placed (type : RankedTensorType) (placement : Placement) : RankedTensorType :=
  { type with encoding := ⟨placement, type.encoding.elementType⟩ }

def stored (type : RankedTensorType) (elementType : TensorElementType) (memref : ElementType) : RankedTensorType :=
  ⟨type.shape, elementType, ⟨type.encoding.toPlacement, memref⟩⟩

end RankedTensorType

def ElementType.ofTensor : ElementType → TensorElementType
  | .tile dataType => .plain (dataTypeToElementType dataType)
  | .scalar type => .plain (.scalar type)

/-- A quantized tensor stays quantized when its layout changes. -/
def TensorElementType.relaid (elementType : TensorElementType) (memref : ElementType) : TensorElementType :=
  match elementType with
  | .quantized storage => .quantized storage
  | .plain _ => memref.ofTensor

namespace RankedTensorTypeFactory
variable (tensorType : RankedTensorType)

theorem create_of_element_type (memref : ElementType) :
    createOfElementType tensorType memref = some (tensorType.stored memref.ofTensor memref) := by
  unfold createOfElementType
  rw [build_setElementType]
  cases memref <;> rfl

theorem create_of_data_type (dataType : DataType) :
    createOfDataType tensorType dataType =
      some (tensorType.stored (getElementType tensorType.encoding.getLayout dataType).ofTensor
        (getElementType tensorType.encoding.getLayout dataType)) :=
  create_of_element_type tensorType _

theorem create_of_layout (layout : Layout) {dataType : DataType}
    (known : elementTypeToDataType tensorType.elementType = some dataType) :
    createOfLayout tensorType layout =
      some (tensorType.stored (tensorType.elementType.relaid (getElementType layout dataType))
        (getElementType layout dataType)) := by
  unfold createOfLayout
  rw [known]
  cases elements : tensorType.elementType with
  | quantized storage =>
      simp only [Option.bind_eq_bind, Option.bind_some, build_setElementType]
      rfl
  | plain type => exact create_of_element_type tensorType _

theorem create_of_system (onDevice : tensorType.encoding.isDeviceBufferType = true) :
    createOfBufferType tensorType .systemMemory = some (tensorType.placed systemPlacement) := by
  unfold createOfBufferType
  rw [build_system _ onDevice]
  rfl

theorem create_of_shape (tensorShape : List Nat) :
    createOfShape tensorType tensorShape = some { tensorType with shape := tensorShape } := by
  unfold createOfShape
  rw [show (Builder.ofLayout tensorType.encoding).build = some tensorType.encoding from
    build_placement tensorType.encoding.toPlacement tensorType.encoding.elementType]
  rfl

end RankedTensorTypeFactory

end TtMlir.Ttnn
