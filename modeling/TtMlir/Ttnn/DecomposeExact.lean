import TtMlir.Ttnn.DecomposeLayouts

/-!
What every step of the decomposition makes of the type before it, and from that
when a whole decomposition reaches the requested layout.
-/

namespace TtMlir.Ttnn.DecomposeLayouts

open Emission

def memrefDataType : ElementType → DataType
  | .tile dataType => dataType
  | .scalar type => type.dataType

def keptDataType (dataType : DataType) : DataType := memrefDataType (dataTypeToElementType dataType)

theorem kept_data_type (dataType : DataType) :
    keptDataType dataType = if dataType = .float16 then .bFloat16 else dataType := by
  cases dataType <;> rfl

theorem tensor_keeps (layout : Layout) (dataType : DataType) :
    elementTypeToDataType (getElementType layout dataType).ofTensor = some (keptDataType dataType) := by
  cases layout <;> cases dataType <;> rfl

theorem plain_keeps (dataType : DataType) :
    elementTypeToDataType (.plain (dataTypeToElementType dataType)) = some (keptDataType dataType) := by
  cases dataType <;> rfl

theorem scalar_data_type (type : Scalar) : dataTypeToElementType type.dataType ≠ .tile type.dataType := by
  rcases type with _ | _ | _ | _ | _ | ⟨_ | _ | _ | _ | _, _ | _⟩ <;> decide

theorem block_or_scalar (dataType : DataType) :
    dataTypeToElementType dataType = .tile dataType ∨ ∃ type, dataTypeToElementType dataType = .scalar type := by
  cases dataType <;> first | exact Or.inl rfl | exact Or.inr ⟨_, rfl⟩

theorem data_type_of (layout : TTNNLayoutAttr) : layout.getDataType = memrefDataType layout.elementType := by
  unfold TTNNLayoutAttr.getDataType
  cases layout.elementType <;> rfl

def SameElements (output encoding : TTNNLayoutAttr) : Prop :=
  hasLayoutChange encoding output = false ∧ hasDtypeChange encoding output = false

theorem same_elements_iff {output encoding : TTNNLayoutAttr} {dataType : DataType}
    (elements : encoding.elementType = getElementType output.getLayout dataType) :
    SameElements output encoding ↔
      memrefDataType (getElementType output.getLayout dataType) = output.getDataType := by
  unfold SameElements
  have typeChange : hasDtypeChange encoding output = false ↔
      memrefDataType (getElementType output.getLayout dataType) = output.getDataType := by
    rw [hasDtypeChange, bne_eq_false_iff_eq, data_type_of, elements]
  rw [typeChange, and_iff_right_iff_imp]
  intro same
  rw [hasLayoutChange, bne_eq_false_iff_eq]
  cases outputElements : output.elementType with
  | tile other =>
      have tile := TTNNLayoutAttr.layout_of_tile outputElements
      rw [tile] at elements ⊢
      exact TTNNLayoutAttr.layout_of_tile elements
  | scalar type =>
      have rowMajor := TTNNLayoutAttr.layout_of_scalar outputElements
      have outputType : output.getDataType = type.dataType := by
        simp only [TTNNLayoutAttr.getDataType, outputElements]
      rw [rowMajor] at elements same ⊢
      rcases block_or_scalar dataType with block | ⟨stored, scalar⟩
      · rw [getElementType, block, memrefDataType, outputType] at same
        subst same
        exact absurd block (scalar_data_type type)
      · exact TTNNLayoutAttr.layout_of_scalar (elements.trans scalar)

section Ops
variable {source type : RankedTensorType}

theorem emits_to_device (target : TTNNLayoutAttr) (onHost : type.encoding.isSystemBufferType = true) :
    Emits Legal (fun current => current = type)
      (fun current : Emission OpKind RankedTensorType source => createToDeviceOp current target)
      (fun current => current = type.placed target.toPlacement) := by
  refine emits_one OpKind.toDevice ?_ onHost
  intro emission known
  unfold createToDeviceOp withTargetMemory
  rw [build_target, known]
  rfl

theorem emits_from_device (onDevice : type.encoding.isDeviceBufferType = true) :
    Emits Legal (fun current => current = type)
      (fun current : Emission OpKind RankedTensorType source => createFromDeviceOp current)
      (fun current => current = type.placed systemPlacement) := by
  refine emits_one OpKind.fromDevice ?_ onDevice
  intro emission known
  unfold createFromDeviceOp
  rw [known, RankedTensorTypeFactory.create_of_system _ onDevice]
  rfl

theorem emits_to_memory_config (target : TTNNLayoutAttr) (onDevice : type.encoding.isDeviceBufferType = true) :
    Emits Legal (fun current => current = type)
      (fun current : Emission OpKind RankedTensorType source => createToMemoryConfigOp current target)
      (fun current => current = type.placed target.toPlacement) := by
  refine emits_one OpKind.toMemoryConfig ?_ onDevice
  intro emission known
  unfold createToMemoryConfigOp withTargetMemory
  rw [build_target, known]
  rfl

theorem emits_typecast (dataType : DataType) :
    Emits Legal (fun current => current = type)
      (fun current : Emission OpKind RankedTensorType source => createTypecastOp current dataType)
      (fun current => current = type.stored (getElementType type.encoding.getLayout dataType).ofTensor
        (getElementType type.encoding.getLayout dataType)) := by
  refine emits_one OpKind.typecast ?_ trivial
  intro emission known
  unfold createTypecastOp
  rw [known, RankedTensorTypeFactory.create_of_data_type]
  rfl

def relaid (type : RankedTensorType) (layout : Layout) (dataType : DataType) : RankedTensorType :=
  type.stored (type.elementType.relaid (getElementType layout dataType)) (getElementType layout dataType)

theorem emits_to_layout (layout : Layout) {dataType : DataType}
    (known : elementTypeToDataType type.elementType = some dataType)
    (capable : type.encoding.isDeviceBufferType = true →
      isOnDeviceLayoutChangeSupportedForDataType type.encoding.getDataType = true) :
    Emits Legal (fun current => current = type)
      (fun current : Emission OpKind RankedTensorType source => createToLayoutOp current layout none)
      (fun current => current = relaid type layout dataType) := by
  refine emits_one OpKind.toLayout ?_ fun onDevice _ => capable onDevice
  intro emission same
  unfold createToLayoutOp
  rw [same, RankedTensorTypeFactory.create_of_layout _ layout known]
  rfl

theorem emits_fused {dataType target : DataType} (known : elementTypeToDataType type.elementType = some dataType)
    (changes : target ≠ type.encoding.getDataType) :
    Emits Legal (fun current => current = type)
      (fun current : Emission OpKind RankedTensorType source => createToLayoutOp current .tile (some target))
      (fun current => current = type.stored (getElementType .tile target).ofTensor (getElementType .tile target)) := by
  refine emits_one OpKind.toLayout ?_ fun _ kept => absurd kept changes
  intro emission same
  unfold createToLayoutOp
  rw [same, RankedTensorTypeFactory.create_of_layout _ .tile known]
  simp only [Option.bind_eq_bind, Option.bind_some, RankedTensorTypeFactory.create_of_data_type]
  rfl
/-- Interleaved in DRAM, with the shape rounded up to tiles. -/
def paddedType (type : RankedTensorType) : RankedTensorType :=
  { type.placed dramInterleaved with shape := getPaddedShape type.shape }

theorem handle_padding (emission : Emission OpKind RankedTensorType source) (layout : Layout) {dataType : DataType}
    (known : elementTypeToDataType emission.current.elementType = some dataType)
    (inL1 : emission.current.encoding.bufferType = .l1) :
    handleShardedTilizeWithPadding emission layout =
      some ((((emission.emit .toMemoryConfig (emission.current.placed dramInterleaved)).emit
        (.pad (getPadding emission.current.shape)) (paddedType emission.current)).emit
        .toLayout (relaid (paddedType emission.current) layout dataType)).emit
        (.sliceStatic (List.replicate emission.current.shape.length 0) emission.current.shape
          (List.replicate emission.current.shape.length 1))
        ((relaid emission.current layout dataType).placed dramInterleaved)) := by
  unfold handleShardedTilizeWithPadding
  simp only [build_dramInterleaved _ inL1, Option.bind_eq_bind, Option.bind_some, emit_current,
    RankedTensorTypeFactory.create_of_shape]
  have tilized : RankedTensorTypeFactory.createOfLayout (paddedType emission.current) layout =
      some (relaid (paddedType emission.current) layout dataType) :=
    RankedTensorTypeFactory.create_of_layout _ layout known
  rw [paddedType, RankedTensorType.placed] at tilized
  simp only [RankedTensorTypeFactory.createEncoded]
  rw [tilized]
  rfl

theorem emits_padded (layout : Layout) {dataType : DataType}
    (known : elementTypeToDataType type.elementType = some dataType) (inL1 : type.encoding.bufferType = .l1)
    (capable : isOnDeviceLayoutChangeSupportedForDataType type.encoding.getDataType = true) :
    Emits Legal (fun current => current = type)
      (fun current : Emission OpKind RankedTensorType source => handleShardedTilizeWithPadding current layout)
      (fun current => current = (relaid type layout dataType).placed dramInterleaved) := by
  rintro emission allowed rfl
  have onDevice : emission.current.encoding.isDeviceBufferType = true := by
    rw [TTNNLayoutAttr.isDeviceBufferType, inL1]
    rfl
  refine ⟨_, handle_padding emission layout known inL1, ?_, rfl⟩
  refine all_emit (all_emit (all_emit (all_emit allowed ?_) ?_) ?_) ?_
  · exact onDevice
  · exact rfl
  · intro _ _
    exact capable
  · exact rfl

theorem emits_layout_step (output : TTNNLayoutAttr) (padWorkaround : Bool) {dataType : DataType}
    (known : elementTypeToDataType type.elementType = some dataType)
    (capable : type.encoding.isDeviceBufferType = true →
      isOnDeviceLayoutChangeSupportedForDataType type.encoding.getDataType = true)
    (inL1 : padWorkaround = true → type.encoding.bufferType = .l1) :
    Emits Legal (fun current => current = type)
      (fun current : Emission OpKind RankedTensorType source => createLayoutStep current output padWorkaround)
      (fun current => current = (relaid type output.getLayout dataType).placed
        (if padWorkaround then dramInterleaved else type.encoding.toPlacement)) := by
  cases padWorkaround with
  | false => exact emits_to_layout output.getLayout known capable
  | true =>
      refine emits_padded output.getLayout known (inL1 rfl) (capable ?_)
      rw [TTNNLayoutAttr.isDeviceBufferType, inL1 rfl]
      rfl

theorem supported_stored {dataType : DataType} (layout : Layout)
    (supported : isOnDeviceLayoutChangeSupportedForDataType dataType = true) :
    memrefDataType (getElementType layout dataType) = dataType := by
  cases layout <;> cases dataType <;> first | rfl | cases supported

theorem supported_layout {encoding : TTNNLayoutAttr} {layout : Layout} {dataType : DataType}
    (elements : encoding.elementType = getElementType layout dataType)
    (stays : layout = .tile ∨ isOnDeviceLayoutChangeSupportedForDataType dataType = true) :
    encoding.getLayout = layout := by
  cases layout with
  | tile => exact TTNNLayoutAttr.layout_of_tile elements
  | rowMajor =>
      have supported := stays.resolve_left (by decide)
      rcases block_or_scalar dataType with block | ⟨stored, scalar⟩
      · cases dataType <;> first | exact absurd block (by decide) | cases supported
      · exact TTNNLayoutAttr.layout_of_scalar (elements.trans scalar)

theorem emits_cast_then_layout (output : TTNNLayoutAttr) (padWorkaround : Bool)
    (capable : type.encoding.isDeviceBufferType = true →
      isOnDeviceLayoutChangeSupportedForDataType output.getDataType = true)
    (inL1 : padWorkaround = true → type.encoding.bufferType = .l1) :
    Emits Legal (fun current => current = type)
      (fun current : Emission OpKind RankedTensorType source =>
        createTypecastOp current output.getDataType >>= fun current => createLayoutStep current output padWorkaround)
      (fun current =>
        current.encoding.toPlacement = (if padWorkaround then dramInterleaved else type.encoding.toPlacement) ∧
          current.encoding.elementType = getElementType output.getLayout (keptDataType output.getDataType)) := by
  refine emits_then (emits_typecast output.getDataType) (emits_weaken (emits_layout_step output padWorkaround
    (tensor_keeps _ _) ?_ inL1) ?_)
  · intro onDevice
    have supported := capable onDevice
    rw [data_type_of]
    show isOnDeviceLayoutChangeSupportedForDataType (memrefDataType (getElementType _ _)) = true
    rw [supported_stored _ supported]
    exact supported
  · rintro current rfl
    exact ⟨rfl, rfl⟩

theorem emits_layout_then_cast (output : TTNNLayoutAttr) (padWorkaround : Bool) {dataType : DataType}
    (known : elementTypeToDataType type.elementType = some dataType)
    (capable : type.encoding.isDeviceBufferType = true →
      isOnDeviceLayoutChangeSupportedForDataType type.encoding.getDataType = true)
    (inL1 : padWorkaround = true → type.encoding.bufferType = .l1)
    (stays : output.getLayout = .tile ∨ isOnDeviceLayoutChangeSupportedForDataType dataType = true) :
    Emits Legal (fun current => current = type)
      (fun current : Emission OpKind RankedTensorType source =>
        createLayoutStep current output padWorkaround >>= fun current => createTypecastOp current output.getDataType)
      (fun current =>
        current.encoding.toPlacement = (if padWorkaround then dramInterleaved else type.encoding.toPlacement) ∧
          current.encoding.elementType = getElementType output.getLayout output.getDataType) := by
  refine emits_then (emits_layout_step output padWorkaround known capable inL1)
    (emits_weaken (emits_typecast output.getDataType) ?_)
  rintro current rfl
  refine ⟨rfl, ?_⟩
  show getElementType (TTNNLayoutAttr.getLayout _) _ = _
  rw [supported_layout rfl stays]

end Ops

section Transformations
variable {source type : RankedTensorType} (input output : TTNNLayoutAttr)

/-- The element type stands for half precision in bfloat16, and the layout op reads the data type
from there. -/
def DropsFloat16 (elementType : TensorElementType) (onHost : Bool) : Prop :=
  output.getDataType = .float16 ∧ (hasLayoutChange input output = true ∨ hasDtypeChange input output = true) ∧
    (output.isTiled = false ∨
      (hasLayoutChange input output = true ∧ hasDtypeChange input output = true ∧ onHost = true) ∨
      (hasDtypeChange input output = false ∧ elementTypeToDataType elementType ≠ some .float16))

variable {input output}

theorem layout_of_tiled {layout : TTNNLayoutAttr} (tiled : layout.isTiled = true) : layout.getLayout = .tile :=
  (TTNNLayoutAttr.layout_tile_iff layout).mpr tiled

theorem layout_of_untiled {layout : TTNNLayoutAttr} (untiled : layout.isTiled = false) :
    layout.getLayout = .rowMajor := by
  simp only [TTNNLayoutAttr.getLayout, untiled]
  rfl

theorem cast_elements {encoding : TTNNLayoutAttr}
    (elements : encoding.elementType = getElementType output.getLayout output.getDataType) :
    SameElements output encoding ↔ ¬(output.getDataType = .float16 ∧ output.isTiled = false) := by
  rw [same_elements_iff elements]
  cases tiled : output.isTiled with
  | true =>
      rw [layout_of_tiled tiled]
      simp [getElementType, memrefDataType]
  | false =>
      rw [layout_of_untiled tiled]
      show keptDataType _ = _ ↔ _
      rw [kept_data_type]
      by_cases half : output.getDataType = .float16 <;> simp [half]

theorem relaid_cast_elements {encoding : TTNNLayoutAttr}
    (elements : encoding.elementType = getElementType output.getLayout (keptDataType output.getDataType)) :
    SameElements output encoding ↔ output.getDataType ≠ .float16 := by
  rw [same_elements_iff elements, kept_data_type]
  cases layout : output.getLayout <;> by_cases half : output.getDataType = .float16 <;>
    simp only [half, if_true, if_false, getElementType]
  · decide
  · exact ⟨fun _ => half, fun _ => (kept_data_type _).trans (if_neg half)⟩
  · decide
  · exact ⟨fun _ => half, fun _ => rfl⟩

structure Carries (input : TTNNLayoutAttr) (type : RankedTensorType) (dataType : DataType) : Prop where
  elements : type.encoding.elementType = input.elementType
  known : elementTypeToDataType type.elementType = some dataType
  agrees : dataType = input.getDataType ∨ (input.getDataType = .float16 ∧ dataType = .bFloat16)

namespace Carries
variable {dataType : DataType} (carries : Carries input type dataType)
include carries

theorem data_type : type.encoding.getDataType = input.getDataType := by
  rw [data_type_of, data_type_of, carries.elements]

theorem layout : type.encoding.getLayout = input.getLayout := by
  unfold TTNNLayoutAttr.getLayout TTNNLayoutAttr.isTiled
  rw [carries.elements]

theorem supported (inputSupported : isOnDeviceLayoutChangeSupportedForDataType input.getDataType = true) :
    isOnDeviceLayoutChangeSupportedForDataType dataType = true := by
  rcases carries.agrees with same | ⟨half, -⟩
  · rw [same]
    exact inputSupported
  · rw [half] at inputSupported
    cases inputSupported

theorem relaid_elements {encoding : TTNNLayoutAttr}
    (elements : encoding.elementType = getElementType output.getLayout dataType)
    (sameType : input.getDataType = output.getDataType) :
    SameElements output encoding ↔
      ¬(output.getDataType = .float16 ∧ (output.isTiled = false ∨ dataType ≠ .float16)) := by
  rw [same_elements_iff elements]
  by_cases half : output.getDataType = .float16
  · rw [half]
    rcases carries.agrees with same | ⟨-, normal⟩
    · have halfType : dataType = .float16 := by rw [same, sameType, half]
      subst halfType
      cases tiled : output.isTiled with
      | true => rw [layout_of_tiled tiled]; decide
      | false => rw [layout_of_untiled tiled]; decide
    · subst normal
      cases output.getLayout <;> simp [getElementType, memrefDataType, dataTypeToElementType, Scalar.dataType]
  · have same : dataType = output.getDataType := by
      rcases carries.agrees with same | ⟨inputHalf, -⟩
      · rw [same, sameType]
      · exact absurd (sameType.symm.trans inputHalf) half
    subst same
    have kept : memrefDataType (getElementType output.getLayout output.getDataType) = output.getDataType := by
      cases output.getLayout with
      | tile => rfl
      | rowMajor => exact (kept_data_type _).trans (if_neg half)
    simp [kept, half]

theorem same_elements (layoutChange : hasLayoutChange input output = false)
    (dtypeChange : hasDtypeChange input output = false) : SameElements output type.encoding := by
  rw [SameElements, hasLayoutChange, hasDtypeChange, carries.layout, carries.data_type]
  exact ⟨layoutChange, dtypeChange⟩

end Carries

def Settled (output : TTNNLayoutAttr) (placement : Placement) (dropped : Prop) (current : RankedTensorType) : Prop :=
  current.encoding.toPlacement = placement ∧ (SameElements output current.encoding ↔ ¬dropped)

theorem emits_on_host {dataType : DataType} (carries : Carries input type dataType)
    (onHost : type.encoding.isDeviceBufferType = false) :
    Emits Legal (fun current => current = type)
      (fun current : Emission OpKind RankedTensorType source =>
        layoutAndDtypeTransformations current input output false)
      (Settled output type.encoding.toPlacement (DropsFloat16 input output type.elementType true)) := by
  intro emission allowed same
  have anyType (supported : Prop) : type.encoding.isDeviceBufferType = true → supported := by simp [onHost]
  unfold layoutAndDtypeTransformations DropsFloat16
  cases layoutChange : hasLayoutChange input output <;> cases dtypeChange : hasDtypeChange input output
  · refine ⟨emission, rfl, allowed, by rw [same], ?_⟩
    simp [same, carries.same_elements layoutChange dtypeChange]
  · obtain ⟨next, stepped, allowedNext, reached⟩ := emits_typecast output.getDataType emission allowed same
    refine ⟨next, stepped, allowedNext, congrArg (·.encoding.toPlacement) reached, (cast_elements ?_).trans ?_⟩
    · rw [reached, carries.layout, bne_eq_false_iff_eq.mp layoutChange]
      rfl
    · simp
  · obtain ⟨next, stepped, allowedNext, reached⟩ :=
      emits_layout_step output false carries.known (anyType _) (by simp) emission allowed same
    refine ⟨next, stepped, allowedNext, congrArg (·.encoding.toPlacement) reached, (carries.relaid_elements
      (congrArg (·.encoding.elementType) reached) (bne_eq_false_iff_eq.mp dtypeChange)).trans ?_⟩
    simp [carries.known]
  · obtain ⟨next, stepped, allowedNext, place, elements⟩ :=
      emits_cast_then_layout output false (anyType _) (by simp) emission allowed same
    refine ⟨next, stepped, allowedNext, place, (relaid_cast_elements elements).trans ?_⟩
    simp

theorem padded_in_l1 (padded : needsShardedTilizePadWorkaround type = true) : type.encoding.bufferType = .l1 := by
  by_contra elsewhere
  rw [needsShardedTilizePadWorkaround, if_pos (bne_iff_ne.mpr elsewhere)] at padded
  cases padded

theorem supported_not_half {dataType : DataType}
    (supported : isOnDeviceLayoutChangeSupportedForDataType dataType = true) : dataType ≠ .float16 := by
  rintro rfl
  cases supported

theorem supported_side (layoutChange : hasLayoutChange input output = true)
    (runs : layoutChangeNeedsHost input output = false) :
    isOnDeviceLayoutChangeSupportedForDataType input.getDataType = true ∨
      isOnDeviceLayoutChangeSupportedForDataType output.getDataType = true := by
  simp only [layoutChangeNeedsHost, layoutChange, Bool.not_true, Bool.false_eq_true, if_false] at runs
  cases inputSupported : isOnDeviceLayoutChangeSupportedForDataType input.getDataType with
  | true => exact Or.inl rfl
  | false => exact Or.inr (by simpa [inputSupported] using runs)

def padsOnDevice (input output : TTNNLayoutAttr) (type : RankedTensorType) : Bool :=
  hasLayoutChange input output && output.isTiled && needsShardedTilizePadWorkaround type

theorem emits_both_on_device {dataType : DataType} (carries : Carries input type dataType) (pads : Bool)
    (inL1 : pads = true → type.encoding.bufferType = .l1)
    (layoutChange : hasLayoutChange input output = true) (dtypeChange : hasDtypeChange input output = true)
    (runs : layoutChangeNeedsHost input output = false) :
    Emits Legal (fun current => current = type)
      (fun current : Emission OpKind RankedTensorType source =>
        if output.isTiled && !input.isTiled && isFloatFamily input.getDataType && isFloatFamily output.getDataType &&
            !pads then createToLayoutOp current output.getLayout (some output.getDataType)
        else if input.isTiled then
          if isOnDeviceLayoutChangeSupportedForDataType output.getDataType then
            createTypecastOp current output.getDataType >>= fun current => createLayoutStep current output pads
          else createLayoutStep current output pads >>= fun current => createTypecastOp current output.getDataType
        else if isOnDeviceLayoutChangeSupportedForDataType input.getDataType then
          createLayoutStep current output pads >>= fun current => createTypecastOp current output.getDataType
        else createTypecastOp current output.getDataType >>= fun current => createLayoutStep current output pads)
      (Settled output (if pads then dramInterleaved else type.encoding.toPlacement)
        (output.getDataType = .float16 ∧ output.isTiled = false)) := by
  have castFirst (supported : isOnDeviceLayoutChangeSupportedForDataType output.getDataType = true) :
      Emits Legal (fun current => current = type)
        (fun current : Emission OpKind RankedTensorType source =>
          createTypecastOp current output.getDataType >>= fun current => createLayoutStep current output pads)
        (Settled output (if pads then dramInterleaved else type.encoding.toPlacement)
          (output.getDataType = .float16 ∧ output.isTiled = false)) := by
    refine emits_weaken (emits_cast_then_layout output pads (fun _ => supported) inL1) ?_
    rintro current ⟨place, elements⟩
    have full := supported_not_half supported
    exact ⟨place, (relaid_cast_elements elements).trans (iff_of_true full fun half => full half.1)⟩
  have layoutFirst (supported : isOnDeviceLayoutChangeSupportedForDataType input.getDataType = true) :
      Emits Legal (fun current => current = type)
        (fun current : Emission OpKind RankedTensorType source =>
          createLayoutStep current output pads >>= fun current => createTypecastOp current output.getDataType)
        (Settled output (if pads then dramInterleaved else type.encoding.toPlacement)
          (output.getDataType = .float16 ∧ output.isTiled = false)) := by
    refine emits_weaken (emits_layout_then_cast output pads carries.known ?_ inL1
      (Or.inr (carries.supported supported))) ?_
    · intro _
      rw [carries.data_type]
      exact supported
    · rintro current ⟨place, elements⟩
      exact ⟨place, cast_elements elements⟩
  have eitherSide := supported_side layoutChange runs
  refine emits_if (fun fused => ?_) fun _ => emits_if (fun _ => emits_if castFirst fun unsupported => ?_) fun _ =>
    emits_if layoutFirst fun unsupported => ?_
  · simp only [Bool.and_eq_true, Bool.not_eq_true'] at fused
    have tile := layout_of_tiled fused.1.1.1.1
    rw [tile]
    refine emits_weaken (emits_fused carries.known ?_) ?_
    · rw [carries.data_type]
      exact (bne_iff_ne.mp dtypeChange).symm
    · rintro current rfl
      refine ⟨by rw [fused.2]; rfl, cast_elements ?_⟩
      rw [tile]
      rfl
  · exact layoutFirst (eitherSide.resolve_right unsupported)
  · exact castFirst (eitherSide.resolve_left unsupported)

theorem emits_on_device {dataType : DataType} (carries : Carries input type dataType)
    (runs : layoutChangeNeedsHost input output = false) :
    Emits Legal (fun current => current = type)
      (fun current : Emission OpKind RankedTensorType source =>
        layoutAndDtypeTransformations current input output true)
      (Settled output (if padsOnDevice input output type then dramInterleaved else type.encoding.toPlacement)
        (DropsFloat16 input output type.elementType false)) := by
  intro emission allowed same
  have inL1 : padsOnDevice input output type = true → type.encoding.bufferType = .l1 := by
    intro pads
    rw [padsOnDevice, Bool.and_eq_true] at pads
    exact padded_in_l1 pads.2
  have padsOf : (true && (hasLayoutChange input output && output.isTiled) &&
      needsShardedTilizePadWorkaround emission.current) = padsOnDevice input output type := by
    rw [same, Bool.true_and, padsOnDevice]
  unfold layoutAndDtypeTransformations DropsFloat16
  simp only [padsOf]
  cases layoutChange : hasLayoutChange input output <;> cases dtypeChange : hasDtypeChange input output
  · have noPad : padsOnDevice input output type = false := by rw [padsOnDevice, layoutChange]; rfl
    refine ⟨emission, rfl, allowed, by rw [same, noPad]; rfl, ?_⟩
    simp [same, carries.same_elements layoutChange dtypeChange]
  · have noPad : padsOnDevice input output type = false := by rw [padsOnDevice, layoutChange]; rfl
    obtain ⟨next, stepped, allowedNext, reached⟩ := emits_typecast output.getDataType emission allowed same
    refine ⟨next, ?_, allowedNext, ?_, (cast_elements ?_).trans ?_⟩
    · exact stepped
    · rw [noPad]
      exact congrArg (·.encoding.toPlacement) reached
    · rw [reached, carries.layout, bne_eq_false_iff_eq.mp layoutChange]
      rfl
    · simp
  · have sameType := bne_eq_false_iff_eq.mp dtypeChange
    have supported : isOnDeviceLayoutChangeSupportedForDataType type.encoding.getDataType = true := by
      rw [carries.data_type]
      rcases supported_side layoutChange runs with side | side
      · exact side
      · rw [sameType]; exact side
    obtain ⟨next, stepped, allowedNext, reached⟩ :=
      emits_layout_step output _ carries.known (fun _ => supported) inL1 emission allowed same
    refine ⟨next, ?_, allowedNext, congrArg (·.encoding.toPlacement) reached, (carries.relaid_elements
      (congrArg (·.encoding.elementType) reached) sameType).trans ?_⟩
    · simpa using stepped
    · simp [carries.known]
  · simp only [Bool.not_true, Bool.and_self, Bool.false_eq_true, if_false, Bool.true_and, Bool.and_false,
      Bool.false_and]
    obtain ⟨next, stepped, allowedNext, place, elements⟩ :=
      emits_both_on_device carries _ inL1 layoutChange dtypeChange runs emission allowed same
    refine ⟨next, stepped, allowedNext, place, elements.trans ?_⟩
    simp

end Transformations

section Memory
variable {source type : RankedTensorType} {output encoding : TTNNLayoutAttr}

theorem device_or_host (layout : TTNNLayoutAttr) : layout.isDeviceBufferType = !layout.isSystemBufferType := by
  unfold TTNNLayoutAttr.isDeviceBufferType TTNNLayoutAttr.isSystemBufferType isDeviceBufferType isSystemBufferType
  cases layout.bufferType <;> rfl

theorem no_change_in_place (place : encoding.toPlacement = output.toPlacement) :
    hasMemoryChange encoding output = false := by
  have buffers : encoding.bufferType = output.bufferType := congrArg Placement.bufferType place
  have layouts : encoding.memLayout = output.memLayout := congrArg Placement.memLayout place
  have grids : encoding.gridShape = output.gridShape := congrArg Placement.gridShape place
  have cores : encoding.coreRangeSet = output.coreRangeSet := congrArg Placement.coreRangeSet place
  simp [hasMemoryChange, buffers, layouts, grids, cores]

theorem no_change_on_host (onHost : encoding.isSystemBufferType = true)
    (outputOnHost : output.isSystemBufferType = true) :
    hasMemoryChange encoding output = false := by
  have buffers : encoding.bufferType = output.bufferType :=
    (eq_of_beq onHost).trans (eq_of_beq outputOnHost).symm
  simp [hasMemoryChange, buffers, onHost]

theorem reaches_iff : Reaches output encoding ↔
    SameElements output encoding ∧ hasMemoryChange encoding output = false := by
  unfold Reaches SameElements
  exact and_assoc.symm

theorem settled_placed {place target : Placement} {dropped : Prop} (settled : Settled output place dropped type) :
    Settled output target dropped (type.placed target) := ⟨rfl, settled.2⟩

theorem emits_memory_move (changes : type.encoding.isSystemBufferType = true → output.isSystemBufferType = false) :
    Emits Legal (fun current => current = type)
      (fun current : Emission OpKind RankedTensorType source => createMemoryMove current output)
      (fun current => current = type.placed
        (if output.isSystemBufferType then systemPlacement else output.toPlacement)) := by
  rintro emission allowed rfl
  have onHost : (emission.current.encoding.bufferType == .systemMemory) =
      emission.current.encoding.isSystemBufferType := rfl
  simp only [createMemoryMove, onHost]
  cases inputOnHost : emission.current.encoding.isSystemBufferType with
  | true =>
      simp only [changes inputOnHost, Bool.not_false, Bool.and_self, if_true]
      exact emits_to_device output inputOnHost emission allowed rfl
  | false =>
      have onDevice : emission.current.encoding.isDeviceBufferType = true := by rw [device_or_host, inputOnHost]; rfl
      cases outputOnHost : output.isSystemBufferType with
      | true => exact emits_from_device onDevice emission allowed rfl
      | false => exact emits_to_memory_config output onDevice emission allowed rfl

theorem reaches_moved {dropped : Prop} (settled : Settled output
    (if output.isSystemBufferType then systemPlacement else output.toPlacement) dropped type) :
    Reaches output type.encoding ↔ ¬dropped := by
  have noChange : hasMemoryChange type.encoding output = false := by
    cases outputOnHost : output.isSystemBufferType with
    | true =>
        rw [outputOnHost] at settled
        have place : type.encoding.bufferType = .systemMemory := congrArg Placement.bufferType settled.1
        exact no_change_on_host (beq_iff_eq.mpr place) outputOnHost
    | false =>
        rw [outputOnHost] at settled
        exact no_change_in_place settled.1
  rw [reaches_iff, settled.2]
  exact and_iff_left noChange

end Memory

theorem carries_of_agrees {type : RankedTensorType} (agrees : Agrees type) :
    ∃ dataType, Carries type.encoding type dataType := by
  rcases agrees with named | normal
  · exact ⟨_, rfl, named, Or.inl rfl⟩
  · refine ⟨keptDataType type.encoding.getDataType, rfl, ?_, ?_⟩
    · rw [normal]
      exact plain_keeps _
    · rw [kept_data_type]
      split_ifs with half
      · exact Or.inr ⟨half, rfl⟩
      · exact Or.inl rfl

theorem Carries.placed {input : TTNNLayoutAttr} {type : RankedTensorType} {dataType : DataType}
    (carries : Carries input type dataType) (placement : Placement) :
    Carries input (type.placed placement) dataType := ⟨carries.elements, carries.known, carries.agrees⟩

section Conversions
variable {source type : RankedTensorType} {output : TTNNLayoutAttr} {dataType : DataType}

def HostSettled (output : TTNNLayoutAttr) (dropped : Prop) (current : RankedTensorType) : Prop :=
  current.encoding.isSystemBufferType = true ∧ (SameElements output current.encoding ↔ ¬dropped)

theorem emits_to_host :
    Emits Legal (fun current => current = type)
      (fun current : Emission OpKind RankedTensorType source =>
        bringToHost type.encoding current)
      (fun current => current.encoding.isSystemBufferType = true ∧ ∃ place, current = type.placed place) := by
  refine emits_if (fun onDevice => ?_) fun onHost => ?_
  · refine emits_weaken (emits_from_device onDevice) ?_
    rintro current rfl
    exact ⟨rfl, _, rfl⟩
  · refine emits_weaken (emits_nothing _) ?_
    rintro current rfl
    refine ⟨?_, current.encoding.toPlacement, rfl⟩
    rw [device_or_host] at onHost
    simpa using onHost

theorem emits_from_host {dropped : Prop} :
    Emits Legal (HostSettled output dropped)
      (fun current : Emission OpKind RankedTensorType source =>
        landInOutput output current)
      (fun current => Reaches output current.encoding ↔ ¬dropped) := by
  refine emits_if (fun onDevice => emits_each fun type settled => ?_) fun onHost => ?_
  · refine emits_weaken (emits_to_device output settled.1) ?_
    rintro current rfl
    rw [reaches_iff]
    exact (and_iff_left (no_change_in_place rfl)).trans settled.2
  · refine emits_weaken (emits_nothing _) ?_
    intro current settled
    have outputOnHost : output.isSystemBufferType = true := by
      rw [device_or_host] at onHost
      simpa using onHost
    rw [reaches_iff]
    exact (and_iff_left (no_change_on_host settled.1 outputOnHost)).trans settled.2

theorem emits_convert_on_host (carries : Carries type.encoding type dataType) :
    Emits Legal (fun current => current = type)
      (fun current : Emission OpKind RankedTensorType source => convertOnHost type.encoding output current)
      (fun current => Reaches output current.encoding ↔
        ¬DropsFloat16 type.encoding output type.elementType true) := by
  unfold convertOnHost
  refine emits_then emits_to_host (emits_then (emits_each ?_) emits_from_host)
  rintro moved ⟨onHost, place, rfl⟩
  refine emits_weaken (emits_on_host (carries.placed place) (by rw [device_or_host, onHost]; rfl)) ?_
  rintro current ⟨same, settled⟩
  refine ⟨?_, settled⟩
  have sameBuffer : current.encoding.bufferType = (type.placed place).encoding.bufferType :=
    congrArg Placement.bufferType same
  rw [TTNNLayoutAttr.isSystemBufferType, sameBuffer]
  exact onHost

theorem drops_untiled {input : TTNNLayoutAttr} {elementType : TensorElementType} {onHost : Bool}
    (untiled : output.isTiled = false) (layoutChange : hasLayoutChange input output = true) :
    DropsFloat16 input output elementType onHost ↔ output.getDataType = .float16 := by
  simp [DropsFloat16, untiled, layoutChange]

section
variable (carries : Carries type.encoding type dataType)
include carries

theorem emits_untilize_on_host (onDevice : type.encoding.isDeviceBufferType = true) (untiled : output.isTiled = false)
    (layoutChange : hasLayoutChange type.encoding output = true) :
    Emits Legal (fun current => current = type)
      (fun current : Emission OpKind RankedTensorType source => untilizeOnHost type.encoding output current)
      (fun current => Reaches output current.encoding ↔
        ¬DropsFloat16 type.encoding output type.elementType false) := by
  have noDevice (supported : Prop) (placed : RankedTensorType) :
      (placed.placed systemPlacement).encoding.isDeviceBufferType = true → supported := by
    intro device
    cases device
  unfold untilizeOnHost typecastIfNeeded
  rw [drops_untiled untiled layoutChange]
  cases dtypeChange : hasDtypeChange type.encoding output with
  | true =>
      refine emits_then (emits_typecast output.getDataType) (emits_then (emits_from_device onDevice)
        (emits_then (emits_weaken (emits_layout_step output false (tensor_keeps _ _) (noDevice _ _) (by simp)) ?_)
          emits_from_host))
      rintro current rfl
      exact ⟨rfl, relaid_cast_elements rfl⟩
  | false =>
      refine emits_then (emits_nothing _) (emits_then (emits_from_device onDevice)
        (emits_then (emits_weaken (emits_layout_step output false (carries.placed _).known (noDevice _ _)
          (by simp)) ?_) emits_from_host))
      rintro current rfl
      refine ⟨rfl, (carries.relaid_elements rfl (bne_eq_false_iff_eq.mp dtypeChange)).trans ?_⟩
      simp [untiled]

theorem emits_tilize_on_host (tiled : output.isTiled = true)
    (layoutChange : hasLayoutChange type.encoding output = true) :
    Emits Legal (fun current => current = type)
      (fun current : Emission OpKind RankedTensorType source => tilizeOnHost type.encoding output current)
      (fun current => Reaches output current.encoding ↔
        ¬DropsFloat16 type.encoding output type.elementType false) := by
  have tile := layout_of_tiled tiled
  unfold tilizeOnHost
  refine emits_then emits_to_host (emits_each ?_)
  rintro moved ⟨onHost, place, rfl⟩
  have noDevice (supported : Prop) : (type.placed place).encoding.isDeviceBufferType = true → supported := by
    rw [device_or_host, onHost]
    intro device
    cases device
  refine emits_then (emits_layout_step output false (carries.placed place).known (noDevice _) (by simp))
    (emits_then (emits_to_device output onHost) ?_)
  unfold typecastIfNeeded DropsFloat16
  cases dtypeChange : hasDtypeChange type.encoding output with
  | true =>
      refine emits_weaken (emits_typecast output.getDataType) ?_
      rintro current rfl
      rw [reaches_iff]
      refine (and_iff_left (no_change_in_place rfl)).trans ((cast_elements ?_).trans ?_)
      · have stays : output.getLayout = .tile ∨ isOnDeviceLayoutChangeSupportedForDataType dataType = true :=
          Or.inl tile
        show getElementType (TTNNLayoutAttr.getLayout _) _ = _
        rw [supported_layout rfl stays]
      · simp [tiled]
  | false =>
      refine emits_weaken (emits_nothing _) ?_
      rintro current rfl
      rw [reaches_iff]
      refine (and_iff_left (no_change_in_place rfl)).trans
        ((carries.relaid_elements rfl (bne_eq_false_iff_eq.mp dtypeChange)).trans ?_)
      simp [tiled, carries.known, layoutChange]

theorem emits_convert_then_move (onDevice : type.encoding.isDeviceBufferType = true)
    (runs : layoutChangeNeedsHost type.encoding output = false) :
    Emits Legal (fun current => current = type)
      (fun current : Emission OpKind RankedTensorType source => convertThenMove type.encoding output current)
      (fun current => Reaches output current.encoding ↔
        ¬DropsFloat16 type.encoding output type.elementType false) := by
  unfold convertThenMove
  refine emits_then (emits_on_device carries runs) (emits_each ?_)
  intro current settled
  have stillOnDevice : current.encoding.isSystemBufferType = false := by
    have buffer : current.encoding.bufferType =
        (if padsOnDevice type.encoding output type then dramInterleaved else type.encoding.toPlacement).bufferType :=
      congrArg Placement.bufferType settled.1
    rw [TTNNLayoutAttr.isSystemBufferType, buffer]
    split_ifs
    · rfl
    · rw [device_or_host] at onDevice
      simpa [TTNNLayoutAttr.isSystemBufferType] using onDevice
  rintro emission allowed rfl
  cases memoryChange : hasMemoryChange emission.current.encoding output with
  | true =>
      have moves : emission.current.encoding.isSystemBufferType = true → output.isSystemBufferType = false := by
        simp [stillOnDevice]
      obtain ⟨next, stepped, allowedNext, reached⟩ := emits_memory_move moves emission allowed rfl
      refine ⟨next, (if_pos memoryChange).trans stepped, allowedNext, ?_⟩
      rw [reached]
      exact reaches_moved (settled_placed settled)
  | false =>
      refine ⟨emission, if_neg (by simp [memoryChange]), allowed, ?_⟩
      exact reaches_iff.trans ((and_iff_left memoryChange).trans settled.2)

theorem emits_move_then_convert (outputOnDevice : output.isSystemBufferType = false)
    (runs : layoutChangeNeedsHost type.encoding output = false) :
    Emits Legal (fun current => current = type)
      (fun current : Emission OpKind RankedTensorType source => moveThenConvert type.encoding output current)
      (fun current => Reaches output current.encoding ↔
        padsOnDevice type.encoding output (type.placed output.toPlacement) = false ∧
          ¬DropsFloat16 type.encoding output type.elementType false) := by
  unfold moveThenConvert
  refine emits_then (emits_memory_move fun _ => outputOnDevice) ?_
  simp only [outputOnDevice, Bool.false_eq_true, if_false]
  refine emits_weaken (emits_on_device (carries.placed output.toPlacement) runs) ?_
  intro current settled
  cases pads : padsOnDevice type.encoding output (type.placed output.toPlacement) with
  | true =>
      have inL1 : output.bufferType = .l1 := by
        rw [padsOnDevice, Bool.and_eq_true] at pads
        exact padded_in_l1 pads.2
      have inDram : current.encoding.bufferType = .dram := by
        have place := settled.1
        rw [pads] at place
        exact congrArg Placement.bufferType place
      have moved : hasMemoryChange current.encoding output = true := by
        simp [hasMemoryChange, inDram, inL1]
      simp [reaches_iff, moved]
  | false =>
      have place := settled.1
      rw [pads] at place
      rw [reaches_iff]
      refine (and_iff_left (no_change_in_place place)).trans (settled.2.trans ?_)
      exact (and_iff_right rfl).symm

end

end Conversions

section Exact
variable (op : ToTensorSpecOp)

/-- A host tensor is moved first, into sharded L1, and tilized there with padding. -/
def TilizesAfterMove : Prop :=
  op.input.encoding.isSystemBufferType = true ∧ fullyOnHost op = false ∧
    layoutChangeNeedsHost op.input.encoding op.output = false ∧
    padsOnDevice op.input.encoding op.output (op.input.placed op.output.toPlacement) = true

theorem converts_of_emits {condition : Prop}
    {step : Emission OpKind RankedTensorType op.input → Option (Emission OpKind RankedTensorType op.input)}
    (built : buildLayoutConversion op = step (Emission.start op.input))
    (emits : Emits Legal (fun current => current = op.input) step
      (fun current => Reaches op.output current.encoding ↔ condition)) :
    Converts op ↔ condition := by
  obtain ⟨value, stepped, allowed, reaches⟩ := emits (Emission.start op.input) (all_start Legal) rfl
  unfold Converts
  rw [built, stepped]
  constructor
  · rintro ⟨other, same, reached, -⟩
    cases Option.some.inj same
    exact reaches.mp reached
  · intro holds
    exact ⟨value, rfl, reaches.mpr holds, allowed⟩

/-- The layout and data type changes run first exactly when the input is on the
device, and is not desharded to be untilized. -/
theorem runs_before (runsBefore : shouldLayoutAndDtypeChangesRunBeforeMemoryMove op.input.encoding op.output = true) :
    op.input.encoding.isSystemBufferType = false := by
  by_contra onHost
  have host : op.input.encoding.isSystemBufferType = true := by simpa using onHost
  rw [shouldLayoutAndDtypeChangesRunBeforeMemoryMove, host] at runsBefore
  cases runsBefore

theorem moves_before (runsAfter : shouldLayoutAndDtypeChangesRunBeforeMemoryMove op.input.encoding op.output = false)
    (onDevice : op.input.encoding.isSystemBufferType = false) :
    op.output.isSystemBufferType = false ∧ op.output.isTiled = false := by
  unfold shouldLayoutAndDtypeChangesRunBeforeMemoryMove at runsAfter
  rw [onDevice] at runsAfter
  cases outputOnHost : op.output.isSystemBufferType with
  | true => simp [outputOnHost] at runsAfter
  | false =>
      cases tiled : op.output.isTiled with
      | true => simp [outputOnHost, tiled] at runsAfter
      | false => exact ⟨rfl, rfl⟩

theorem not_all_on_host (onDevice : fullyOnHost op = false) :
    (op.input.encoding.isSystemBufferType = true → op.output.isSystemBufferType = false) ∧
      (layoutChangeNeedsHost op.input.encoding op.output = true →
        canKeepTypecastOnDevice op.input.encoding op.output = true) := by
  simp only [fullyOnHost, Bool.or_eq_false_iff, Bool.and_eq_false_imp] at onDevice
  obtain ⟨⟨oneSide, -⟩, keeps⟩ := onDevice
  exact ⟨oneSide, fun needsHost => by simpa using keeps needsHost⟩

theorem needs_host_changes {input output : TTNNLayoutAttr} (needsHost : layoutChangeNeedsHost input output = true) :
    hasLayoutChange input output = true := by
  by_contra unchanged
  simp [layoutChangeNeedsHost, unchanged] at needsHost

theorem tiled_of_change {input output : TTNNLayoutAttr} (layoutChange : hasLayoutChange input output = true) :
    output.isTiled = !input.isTiled := by
  unfold hasLayoutChange TTNNLayoutAttr.getLayout at layoutChange
  cases tiledBefore : input.isTiled <;> cases tiledAfter : output.isTiled <;> simp_all

/-- A decomposition reaches its output with legal ops unless it tilizes a
sharded tensor with padding after the move, or drops half precision. -/
theorem converts_iff :
    Converts op ↔ ¬TilizesAfterMove op ∧
      ¬DropsFloat16 op.input.encoding op.output op.input.elementType (fullyOnHost op) := by
  obtain ⟨dataType, carries⟩ := carries_of_agrees op.agrees
  unfold TilizesAfterMove
  cases allOnHost : fullyOnHost op with
  | true =>
      refine (converts_of_emits op ?_ (emits_convert_on_host carries)).trans (by simp)
      simp only [buildLayoutConversion, allOnHost, if_true]
  | false =>
      obtain ⟨oneSide, keeps⟩ := not_all_on_host op allOnHost
      cases needsHost : layoutChangeNeedsHost op.input.encoding op.output with
      | true =>
          have layoutChange := needs_host_changes needsHost
          have otherLayout := tiled_of_change layoutChange
          have kept := keeps needsHost
          cases tiled : op.input.encoding.isTiled with
          | true =>
              rw [canKeepTypecastOnDevice, tiled] at kept
              rw [tiled] at otherLayout
              refine (converts_of_emits op ?_
                (emits_untilize_on_host carries kept otherLayout layoutChange)).trans (by simp)
              simp [buildLayoutConversion, allOnHost, needsHost, tiled]
          | false =>
              rw [tiled] at otherLayout
              refine (converts_of_emits op ?_ (emits_tilize_on_host carries otherLayout layoutChange)).trans (by simp)
              simp [buildLayoutConversion, allOnHost, needsHost, tiled]
      | false =>
          cases order : shouldLayoutAndDtypeChangesRunBeforeMemoryMove op.input.encoding op.output with
          | true =>
              have notHost := runs_before op order
              have onDevice : op.input.encoding.isDeviceBufferType = true := by rw [device_or_host, notHost]; rfl
              refine (converts_of_emits op ?_ (emits_convert_then_move carries onDevice needsHost)).trans
                (by simp [notHost])
              simp [buildLayoutConversion, allOnHost, needsHost, order]
          | false =>
              have outputOnDevice : op.output.isSystemBufferType = false := by
                cases onHost : op.input.encoding.isSystemBufferType with
                | true => exact oneSide onHost
                | false => exact (moves_before op order onHost).1
              refine (converts_of_emits op ?_ (emits_move_then_convert carries outputOnDevice needsHost)).trans ?_
              · simp [buildLayoutConversion, allOnHost, needsHost, order]
              · cases onHost : op.input.encoding.isSystemBufferType with
                | true => simp
                | false =>
                    -- A device tensor that is moved first is untilized, hence never padded.
                    have untiled := (moves_before op order onHost).2
                    simp [padsOnDevice, untiled]

end Exact

def shardedTilize : ToTensorSpecOp where
  input := ⟨[40, 64], .plain (.scalar .float32), ⟨systemPlacement, .scalar .float32⟩⟩
  output :=
    { bufferType := .l1
      memLayout := some .heightSharded
      gridShape := [2, 1]
      coreRangeSet := some [⟨⟨0, 0⟩, ⟨1, 0⟩⟩]
      verified := by decide
      elementType := .tile .float32 }
  definingOp := none
  users := [.other]
  agrees := Or.inl rfl

/-- The tensor stays in DRAM, although its layout alone was left to change after the move. -/
theorem sharded_tilize_left_in_dram :
    2 ≤ shardedTilize.input.shape.length ∧ hasLayoutChange shardedTilize.input.encoding shardedTilize.output = true ∧
      ¬Converts shardedTilize := by
  refine ⟨by decide, by decide, ?_⟩
  rintro ⟨value, built, reaches, -⟩
  have inDram : (buildLayoutConversion shardedTilize).map (·.current.encoding.bufferType) = some .dram := by rfl
  rw [built] at inDram
  have dram : value.current.encoding.bufferType = .dram := Option.some.inj inDram
  have moved : hasMemoryChange value.current.encoding shardedTilize.output = true := by
    rw [hasMemoryChange, dram]
    rfl
  rw [reaches.2.2] at moved
  cases moved

end TtMlir.Ttnn.DecomposeLayouts
