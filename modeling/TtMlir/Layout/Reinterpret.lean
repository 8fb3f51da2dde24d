import TtMlir.Layout.VerifiedIntervals
import TtMlir.Library.Lists
import TtMlir.Library.MapM

/-!
Retagging a device tensor with another layout. A logical index is placed by the
linear maps of the layout's intervals, whose strides are the aligned sizes of the
dims inside; `canUseReinterpretLayoutView` compares everything but the intervals.
-/

namespace TtMlir.Layout

/-- Strides of one interval, innermost dim first: the aligned size of the dims inside. -/
def computeAlignedStrides (logicalShape alignments : List Int) (start count : Nat) : List Int :=
  (countdown (fun k (state : List Int × Int) =>
    (state.1.set k state.2, collapseStage logicalShape alignments (start + k) state.2)) count
      (List.replicate count 0, 1)).1

namespace MetalLayoutAttr
variable (ties : TieBreak (Int × Int)) (layout : MetalLayoutAttr)

def intervalIndex (index : List Int) (interval : Int × Int) : Int :=
  let start := interval.1.toNat
  let count := (interval.2 - interval.1).toNat
  if interval.2 - interval.1 = 1 then index.getD start 0
  else
    let strides := computeAlignedStrides layout.logicalShape layout.dimAlignments start count
    countdown (fun k collapsed => index.getD (start + k) 0 * strides.getD k 0 + collapsed) count 0

/-- `buildLogicalToPhysicalMap`: one result for every interval, an empty one too. -/
def logicalToPhysical (index : List Int) : List Int :=
  (layout.getNormalizedIntervals ties).map (layout.intervalIndex index)

end MetalLayoutAttr

/-- `buildPhysicalToDeviceMap` applied to a physical index: grid coordinates, then coordinates in the
shard. -/
def physicalToDevice (physicalShape gridShape physical : List Int) : Option (List Int) :=
  if physicalShape.length = gridShape.length ∧ physical.length = physicalShape.length then
    let shardSize := fun i => physicalShape.getD i 0 / gridShape.getD i 0
    some ((List.range physicalShape.length).map (fun i => physical.getD i 0 / shardSize i) ++
      (List.range physicalShape.length).map (fun i => physical.getD i 0 % shardSize i))
  else none

inductive MemorySpace
  | system
  | systemMMIO
  | deviceDRAM
  | deviceL1
  | registerDst
  deriving DecidableEq, Repr

inductive TensorMemoryLayout
  | interleaved
  | sharded
  deriving DecidableEq, Repr

/-- A layout with the fields that say which memory it is in. -/
structure DeviceLayout extends MetalLayoutAttr where
  memorySpace : MemorySpace
  memoryLayout : TensorMemoryLayout
  deriving DecidableEq

inductive ElementType (Scalar : Type)
  | scalar (type : Scalar)
  | tile (type : Scalar) (height width : Int)
  deriving DecidableEq

variable {Scalar : Type}

/-- `getTensorTileShapeOrEmpty`. -/
def ElementType.tileShape : ElementType Scalar → List Int
  | .scalar _ => []
  | .tile _ height width => [height, width]

structure RankedTensorType (Scalar : Type) where
  shape : List Int
  elementType : ElementType Scalar
  encoding : Option DeviceLayout
  deriving DecidableEq

def RankedTensorType.gridShape (type : RankedTensorType Scalar) : List Int := type.shape.take (type.shape.length / 2)

/-- Where an element of the tensor lives, both kinds of coordinates in scalars. -/
def RankedTensorType.placement (ties : TieBreak (Int × Int)) (type : RankedTensorType Scalar) (index : List Int) :
    Option (List Int) := do
  let layout ← type.encoding
  let physicalShape ← layout.getPhysicalShape ties []
  physicalToDevice physicalShape type.gridShape (layout.logicalToPhysical ties index)

/-- A tensor type whose shape is the device shape of its layout. -/
structure OnDevice (ties : TieBreak (Int × Int)) (type : RankedTensorType Scalar) (layout : DeviceLayout) : Prop where
  encoding : type.encoding = some layout
  verified : layout.verify = .ok ()
  shape : layout.getDeviceShape ties type.gridShape type.elementType.tileShape = some type.shape

structure PlanState (Scalar : Type) where
  type : RankedTensorType Scalar

def canUseReinterpretLayoutView [DecidableEq Scalar] (current target : PlanState Scalar) : Bool :=
  match current.type.encoding, target.type.encoding with
  | some layout, some targetLayout =>
      decide (current.type.shape = target.type.shape) && decide (current.type.elementType = target.type.elementType) &&
      decide (current.type.gridShape = target.type.gridShape) &&
      decide (layout.logicalShape = targetLayout.logicalShape) &&
      decide (layout.dimAlignments = targetLayout.dimAlignments) &&
      decide (layout.memorySpace = targetLayout.memorySpace) &&
      decide (layout.memoryLayout = targetLayout.memoryLayout)
  | _, _ => false

/-- The rule of `canonicalize` that takes the target's type without a step. -/
def retag [DecidableEq Scalar] (current target : PlanState Scalar) : PlanState Scalar :=
  if canUseReinterpretLayoutView current target && decide (current.type ≠ target.type) then ⟨target.type⟩ else current

def intervalStride (layout : MetalLayoutAttr) (dim : Nat) (interval : Int × Int) : Int :=
  let start := interval.1.toNat
  let count := (interval.2 - interval.1).toNat
  if start ≤ dim ∧ dim < start + count then
    if interval.2 - interval.1 = 1 then 1
    else (computeAlignedStrides layout.logicalShape layout.dimAlignments start count).getD (dim - start) 0
  else 0

def dimStrides (ties : TieBreak (Int × Int)) (layout : MetalLayoutAttr) (dim : Nat) : List Int :=
  (layout.getNormalizedIntervals ties).map (intervalStride layout dim)

theorem countdown_sum (term : Nat → Int) (count : Nat) (start : Int) :
    countdown (fun k sum => term k + sum) count start = (∑ k ∈ Finset.range count, term k) + start := by
  induction count generalizing start with
  | zero => simp [countdown]
  | succ count ih =>
      rw [countdown, ih, Finset.sum_range_succ]
      ring

theorem intervalIndex_eq (layout : MetalLayoutAttr) (index : List Int) (interval : Int × Int) (low : 0 ≤ interval.1)
    (ordered : interval.1 ≤ interval.2) (high : interval.2 ≤ layout.logicalShape.length) :
    layout.intervalIndex index interval =
      ∑ dim ∈ Finset.range layout.logicalShape.length, index.getD dim 0 * intervalStride layout dim interval := by
  obtain ⟨start, stop⟩ := interval
  simp only at low ordered high
  obtain ⟨first, rfl⟩ := Int.eq_ofNat_of_zero_le low
  obtain ⟨count, rfl⟩ := Int.le.dest ordered
  have counted : ((first : Int) + count - first).toNat = count := by omega
  obtain ⟨rest, ranked⟩ := Nat.exists_eq_add_of_le (show first + count ≤ layout.logicalShape.length by omega)
  -- dims before and after the interval have no part in it
  have before : ∑ dim ∈ Finset.range first,
      index.getD dim 0 * intervalStride layout dim ((first : Int), (first : Int) + count) = 0 := by
    refine Finset.sum_eq_zero fun dim below => ?_
    have outside : ¬ (first ≤ dim ∧ dim < first + count) := by
      have := Finset.mem_range.mp below
      omega
    simp only [intervalStride, counted, Int.toNat_natCast, if_neg outside, mul_zero]
  have after : ∑ dim ∈ Finset.range rest,
      index.getD (first + count + dim) 0 * intervalStride layout (first + count + dim)
        ((first : Int), (first : Int) + count) = 0 := by
    refine Finset.sum_eq_zero fun dim _ => ?_
    have outside : ¬ (first ≤ first + count + dim ∧ first + count + dim < first + count) := by omega
    simp only [intervalStride, counted, Int.toNat_natCast, if_neg outside, mul_zero]
  rw [ranked, Finset.sum_range_add, Finset.sum_range_add, before, after, zero_add, add_zero]
  simp only [MetalLayoutAttr.intervalIndex, intervalStride, counted, Int.toNat_natCast]
  split
  · rename_i single
    obtain rfl : count = 1 := by omega
    simp
  · rw [countdown_sum, add_zero]
    refine Finset.sum_congr rfl fun dim below => ?_
    have inside : first ≤ first + dim ∧ first + dim < first + count := by
      have := Finset.mem_range.mp below
      omega
    rw [if_pos inside, Nat.add_sub_cancel_left]

theorem getDeviceShape_eq_some (ties : TieBreak (Int × Int)) (layout : MetalLayoutAttr)
    (gridShape tileShape deviceShape : List Int)
    (device : layout.getDeviceShape ties gridShape tileShape = some deviceShape) :
    ∃ physicalShape shardShape, layout.getPhysicalShape ties tileShape = some physicalShape ∧
      deviceShape = gridShape ++ shardShape ∧ shardShape.length = physicalShape.length ∧
      physicalShape.length ≤ gridShape.length ∧
      ∀ i < physicalShape.length, physicalShape.getD i 0 = gridShape.getD i 0 * shardShape.getD i 0 := by
  obtain ⟨physicalShape, physical, device⟩ := Option.bind_eq_some_iff.mp device
  obtain ⟨shardShape, cut, device⟩ := Option.bind_eq_some_iff.mp device
  cases device
  obtain ⟨length, each⟩ := mapM_range cut
  have entry (i : Nat) (inside : i < physicalShape.length) :
      i < gridShape.length ∧ physicalShape.getD i 0 = gridShape.getD i 0 * shardShape.getD i 0 := by
    have here := each i inside
    rw [List.getElem?_eq_getElem (length ▸ inside)] at here
    obtain ⟨gridDim, known, evenly⟩ := Option.bind_eq_some_iff.mp here.symm
    obtain ⟨inGrid, isDim⟩ := List.getElem?_eq_some_iff.mp known
    split at evenly
    · rename_i divides
      refine ⟨inGrid, ?_⟩
      rw [List.getD_eq_getElem gridShape _ inGrid, isDim, List.getD_eq_getElem shardShape _ (length ▸ inside),
        ← Option.some.inj evenly, Int.mul_ediv_cancel' (Int.dvd_of_emod_eq_zero divides)]
    · cases evenly
  refine ⟨physicalShape, shardShape, physical, rfl, length, ?_, fun i inside => (entry i inside).2⟩
  by_contra longer
  exact absurd (entry gridShape.length (by omega)).1 (lt_irrefl _)

theorem divideByTile_inj {left right tiled : List Int} {dim : Nat} {tileDim : Int}
    (leftTiled : divideByTile left dim tileDim = some tiled)
    (rightTiled : divideByTile right dim tileDim = some tiled) :
    left = right := by
  have undone (shape : List Int) (divided : divideByTile shape dim tileDim = some tiled) :
      shape = tiled.modify dim (· * tileDim) := by
    unfold divideByTile at divided
    split at divided
    · rename_i divides
      cases divided
      rw [List.modify_modify_eq]
      apply List.ext_getElem (by simp)
      intro i inside _
      rw [List.getElem_modify]
      split
      · rename_i here
        subst here
        rw [List.getD_eq_getElem _ _ inside] at divides
        exact (Int.ediv_mul_cancel (Int.dvd_of_emod_eq_zero divides)).symm
      · rfl
    · cases divided
  rw [undone left leftTiled, undone right rightTiled]

theorem divideByTile_length {shape tiled : List Int} {dim : Nat} {tileDim : Int}
    (divided : divideByTile shape dim tileDim = some tiled) : tiled.length = shape.length := by
  unfold divideByTile at divided
  split at divided
  · cases divided
    exact List.length_modify ..
  · cases divided

theorem getPhysicalShape_inj (ties : TieBreak (Int × Int)) (left right : MetalLayoutAttr)
    (tileShape physicalShape : List Int) (leftTiled : left.getPhysicalShape ties tileShape = some physicalShape)
    (rightTiled : right.getPhysicalShape ties tileShape = some physicalShape) :
    ∃ untiled, left.getPhysicalShape ties [] = some untiled ∧ right.getPhysicalShape ties [] = some untiled ∧
      untiled.length = physicalShape.length := by
  obtain ⟨leftShape, leftUntiled, leftTiled⟩ := Option.bind_eq_some_iff.mp leftTiled
  obtain ⟨rightShape, rightUntiled, rightTiled⟩ := Option.bind_eq_some_iff.mp rightTiled
  have leftPlain : left.getPhysicalShape ties [] = some leftShape := by
    rw [MetalLayoutAttr.getPhysicalShape, leftUntiled]
    rfl
  have rightPlain : right.getPhysicalShape ties [] = some rightShape := by
    rw [MetalLayoutAttr.getPhysicalShape, rightUntiled]
    rfl
  rcases tileShape with _ | ⟨tileY, _ | ⟨tileX, _ | ⟨_, _⟩⟩⟩
  · cases leftTiled
    cases rightTiled
    exact ⟨physicalShape, leftPlain, rightPlain, rfl⟩
  · cases leftTiled
  · simp only at leftTiled rightTiled
    split at leftTiled
    · split at rightTiled
      · obtain ⟨leftRows, leftFirst, leftSecond⟩ := Option.bind_eq_some_iff.mp leftTiled
        obtain ⟨rightRows, rightFirst, rightSecond⟩ := Option.bind_eq_some_iff.mp rightTiled
        have leftLength := (divideByTile_length leftSecond).trans (divideByTile_length leftFirst)
        have rightLength := (divideByTile_length rightSecond).trans (divideByTile_length rightFirst)
        have rows : leftRows = rightRows := by
          rw [← leftLength] at leftSecond
          rw [← rightLength] at rightSecond
          exact divideByTile_inj leftSecond rightSecond
        have shapes : leftShape = rightShape := by
          rw [← leftLength, rows] at leftFirst
          rw [← rightLength] at rightFirst
          exact divideByTile_inj leftFirst rightFirst
        exact ⟨leftShape, leftPlain, shapes ▸ rightPlain, leftLength.symm⟩
      · cases rightTiled
    · cases leftTiled
  · cases leftTiled

theorem OnDevice.same_physical {ties : TieBreak (Int × Int)} {type other : RankedTensorType Scalar}
    {layout otherLayout : DeviceLayout} (onDevice : OnDevice ties type layout)
    (otherOnDevice : OnDevice ties other otherLayout) (shape : type.shape = other.shape)
    (element : type.elementType = other.elementType) :
    ∃ physicalShape, layout.getPhysicalShape ties [] = some physicalShape ∧
      otherLayout.getPhysicalShape ties [] = some physicalShape ∧ physicalShape.length = type.gridShape.length := by
  have grid : type.gridShape = other.gridShape := by rw [RankedTensorType.gridShape, shape]; rfl
  have halves : type.gridShape.length = type.shape.length / 2 := by
    rw [RankedTensorType.gridShape, List.length_take]
    omega
  obtain ⟨leftShape, leftShard, leftTiled, leftDevice, leftLength, leftFits, leftEach⟩ :=
    getDeviceShape_eq_some ties _ _ _ _ onDevice.shape
  obtain ⟨rightShape, rightShard, rightTiled, rightDevice, rightLength, rightFits, rightEach⟩ :=
    getDeviceShape_eq_some ties _ _ _ _ otherOnDevice.shape
  rw [← shape, ← grid] at rightDevice
  rw [← grid] at rightEach
  have shards : leftShard = rightShard := List.append_cancel_left (leftDevice.symm.trans rightDevice)
  have counted := congrArg List.length leftDevice
  rw [List.length_append] at counted
  have sameLength : leftShape.length = rightShape.length := by rw [← leftLength, ← rightLength, shards]
  have shapes : leftShape = rightShape := by
    refine ext_getD 0 sameLength fun i inside => ?_
    rw [leftEach i inside, rightEach i (sameLength ▸ inside), shards]
  rw [← shapes, ← element] at rightTiled
  obtain ⟨untiled, left, right, length⟩ := getPhysicalShape_inj ties _ _ _ _ leftTiled rightTiled
  exact ⟨untiled, left, right, by omega⟩

theorem canUseReinterpretLayoutView_iff [DecidableEq Scalar] (current target : PlanState Scalar)
    (layout targetLayout : DeviceLayout) (encoding : current.type.encoding = some layout)
    (targetEncoding : target.type.encoding = some targetLayout) :
    canUseReinterpretLayoutView current target = true ↔
      (((((current.type.shape = target.type.shape ∧ current.type.elementType = target.type.elementType) ∧
        current.type.gridShape = target.type.gridShape) ∧ layout.logicalShape = targetLayout.logicalShape) ∧
        layout.dimAlignments = targetLayout.dimAlignments) ∧ layout.memorySpace = targetLayout.memorySpace) ∧
        layout.memoryLayout = targetLayout.memoryLayout := by
  simp only [canUseReinterpretLayoutView, encoding, targetEncoding, Bool.and_eq_true, decide_eq_true_eq]

theorem retag_type [DecidableEq Scalar] (current target : PlanState Scalar)
    (reinterpretable : canUseReinterpretLayoutView current target = true) :
    (retag current target).type = target.type := by
  unfold retag
  split
  · rfl
  · rename_i same
    simpa [reinterpretable] using same

theorem physicalToDevice_eq_iff (physicalShape gridShape left right : List Int)
    (ranked : physicalShape.length = gridShape.length) :
    physicalToDevice physicalShape gridShape left = physicalToDevice physicalShape gridShape right ↔
      (left.length = physicalShape.length ↔ right.length = physicalShape.length) ∧
        (left.length = physicalShape.length → left = right) := by
  simp only [physicalToDevice, ranked, true_and]
  by_cases leftFits : left.length = gridShape.length <;> by_cases rightFits : right.length = gridShape.length
  · simp only [leftFits, rightFits, if_true, Option.some.injEq, true_and, forall_const]
    constructor
    · intro same
      obtain ⟨quotients, remainders⟩ := List.append_inj same (by simp)
      refine ext_getD 0 (leftFits.trans rightFits.symm) fun i inside => ?_
      have below : i ∈ List.range gridShape.length := List.mem_range.mpr (leftFits ▸ inside)
      have quotient := List.map_inj_left.mp quotients i below
      have remainder := List.map_inj_left.mp remainders i below
      rw [← Int.mul_ediv_add_emod (left.getD i 0) (physicalShape.getD i 0 / gridShape.getD i 0),
        ← Int.mul_ediv_add_emod (right.getD i 0) (physicalShape.getD i 0 / gridShape.getD i 0), quotient, remainder]
    · intro same
      rw [same]
  · simp [leftFits, rightFits]
  · simp [leftFits, rightFits]
  · simp [leftFits, rightFits]

theorem within_getD {radices digits : List Int} (within : Within radices digits) :
    digits.length = radices.length ∧ ∀ i < radices.length, 0 ≤ digits.getD i 0 ∧
      digits.getD i 0 < radices.getD i 0 := by
  obtain ⟨length, each⟩ := List.forall₂_iff_get.mp within
  refine ⟨length, fun i inside => ?_⟩
  rw [List.getD_eq_getElem _ _ (length ▸ inside), List.getD_eq_getElem _ _ inside]
  exact each i (length ▸ inside) inside

theorem within_of_getD {radices digits : List Int} (length : digits.length = radices.length)
    (each : ∀ i < radices.length, 0 ≤ digits.getD i 0 ∧ digits.getD i 0 < radices.getD i 0) :
      Within radices digits := by
  refine List.forall₂_iff_get.mpr ⟨length, fun i inDigits inRadices => ?_⟩
  have here := each i inRadices
  rwa [List.getD_eq_getElem _ _ inDigits, List.getD_eq_getElem _ _ inRadices] at here

section Linear
variable (ties : TieBreak (Int × Int)) (layout : MetalLayoutAttr) (verified : layout.verify = .ok ())
include verified

theorem logicalToPhysical_eq (index : List Int) :
    layout.logicalToPhysical ties index = (layout.getNormalizedIntervals ties).map fun interval =>
      ∑ dim ∈ Finset.range layout.logicalShape.length, index.getD dim 0 * intervalStride layout dim interval := by
  refine List.map_congr_left fun interval member => ?_
  obtain ⟨low, ordered, high⟩ := normalized_bounds ties layout verified interval member
  exact intervalIndex_eq layout index interval low ordered high

theorem logicalToPhysical_unit (dim : Nat) (inside : dim < layout.logicalShape.length) :
    layout.logicalToPhysical ties ((List.replicate layout.logicalShape.length 0).set dim 1) =
      dimStrides ties layout dim := by
  rw [logicalToPhysical_eq ties layout verified]
  refine List.map_congr_left fun interval _ => ?_
  rw [Finset.sum_eq_single dim]
  · rw [List.getD_eq_getElem _ _ (by simpa using inside), List.getElem_set_self, one_mul]
  · intro other below differs
    have present : other < ((List.replicate layout.logicalShape.length (0 : Int)).set dim 1).length := by
      simpa using below
    rw [List.getD_eq_getElem _ _ present, List.getElem_set_ne differs.symm, List.getElem_replicate, zero_mul]
  · intro absent
    exact absurd (Finset.mem_range.mpr inside) absent

end Linear

def MapsIndices (ties : TieBreak (Int × Int)) (layout : MetalLayoutAttr) : Prop :=
  (layout.getPhysicalShape ties []).map List.length = some (layout.getNormalizedIntervals ties).length

/-- Every logical dim of more than one element goes to the same physical dim with
the same stride. -/
structure SameStrides (ties : TieBreak (Int × Int)) (left right : MetalLayoutAttr) : Prop where
  maps : MapsIndices ties left ↔ MapsIndices ties right
  strides : MapsIndices ties left → ∀ dim < left.logicalShape.length, 1 < left.logicalShape.getD dim 0 →
    dimStrides ties left dim = dimStrides ties right dim

instance (ties : TieBreak (Int × Int)) (layout : MetalLayoutAttr) : Decidable (MapsIndices ties layout) :=
  inferInstanceAs (Decidable (_ = _))

section Placed
variable (ties : TieBreak (Int × Int)) (left right : MetalLayoutAttr) (leftVerified : left.verify = .ok ())
  (rightVerified : right.verify = .ok ()) (shape : left.logicalShape = right.logicalShape)
include leftVerified rightVerified shape

/-- The maps agree on all indices exactly when their strides do on the dims that have
more than one. -/
theorem logicalToPhysical_eq_iff (positive : ∀ extent ∈ left.logicalShape, 0 < extent)
    (count : (left.getNormalizedIntervals ties).length = (right.getNormalizedIntervals ties).length) :
    (∀ index, Within left.logicalShape index → left.logicalToPhysical ties index = right.logicalToPhysical ties index) ↔
      ∀ dim < left.logicalShape.length, 1 < left.logicalShape.getD dim 0 →
        dimStrides ties left dim = dimStrides ties right dim := by
  constructor
  · intro agree dim inside wide
    rw [← logicalToPhysical_unit ties left leftVerified dim inside,
      ← logicalToPhysical_unit ties right rightVerified dim (shape ▸ inside), ← shape]
    apply agree
    refine within_of_getD (by simp) fun i inShape => ?_
    have present : i < ((List.replicate left.logicalShape.length (0 : Int)).set dim 1).length := by simpa using inShape
    rw [List.getD_eq_getElem _ _ present, List.getElem_set]
    split
    · rename_i here
      subst here
      exact ⟨by decide, wide⟩
    · rw [List.getElem_replicate, List.getD_eq_getElem _ _ inShape]
      exact ⟨le_rfl, positive _ (List.getElem_mem inShape)⟩
  · intro strides index within
    obtain ⟨_, bounds⟩ := within_getD within
    rw [logicalToPhysical_eq ties left leftVerified, logicalToPhysical_eq ties right rightVerified, ← shape]
    refine ext_getD 0 (by simpa using count) fun i inside => ?_
    have inLeft : i < (left.getNormalizedIntervals ties).length := by simpa using inside
    have inRight := count ▸ inLeft
    rw [List.getD_eq_getElem _ _ inside, List.getD_eq_getElem _ _ (by simpa using inRight), List.getElem_map,
      List.getElem_map]
    refine Finset.sum_congr rfl fun dim below => ?_
    have known := Finset.mem_range.mp below
    have bound := bounds dim known
    by_cases wide : 1 < left.logicalShape.getD dim 0
    · have same := congrArg (fun strides : List Int => strides.getD i 0) (strides dim known wide)
      simp only [dimStrides] at same
      rw [List.getD_eq_getElem _ _ (by simpa using inLeft), List.getD_eq_getElem _ _ (by simpa using inRight),
        List.getElem_map, List.getElem_map] at same
      rw [same]
    · -- the only index of a dim of one element is zero
      rw [show index.getD dim 0 = 0 by omega, zero_mul, zero_mul]

end Placed

theorem OnDevice.placement_eq {ties : TieBreak (Int × Int)} {type : RankedTensorType Scalar} {layout : DeviceLayout}
    (onDevice : OnDevice ties type layout) {physicalShape : List Int}
    (physical : layout.getPhysicalShape ties [] = some physicalShape) (index : List Int) :
    type.placement ties index = physicalToDevice physicalShape type.gridShape (layout.logicalToPhysical ties index) := by
  simp only [RankedTensorType.placement, onDevice.encoding, physical, Option.bind_some, bind]

/-- Taking the target's type without a step leaves every element where it is exactly
when the two layouts collapse every dim of more than one element with the same stride. -/
theorem retag_keeps_placement_iff [DecidableEq Scalar] (ties : TieBreak (Int × Int)) (current target : PlanState Scalar)
    (layout targetLayout : DeviceLayout) (onDevice : OnDevice ties current.type layout)
    (targetOnDevice : OnDevice ties target.type targetLayout)
    (reinterpretable : canUseReinterpretLayoutView current target = true) :
    (∀ index, Within layout.logicalShape index →
        current.type.placement ties index = (retag current target).type.placement ties index) ↔
      (∃ extent ∈ layout.logicalShape, extent ≤ 0) ∨
        SameStrides ties layout.toMetalLayoutAttr targetLayout.toMetalLayoutAttr := by
  obtain ⟨⟨⟨⟨⟨⟨shape, element⟩, grid⟩, logical⟩, _⟩, _⟩, _⟩ :=
    (canUseReinterpretLayoutView_iff current target layout targetLayout onDevice.encoding targetOnDevice.encoding).mp
      reinterpretable
  obtain ⟨physicalShape, physical, targetPhysical, ranked⟩ := onDevice.same_physical targetOnDevice shape element
  have maps (other : MetalLayoutAttr) (known : other.getPhysicalShape ties [] = some physicalShape) (index : List Int) :
      MapsIndices ties other ↔ (other.logicalToPhysical ties index).length = physicalShape.length := by
    simp only [MapsIndices, known, Option.map_some, Option.some.injEq, MetalLayoutAttr.logicalToPhysical,
      List.length_map,
      eq_comm]
  simp only [retag_type current target reinterpretable, onDevice.placement_eq physical,
    targetOnDevice.placement_eq targetPhysical, ← grid, physicalToDevice_eq_iff _ _ _ _ ranked,
    ← maps _ physical, ← maps _ targetPhysical]
  by_cases empty : ∃ extent ∈ layout.logicalShape, extent ≤ 0
  · -- there is no index at all
    simp only [empty, true_or, iff_true]
    intro index within
    obtain ⟨extent, member, nonpos⟩ := empty
    obtain ⟨dim, inside, rfl⟩ := List.getElem_of_mem member
    have bound := (within_getD within).2 dim inside
    rw [List.getD_eq_getElem layout.logicalShape _ inside] at bound
    omega
  · push Not at empty
    have agree := logicalToPhysical_eq_iff ties layout.toMetalLayoutAttr targetLayout.toMetalLayoutAttr onDevice.verified
      targetOnDevice.verified logical empty
    have origin : Within layout.logicalShape (List.replicate layout.logicalShape.length 0) := by
      refine within_of_getD List.length_replicate fun i inside => ?_
      rw [List.getD_eq_getElem _ _ (by simpa using inside), List.getElem_replicate, List.getD_eq_getElem _ _ inside]
      exact ⟨le_rfl, empty _ (List.getElem_mem inside)⟩
    have counted (both : MapsIndices ties layout.toMetalLayoutAttr)
        (bothMaps : MapsIndices ties layout.toMetalLayoutAttr ↔ MapsIndices ties targetLayout.toMetalLayoutAttr) :
        (layout.getNormalizedIntervals ties).length = (targetLayout.getNormalizedIntervals ties).length := by
      have target := bothMaps.mp both
      simp only [MapsIndices, physical, targetPhysical, Option.map_some, Option.some.injEq] at both target
      exact both.symm.trans target
    constructor
    · intro same
      have bothMaps := (same _ origin).1
      refine Or.inr ⟨bothMaps, fun both => (agree (counted both bothMaps)).mp fun index within => ?_⟩
      exact (same index within).2 both
    · rintro (⟨extent, member, nonpos⟩ | ⟨bothMaps, strides⟩) index within
      · exact absurd (empty extent member) (not_lt.mpr nonpos)
      · exact ⟨bothMaps, fun both => (agree (counted both bothMaps)).mpr (strides both) index within⟩

/-- A row of 2 x 1 x 32 tiles: with the alignment 2 of the middle dim, rows 0 and 2 are the rows of
dim 0 when it collapses. -/
def outerCollapse : DeviceLayout :=
  { logicalShape := [2, 1, 32], dimAlignments := [32, 2, 32], collapsedIntervals := [(0, 2)]
    memorySpace := .deviceL1, memoryLayout := .sharded }

def innerCollapse : DeviceLayout := { outerCollapse with collapsedIntervals := [(0, 1), (1, 3)] }

def oneTile (layout : DeviceLayout) : PlanState Unit :=
  { type := { shape := [1, 1, 1, 1], elementType := .tile () 32 32, encoding := some layout } }

theorem oneTile_outer : OnDevice (TieBreak.insertion _) (oneTile outerCollapse).type outerCollapse :=
  ⟨rfl, rfl, by decide⟩

theorem oneTile_inner : OnDevice (TieBreak.insertion _) (oneTile innerCollapse).type innerCollapse :=
  ⟨rfl, rfl, by decide⟩

theorem retag_moves_row :
    let current := oneTile outerCollapse
    let target := oneTile innerCollapse
    OnDevice (TieBreak.insertion _) current.type outerCollapse ∧
      OnDevice (TieBreak.insertion _) target.type innerCollapse ∧
      canUseReinterpretLayoutView current target = true ∧
      current.type.placement (TieBreak.insertion _) [1, 0, 0] = some [0, 0, 2, 0] ∧
      (retag current target).type.placement (TieBreak.insertion _) [1, 0, 0] = some [0, 0, 1, 0] ∧
      ¬ ∀ index, Within [2, 1, 32] index → current.type.placement (TieBreak.insertion _) index =
        (retag current target).type.placement (TieBreak.insertion _) index := by
  intro current target
  have second : current.type.placement (TieBreak.insertion _) [1, 0, 0] = some [0, 0, 2, 0] := by decide
  have first : (retag current target).type.placement (TieBreak.insertion _) [1, 0, 0] = some [0, 0, 1, 0] := by
    decide
  refine ⟨oneTile_outer, oneTile_inner, by decide, second, first, fun same => ?_⟩
  have within : Within [2, 1, 32] [1, 0, 0] := by simp [Within]
  have moved := same _ within
  rw [second, first] at moved
  exact absurd moved (by decide)

def plainIntervals : DeviceLayout := { outerCollapse with collapsedIntervals := [(0, 2), (2, 3)] }

theorem retag_keeps_plain :
    let current := oneTile outerCollapse
    let target := oneTile plainIntervals
    canUseReinterpretLayoutView current target = true ∧ current.type ≠ target.type ∧
      ∀ index, Within [2, 1, 32] index → current.type.placement (TieBreak.insertion _) index =
        (retag current target).type.placement (TieBreak.insertion _) index := by
  intro current target
  have reinterpretable : canUseReinterpretLayoutView current target = true := by decide
  have targetOnDevice : OnDevice (TieBreak.insertion _) target.type plainIntervals := ⟨rfl, rfl, by decide⟩
  refine ⟨reinterpretable, by decide, ?_⟩
  refine (retag_keeps_placement_iff (TieBreak.insertion _) current target outerCollapse plainIntervals oneTile_outer
    targetOnDevice reinterpretable).mpr (Or.inr ⟨by decide, fun _ => by decide⟩)

end TtMlir.Layout
