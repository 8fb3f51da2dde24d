import Mathlib.Data.List.Nodup
import TtMlir.Shardy.Mesh

/-!
StableHLO collectives over replica groups, and the chains of them that
ShardyCCLToStableHLOCCLPatterns.cpp emits for the Shardy ones.
-/

namespace TtMlir.Shardy

abbrev ReplicaGroups := List (List Nat)

def countingRows (columns : Nat) : Nat → Nat → ReplicaGroups
  | _, 0 => []
  | value, rows + 1 => List.range' value columns :: countingRows columns (value + columns) rows

def generateDefaultReplicaGroups (rows columns : Nat) : ReplicaGroups := countingRows columns 0 rows

def transposeReplicaGroups (replicaGroups : ReplicaGroups) : ReplicaGroups :=
  (List.range (replicaGroups.headD []).length).map fun column => replicaGroups.map (·.getD column 0)

/-- Meshes that do not have exactly two axes fail an assertion. -/
def populateReplicaGroups (mesh : Mesh) (meshAxis : String) : ReplicaGroups :=
  match mesh.axes with
  | [first, second] =>
      let replicaGroups := generateDefaultReplicaGroups first.size second.size
      if first.name ≠ meshAxis then replicaGroups else transposeReplicaGroups replicaGroups
  | _ => []

inductive StablehloOp where
  | allGather (allGatherDim : Nat) (replicaGroups : ReplicaGroups)
  | reduceScatter (scatterDimension : Nat) (replicaGroups : ReplicaGroups)
  | allReduce (replicaGroups : ReplicaGroups)
  | allToAll (splitDimension concatDimension splitCount : Nat) (replicaGroups : ReplicaGroups)
  | reshape
  | slice (startIndices limitIndices strides : List Nat)
  deriving DecidableEq, Repr

structure EmittedOp where
  resultShape : List Nat
  op : StablehloOp
  deriving DecidableEq, Repr

abbrev Family (mesh : Mesh) (α : Type) := mesh.Device → Tensor α

section Semantics
variable {α : Type} {mesh : Mesh}

def groupOf (replicaGroups : ReplicaGroups) (device : Nat) : List Nat :=
  (replicaGroups.find? (·.contains device)).getD []

def member (replicaGroups : ReplicaGroups) (device : mesh.Device) (number : Nat) : mesh.Device :=
  ⟨(groupOf replicaGroups device).getD number 0 % mesh.devices, Nat.mod_lt _ Mesh.devices_positive⟩

def sumOver [AddCommMonoid α] (replicaGroups : ReplicaGroups) (operand : Family mesh α) (device : mesh.Device) :
    Tensor α :=
  Tensor.sum (operand device).shape
    ((List.range (groupOf replicaGroups device).length).map fun number => operand (member replicaGroups device number))

def EmittedOp.apply [AddCommMonoid α] (emitted : EmittedOp) (operand : Family mesh α) : Family mesh α :=
  fun device =>
    match emitted.op with
    | .allGather dim groups =>
        Tensor.join (groupOf groups device).length (fun number => operand (member groups device number)) dim
    | .reduceScatter dim groups =>
        (sumOver groups operand device).part dim (groupOf groups device).length
          ((groupOf groups device).idxOf device.val)
    | .allReduce groups => sumOver groups operand device
    | .allToAll splitDim concatDim splitCount groups =>
        Tensor.join (groupOf groups device).length
          (fun number => (operand (member groups device number)).part splitDim splitCount
            ((groupOf groups device).idxOf device.val))
          concatDim
    | .reshape => (operand device).reshape emitted.resultShape
    | .slice starts limits strides => (operand device).slice starts limits strides

def run [AddCommMonoid α] (ops : List EmittedOp) (operand : Family mesh α) : Family mesh α :=
  ops.foldl (fun value emitted => emitted.apply value) operand

end Semantics

/-- A step of an emission: from the type of the last result, the ops and the type of theirs. -/
abbrev Emit (Step : Type) := List Nat → Step → Except String (List EmittedOp × List Nat)

def chain {Step : Type} (emit : Emit Step) : List Nat → List Step → Except String (List EmittedOp)
  | _, [] => .ok []
  | shape, step :: steps => do
      let (ops, newShape) ← emit shape step
      let rest ← chain emit newShape steps
      return ops ++ rest

def axisSteps (axesPerDim : List (List String)) : List (Nat × String) :=
  axesPerDim.zipIdx.flatMap fun (axes, dim) => axes.map fun axis => (dim, axis)

section Patterns
variable (mesh : Mesh)

def emitAllGather : Emit (Nat × String) := fun shape (allGatherDim, meshAxis) =>
  let newShape := shape.set allGatherDim (shape.getD allGatherDim 0 * mesh.axisSize meshAxis)
  .ok ([⟨newShape, .allGather allGatherDim (populateReplicaGroups mesh meshAxis)⟩], newShape)

def emitReduceScatter : Emit (Nat × String) := fun shape (reduceScatterDim, meshAxis) =>
  let newShape := shape.set reduceScatterDim (shape.getD reduceScatterDim 0 / mesh.axisSize meshAxis)
  .ok ([⟨newShape, .reduceScatter reduceScatterDim (populateReplicaGroups mesh meshAxis)⟩], newShape)

def emitAllReduce : Emit String := fun shape meshAxis =>
  .ok ([⟨shape, .allReduce (populateReplicaGroups mesh meshAxis)⟩], shape)

structure AllToAllParam where
  axes : List String
  srcDim : Nat
  tgtDim : Nat
  deriving DecidableEq, Repr

def emitAllToAll : Emit (AllToAllParam × String) := fun shape (param, meshAxis) =>
  let sliceDim := param.tgtDim
  let concatDim := param.srcDim
  let sliced := shape.set sliceDim (shape.getD sliceDim 0 / mesh.axisSize meshAxis)
  let newShape := sliced.set concatDim (sliced.getD concatDim 0 * mesh.axisSize meshAxis)
  .ok ([⟨newShape, .allToAll sliceDim concatDim (mesh.axisSize meshAxis) (populateReplicaGroups mesh meshAxis)⟩],
    newShape)

/-- Splits the dim into parts, exchanges them and keeps part 0. -/
def emitAllSlice : Emit (Nat × String) := fun shape (sliceDim, meshAxis) =>
  if ¬mesh.Knows meshAxis then
    .error "mesh axis not found in mesh map."
  else
    let parts := mesh.axisSize meshAxis
    if shape.getD sliceDim 0 % parts ≠ 0 then
      .error "dimension size must be static and divisible by mesh axis size (parts)."
    else
      let chunkLen := shape.getD sliceDim 0 / parts
      let reshapeShape := shape.take sliceDim ++ parts :: chunkLen :: shape.drop (sliceDim + 1)
      let slicedShape := reshapeShape.set sliceDim 1
      let finalShape := shape.set sliceDim chunkLen
      .ok ([⟨reshapeShape, .reshape⟩,
        ⟨reshapeShape, .allToAll sliceDim sliceDim parts (populateReplicaGroups mesh meshAxis)⟩,
        ⟨slicedShape, .slice (List.replicate reshapeShape.length 0) slicedShape
          (List.replicate reshapeShape.length 1)⟩,
        ⟨finalShape, .reshape⟩], finalShape)

inductive SdyOp where
  | allGather (gatheringAxes : List (List String))
  | reduceScatter (reduceScatterAxes : List (List String))
  | allReduce (reductionAxes : List String)
  | allToAll (params : List AllToAllParam)
  | allSlice (slicingAxes : List (List String)) (inputIsFullyReplicated : Bool)
  deriving DecidableEq, Repr

/-- A fully replicated input of an all_slice makes the ops the body of a composite op. -/
def SdyOp.matchAndRewrite (shape : List Nat) : SdyOp → Except String (List EmittedOp)
  | .allGather gatheringAxes => chain (emitAllGather mesh) shape (axisSteps gatheringAxes)
  | .reduceScatter reduceScatterAxes => chain (emitReduceScatter mesh) shape (axisSteps reduceScatterAxes)
  | .allReduce reductionAxes => chain (emitAllReduce mesh) shape reductionAxes
  | .allToAll params =>
      chain (emitAllToAll mesh) shape (params.flatMap fun param => param.axes.map fun axis => (param, axis))
  | .allSlice slicingAxes inputIsFullyReplicated => do
      let opsToOutline ← chain (emitAllSlice mesh) shape (axisSteps slicingAxes)
      if inputIsFullyReplicated ∧ opsToOutline = [] then
        .error "Cannot create composite op: no operations to outline."
      else
        return opsToOutline

end Patterns

theorem countingRows_eq (columns value rows : Nat) :
    countingRows columns value rows =
      (List.range rows).map fun row => List.range' (value + row * columns) columns := by
  induction rows generalizing value with
  | zero => rfl
  | succ rows ih =>
      rw [countingRows, ih, List.range_succ_eq_map, List.map_cons, List.map_map, Nat.zero_mul, Nat.add_zero]
      congr 1
      apply List.map_congr_left
      intro row _
      rw [Function.comp_apply, Nat.succ_mul]
      congr 1
      omega

theorem transposeReplicaGroups_eq (rows columns : Nat) (positive : 0 < rows) :
    transposeReplicaGroups (generateDefaultReplicaGroups rows columns) =
      (List.range columns).map fun column => (List.range rows).map fun row => row * columns + column := by
  obtain ⟨rest, rfl⟩ : ∃ rest, rows = rest + 1 := ⟨rows - 1, by omega⟩
  have width : ((generateDefaultReplicaGroups (rest + 1) columns).headD []).length = columns := by
    simp [generateDefaultReplicaGroups, countingRows]
  rw [transposeReplicaGroups, width, generateDefaultReplicaGroups, countingRows_eq]
  apply List.map_congr_left
  intro column below
  rw [List.map_map]
  apply List.map_congr_left
  intro row _
  rw [List.mem_range] at below
  simp [List.getD_eq_getElem?_getD, below]

theorem find_row (count chosen : Nat) (rows : Nat → List Nat) (device : Nat) (below : chosen < count)
    (only : ∀ row, row < count → (device ∈ rows row ↔ row = chosen)) :
    groupOf ((List.range count).map rows) device = rows chosen := by
  have found : ((List.range count).map rows).find? (·.contains device) = some (rows chosen) := by
    rw [List.find?_eq_some_iff_getElem]
    constructor
    · simpa using (only chosen below).mpr rfl
    · exact ⟨chosen, by simpa using below, by simp, fun row before => by
        simpa using fun held => by have := (only row (by omega)).mp held; omega⟩
  rw [groupOf, found, Option.getD_some]

section TwoAxes
variable {mesh : Mesh} {first second : MeshAxis}

section
variable (two : mesh.axes = [first, second])
include two

theorem shape_two : mesh.shape = [first.size, second.size] := by
  rw [Mesh.shape, two]
  rfl

theorem devices_two : mesh.devices = first.size * second.size := by
  rw [Mesh.devices, shape_two two]
  simp

theorem names_two : first.name ≠ second.name := by
  have distinct := mesh.distinct
  rw [two] at distinct
  simpa using distinct

theorem sizes_two : 0 < first.size ∧ 0 < second.size :=
  ⟨mesh.positive first (by simp [two]), mesh.positive second (by simp [two])⟩

theorem axisIndex_first : mesh.axisIndex first.name = 0 := by
  simp [Mesh.axisIndex, two, List.findIdx_cons]

theorem axisIndex_second : mesh.axisIndex second.name = 1 := by
  simp [Mesh.axisIndex, two, List.findIdx_cons, beq_eq_false_iff_ne.mpr (names_two two)]

theorem axisSize_first : mesh.axisSize first.name = first.size := by
  rw [Mesh.axisSize, axisIndex_first two, shape_two two]
  rfl

theorem axisSize_second : mesh.axisSize second.name = second.size := by
  rw [Mesh.axisSize, axisIndex_second two, shape_two two]
  rfl

end

theorem unflatten_two (rows columns flat : Nat) :
    unflatten [rows, columns] flat = [flat / columns % rows, flat % columns] := by
  simp [unflatten]

theorem move_first (two : mesh.axes = [first, second]) (position : Nat) (device : mesh.Device) :
    (mesh.move first.name position device).val = position % first.size * second.size + device % second.size := by
  simp only [Mesh.move, shape_two two, axisIndex_first two, axisSize_first two, unflatten_two]
  simp [flatten]

theorem move_second (two : mesh.axes = [first, second]) (position : Nat) (device : mesh.Device) :
    (mesh.move second.name position device).val = device / second.size * second.size + position % second.size := by
  have row : device.val / second.size < first.size := by
    apply Nat.div_lt_of_lt_mul
    rw [Nat.mul_comm, ← devices_two two]
    exact device.isLt
  simp only [Mesh.move, shape_two two, axisIndex_second two, axisSize_second two, unflatten_two, Nat.mod_eq_of_lt row]
  simp [flatten]

section
variable (two : mesh.axes = [first, second]) {axis : String} (known : mesh.Knows axis)
include two known

theorem knows_two :
    axis = first.name ∨ axis = second.name := by
  simpa [Mesh.Knows, two] using known

/-- The group of a device: the devices that differ from it along the axis only, in order. -/
theorem groupOf_populate (device : mesh.Device) :
    groupOf (populateReplicaGroups mesh axis) device =
      (List.range (mesh.axisSize axis)).map fun number => (mesh.move axis number device).val := by
  have ⟨firstPositive, secondPositive⟩ := sizes_two two
  have below : device.val < first.size * second.size := devices_two two ▸ device.isLt
  have row : device.val / second.size < first.size := Nat.div_lt_of_lt_mul (by rwa [Nat.mul_comm])
  have column : device.val % second.size < second.size := Nat.mod_lt _ secondPositive
  rcases knows_two two known with rfl | rfl
  · have groups : populateReplicaGroups mesh first.name =
        transposeReplicaGroups (generateDefaultReplicaGroups first.size second.size) := by
      simp [populateReplicaGroups, two]
    rw [groups, transposeReplicaGroups_eq _ _ firstPositive, find_row _ (device.val % second.size) _ _ column,
      axisSize_first two]
    · apply List.map_congr_left
      intro number member
      rw [move_first two, Nat.mod_eq_of_lt (List.mem_range.mp member)]
    · intro other inside
      simp only [List.mem_map, List.mem_range]
      constructor
      · rintro ⟨line, _, same⟩
        rw [← same, Nat.mul_add_mod_self_right, Nat.mod_eq_of_lt inside]
      · rintro rfl
        exact ⟨_, row, Nat.div_add_mod' _ _⟩
  · have groups : populateReplicaGroups mesh second.name =
        generateDefaultReplicaGroups first.size second.size := by
      simp [populateReplicaGroups, two, names_two two]
    rw [groups, generateDefaultReplicaGroups, countingRows_eq, find_row _ (device.val / second.size) _ _ row,
      axisSize_second two]
    · rw [Nat.zero_add, List.range'_eq_map_range]
      apply List.map_congr_left
      intro number member
      rw [move_second two, Nat.mod_eq_of_lt (List.mem_range.mp member)]
    · intro other inside
      simp only [List.mem_range'_1, Nat.zero_add]
      constructor
      · rintro ⟨atLeast, before⟩
        exact (Nat.div_eq_of_lt_le atLeast (by rw [Nat.succ_mul]; exact before)).symm
      · rintro rfl
        have split := Nat.div_add_mod' device.val second.size
        omega

theorem length_group (device : mesh.Device) : (groupOf (populateReplicaGroups mesh axis) device).length = mesh.axisSize axis := by
  rw [groupOf_populate two known, List.length_map, List.length_range]

theorem member_group (device : mesh.Device) (number : Nat) (below : number < mesh.axisSize axis) :
    member (populateReplicaGroups mesh axis) device number = mesh.move axis number device := by
  apply Fin.ext
  simp only [member, groupOf_populate two known]
  simp [List.getD_eq_getElem?_getD, below, Nat.mod_eq_of_lt]

theorem idxOf_group (device : mesh.Device) :
    (groupOf (populateReplicaGroups mesh axis) device).idxOf device.val = mesh.coordinate axis device := by
  rw [groupOf_populate two known]
  have below := Mesh.coordinate_lt known device
  have distinct : ((List.range (mesh.axisSize axis)).map fun number => (mesh.move axis number device).val).Nodup := by
    apply List.Nodup.map_on _ List.nodup_range
    intro left insideLeft right insideRight same
    have coordinates := congrArg (mesh.coordinate axis) (Fin.ext same)
    rwa [Mesh.coordinate_move known, Mesh.coordinate_move known, Nat.mod_eq_of_lt (List.mem_range.mp insideLeft),
      Nat.mod_eq_of_lt (List.mem_range.mp insideRight)] at coordinates
  have found := distinct.idxOf_getElem (mesh.coordinate axis device) (by simpa using below)
  simpa only [List.getElem_map, List.getElem_range, Mesh.move_coordinate] using found

end

end TwoAxes

end TtMlir.Shardy
