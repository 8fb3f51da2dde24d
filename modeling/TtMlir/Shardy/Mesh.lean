import TtMlir.Library.Tensor

/-!
Device meshes with named axes, `createMeshMapFromMeshAttr` in ShardyUtils.cpp.
Devices are numbered row-major, the first axis the major one.
-/

namespace TtMlir.Shardy

structure MeshAxis where
  name : String
  size : Nat
  deriving DecidableEq, Repr

structure Mesh where
  axes : List MeshAxis
  distinct : (axes.map (·.name)).Nodup
  positive : ∀ axis ∈ axes, 0 < axis.size

namespace Mesh
variable (mesh : Mesh)

def shape : List Nat := mesh.axes.map (·.size)

def devices : Nat := mesh.shape.prod

abbrev Device := Fin mesh.devices

def axisIndex (axis : String) : Nat := mesh.axes.findIdx (·.name == axis)

/-- An axis the mesh map does not hold reads as size 0. -/
def axisSize (axis : String) : Nat := mesh.shape.getD (mesh.axisIndex axis) 0

def Knows (axis : String) : Prop := axis ∈ mesh.axes.map (·.name)

instance (axis : String) : Decidable (mesh.Knows axis) := by unfold Knows; infer_instance

variable {mesh}

theorem extent_positive (extent : Nat) (member : extent ∈ mesh.shape) : 0 < extent := by
  obtain ⟨axis, known, rfl⟩ := List.mem_map.mp member
  exact mesh.positive axis known

theorem devices_positive : 0 < mesh.devices :=
  List.prod_pos_iff_forall_pos_nat.mpr extent_positive

theorem axisIndex_lt {axis : String} (known : mesh.Knows axis) : mesh.axisIndex axis < mesh.shape.length := by
  obtain ⟨found, member, rfl⟩ := List.mem_map.mp known
  rw [shape, List.length_map]
  exact List.findIdx_lt_length_of_exists ⟨found, member, by simp⟩

theorem axisIndex_inj {left right : String} (known : mesh.Knows left)
    (same : mesh.axisIndex left = mesh.axisIndex right) :
    left = right := by
  have below := axisIndex_lt known
  rw [shape, List.length_map] at below
  have first : (mesh.axes[mesh.axisIndex left].name == left) = true := List.findIdx_getElem (w := below)
  have below' : mesh.axisIndex right < mesh.axes.length := same ▸ below
  have second : (mesh.axes[mesh.axisIndex right].name == right) = true := List.findIdx_getElem (w := below')
  simp only [beq_iff_eq] at first second
  rw [← first, ← second]
  simp only [same]

theorem axisSize_positive {axis : String} (known : mesh.Knows axis) : 0 < mesh.axisSize axis := by
  rw [axisSize, List.getD_eq_getElem _ _ (axisIndex_lt known)]
  exact extent_positive _ (List.getElem_mem _)

theorem index_inside (device : Nat) : Inside mesh.shape (unflatten mesh.shape device) :=
  unflatten_inside _ _ extent_positive

section Devices
variable (mesh)

def coordinate (axis : String) (device : mesh.Device) : Nat :=
  (unflatten mesh.shape device).getD (mesh.axisIndex axis) 0

theorem moved_inside (axis : String) (position : Nat) (device : mesh.Device) :
    Inside mesh.shape ((unflatten mesh.shape device).set (mesh.axisIndex axis) (position % mesh.axisSize axis)) := by
  apply (index_inside device).set
  intro known
  apply Nat.mod_lt
  rw [axisSize, List.getD_eq_getElem _ _ known]
  exact extent_positive _ (List.getElem_mem _)

/-- The device reached by changing the position along one axis. -/
def move (axis : String) (position : Nat) (device : mesh.Device) : mesh.Device :=
  ⟨flatten mesh.shape ((unflatten mesh.shape device).set (mesh.axisIndex axis) (position % mesh.axisSize axis)),
    flatten_lt _ _ (moved_inside mesh axis position device)⟩

def combinedSize (axes : List String) : Nat := (axes.map mesh.axisSize).prod

def position : List String → mesh.Device → Nat
  | [], _ => 0
  | axis :: axes, device => mesh.coordinate axis device * mesh.combinedSize axes + position axes device

def moveTo : List String → Nat → mesh.Device → mesh.Device
  | [], _, device => device
  | axis :: axes, number, device =>
      mesh.move axis (number / mesh.combinedSize axes) (moveTo axes (number % mesh.combinedSize axes) device)

end Devices

theorem unflatten_move (axis : String) (position : Nat) (device : mesh.Device) :
    unflatten mesh.shape (mesh.move axis position device) =
      (unflatten mesh.shape device).set (mesh.axisIndex axis) (position % mesh.axisSize axis) :=
  unflatten_flatten _ _ (moved_inside mesh axis position device)

theorem device_ext {left right : mesh.Device} (same : unflatten mesh.shape left = unflatten mesh.shape right) :
    left = right := by
  apply Fin.ext
  rw [← flatten_unflatten mesh.shape left left.isLt, same, flatten_unflatten mesh.shape right right.isLt]

theorem coordinate_lt {axis : String} (known : mesh.Knows axis) (device : mesh.Device) :
    mesh.coordinate axis device < mesh.axisSize axis :=
  (index_inside device).getD_lt _ (axisIndex_lt known)

theorem coordinate_move {axis : String} (known : mesh.Knows axis) (position : Nat) (device : mesh.Device) :
    mesh.coordinate axis (mesh.move axis position device) = position % mesh.axisSize axis := by
  rw [coordinate, unflatten_move]
  apply Tensor.getD_set_self
  rw [(index_inside device).length]
  exact axisIndex_lt known

theorem coordinate_move_other {axis other : String} (known : mesh.Knows axis) (different : axis ≠ other)
    (position : Nat) (device : mesh.Device) :
    mesh.coordinate other (mesh.move axis position device) = mesh.coordinate other device := by
  rw [coordinate, unflatten_move]
  exact Tensor.getD_set_other _ _ _ _ fun same => different (axisIndex_inj known same)

theorem move_coordinate (axis : String) (device : mesh.Device) :
    mesh.move axis (mesh.coordinate axis device) device = device := by
  apply device_ext
  rw [unflatten_move]
  by_cases known : mesh.axisIndex axis < mesh.shape.length
  · have small := (index_inside device).getD_lt _ known
    rw [axisSize, coordinate, Nat.mod_eq_of_lt small, Tensor.set_getD_self]
  · exact List.set_eq_of_length_le (by rw [(index_inside device).length]; omega)

theorem combinedSize_positive {axes : List String} (known : ∀ axis ∈ axes, mesh.Knows axis) :
    0 < mesh.combinedSize axes := by
  apply List.prod_pos_iff_forall_pos_nat.mpr
  intro size member
  obtain ⟨axis, found, rfl⟩ := List.mem_map.mp member
  exact axisSize_positive (known axis found)

theorem combinedSize_cons (axis : String) (axes : List String) :
    mesh.combinedSize (axis :: axes) = mesh.axisSize axis * mesh.combinedSize axes := List.prod_cons

theorem position_lt {axes : List String} (known : ∀ axis ∈ axes, mesh.Knows axis) (device : mesh.Device) :
    mesh.position axes device < mesh.combinedSize axes := by
  induction axes with
  | nil => exact Nat.one_pos
  | cons axis axes ih =>
      have here := coordinate_lt (known axis List.mem_cons_self) device
      have rest := ih fun other member => known other (List.mem_cons_of_mem _ member)
      rw [position, combinedSize_cons]
      calc mesh.coordinate axis device * mesh.combinedSize axes + mesh.position axes device
          < mesh.coordinate axis device * mesh.combinedSize axes + mesh.combinedSize axes := Nat.add_lt_add_left rest _
        _ = (mesh.coordinate axis device + 1) * mesh.combinedSize axes := by ring
        _ ≤ mesh.axisSize axis * mesh.combinedSize axes := Nat.mul_le_mul_right _ here

end Mesh

end TtMlir.Shardy
