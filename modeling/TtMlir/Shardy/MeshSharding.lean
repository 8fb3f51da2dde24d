import Mathlib.Data.List.Induction
import TtMlir.Shardy.Localize

/-!
The description of a sharding by one tensor dim for every mesh axis, `parseSdySharding` and
`ShardyMeshSharding::generate` in ShardyUtils.cpp. The order of the axes that shard one dim
places the tiles, but is no part of it.
-/

namespace TtMlir.Shardy

structure SubAxisInfo where
  preSize : Nat
  size : Nat
  deriving DecidableEq, Repr

structure AxisRef where
  name : String
  subAxisInfo : Option SubAxisInfo
  deriving DecidableEq, Repr

structure DimSharding where
  axes : List AxisRef
  isClosed : Bool
  priority : Option Nat
  deriving DecidableEq, Repr

inductive MeshShardType where
  | replicate | maximal | devices
  deriving DecidableEq, Repr

structure MeshSharding where
  shardType : MeshShardType
  shardShape : List Int
  shardDims : List Int
  meshShape : List Int
  deviceIds : List Int
  deriving DecidableEq, Repr

section Generate
variable (mesh : Mesh)

/-- One axis of a dim: the shard shape and the tensor dim of the mesh axis. -/
def parseAxis (dimIdx : Nat) (state : List Nat × List Int) (axis : AxisRef) : Except String (List Nat × List Int) :=
  if axis.subAxisInfo.isSome then .error "Sharding with subaxis partitioning is currently not supported."
  else
    let size := mesh.axisSize axis.name
    .ok (state.1.modify dimIdx (· * size),
      -- Sharding makes sense when it is higher than 1.
      if 1 < size then state.2.set (mesh.axisIndex axis.name) dimIdx else state.2)

def parseDims : List (DimSharding × Nat) → List Nat × List Int → Except String (List Nat × List Int)
  | [], state => .ok state
  | (dim, dimIdx) :: dims, state =>
      match dim.axes.foldlM (parseAxis mesh dimIdx) state with
      | .error message => .error message
      | .ok next => parseDims dims next

def parseSdySharding (sharding : List DimSharding) : Except String (List Nat × List Int) :=
  if sharding.all (·.isClosed) then
    parseDims mesh sharding.zipIdx (List.replicate sharding.length 1, List.replicate mesh.axes.length (-1))
  else .error "Sharding with open dimension is currently not supported."

def nonDevices (shardType : MeshShardType) (deviceIds : List Int) : MeshSharding :=
  ⟨shardType, [1], [-1], [-1], deviceIds⟩

def generate (deviceIds : List Nat) (sharding : List DimSharding) : Except String MeshSharding :=
  if mesh.axes = [] ∧ deviceIds = [] then .error "Empty meshAttr: manual_computation requires a mesh."
  else if mesh.axes = [] then
    if deviceIds = [] then .ok (nonDevices .replicate [-1]) else .ok (nonDevices .maximal (deviceIds.map Int.ofNat))
  else
    match parseSdySharding mesh sharding with
    | .error message => .error message
    | .ok (shardShape, shardDims) =>
        if shardShape.prod = 1 then .ok (nonDevices .replicate [-1])
        else .ok ⟨.devices, shardShape.map Int.ofNat, shardDims, mesh.shape.map Int.ofNat, [-1]⟩

end Generate

section Tiles
variable {mesh : Mesh} {left right : List String}

def DimSharding.names (dim : DimSharding) : List String := dim.axes.map (·.name)

/-- Along every dim, the number of the tile of a device and how many there are. The first axis is the major one. -/
def tile (mesh : Mesh) (sharding : List DimSharding) (device : mesh.Device) : List (Nat × Nat) :=
  sharding.map fun dim => (mesh.position dim.names device, mesh.combinedSize dim.names)

def wideAxes (mesh : Mesh) (axes : List String) : List String := axes.filter (1 < mesh.axisSize ·)

/-- A sharding refers to axes of the mesh, and to each at most once. -/
structure RefersTo (mesh : Mesh) (sharding : List DimSharding) : Prop where
  known : ∀ dim ∈ sharding, ∀ axis ∈ dim.names, mesh.Knows axis
  distinct : (sharding.flatMap DimSharding.names).Nodup

theorem tile_wide (known : ∀ axis ∈ left, mesh.Knows axis) (device : mesh.Device) :
    mesh.position left device = mesh.position (wideAxes mesh left) device ∧
      mesh.combinedSize left = mesh.combinedSize (wideAxes mesh left) := by
  induction left with
  | nil => exact ⟨rfl, rfl⟩
  | cons axis axes ih =>
      obtain ⟨here, later⟩ := List.forall_mem_cons.mp known
      obtain ⟨position, size⟩ := ih later
      by_cases wide : 1 < mesh.axisSize axis
      · have kept : wideAxes mesh (axis :: axes) = axis :: wideAxes mesh axes :=
          List.filter_cons_of_pos (by simpa using wide)
        rw [kept, Mesh.combinedSize_cons, Mesh.combinedSize_cons, Mesh.position, Mesh.position, position, size]
        exact ⟨rfl, rfl⟩
      · have dropped : wideAxes mesh (axis :: axes) = wideAxes mesh axes :=
          List.filter_cons_of_neg (by simpa using wide)
        have some := Mesh.axisSize_positive here
        have single : mesh.axisSize axis = 1 := by omega
        have first := Mesh.coordinate_lt here device
        have zero : mesh.coordinate axis device = 0 := by omega
        rw [dropped, Mesh.combinedSize_cons, Mesh.position, position, size, single, zero]
        exact ⟨by rw [Nat.zero_mul, Nat.zero_add], Nat.one_mul _⟩

theorem position_append (axis : String) (axes : List String) (device : mesh.Device) :
    mesh.position (axes ++ [axis]) device =
      mesh.position axes device * mesh.axisSize axis + mesh.coordinate axis device := by
  induction axes with
  | nil => simp [Mesh.position, Mesh.combinedSize]
  | cons first axes ih =>
      rw [List.cons_append, Mesh.position, Mesh.position, ih]
      unfold Mesh.combinedSize
      rw [List.map_append, List.prod_append, List.map_singleton, List.prod_singleton]
      ring

theorem position_zero {device : mesh.Device} (zero : ∀ axis ∈ left, mesh.coordinate axis device = 0) :
    mesh.position left device = 0 := by
  induction left with
  | nil => rfl
  | cons axis axes ih =>
      obtain ⟨here, later⟩ := List.forall_mem_cons.mp zero
      rw [Mesh.position, here, ih later, Nat.zero_mul, Nat.add_zero]

theorem exists_second {axis : String} (known : mesh.Knows axis) (wide : 1 < mesh.axisSize axis) :
    ∃ device, mesh.coordinate axis device = 1 ∧ ∀ other, other ≠ axis → mesh.coordinate other device = 0 := by
  let first : mesh.Device := ⟨0, Mesh.devices_positive⟩
  have zero (other : String) : mesh.coordinate other first = 0 := by
    unfold Mesh.coordinate
    rw [show (first : Nat) = 0 from rfl, unflatten_zero]
    simp
  refine ⟨mesh.move axis 1 first, ?_, ?_⟩
  · rw [Mesh.coordinate_move known, Nat.mod_eq_of_lt wide]
  · intro other different
    rw [Mesh.coordinate_move_other known different.symm, zero]

theorem position_last_ne {axis : String} {axes others : List String} (known : mesh.Knows axis)
    (wide : 1 < mesh.axisSize axis)
    (fresh : axis ∉ axes) (othersWide : ∀ other ∈ others, 1 < mesh.axisSize other)
    (last : ∀ other ∈ others.getLast?, other ≠ axis) :
    ∃ device, mesh.position (axes ++ [axis]) device ≠ mesh.position others device := by
  obtain ⟨device, second, zero⟩ := exists_second known wide
  refine ⟨device, ?_⟩
  rw [position_append, second, position_zero fun other member => zero other fun same => fresh (same ▸ member),
    Nat.zero_mul,
    Nat.zero_add]
  cases reversed : others.reverse with
  | nil =>
      rw [List.reverse_eq_nil_iff.mp reversed]
      exact one_ne_zero
  | cons other rest =>
      have split : others = rest.reverse ++ [other] :=
        by rw [← List.reverse_reverse others, reversed, List.reverse_cons]
      have member : other ∈ others := by simp [split]
      have different := last other (by rw [split]; simp)
      rw [split, position_append, zero other different, Nat.add_zero]
      intro one
      have divides : mesh.axisSize other ∣ 1 := one ▸ Dvd.intro_left _ rfl
      have size := othersWide other member
      rw [Nat.dvd_one.mp divides] at size
      exact Nat.lt_irrefl 1 size

theorem last_fresh {axis : String} {axes : List String} (distinct : (axes ++ [axis]).Nodup) : axis ∉ axes :=
  fun member => (List.nodup_append.mp distinct).2.2 axis member axis (by simp) rfl

theorem axes_unique (leftKnown : ∀ axis ∈ left, mesh.Knows axis) (rightKnown : ∀ axis ∈ right, mesh.Knows axis)
    (leftWide : ∀ axis ∈ left, 1 < mesh.axisSize axis) (rightWide : ∀ axis ∈ right, 1 < mesh.axisSize axis)
    (leftDistinct : left.Nodup) (rightDistinct : right.Nodup)
    (same : ∀ device, mesh.position left device = mesh.position right device) : left = right := by
  induction left using List.reverseRecOn generalizing right with
  | nil =>
      cases right using List.reverseRecOn with
      | nil => rfl
      | append_singleton axes axis =>
          have nothing : ∀ other ∈ ([] : List String), 1 < mesh.axisSize other := by simp
          obtain ⟨device, differs⟩ := position_last_ne (rightKnown axis (by simp)) (rightWide axis (by simp))
            (last_fresh rightDistinct) nothing (by simp)
          exact absurd (same device).symm differs
  | append_singleton axes axis ih =>
      -- Different last axes are told apart by one device; a common one is dropped from both.
      by_cases last : ∀ other ∈ right.getLast?, other ≠ axis
      · obtain ⟨device, differs⟩ := position_last_ne (leftKnown axis (by simp)) (leftWide axis (by simp))
          (last_fresh leftDistinct) rightWide last
        exact absurd (same device) differs
      · cases right using List.reverseRecOn with
        | nil => simp at last
        | append_singleton others other =>
            have equal : other = axis := by simpa using last
            subst equal
            congr 1
            apply ih
            · exact fun axis member => leftKnown axis (by simp [member])
            · exact fun axis member => rightKnown axis (by simp [member])
            · exact fun axis member => leftWide axis (by simp [member])
            · exact fun axis member => rightWide axis (by simp [member])
            · exact leftDistinct.sublist (List.sublist_append_left _ _)
            · exact rightDistinct.sublist (List.sublist_append_left _ _)
            · intro device
              have placed := same device
              -- The last axis adds the same on both sides.
              rw [position_append, position_append] at placed
              have size := leftWide other (by simp)
              exact Nat.eq_of_mul_eq_mul_right (by omega) (Nat.add_right_cancel placed)

end Tiles

section Placement
variable {mesh : Mesh} {deviceIds : List Nat} {left right : List DimSharding}

/-- Both shardings have a description, with the same type, shard shape, shard dims and mesh shape. -/
def SameDescription (mesh : Mesh) (deviceIds : List Nat) (left right : List DimSharding) : Prop :=
  ∃ first second, generate mesh deviceIds left = .ok first ∧ generate mesh deviceIds right = .ok second ∧
    first.shardType = second.shardType ∧ first.shardShape = second.shardShape ∧ first.shardDims = second.shardDims ∧
      first.meshShape = second.meshShape

/-- For every dim the axes of a size above one, in their order. -/
def wideOrder (mesh : Mesh) (sharding : List DimSharding) : List (List String) :=
  sharding.map fun dim => wideAxes mesh dim.names

theorem RefersTo.head {dim : DimSharding} {sharding : List DimSharding} (refers : RefersTo mesh (dim :: sharding)) :
    (∀ axis ∈ dim.names, mesh.Knows axis) ∧ dim.names.Nodup ∧ RefersTo mesh sharding := by
  obtain ⟨known, distinct⟩ := refers
  obtain ⟨here, later⟩ := List.forall_mem_cons.mp known
  rw [List.flatMap_cons] at distinct
  exact ⟨here, distinct.sublist (List.sublist_append_left _ _), later, distinct.sublist (List.sublist_append_right _ _)⟩

theorem dim_tiles_iff {first second : DimSharding} (firstKnown : ∀ axis ∈ first.names, mesh.Knows axis)
    (secondKnown : ∀ axis ∈ second.names, mesh.Knows axis) (firstDistinct : first.names.Nodup)
    (secondDistinct : second.names.Nodup) :
    (∀ device, (mesh.position first.names device, mesh.combinedSize first.names) =
      (mesh.position second.names device, mesh.combinedSize second.names)) ↔
        wideAxes mesh first.names = wideAxes mesh second.names := by
  constructor
  · intro same
    apply axes_unique
    · exact fun axis member => firstKnown axis (List.mem_of_mem_filter member)
    · exact fun axis member => secondKnown axis (List.mem_of_mem_filter member)
    · exact fun axis member => by simpa using (List.mem_filter.mp member).2
    · exact fun axis member => by simpa using (List.mem_filter.mp member).2
    · exact firstDistinct.filter _
    · exact secondDistinct.filter _
    · intro device
      rw [← (tile_wide firstKnown device).1, ← (tile_wide secondKnown device).1]
      exact congrArg Prod.fst (same device)
  · intro same device
    obtain ⟨firstPosition, firstSize⟩ := tile_wide firstKnown device
    obtain ⟨secondPosition, secondSize⟩ := tile_wide secondKnown device
    rw [firstPosition, firstSize, secondPosition, secondSize, same]

theorem tiles_iff (rank : left.length = right.length) (leftRefers : RefersTo mesh left)
    (rightRefers : RefersTo mesh right) :
    (∀ device, tile mesh left device = tile mesh right device) ↔ wideOrder mesh left = wideOrder mesh right := by
  induction left generalizing right with
  | nil =>
      obtain rfl : right = [] := List.length_eq_zero_iff.mp rank.symm
      exact ⟨fun _ => rfl, fun _ _ => rfl⟩
  | cons first left ih =>
      cases right with
      | nil => cases rank
      | cons second right =>
          obtain ⟨firstKnown, firstDistinct, leftLater⟩ := leftRefers.head
          obtain ⟨secondKnown, secondDistinct, rightLater⟩ := rightRefers.head
          have here := dim_tiles_iff firstKnown secondKnown firstDistinct secondDistinct
          have later := ih (by simpa using rank) leftLater rightLater
          unfold tile wideOrder at later ⊢
          simp only [List.map_cons, List.cons.injEq, forall_and]
          rw [here, later]

/-- The description tells the tiles exactly where it tells the order of the axes above one of every dim. -/
theorem description_places_iff (mesh : Mesh) (deviceIds : List Nat) (left right : List DimSharding)
    (rank : left.length = right.length) (leftRefers : RefersTo mesh left) (rightRefers : RefersTo mesh right) :
    (SameDescription mesh deviceIds left right → ∀ device, tile mesh left device = tile mesh right device) ↔
      (SameDescription mesh deviceIds left right → wideOrder mesh left = wideOrder mesh right) := by
  rw [tiles_iff rank leftRefers rightRefers]

def pairMesh : Mesh where
  axes := [⟨"x", 2⟩, ⟨"y", 2⟩]
  distinct := by decide
  positive := by decide

def rowOver (major minor : String) : List DimSharding := [⟨[⟨major, none⟩, ⟨minor, none⟩], true, none⟩]

theorem row_description_places :
    (SameDescription pairMesh [] (rowOver "x" "y") (rowOver "x" "y") →
      ∀ device, tile pairMesh (rowOver "x" "y") device = tile pairMesh (rowOver "x" "y") device) ↔
        (SameDescription pairMesh [] (rowOver "x" "y") (rowOver "x" "y") →
          wideOrder pairMesh (rowOver "x" "y") = wideOrder pairMesh (rowOver "x" "y")) :=
  description_places_iff pairMesh [] (rowOver "x" "y")
    (rowOver "x" "y") rfl ⟨by decide, by decide⟩ ⟨by decide, by decide⟩

/-- The two orders of two axes have one description, and the second device gets another tile. -/
theorem row_order_lost : SameDescription pairMesh [] (rowOver "x" "y") (rowOver "y" "x") ∧
    tile pairMesh (rowOver "x" "y") ⟨1, by decide⟩ ≠ tile pairMesh (rowOver "y" "x") ⟨1, by decide⟩ := by
  constructor
  · exact ⟨⟨.devices, [4], [0, 0], [2, 2], [-1]⟩, ⟨.devices, [4], [0, 0], [2, 2], [-1]⟩,
      by decide, by decide, rfl, rfl, rfl, rfl⟩
  · decide

end Placement

end TtMlir.Shardy
