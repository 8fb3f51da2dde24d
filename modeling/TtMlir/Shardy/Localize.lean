import TtMlir.Shardy.LocalShapes

/-!
A rewritten op computes on every device the device's shard of what the global
op computes.
-/

namespace TtMlir.Shardy

variable {α : Type} {mesh : Mesh}

def offsets (mesh : Mesh) (sharding : TensorSharding) (shape : List Nat) (device : mesh.Device) : List Nat :=
  List.zipWith (fun axes extent => mesh.position axes device * (extent / mesh.combinedSize axes)) sharding shape

def shardShape (mesh : Mesh) (sharding : TensorSharding) (shape : List Nat) : List Nat :=
  List.zipWith (fun axes extent => extent / mesh.combinedSize axes) sharding shape

def shard (mesh : Mesh) (sharding : TensorSharding) (tensor : Tensor α) (device : mesh.Device) : Tensor α :=
  { shape := shardShape mesh sharding tensor.shape
    get := fun index => tensor.get (List.zipWith (· + ·) (offsets mesh sharding tensor.shape device) index) }

/-- One list of known axes for each dim, with a size that divides the extent. -/
def Shardable (mesh : Mesh) (sharding : TensorSharding) (shape : List Nat) : Prop :=
  List.Forall₂ (fun axes extent => (∀ axis ∈ axes, mesh.Knows axis) ∧ mesh.combinedSize axes ∣ extent) sharding shape

theorem shifted_lt {axes : List String} (known : ∀ axis ∈ axes, mesh.Knows axis) (extent position : Nat)
    (device : mesh.Device) (below : position < extent / mesh.combinedSize axes) :
    mesh.position axes device * (extent / mesh.combinedSize axes) + position < extent := by
  have number := Mesh.position_lt known device
  calc mesh.position axes device * (extent / mesh.combinedSize axes) + position
      < mesh.position axes device * (extent / mesh.combinedSize axes) + extent / mesh.combinedSize axes :=
        Nat.add_lt_add_left below _
    _ = (mesh.position axes device + 1) * (extent / mesh.combinedSize axes) := by ring
    _ ≤ mesh.combinedSize axes * (extent / mesh.combinedSize axes) := Nat.mul_le_mul_right _ number
    _ ≤ extent := Nat.mul_div_le _ _

section
variable {sharding : TensorSharding} {shape index : List Nat} (shardable : Shardable mesh sharding shape)
  (inside : Inside (shardShape mesh sharding shape) index)
include sharding shardable inside

theorem shifted_inside (device : mesh.Device) :
    Inside shape (List.zipWith (· + ·) (offsets mesh sharding shape device) index) := by
  induction shardable generalizing index with
  | nil => exact List.Forall₂.nil
  | cons here _ ih =>
      cases inside with
      | cons below rest => exact List.Forall₂.cons (shifted_lt here.1 _ _ device below) (ih rest)

theorem local_inside : Inside shape index := by
  induction shardable generalizing index with
  | nil => exact inside
  | cons _ _ ih =>
      cases inside with
      | cons below rest => exact List.Forall₂.cons (Nat.lt_of_lt_of_le below (Nat.div_le_self _ _)) (ih rest)

end

theorem dividing_fold (axes : List String) (oldShapeDim start updated : Nat)
    (found : axes.foldlM (fun updatedShapeDim axisName =>
      if ¬mesh.Knows axisName ∨ oldShapeDim % mesh.axisSize axisName ≠ 0 then none
      else some (updatedShapeDim / mesh.axisSize axisName)) start = some updated) :
    updated = start / mesh.combinedSize axes := by
  induction axes generalizing start with
  | nil =>
      rw [Mesh.combinedSize, List.map_nil, List.prod_nil, Nat.div_one]
      exact (Option.some.inj found).symm
  | cons axis axes ih =>
      rw [List.foldlM_cons] at found
      split at found
      · cases found
      · rw [Mesh.combinedSize_cons, ← Nat.div_div_eq_div_mul]
        exact ih _ found

theorem calculateUpdatedDim_eq {axes : List String} {oldShapeDim updated : Nat}
    (found : calculateUpdatedDim mesh axes oldShapeDim = some updated) :
    updated = oldShapeDim / mesh.combinedSize axes := dividing_fold axes oldShapeDim oldShapeDim updated found

theorem populate_eq {sharding : TensorSharding} {shape newType : List Nat}
    (ranks : sharding.length = shape.length)
    (found : populateShardedOutputType mesh sharding shape = some newType) :
    newType = shardShape mesh sharding shape := by
  induction sharding generalizing shape newType with
  | nil =>
      obtain rfl : shape = [] := List.length_eq_zero_iff.mp ranks.symm
      exact (Option.some.inj found).symm
  | cons axes sharding ih =>
      cases shape with
      | nil => cases ranks
      | cons extent shape =>
          simp only [populateShardedOutputType, Option.bind_eq_bind, Option.bind_eq_some_iff] at found
          obtain ⟨updated, here, rest, tail, same⟩ := found
          cases same
          rw [calculateUpdatedDim_eq here, ih (by simpa using ranks) tail]
          rfl

section Constants
variable [Inhabited α]

theorem unsharded_shift {sharding : TensorSharding} {shape index : List Nat} (shardable : Shardable mesh sharding shape)
    (same : shardShape mesh sharding shape = shape) (inside : Inside shape index) (device : mesh.Device) :
    List.zipWith (· + ·) (offsets mesh sharding shape device) index = index := by
  induction shardable generalizing index with
  | nil =>
      cases inside
      rfl
  | @cons axes extent sharding shape here _ ih =>
      cases inside with
      | @cons position _ index _ below rest =>
          obtain ⟨head, tail⟩ := List.cons.inj same
          have whole : extent / mesh.combinedSize axes = extent := head
          have moved := shifted_lt here.1 extent position device (by rwa [whole])
          have still : mesh.position axes device = 0 := by
            by_contra some
            have := Nat.le_mul_of_pos_left extent (Nat.pos_of_ne_zero some)
            rw [whole] at moved
            omega
          change (mesh.position axes device * _ + position) :: _ = _
          rw [still, Nat.zero_mul, Nat.zero_add]
          exact congrArg (position :: ·) (ih tail rest)

theorem value_mem (attr : DenseElementsAttr α) (index : List Nat) (inside : Inside attr.shape index) :
    attr.tensor.get index ∈ attr.values := by
  have below := flatten_lt _ _ inside
  rw [← attr.counted] at below
  change attr.values.getD _ default ∈ _
  rw [List.getD_eq_getElem _ _ below]
  exact List.getElem_mem below

theorem splat_value [DecidableEq α] (attr : DenseElementsAttr α) (splat : attr.isSplat) (index : List Nat)
    (inside : Inside attr.shape index) : attr.tensor.get index = attr.values.headD default := by
  simp only [DenseElementsAttr.isSplat, Bool.and_eq_true, List.all_eq_true, beq_iff_eq] at splat
  exact splat.2 _ (value_mem attr index inside)

theorem splat_get (shape index : List Nat) (value : α) (inside : Inside shape index) :
    (DenseElementsAttr.splat shape value).tensor.get index = value := by
  have member := value_mem (DenseElementsAttr.splat shape value) index inside
  exact List.eq_of_mem_replicate member

theorem advance_unflatten (shape : List Nat) (positive : ∀ extent ∈ shape, 0 < extent) (flat : Nat) :
    advance shape (unflatten shape flat) = (unflatten shape (flat + 1), decide (shape.prod ∣ flat + 1)) := by
  induction shape with
  | nil => simp [advance, unflatten]
  | cons extent shape ih =>
      have rest := ih fun other member => positive other (List.mem_cons_of_mem _ member)
      have block : 0 < shape.prod := List.prod_pos_iff_forall_pos_nat.mpr fun other member =>
        positive other (List.mem_cons_of_mem _ member)
      have here := positive extent List.mem_cons_self
      rw [unflatten, unflatten, advance, rest, List.prod_cons]
      by_cases carry : shape.prod ∣ flat + 1
      · have next : (flat + 1) / shape.prod = flat / shape.prod + 1 := Nat.succ_div_of_dvd carry
        have wraps : extent * shape.prod ∣ flat + 1 ↔ extent ∣ flat / shape.prod + 1 := by
          rw [← next, Nat.dvd_div_iff_mul_dvd carry, Nat.mul_comm]
        have turned := (Nat.mod_add_mod (flat / shape.prod) extent 1).symm
        have digit := Nat.mod_lt (flat / shape.prod) here
        simp only [carry, decide_true, next, wraps, Nat.dvd_iff_mod_eq_zero, turned]
        split
        case isTrue room => simp [Nat.mod_eq_of_lt room]
        case isFalse full => simp [show flat / shape.prod % extent + 1 = extent by omega]
      · have next : (flat + 1) / shape.prod = flat / shape.prod := Nat.succ_div_of_not_dvd carry
        have still : ¬extent * shape.prod ∣ flat + 1 := fun all => carry (Nat.dvd_trans (Nat.dvd_mul_left _ _) all)
        simp [carry, next, still]

theorem globalStrides_cons (extent : Nat) (shape : List Nat) :
    globalStrides (extent :: shape) = shape.prod :: globalStrides shape := by
  induction shape generalizing extent with
  | nil => rfl
  | cons inner shape ih => rw [globalStrides, ih, List.prod_cons, Nat.mul_comm]

theorem flatten_strides (shape index : List Nat) (ranks : index.length = shape.length) :
    (List.zipWith (· * ·) index (globalStrides shape)).sum = flatten shape index := by
  induction shape generalizing index with
  | nil =>
      rw [List.length_eq_zero_iff.mp ranks]
      rfl
  | cons extent shape ih =>
      cases index with
      | nil => cases ranks
      | cons position index =>
          rw [globalStrides_cons, List.zipWith_cons_cons, List.sum_cons, ih index (by simpa using ranks), flatten]

theorem shardValues_get (globalValues : List α) (globalShape localShape : List Nat)
    (positive : ∀ extent ∈ localShape, 0 < extent) (ranks : localShape.length = globalShape.length)
    (count start number : Nat) (below : number < count) :
    (shardValues globalValues (globalStrides globalShape) localShape count (unflatten localShape start)).getD number
        default = globalValues.getD (flatten globalShape (unflatten localShape (start + number))) default := by
  induction count generalizing start number with
  | zero => cases below
  | succ count ih =>
      have length : (unflatten localShape start).length = globalShape.length := by
        rw [(unflatten_inside localShape start positive).length, ranks]
      rw [shardValues, flatten_strides _ _ length, advance_unflatten _ positive]
      cases number with
      | zero => rfl
      | succ number =>
          rw [List.getD_cons_succ, ih (start + 1) number (by omega)]
          congr 3
          omega

theorem unflatten_zero (shape : List Nat) : unflatten shape 0 = List.replicate shape.length 0 := by
  induction shape with
  | nil => rfl
  | cons extent shape ih => rw [unflatten, ih, Nat.zero_div, Nat.zero_mod, List.length_cons, List.replicate_succ]

theorem slice_value [DecidableEq α] {attr periodicAttr : DenseElementsAttr α} {localShape : List Nat}
    {sharding : TensorSharding} (found : tryGetPeriodicShardSlice mesh attr localShape sharding = some periodicAttr)
    (ranks : localShape.length = attr.shape.length) (index : List Nat) (inside : Inside localShape index) :
    periodicAttr.tensor.get index = attr.tensor.get index := by
  have positive : ∀ extent ∈ localShape, 0 < extent := by
    intro extent member
    obtain ⟨dim, below, rfl⟩ := List.getElem_of_mem member
    have here := inside.getD_lt dim below
    rw [List.getD_eq_getElem _ _ below] at here
    exact Nat.zero_lt_of_lt here
  simp only [tryGetPeriodicShardSlice, Option.bind_eq_bind, Option.bind_eq_some_iff] at found
  obtain ⟨dims, _, found⟩ := found
  split at found
  · cases found
  · split at found
    · cases found
      change (shardValues _ _ localShape localShape.prod _).getD (flatten localShape index) default = _
      rw [← ranks, ← unflatten_zero, shardValues_get _ _ _ positive ranks _ _ _ (flatten_lt _ _ inside), Nat.zero_add,
        unflatten_flatten _ _ inside]
      rfl
    · cases found

theorem periodic_shift [DecidableEq α] (values : List α) (front back : List Nat) (extent numShards : Nat)
    (periodic : isPeriodic values (front ++ extent :: back) front.length numShards) (left right : List Nat)
    (position number : Nat) (before : Inside front left) (here : position < extent / numShards)
    (after : Inside back right) (below : number < numShards) :
    values.getD (flatten (front ++ extent :: back)
      (left ++ (number * (extent / numShards) + position) :: right)) default =
      values.getD (flatten (front ++ extent :: back) (left ++ position :: right)) default := by
  rcases Nat.eq_zero_or_pos number with rfl | later
  · rw [Nat.zero_mul, Nat.zero_add]
  · have rest : (front ++ extent :: back).drop (front.length + 1) = back := by
      rw [← List.drop_drop, List.drop_left, List.drop_one, List.tail_cons]
    simp only [isPeriodic, getD_middle, rest, List.take_left, Bool.and_eq_true, List.all_eq_true, beq_iff_eq,
      List.mem_range, List.mem_range'_1] at periodic
    have same := periodic.2 (flatten front left) (flatten_lt _ _ before) number ⟨later, by omega⟩ position here
      (flatten back right) (flatten_lt _ _ after)
    rw [flatten_append _ _ _ _ before.length, flatten_append _ _ _ _ before.length, flatten, flatten, List.prod_cons]
    convert same.symm using 2 <;> ring

theorem shardedDims_mem (entries : List (List String × Nat)) (dims found : List (Nat × Nat))
    (collected : entries.foldlM (fun dims (axisRefs, dimIdx) =>
      match axisRefs with
      | [] => some dims
      | [axis] =>
          if ¬mesh.Knows axis then none
          else if 1 < mesh.axisSize axis then some (dims ++ [(dimIdx, mesh.axisSize axis)])
          else some dims
      | _ => none) dims = some found) :
    (∀ dim ∈ dims, dim ∈ found) ∧ ∀ entry ∈ entries, entry.1 = [] ∨
      ∃ axis, entry.1 = [axis] ∧ (1 < mesh.axisSize axis → (entry.2, mesh.axisSize axis) ∈ found) := by
  induction entries generalizing dims with
  | nil =>
      cases collected
      exact ⟨fun _ member => member, fun _ member => absurd member List.not_mem_nil⟩
  | cons entry entries ih =>
      rw [List.foldlM_cons] at collected
      obtain ⟨axes, dim⟩ := entry
      rcases axes with _ | ⟨axis, _ | ⟨other, axes⟩⟩
      · obtain ⟨kept, rest⟩ := ih dims collected
        refine ⟨kept, ?_⟩
        rintro entry (_ | ⟨_, member⟩)
        · exact Or.inl rfl
        · exact rest entry member
      · simp only at collected
        split at collected
        · cases collected
        · split at collected
          · obtain ⟨kept, rest⟩ := ih _ collected
            refine ⟨fun dim member => kept dim (List.mem_append_left _ member), ?_⟩
            rintro entry (_ | ⟨_, member⟩)
            · exact Or.inr ⟨axis, rfl, fun _ => kept _ (List.mem_append_right _ (List.mem_singleton.mpr rfl))⟩
            · exact rest entry member
          case isFalse small =>
            obtain ⟨kept, rest⟩ := ih _ collected
            refine ⟨kept, ?_⟩
            rintro entry (_ | ⟨_, member⟩)
            · exact Or.inr ⟨axis, rfl, fun large => absurd large small⟩
            · exact rest entry member
      · cases collected

theorem shifts_agree [DecidableEq α] (values : List α) (found : List (Nat × Nat)) (device : mesh.Device)
    {sharding : TensorSharding} {shape index : List Nat} (shardable : Shardable mesh sharding shape)
    (inside : Inside (shardShape mesh sharding shape) index) (front left : List Nat) (before : Inside front left)
    (periodic : ∀ dim ∈ found, isPeriodic values (front ++ shape) dim.1 dim.2)
    (single : ∀ entry ∈ sharding.zipIdx front.length, entry.1 = [] ∨
      ∃ axis, entry.1 = [axis] ∧ (1 < mesh.axisSize axis → (entry.2, mesh.axisSize axis) ∈ found)) :
    values.getD (flatten (front ++ shape)
        (left ++ List.zipWith (· + ·) (offsets mesh sharding shape device) index)) default =
      values.getD (flatten (front ++ shape) (left ++ index)) default := by
  induction shardable generalizing index front left with
  | nil =>
      cases inside
      rfl
  | @cons axes extent sharding shape here tail ih =>
      cases inside with
      | @cons position _ index _ below rest =>
          have shifted := shifted_lt here.1 extent position device below
          have later := ih rest (front ++ [extent])
            (left ++ [mesh.position axes device * (extent / mesh.combinedSize axes) + position])
            (before.append (List.Forall₂.cons shifted List.Forall₂.nil))
            (by simpa only [List.append_assoc, List.singleton_append] using periodic)
            (fun entry member => single entry (by
              rw [List.zipIdx_cons]
              exact List.mem_cons_of_mem _ (by simpa using member)))
          simp only [List.append_assoc, List.singleton_append] at later
          change values.getD (flatten _ (left ++ (mesh.position axes device * (extent / mesh.combinedSize axes) +
            position) :: List.zipWith _ (offsets mesh sharding shape device) index)) default = _
          rw [later]
          have still : mesh.position axes device = 0 → values.getD (flatten (front ++ extent :: shape)
              (left ++ (mesh.position axes device * (extent / mesh.combinedSize axes) + position) :: index)) default =
                values.getD (flatten (front ++ extent :: shape) (left ++ position :: index)) default := fun zero => by
            rw [zero, Nat.zero_mul, Nat.zero_add]
          rcases single (axes, front.length)
            (by rw [List.zipIdx_cons]; exact List.mem_cons_self) with none | ⟨axis, one, held⟩
          · apply still
            change axes = [] at none
            rw [none, Mesh.position]
          · change axes = [axis] at one
            subst one
            have number := Mesh.position_lt here.1 device
            by_cases long : 1 < mesh.axisSize axis
            · have size : mesh.combinedSize [axis] = mesh.axisSize axis := by simp [Mesh.combinedSize]
              change position < extent / mesh.combinedSize [axis] at below
              rw [size] at number below ⊢
              exact periodic_shift values front shape extent _ (periodic _ (held long)) left index position _ before
                below (local_inside tail rest) number
            · apply still
              simp only [Mesh.combinedSize, List.map_cons, List.map_nil, List.prod_cons, List.prod_nil] at number
              omega

theorem periodic_constant [DecidableEq α] {attr periodicAttr : DenseElementsAttr α} {sharding : TensorSharding}
    (shardable : Shardable mesh sharding attr.shape)
    (found : tryGetPeriodicShardSlice mesh attr (shardShape mesh sharding attr.shape) sharding = some periodicAttr)
    (device : mesh.Device) : periodicAttr.tensor.Same (shard mesh sharding attr.tensor device) := by
  have ranks : (shardShape mesh sharding attr.shape).length = attr.shape.length := by
    rw [shardShape, List.length_zipWith, shardable.length_eq, Nat.min_self]
  have shape : periodicAttr.shape = shardShape mesh sharding attr.shape := by
    simp only [tryGetPeriodicShardSlice, Option.bind_eq_bind, Option.bind_eq_some_iff] at found
    obtain ⟨dims, _, found⟩ := found
    split at found
    · cases found
    · split at found
      · cases found
        rfl
      · cases found
  constructor
  · exact shape
  · intro index inside
    change Inside periodicAttr.shape index at inside
    rw [shape] at inside
    rw [slice_value found ranks index inside]
    simp only [tryGetPeriodicShardSlice, Option.bind_eq_bind, Option.bind_eq_some_iff] at found
    obtain ⟨dims, sharded, found⟩ := found
    split at found
    · cases found
    · split at found
      case isTrue periodic =>
        have single := (@shardedDims_mem mesh _ _ dims sharded).2
        exact (shifts_agree attr.values dims device shardable inside [] [] List.Forall₂.nil
          (fun dim member => List.all_eq_true.mp periodic dim member) single).symm
      case isFalse _ => cases found

theorem constant_localized [DecidableEq α] [NatCast α] {value : DenseElementsAttr α} {sharding : TensorSharding}
    {newOp : ValueOp α} (shardable : Shardable mesh sharding value.shape)
    (created : createNewOperationState mesh sharding sharding (shardShape mesh sharding value.shape) (.constant value) =
      .ok newOp) (operand : Tensor α) (device : mesh.Device) :
    newOp.resultShape = shardShape mesh sharding value.shape ∧
      (newOp.evaluate operand).Same (shard mesh sharding value.tensor device) := by
  simp only [createNewOperationState] at created
  split at created
  case isTrue same =>
    cases created
    refine ⟨same, same, fun index inside => ?_⟩
    change value.tensor.get index = value.tensor.get _
    rw [show (value.tensor).shape = value.shape from rfl, unsharded_shift shardable same.symm inside]
  case isFalse _ =>
    split at created
    case isTrue splat =>
      cases created
      refine ⟨rfl, rfl, fun index inside => ?_⟩
      change Inside (shardShape mesh sharding value.shape) index at inside
      change (DenseElementsAttr.splat _ _).tensor.get index = value.tensor.get _
      exact (splat_get _ _ _ inside).trans (splat_value value splat _ (shifted_inside shardable inside device)).symm
    case isFalse _ =>
      split at created
      · cases created
      case h_2 periodicAttr found =>
        cases created
        have same := periodic_constant shardable found device
        exact ⟨same.1, same⟩

end Constants

theorem unsharded_position {axes : List String} (known : ∀ axis ∈ axes, mesh.Knows axis)
    (short : ∀ axis ∈ axes, mesh.axisSize axis ≤ 1) (device : mesh.Device) :
    mesh.combinedSize axes = 1 ∧ mesh.position axes device = 0 := by
  have size : mesh.combinedSize axes = 1 := by
    induction axes with
    | nil => rfl
    | cons axis axes ih =>
        have here := Mesh.axisSize_positive (known axis List.mem_cons_self)
        have one := short axis List.mem_cons_self
        rw [Mesh.combinedSize_cons, ih (fun other member => known other (List.mem_cons_of_mem _ member))
          fun other member => short other (List.mem_cons_of_mem _ member), Nat.mul_one]
        omega
  have below := Mesh.position_lt known device
  rw [size] at below
  exact ⟨size, by omega⟩

theorem replicated_axes {sharding : TensorSharding} (fully : isFullyReplicatedTensor sharding (some mesh))
    {axes : List String} (member : axes ∈ sharding) {axis : String} (used : axis ∈ axes) (known : mesh.Knows axis) :
    mesh.axisSize axis ≤ 1 := by
  simp only [isFullyReplicatedTensor, List.all_eq_true] at fully
  have here := fully axes member
  rcases Bool.or_eq_true_iff.mp here with none | short
  · rw [List.isEmpty_iff.mp none] at used
    exact absurd used List.not_mem_nil
  · have one := List.all_eq_true.mp short axis used
    simp only [known, decide_true, Bool.true_and, Bool.not_eq_true', decide_eq_false_iff_not, not_lt] at one
    exact one

theorem replicated_fully (rank : Nat) : isFullyReplicatedTensor (replicated rank) (some mesh) := by
  simp only [isFullyReplicatedTensor, replicated, List.all_eq_true]
  intro axes member
  rw [List.eq_of_mem_replicate member]
  rfl

theorem shift_getD {sharding : TensorSharding} {shape index : List Nat} (device : mesh.Device) (dim : Nat)
    (ranks : sharding.length = shape.length) (length : index.length = shape.length) (inRange : dim < shape.length)
    (still : mesh.position (sharding.getD dim []) device = 0) :
    (List.zipWith (· + ·) (offsets mesh sharding shape device) index).getD dim 0 = index.getD dim 0 := by
  have first : dim < (offsets mesh sharding shape device).length := by
    rw [offsets, List.length_zipWith, ranks, Nat.min_self]
    exact inRange
  have second : dim < index.length := by omega
  have third : dim < sharding.length := by omega
  have both : dim < (List.zipWith (· + ·) (offsets mesh sharding shape device) index).length := by
    rw [List.length_zipWith]
    omega
  rw [List.getD_eq_getElem _ _ third] at still
  rw [List.getD_eq_getElem _ _ both, List.getD_eq_getElem _ _ second, List.getElem_zipWith]
  simp only [offsets, List.getElem_zipWith, still, Nat.zero_mul, Nat.zero_add]

def SliceFits (inputShape startIndices limitIndices strides : List Nat) : Prop :=
  startIndices.length = inputShape.length ∧ limitIndices.length = inputShape.length ∧
    strides.length = inputShape.length ∧
    ∀ dim, dim < inputShape.length → startIndices.getD dim 0 ≤ limitIndices.getD dim 0 ∧
      limitIndices.getD dim 0 ≤ inputShape.getD dim 0 ∧ 0 < strides.getD dim 0

def SliceDim (extent start limit stride : Nat) : Prop := start ≤ limit ∧ limit ≤ extent ∧ 0 < stride

theorem sliceFits_cons {extent start limit stride : Nat} {inputShape startIndices limitIndices strides : List Nat}
    (fits : SliceFits (extent :: inputShape) (start :: startIndices) (limit :: limitIndices) (stride :: strides)) :
    SliceDim extent start limit stride ∧ SliceFits inputShape startIndices limitIndices strides := by
  obtain ⟨starts, limits, steps, dims⟩ := fits
  refine ⟨dims 0 (Nat.zero_lt_succ _), by simpa using starts, by simpa using limits, by simpa using steps, ?_⟩
  intro dim below
  exact dims (dim + 1) (Nat.succ_lt_succ below)

def spanCount (start limit stride : Nat) : Nat := (limit - start + stride - 1) / stride

theorem spanCount_multiple (start stride count : Nat) (phase : start < stride) :
    spanCount start (stride * count) stride = count := by
  rw [spanCount]
  rcases Nat.eq_zero_or_pos count with rfl | some
  · rw [Nat.mul_zero, Nat.zero_sub, Nat.zero_add]
    exact Nat.div_eq_of_lt (by omega)
  · have atLeast : stride ≤ stride * count := Nat.le_mul_of_pos_right _ some
    have regroup : stride * count - start + stride - 1 = stride - 1 - start + stride * count := by omega
    rw [regroup, Nat.add_mul_div_left _ _ (by omega), Nat.div_eq_of_lt (by omega), Nat.zero_add]

/-- One dim of a kept slice: the local slice has the local extent, and starts where the shard's part does. -/
theorem updateSliceDim_exact {axes : List String} (known : ∀ axis ∈ axes, mesh.Knows axis)
    {extent start limit stride : Nat}
    (divides : mesh.combinedSize axes ∣ extent) (fits : SliceDim extent start limit stride)
    (kept : (∀ axis ∈ axes, mesh.axisSize axis ≤ 1) ∨ dimStaysSharded mesh axes extent start limit stride)
    {newStart newLimit : Nat} (updated : updateSliceDim mesh axes start limit stride = .ok (newStart, newLimit))
    (device : mesh.Device) :
    spanCount newStart newLimit stride = spanCount start limit stride / mesh.combinedSize axes ∧
      ∀ position, start + (mesh.position axes device * (spanCount start limit stride / mesh.combinedSize axes) +
          position) * stride =
        mesh.position axes device * (extent / mesh.combinedSize axes) + (newStart + position * stride) := by
  have rewritten : newLimit = limit / mesh.combinedSize axes ∧
      newStart = if 1 < stride ∧ start < stride then start else start / mesh.combinedSize axes := by
    simp only [updateSliceDim] at updated
    split at updated
    case isTrue strided =>
      split at updated
      · cases updated
      case h_2 newLimit found =>
        cases updated
        exact ⟨calculateUpdatedDim_eq found, (if_pos strided).symm⟩
    case isFalse plain =>
      split at updated
      · cases updated
      case h_2 found =>
        split at updated
        · cases updated
        case h_2 foundStart =>
          cases updated
          exact ⟨calculateUpdatedDim_eq found, by rw [if_neg plain]; exact calculateUpdatedDim_eq foundStart⟩
  obtain ⟨rfl, rfl⟩ := rewritten
  have positive := Mesh.combinedSize_positive known
  -- the three ways a slice keeps its sharding
  have narrow : (∀ axis ∈ axes, mesh.axisSize axis ≤ 1) ∨ (start = 0 ∧ limit = extent ∧ stride = 1) ∨
      (1 < stride ∧ start < stride ∧ limit = extent ∧ stride ∣ extent / mesh.combinedSize axes) := by
    rcases kept with short | stays
    · exact Or.inl short
    · simp only [dimStaysSharded, Bool.or_eq_true, Bool.and_eq_true, beq_iff_eq, decide_eq_true_eq] at stays
      rcases stays with (none | whole) | strided
      · left
        rw [List.isEmpty_iff.mp none]
        exact fun axis member => absurd member List.not_mem_nil
      · exact Or.inr (Or.inl ⟨whole.1.1, whole.1.2, whole.2⟩)
      · obtain ⟨⟨⟨long, phase⟩, complete⟩, width⟩ := strided
        split at width
        case h_1 shardWidth found =>
          rw [calculateUpdatedDim_eq found, beq_iff_eq] at width
          exact Or.inr (Or.inr ⟨long, phase, complete, Nat.dvd_of_mod_eq_zero width⟩)
        · cases width
  rcases narrow with short | ⟨rfl, rfl, rfl⟩ | ⟨long, phase, rfl, count, width⟩
  · obtain ⟨size, still⟩ := unsharded_position known short device
    rw [size, still]
    simp
  · -- the whole dim is taken: every device keeps its shard
    simp [spanCount]
  · -- a phase below the stride that divides the shard width
    obtain ⟨shardWidth, rfl⟩ := divides
    rw [Nat.mul_div_cancel_left _ positive] at width
    subst width
    have whole : mesh.combinedSize axes * (stride * count) = stride * (mesh.combinedSize axes * count) := by ring
    rw [if_pos ⟨long, phase⟩, Nat.mul_div_cancel_left _ positive, spanCount_multiple _ _ _ phase, whole,
      spanCount_multiple _ _ _ phase, Nat.mul_div_cancel_left _ positive]
    refine ⟨rfl, fun position => ?_⟩
    ring

theorem updateSliceIndices_exact {sharding : TensorSharding}
    {shape startIndices limitIndices strides newStarts newLimits : List Nat}
    (shardable : Shardable mesh sharding shape) (fits : SliceFits shape startIndices limitIndices strides)
    (kept : (∀ axes ∈ sharding, ∀ axis ∈ axes, mesh.axisSize axis ≤ 1) ∨
      sliceStaysSharded mesh sharding shape startIndices limitIndices strides)
    (updated : updateSliceIndices mesh sharding startIndices limitIndices strides = .ok (newStarts, newLimits))
    (device : mesh.Device) :
    ValueOp.sliceShape newStarts newLimits strides =
        shardShape mesh sharding (ValueOp.sliceShape startIndices limitIndices strides) ∧
      ∀ index : List Nat, index.length = shape.length →
        List.zipWith (· + ·) startIndices (List.zipWith (· * ·) (List.zipWith (· + ·)
            (offsets mesh sharding (ValueOp.sliceShape startIndices limitIndices strides) device) index) strides) =
          List.zipWith (· + ·) (offsets mesh sharding shape device)
            (List.zipWith (· + ·) newStarts (List.zipWith (· * ·) index strides)) := by
  induction shardable generalizing startIndices limitIndices strides newStarts newLimits with
  | nil =>
      obtain ⟨starts, limits, steps, _⟩ := fits
      rw [List.length_nil, List.length_eq_zero_iff] at starts limits steps
      subst starts limits steps
      cases updated
      exact ⟨rfl, fun _ _ => rfl⟩
  | @cons axes extent sharding shape here tail ih =>
      obtain ⟨start, startIndices, rfl⟩ := List.exists_cons_of_length_eq_add_one fits.1
      obtain ⟨limit, limitIndices, rfl⟩ := List.exists_cons_of_length_eq_add_one fits.2.1
      obtain ⟨stride, strides, rfl⟩ := List.exists_cons_of_length_eq_add_one fits.2.2.1
      obtain ⟨fitsHere, fitsRest⟩ := sliceFits_cons fits
      have keptHere : (∀ axis ∈ axes, mesh.axisSize axis ≤ 1) ∨ dimStaysSharded mesh axes extent start limit stride :=
        kept.imp (fun short => short axes List.mem_cons_self) fun stays => by
          simp only [sliceStaysSharded, Bool.and_eq_true] at stays
          exact stays.1
      have keptRest : (∀ axes ∈ sharding, ∀ axis ∈ axes, mesh.axisSize axis ≤ 1) ∨
          sliceStaysSharded mesh sharding shape startIndices limitIndices strides :=
        kept.imp (fun short other member => short other (List.mem_cons_of_mem _ member)) fun stays => by
          simp only [sliceStaysSharded, Bool.and_eq_true] at stays
          exact stays.2
      simp only [updateSliceIndices, bind, Except.bind, pure, Except.pure] at updated
      split at updated
      · cases updated
      · rename_i first dim
        split at updated
        · cases updated
        · rename_i second rest
          cases updated
          obtain ⟨extents, positions⟩ := updateSliceDim_exact here.1 here.2 fitsHere keptHere dim device
          obtain ⟨extentsRest, positionsRest⟩ := ih fitsRest keptRest rest
          constructor
          · exact congrArg₂ (· :: ·) extents extentsRest
          · intro index length
            cases index with
            | nil => cases length
            | cons position index =>
                exact congrArg₂ (· :: ·) (positions position) (positionsRest index (by simpa using length))

/-- The dims that are sharded divide; the attributes satisfy the verifier. -/
def ValueOp.WellFormed (mesh : Mesh) (sharding : TensorSharding) (inputShape : List Nat) : ValueOp α → Prop
  | .constant value => Shardable mesh sharding value.shape
  | .iota shape iotaDimension => Shardable mesh sharding shape ∧ iotaDimension < shape.length
  | .slice startIndices limitIndices strides =>
      Shardable mesh sharding inputShape ∧ SliceFits inputShape startIndices limitIndices strides

theorem sliceShape_length {inputShape startIndices limitIndices strides : List Nat}
    (fits : SliceFits inputShape startIndices limitIndices strides) :
    (ValueOp.sliceShape startIndices limitIndices strides).length = inputShape.length := by
  obtain ⟨starts, limits, steps, _⟩ := fits
  rw [ValueOp.sliceShape, List.length_zipWith, List.length_zipWith]
  omega

theorem kept_iota [Inhabited α] [DecidableEq α] {sharding : TensorSharding} {inputShape shape : List Nat}
    {iotaDimension : Nat} (shardable : Shardable mesh sharding shape) (inRange : iotaDimension < shape.length)
    (kept : replicateNonSplittableValues mesh sharding inputShape (ValueOp.iota (α := α) shape iotaDimension) =
      sharding)
    (device : mesh.Device) : mesh.position (sharding.getD iotaDimension []) device = 0 := by
  have below : iotaDimension < sharding.length := by rw [shardable.length_eq]; exact inRange
  have known : ∀ axis ∈ sharding[iotaDimension], mesh.Knows axis := (shardable.get below inRange).1
  rw [List.getD_eq_getElem _ _ below]
  simp only [replicateNonSplittableValues] at kept
  split at kept
  case isTrue fully =>
    exact (unsharded_position known
      (fun axis used => replicated_axes fully (List.getElem_mem below) used (known axis used)) device).2
  case isFalse partly =>
    split at kept
    case isTrue unsharded =>
      rcases unsharded with outside | none
      · omega
      · rw [List.getD_eq_getElem _ _ below] at none
        rw [none, Mesh.position]
    case isFalse _ =>
      rw [← kept] at partly
      exact absurd (replicated_fully _) partly

theorem kept_slice [Inhabited α] [DecidableEq α] {sharding : TensorSharding}
    {inputShape startIndices limitIndices strides : List Nat} (shardable : Shardable mesh sharding inputShape)
    (kept : replicateNonSplittableValues mesh sharding inputShape
      (ValueOp.slice (α := α) startIndices limitIndices strides) = sharding) :
    (∀ axes ∈ sharding, ∀ axis ∈ axes, mesh.axisSize axis ≤ 1) ∨
      sliceStaysSharded mesh sharding inputShape startIndices limitIndices strides := by
  simp only [replicateNonSplittableValues] at kept
  split at kept
  case isTrue fully =>
    left
    intro axes member axis used
    obtain ⟨dim, below, rfl⟩ := List.getElem_of_mem member
    exact replicated_axes fully member used ((shardable.get below (shardable.length_eq ▸ below)).1 axis used)
  case isFalse partly =>
    split at kept
    case isTrue stays => exact Or.inr stays
    case isFalse _ =>
      rw [← kept] at partly
      exact absurd (replicated_fully _) partly

def line : Mesh where
  axes := [⟨"model", 2⟩]
  distinct := by decide
  positive := by decide

def ramp : Tensor Int := { shape := [8], get := fun index => index.getD 0 0 }

end TtMlir.Shardy
