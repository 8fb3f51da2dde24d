import TtMlir.Shardy.Collectives

/-!
What the Shardy collectives define for every device, and when the emitted
chains leave that there. Slicing takes the major axis first, as the patterns do
it; gathering has to take the minor axis first, and they do not.
-/

namespace TtMlir.Shardy

variable {α : Type} {mesh : Mesh}

/-- Puts together the chunks of the devices along the axes, the first axis the major one. -/
def gatherAlong (axes : List String) (dim : Nat) (operand : Family mesh α) : Family mesh α :=
  if axes = [] then operand else fun device =>
    Tensor.join (mesh.combinedSize axes) (fun number => operand (mesh.moveTo axes number device)) dim

/-- Every device keeps the chunk of its own position along the axes. -/
def sliceAlong (axes : List String) (dim : Nat) (operand : Family mesh α) : Family mesh α := fun device =>
  (operand device).part dim (mesh.combinedSize axes) (mesh.position axes device)

def reduceAlong [AddCommMonoid α] (axes : List String) (operand : Family mesh α) : Family mesh α := fun device =>
  Tensor.sum (operand device).shape
    ((List.range (mesh.combinedSize axes)).map fun number => operand (mesh.moveTo axes number device))

/-- Moves the axes from one dim to another: the devices along them send each other chunks of the target dim. -/
def exchangeAlong (axes : List String) (srcDim tgtDim : Nat) (operand : Family mesh α) : Family mesh α :=
  if axes = [] then operand else fun device =>
    Tensor.join (mesh.combinedSize axes)
      (fun number => (operand (mesh.moveTo axes number device)).part tgtDim (mesh.combinedSize axes)
        (mesh.position axes device))
      srcDim

def sliceDims (axesPerDim : List (List String)) (operand : Family mesh α) : Family mesh α :=
  axesPerDim.zipIdx.foldl (fun value (axes, dim) => sliceAlong axes dim value) operand

namespace SdyOp

def meaning [AddCommMonoid α] (operand : Family mesh α) : SdyOp → Family mesh α
  | .allGather gatheringAxes =>
      gatheringAxes.zipIdx.foldl (fun value (axes, dim) => gatherAlong axes dim value) operand
  | .reduceScatter reduceScatterAxes =>
      sliceDims reduceScatterAxes (reduceAlong reduceScatterAxes.flatten operand)
  | .allReduce reductionAxes => reduceAlong reductionAxes operand
  | .allToAll params =>
      params.foldl (fun value param => exchangeAlong param.axes param.srcDim param.tgtDim value) operand
  | .allSlice slicingAxes _ => sliceDims slicingAxes operand

def axisLists : SdyOp → List (List String)
  | .allGather gatheringAxes => gatheringAxes
  | .reduceScatter reduceScatterAxes => reduceScatterAxes
  | .allReduce reductionAxes => [reductionAxes]
  | .allToAll params => params.map (·.axes)
  | .allSlice slicingAxes _ => slicingAxes

def DimsFit (shape : List Nat) : SdyOp → Prop
  | .allGather lists | .reduceScatter lists | .allSlice lists _ => lists.length = shape.length
  | .allReduce _ => True
  | .allToAll params =>
      (params.flatMap fun param => [param.srcDim, param.tgtDim]).Nodup ∧
        ∀ param ∈ params, param.srcDim < shape.length ∧ param.tgtDim < shape.length

def Divides (mesh : Mesh) (shape : List Nat) : SdyOp → Prop
  | .reduceScatter lists | .allSlice lists _ =>
      ∀ entry ∈ lists.zipIdx, mesh.combinedSize entry.1 ∣ shape.getD entry.2 0
  | .allGather _ | .allReduce _ => True
  | .allToAll params => ∀ param ∈ params, mesh.combinedSize param.axes ∣ shape.getD param.tgtDim 0

structure WellFormed (mesh : Mesh) (shape : List Nat) (op : SdyOp) : Prop where
  known : ∀ axis ∈ op.axisLists.flatten, mesh.Knows axis
  distinct : op.axisLists.flatten.Nodup
  dims : op.DimsFit shape
  divides : op.Divides mesh shape

/-- An all_slice of a fully replicated input that slices nothing is not rewritten. -/
def Slices : SdyOp → Prop
  | .allSlice lists true => lists.flatten ≠ []
  | _ => True

/-- The operand of an all_slice is not sharded along the slicing axes: devices along them hold the same tensor. -/
def Accepts (shape : List Nat) (operand : Family mesh α) (op : SdyOp) : Prop :=
  (∀ device, (operand device).shape = shape) ∧
    match op with
    | .allSlice lists _ => ∀ axis ∈ lists.flatten, ∀ position device,
        (operand (mesh.move axis position device)).Same (operand device)
    | _ => True

def OneLongAxis (mesh : Mesh) (axes : List String) : Prop :=
  (axes.filter fun axis => 1 < mesh.axisSize axis).length ≤ 1

/-- Where chunks are put together along several axes, one of them at most has a size above 1. -/
def KeepsOrder (mesh : Mesh) (shape : List Nat) : SdyOp → Prop
  | .allGather lists => 0 ∈ shape ∨ ∀ axes ∈ lists, OneLongAxis mesh axes
  | .allToAll params => 0 ∈ shape ∨ ∀ param ∈ params, OneLongAxis mesh param.axes
  | _ => True

end SdyOp

theorem combinedSize_one (axis : String) : mesh.combinedSize [axis] = mesh.axisSize axis := by
  simp [Mesh.combinedSize]

theorem moveTo_one (axis : String) (number : Nat) (device : mesh.Device) :
    mesh.moveTo [axis] number device = mesh.move axis number device := by
  simp [Mesh.moveTo, Mesh.combinedSize]

theorem position_one (axis : String) (device : mesh.Device) :
    mesh.position [axis] device = mesh.coordinate axis device := by
  simp [Mesh.position, Mesh.combinedSize]

theorem gatherAlong_one (axis : String) (dim : Nat) (operand : Family mesh α) (device : mesh.Device) :
    gatherAlong [axis] dim operand device =
      Tensor.join (mesh.axisSize axis) (fun number => operand (mesh.move axis number device)) dim := by
  rw [gatherAlong, if_neg (List.cons_ne_nil _ _)]
  simp only [combinedSize_one, moveTo_one]

theorem sliceAlong_one (axis : String) (dim : Nat) (operand : Family mesh α) (device : mesh.Device) :
    sliceAlong [axis] dim operand device =
      (operand device).part dim (mesh.axisSize axis) (mesh.coordinate axis device) := by
  simp only [sliceAlong, combinedSize_one, position_one]

theorem reduceAlong_one [AddCommMonoid α] (axis : String) (operand : Family mesh α) (device : mesh.Device) :
    reduceAlong [axis] operand device = Tensor.sum (operand device).shape
      ((List.range (mesh.axisSize axis)).map fun number => operand (mesh.move axis number device)) := by
  simp only [reduceAlong, combinedSize_one, moveTo_one]

theorem exchangeAlong_one (axis : String) (srcDim tgtDim : Nat) (operand : Family mesh α) (device : mesh.Device) :
    exchangeAlong [axis] srcDim tgtDim operand device =
      Tensor.join (mesh.axisSize axis)
        (fun number => (operand (mesh.move axis number device)).part tgtDim (mesh.axisSize axis)
          (mesh.coordinate axis device))
        srcDim := by
  rw [exchangeAlong, if_neg (List.cons_ne_nil _ _)]
  simp only [combinedSize_one, moveTo_one, position_one]

def Uniform (shape : List Nat) (operand : Family mesh α) : Prop := ∀ device, (operand device).shape = shape

theorem reshaped_part (source : Tensor α) (front back : List Nat) (parts chunk number : Nat) (below : number < parts)
    (shape : source.shape = front ++ parts * chunk :: back) (left right : List Nat) (position : Nat)
    (before : Inside front left) (here : position < chunk) (after : Inside back right) :
    (source.reshape (front ++ parts :: chunk :: back)).get (left ++ number :: position :: right) =
      (source.part front.length parts number).get (left ++ position :: right) := by
  have size : source.extent front.length = parts * chunk := by rw [Tensor.extent, shape, getD_middle]
  have chunkSize : parts * chunk / parts = chunk := Nat.mul_div_cancel_left _ (Nat.zero_lt_of_lt below)
  rw [Tensor.part_get, size, chunkSize, ← before.length, modify_middle]
  apply Tensor.reshape_get
  · rw [shape]
    apply before.append
    refine List.Forall₂.cons ?_ after
    calc number * chunk + position < (number + 1) * chunk := by rw [Nat.succ_mul]; omega
      _ ≤ parts * chunk := Nat.mul_le_mul_right _ below
  · rw [shape, flatten_append _ _ _ _ before.length, flatten_append _ _ _ _ before.length]
    simp only [flatten, List.prod_cons]
    ring

section Steps
variable [AddCommMonoid α] {first second : MeshAxis} {axis : String}

section
variable (two : mesh.axes = [first, second]) (known : mesh.Knows axis)
include two known

theorem sumOver_populate (operand : Family mesh α) :
    sumOver (populateReplicaGroups mesh axis) operand = reduceAlong [axis] operand := by
  funext device
  rw [sumOver, reduceAlong_one, length_group two known]
  congr 1
  apply List.map_congr_left
  intro number inside
  rw [member_group two known _ _ (List.mem_range.mp inside)]

theorem apply_allGather (shape : List Nat) (dim : Nat)
    (operand : Family mesh α) :
    EmittedOp.apply ⟨shape, .allGather dim (populateReplicaGroups mesh axis)⟩ operand =
      gatherAlong [axis] dim operand := by
  funext device
  rw [gatherAlong_one]
  simp only [EmittedOp.apply, length_group two known]
  apply Tensor.join_congr _ _ _ _ (Mesh.axisSize_positive known)
  intro number below
  rw [member_group two known _ _ below]

theorem apply_allReduce (shape : List Nat)
    (operand : Family mesh α) :
    EmittedOp.apply ⟨shape, .allReduce (populateReplicaGroups mesh axis)⟩ operand = reduceAlong [axis] operand := by
  funext device
  simp only [EmittedOp.apply, sumOver_populate two known]

theorem apply_reduceScatter (shape : List Nat)
    (dim : Nat) (operand : Family mesh α) :
    EmittedOp.apply ⟨shape, .reduceScatter dim (populateReplicaGroups mesh axis)⟩ operand =
      sliceAlong [axis] dim (reduceAlong [axis] operand) := by
  funext device
  simp only [EmittedOp.apply, sumOver_populate two known, length_group two known, idxOf_group two known,
    sliceAlong_one]

theorem apply_allToAll (shape : List Nat)
    (srcDim tgtDim : Nat) (operand : Family mesh α) :
    EmittedOp.apply
        ⟨shape, .allToAll tgtDim srcDim (mesh.axisSize axis) (populateReplicaGroups mesh axis)⟩ operand =
      exchangeAlong [axis] srcDim tgtDim operand := by
  funext device
  rw [exchangeAlong_one]
  simp only [EmittedOp.apply, length_group two known, idxOf_group two known]
  apply Tensor.join_congr _ _ _ _ (Mesh.axisSize_positive known)
  intro number below
  rw [member_group two known _ _ below]

end

variable (α) in
theorem run_allSlice (two : mesh.axes = [first, second]) (known : mesh.Knows axis) (shape : List Nat) (dim : Nat)
    (fits : dim < shape.length) (divides : mesh.axisSize axis ∣ shape.getD dim 0) :
    ∃ ops, emitAllSlice mesh shape (dim, axis) = .ok (ops, shape.set dim (shape.getD dim 0 / mesh.axisSize axis)) ∧
      ops ≠ [] ∧ ∀ operand : Family mesh α, Uniform shape operand → ∀ device,
        (run ops operand device).Same
          (sliceAlong [axis] dim (fun other => operand (mesh.move axis 0 other)) device) := by
  have positive := Mesh.axisSize_positive known
  obtain ⟨front, extent, back, rfl, rfl⟩ : ∃ front extent back, shape = front ++ extent :: back ∧ dim = front.length :=
    ⟨shape.take dim, shape[dim], shape.drop (dim + 1), by simp, by simp; omega⟩
  rw [getD_middle] at divides
  obtain ⟨chunk, rfl⟩ := divides
  have chunkSize : mesh.axisSize axis * chunk / mesh.axisSize axis = chunk := Nat.mul_div_cancel_left _ positive
  have rest : (front ++ mesh.axisSize axis * chunk :: back).drop (front.length + 1) = back := by
    rw [← List.drop_drop, List.drop_left, List.drop_one, List.tail_cons]
  simp only [emitAllSlice, known, not_true_eq_false, if_false, getD_middle, Nat.mul_mod_right, ne_eq, chunkSize,
    List.take_left, rest, set_middle]
  refine ⟨_, rfl, List.cons_ne_nil _ _, ?_⟩
  intro operand uniform device
  simp only [run, List.foldl_cons, List.foldl_nil]
  rw [apply_allToAll two known]
  simp only [EmittedOp.apply, exchangeAlong_one, sliceAlong_one]
  generalize exchanged : Tensor.join _ _ _ = joined
  have length : (front ++ mesh.axisSize axis :: chunk :: back).length = (front ++ 1 :: chunk :: back).length := by simp
  rw [length]
  constructor
  · rw [Tensor.part_shape, uniform, Tensor.extent, uniform, getD_middle, chunkSize, set_middle]
    rfl
  · intro index inside
    obtain ⟨left, position, right, rfl, before, here, after⟩ := inside.split
    have target : Inside (front ++ 1 :: chunk :: back) (left ++ 0 :: position :: right) :=
      before.append (List.Forall₂.cons Nat.one_pos (List.Forall₂.cons here after))
    rw [Tensor.reshape_get _ _ _ (left ++ 0 :: position :: right) (by rwa [Tensor.slice_from_start]),
      Tensor.slice_from_start_get _ _ _ target, ← exchanged, Tensor.join_get, Tensor.extent_part]
    · have sender : (left ++ 0 :: position :: right).getD front.length 0 = 0 := by
        rw [← before.length, getD_middle]
      have parts : ∀ other, ((operand other).reshape
          (front ++ mesh.axisSize axis :: chunk :: back)).extent front.length = mesh.axisSize axis := fun other =>
        getD_middle front _ _
      rw [sender, Nat.zero_div, Nat.zero_mod, Tensor.part_get, parts, Nat.div_self positive, ← before.length,
        modify_middle, modify_middle, Nat.zero_mod, Nat.mul_one, Nat.add_zero, before.length]
      exact reshaped_part _ _ _ _ _ _ (Mesh.coordinate_lt known device) (uniform _) _ _ _ before here after
    · rw [Tensor.slice_from_start, flatten_append _ _ _ _ before.length, flatten_append _ _ _ _ before.length]
      simp only [flatten, List.prod_cons]
      ring
end Steps

def Fits {Step : Type} (allowed : List Nat → Step → Prop) (next : List Nat → Step → List Nat) :
    List Nat → List Step → Prop
  | _, [] => True
  | shape, step :: steps => allowed shape step ∧ Fits allowed next (next shape step) steps

theorem fits_of_forall {Step : Type} (allowed : Step → Prop) (next : List Nat → Step → List Nat) (shape : List Nat)
    (steps : List Step) (each : ∀ step ∈ steps, allowed step) : Fits (fun _ => allowed) next shape steps := by
  induction steps generalizing shape with
  | nil => trivial
  | cons step steps ih =>
      exact ⟨each step List.mem_cons_self, ih _ fun other member => each other (List.mem_cons_of_mem _ member)⟩

theorem run_append [AddCommMonoid α] (front back : List EmittedOp) (operand : Family mesh α) :
    run (front ++ back) operand = run back (run front operand) := List.foldl_append

theorem chain_run [AddCommMonoid α] {Step : Type} (emit : Emit Step) (allowed : List Nat → Step → Prop)
    (next : List Nat → Step → List Nat) (act : Step → Family mesh α → Family mesh α)
    (related : Family mesh α → Family mesh α → Prop) (refl : ∀ value, related value value)
    (trans : ∀ {first second third}, related first second → related second third → related first third)
    (kept : ∀ shape step, allowed shape step → ∀ {left right}, related left right →
      related (act step left) (act step right))
    (spec : ∀ shape step, allowed shape step → ∃ ops, emit shape step = .ok (ops, next shape step) ∧ ops ≠ [] ∧
      ∀ operand : Family mesh α, Uniform shape operand →
        related (run ops operand) (act step operand) ∧ Uniform (next shape step) (run ops operand))
    (shape : List Nat) (steps : List Step) (fits : Fits allowed next shape steps) :
    ∃ ops, chain emit shape steps = .ok ops ∧ (ops = [] → steps = []) ∧ ∀ operand : Family mesh α,
      Uniform shape operand → related (run ops operand) (steps.foldl (fun value step => act step value) operand) := by
  have foldKept : ∀ (steps : List Step) (shape : List Nat), Fits allowed next shape steps → ∀ {left right},
      related left right → related (steps.foldl (fun value step => act step value) left)
        (steps.foldl (fun value step => act step value) right) := by
    intro steps
    induction steps with
    | nil => exact fun _ _ _ _ same => same
    | cons step steps ih => exact fun shape fits _ _ same => ih _ fits.2 (kept shape step fits.1 same)
  induction steps generalizing shape with
  | nil => exact ⟨[], rfl, fun _ => rfl, fun operand _ => refl operand⟩
  | cons step steps ih =>
      obtain ⟨allowedHere, fitsRest⟩ := fits
      obtain ⟨ops, emitted, some, here⟩ := spec shape step allowedHere
      obtain ⟨rest, chained, _, after⟩ := ih (next shape step) fitsRest
      refine ⟨ops ++ rest, ?_, ?_, ?_⟩
      · rw [chain, emitted]
        simp only [bind, Except.bind, chained, pure, Except.pure]
      · intro none
        exact absurd (List.append_eq_nil_iff.mp none).1 some
      · intro operand uniform
        obtain ⟨same, shaped⟩ := here operand uniform
        rw [run_append]
        exact trans (after (run ops operand) shaped) (foldKept steps _ fitsRest same)

theorem sliceAlong_fold (axes : List String) (dim : Nat) (operand : Family mesh α)
    (divides : ∀ device, mesh.combinedSize axes ∣ (operand device).extent dim) :
    axes.foldl (fun value axis => sliceAlong [axis] dim value) operand = sliceAlong axes dim operand := by
  induction axes generalizing operand with
  | nil =>
      funext device
      exact (Tensor.part_one _ _).symm
  | cons axis axes ih =>
      simp only [Mesh.combinedSize_cons] at divides
      rw [List.foldl_cons, ih]
      · funext device
        rw [sliceAlong, sliceAlong_one, sliceAlong, Tensor.part_part _ _ _ _ _ _ (divides device),
          Mesh.combinedSize_cons, Mesh.position]
      · intro device
        rw [sliceAlong_one, Tensor.extent_part]
        exact Nat.dvd_div_of_mul_dvd (divides device)

theorem sliceDims_fold (lists : List (List String)) (start : Nat) (operand : Family mesh α)
    (divides : ∀ entry ∈ lists.zipIdx start, ∀ device, mesh.combinedSize entry.1 ∣ (operand device).extent entry.2) :
    (lists.zipIdx start).foldl
        (fun value entry => entry.1.foldl (fun value axis => sliceAlong [axis] entry.2 value) value) operand =
      (lists.zipIdx start).foldl (fun value (axes, dim) => sliceAlong axes dim value) operand := by
  induction lists generalizing start operand with
  | nil => rfl
  | cons axes lists ih =>
      rw [List.zipIdx_cons, List.foldl_cons, List.foldl_cons,
        sliceAlong_fold _ _ _ fun device => divides (axes, start) (by simp) device]
      apply ih
      intro entry member device
      have later := List.le_snd_of_mem_zipIdx member
      rw [sliceAlong, Tensor.extent_part_other _ _ _ _ _ (by omega)]
      exact divides entry (by simp [member]) device

theorem sum_range_mul {M : Type} [AddCommMonoid M] (outer inner : Nat) (term : Nat → Nat → M) :
    ((List.range (outer * inner)).map fun number => term (number / inner) (number % inner)).sum =
      ((List.range inner).map fun digit => ((List.range outer).map fun number => term number digit).sum).sum := by
  induction outer with
  | zero => simp
  | succ outer ih =>
      have tail : ((List.range inner).map fun digit =>
          term ((outer * inner + digit) / inner) ((outer * inner + digit) % inner)) =
          (List.range inner).map fun digit => term outer digit := by
        apply List.map_congr_left
        intro digit member
        have below := List.mem_range.mp member
        rw [Nat.mul_comm, Nat.mul_add_div (by omega), Nat.div_eq_of_lt below, Nat.add_zero, Nat.mul_add_mod,
          Nat.mod_eq_of_lt below]
      rw [Nat.succ_mul, List.range_add, List.map_append, List.sum_append, ih, List.map_map, Function.comp_def, tail,
        ← List.sum_map_add]
      congr 1
      apply List.map_congr_left
      intro digit _
      rw [List.range_succ, List.map_append, List.sum_append, List.map_singleton, List.sum_singleton]

theorem reduceAlong_fold [AddCommMonoid α] (axes : List String) (operand : Family mesh α) :
    axes.foldl (fun value axis => reduceAlong [axis] value) operand = reduceAlong axes operand := by
  induction axes generalizing operand with
  | nil =>
      funext device
      simp [reduceAlong, Mesh.combinedSize, Mesh.moveTo, Tensor.sum]
  | cons axis axes ih =>
      have first : reduceAlong [axis] operand = fun device => Tensor.sum (operand device).shape
          ((List.range (mesh.axisSize axis)).map fun number => operand (mesh.move axis number device)) :=
        funext (reduceAlong_one axis operand)
      rw [List.foldl_cons, ih, first]
      funext device
      simp only [reduceAlong, Tensor.sum, List.map_map, Function.comp_def, Mesh.combinedSize_cons, Mesh.moveTo]
      ext1
      · rfl
      · funext index
        exact (sum_range_mul (mesh.axisSize axis) (mesh.combinedSize axes) fun number digit =>
          (operand (mesh.move axis number (mesh.moveTo axes digit device))).get index).symm

theorem reduce_slice [AddCommMonoid α] {sliced reduced : String} (known : mesh.Knows reduced)
    (different : reduced ≠ sliced) (dim : Nat) (shape : List Nat) (operand : Family mesh α)
    (uniform : Uniform shape operand) :
    reduceAlong [reduced] (sliceAlong [sliced] dim operand) =
      sliceAlong [sliced] dim (reduceAlong [reduced] operand) := by
  funext device
  rw [sliceAlong_one, reduceAlong_one, reduceAlong_one, uniform, Tensor.sum_part]
  · simp only [sliceAlong_one, Mesh.coordinate_move_other known different, List.map_map, Function.comp_def,
      Tensor.part_shape, uniform device, Tensor.extent]
  · intro tensor member
    obtain ⟨number, _, rfl⟩ := List.mem_map.mp member
    exact uniform _

theorem uniform_reduce [AddCommMonoid α] {shape : List Nat} {operand : Family mesh α} (axes : List String)
    (uniform : Uniform shape operand) : Uniform shape (reduceAlong axes operand) := uniform

theorem uniform_slice {shape : List Nat} {operand : Family mesh α} (axes : List String) (dim : Nat)
    (uniform : Uniform shape operand) :
    Uniform (shape.set dim (shape.getD dim 0 / mesh.combinedSize axes)) (sliceAlong axes dim operand) := by
  intro device
  rw [sliceAlong, Tensor.part_shape, uniform, Tensor.extent, uniform]

theorem reduces_slice [AddCommMonoid α] {sliced : String} (axes : List String) (known : ∀ axis ∈ axes, mesh.Knows axis)
    (different : sliced ∉ axes) (dim : Nat) (shape : List Nat) (operand : Family mesh α)
    (uniform : Uniform shape operand) :
    axes.foldl (fun value axis => reduceAlong [axis] value) (sliceAlong [sliced] dim operand) =
      sliceAlong [sliced] dim (axes.foldl (fun value axis => reduceAlong [axis] value) operand) := by
  induction axes generalizing operand with
  | nil => rfl
  | cons axis axes ih =>
      have other : axis ≠ sliced := fun same => different (same ▸ List.mem_cons_self)
      rw [List.foldl_cons, List.foldl_cons,
        reduce_slice (known axis List.mem_cons_self) other dim shape operand uniform]
      apply ih
      · exact fun axis member => known axis (List.mem_cons_of_mem _ member)
      · exact fun member => different (List.mem_cons_of_mem _ member)
      · exact uniform_reduce _ uniform

theorem scatter_fold [AddCommMonoid α] (steps : List (Nat × String)) (known : ∀ step ∈ steps, mesh.Knows step.2)
    (distinct : (steps.map (·.2)).Nodup) (shape : List Nat) (operand : Family mesh α)
    (uniform : Uniform shape operand) :
    steps.foldl (fun value step => sliceAlong [step.2] step.1 (reduceAlong [step.2] value)) operand =
      steps.foldl (fun value step => sliceAlong [step.2] step.1 value)
        (reduceAlong (steps.map (·.2)) operand) := by
  rw [← reduceAlong_fold]
  induction steps generalizing shape operand with
  | nil => rfl
  | cons step steps ih =>
      obtain ⟨fresh, distinct⟩ := List.nodup_cons.mp distinct
      have knownRest : ∀ other ∈ steps, mesh.Knows other.2 := fun other member =>
        known other (List.mem_cons_of_mem _ member)
      have knownAxes : ∀ axis ∈ steps.map (·.2), mesh.Knows axis := by
        intro axis member
        obtain ⟨other, held, rfl⟩ := List.mem_map.mp member
        exact knownRest other held
      have reduced := uniform_reduce [step.2] uniform
      rw [List.foldl_cons, ih knownRest distinct _ _ (uniform_slice [step.2] step.1 reduced),
        reduces_slice _ knownAxes fresh _ shape _ reduced]
      rfl

theorem slices_replicated (steps : List (Nat × String)) (known : ∀ step ∈ steps, mesh.Knows step.2)
    (distinct : (steps.map (·.2)).Nodup) (left right : Family mesh α)
    (same : ∀ device, (left device).Same (right device))
    (replicated : ∀ step ∈ steps, ∀ position device, (right (mesh.move step.2 position device)).Same (right device))
    (device : mesh.Device) :
    (steps.foldl (fun value step => sliceAlong [step.2] step.1 fun other => value (mesh.move step.2 0 other)) left
      device).Same (steps.foldl (fun value step => sliceAlong [step.2] step.1 value) right device) := by
  induction steps generalizing left right with
  | nil => exact same device
  | cons step steps ih =>
      obtain ⟨fresh, distinct⟩ := List.nodup_cons.mp distinct
      have here := known step List.mem_cons_self
      apply ih (fun other member => known other (List.mem_cons_of_mem _ member)) distinct
      · intro device
        simp only [sliceAlong_one]
        apply Tensor.Same.part _ _ _ _ (Mesh.coordinate_lt here device)
        exact (same _).trans (replicated step List.mem_cons_self 0 device)
      · intro other member position device
        have different : other.2 ≠ step.2 := fun equal => fresh (List.mem_map.mpr ⟨other, member, equal⟩)
        simp only [sliceAlong_one, Mesh.coordinate_move_other (known other (List.mem_cons_of_mem _ member)) different]
        exact (replicated other (List.mem_cons_of_mem _ member) position device).part _ _ _
          (Mesh.coordinate_lt here device)

theorem fold_singles {Item State : Type} (axesOf : Item → List String) (single : Item → String → State → State)
    (joint : Item → State → State) (items : List Item) (state : State)
    (none : ∀ item state, axesOf item = [] → joint item state = state)
    (one : ∀ item axis state, axesOf item = [axis] → joint item state = single item axis state)
    (short : ∀ item ∈ items, (axesOf item).length ≤ 1) :
    items.foldl (fun state item => (axesOf item).foldl (fun state axis => single item axis state) state) state =
      items.foldl (fun state item => joint item state) state := by
  induction items generalizing state with
  | nil => rfl
  | cons item items ih =>
      have here : (axesOf item).foldl (fun state axis => single item axis state) state = joint item state := by
        have small := short item List.mem_cons_self
        cases found : axesOf item with
        | nil => exact (none item state found).symm
        | cons axis axes =>
            rw [found] at small
            obtain rfl : axes = [] := List.length_eq_zero_iff.mp (by simpa using small)
            exact (one item axis state found).symm
      rw [List.foldl_cons, List.foldl_cons, here]
      exact ih _ fun other member => short other (List.mem_cons_of_mem _ member)

theorem shared_or_single {Item : Type} {first second : MeshAxis} (two : mesh.axes = [first, second])
    (axesOf : Item → List String) (items : List Item) (known : ∀ axis ∈ items.flatMap axesOf, mesh.Knows axis)
    (distinct : (items.flatMap axesOf).Nodup) :
    (∀ item ∈ items, (axesOf item).length ≤ 1) ∨
      ∃ front item back major minor, items = front ++ item :: back ∧ axesOf item = [major, minor] ∧
        (∀ other ∈ front, axesOf other = []) ∧ ∀ other ∈ back, axesOf other = [] := by
  by_cases short : ∀ item ∈ items, (axesOf item).length ≤ 1
  · exact Or.inl short
  · right
    simp only [not_forall, not_le] at short
    obtain ⟨item, member, long⟩ := short
    obtain ⟨front, back, rfl⟩ := List.append_of_mem member
    have few : ((front ++ item :: back).flatMap axesOf).length ≤ 2 := by
      have within : (front ++ item :: back).flatMap axesOf ⊆ [first.name, second.name] := by
        intro axis used
        simpa using knows_two two (known axis used)
      exact (List.subperm_of_subset distinct within).length_le
    rw [List.flatMap_append, List.flatMap_cons, List.length_append, List.length_append] at few
    have noneOf : ∀ others : List Item, (others.flatMap axesOf).length = 0 → ∀ other ∈ others, axesOf other = [] := by
      intro others empty other held
      exact List.flatMap_eq_nil_iff.mp (List.length_eq_zero_iff.mp empty) other held
    obtain ⟨major, minor, both⟩ := List.length_eq_two.mp (show (axesOf item).length = 2 by omega)
    exact ⟨front, item, back, major, minor, rfl, both, noneOf front (by omega), noneOf back (by omega)⟩

theorem fold_shared {Item State : Type} (axesOf : Item → List String) (act : State → Item → State)
    (front back : List Item) (item : Item) (state : State)
    (idle : ∀ other state, axesOf other = [] → act state other = state)
    (before : ∀ other ∈ front, axesOf other = []) (after : ∀ other ∈ back, axesOf other = []) :
    (front ++ item :: back).foldl act state = act state item := by
  have skip : ∀ (others : List Item) (state : State), (∀ other ∈ others, axesOf other = []) →
      others.foldl act state = state := by
    intro others
    induction others with
    | nil => exact fun state _ => rfl
    | cons other others ih =>
        intro state unused
        rw [List.foldl_cons, idle other state (unused other List.mem_cons_self)]
        exact ih state fun rest member => unused rest (List.mem_cons_of_mem _ member)
  rw [List.foldl_append, List.foldl_cons, skip front state before, skip back _ after]

section SharedDim
variable {major minor : String} {shape : List Nat}

theorem combinedSize_two : mesh.combinedSize [major, minor] = mesh.axisSize major * mesh.axisSize minor := by
  simp [Mesh.combinedSize]

theorem moveTo_two (number : Nat) (device : mesh.Device) :
    mesh.moveTo [major, minor] number device =
      mesh.move major (number / mesh.axisSize minor) (mesh.move minor (number % mesh.axisSize minor) device) := by
  simp [Mesh.moveTo, Mesh.combinedSize]

theorem position_two (device : mesh.Device) : mesh.position [major, minor] device =
    mesh.coordinate major device * mesh.axisSize minor + mesh.coordinate minor device := by
  simp [Mesh.position, Mesh.combinedSize]

theorem gather_steps (dim : Nat) (operand : Family mesh α) (uniform : Uniform shape operand) (device : mesh.Device) :
    gatherAlong [minor] dim (gatherAlong [major] dim operand) device =
      Tensor.join (mesh.axisSize minor * mesh.axisSize major) (fun number =>
        operand (mesh.move major (number % mesh.axisSize major)
          (mesh.move minor (number / mesh.axisSize major) device))) dim := by
  simp only [gatherAlong_one]
  exact Tensor.join_join shape _ _
    (fun outer inner => operand (mesh.move major inner (mesh.move minor outer device))) dim fun _ => uniform _

theorem gather_both (dim : Nat) (operand : Family mesh α) (device : mesh.Device) :
    gatherAlong [major, minor] dim operand device =
      Tensor.join (mesh.axisSize major * mesh.axisSize minor) (fun number =>
        operand (mesh.move major (number / mesh.axisSize minor)
          (mesh.move minor (number % mesh.axisSize minor) device))) dim := by
  rw [gatherAlong, if_neg (List.cons_ne_nil _ _)]
  simp only [combinedSize_two, moveTo_two]

theorem exchange_steps (knownMinor : mesh.Knows minor) (different : minor ≠ major) (srcDim tgtDim : Nat)
    (dims : srcDim ≠ tgtDim) (operand : Family mesh α) (uniform : Uniform shape operand)
    (divides : mesh.axisSize major * mesh.axisSize minor ∣ shape.getD tgtDim 0) (device : mesh.Device) :
    exchangeAlong [minor] srcDim tgtDim (exchangeAlong [major] srcDim tgtDim operand) device =
      Tensor.join (mesh.axisSize minor * mesh.axisSize major) (fun number =>
        (operand (mesh.move major (number % mesh.axisSize major)
          (mesh.move minor (number / mesh.axisSize major) device))).part tgtDim
            (mesh.axisSize major * mesh.axisSize minor) (mesh.position [major, minor] device)) srcDim := by
  have extents : ∀ other, (operand other).extent tgtDim = shape.getD tgtDim 0 := fun other => by
    rw [Tensor.extent, uniform]
  have inner : ∀ outer, (Tensor.join (mesh.axisSize major) (fun number =>
        (operand (mesh.move major number (mesh.move minor outer device))).part tgtDim (mesh.axisSize major)
          (mesh.coordinate major (mesh.move minor outer device))) srcDim).part tgtDim (mesh.axisSize minor)
            (mesh.coordinate minor device) =
      Tensor.join (mesh.axisSize major) (fun number =>
        (operand (mesh.move major number (mesh.move minor outer device))).part tgtDim
          (mesh.axisSize major * mesh.axisSize minor) (mesh.position [major, minor] device)) srcDim := by
    intro outer
    rw [Tensor.part_join _ _ _ _ _ _ dims]
    · congr 1
      funext number
      rw [Tensor.part_part _ _ _ _ _ _ (by rwa [extents]), position_two,
        Mesh.coordinate_move_other knownMinor different]
    · intro number
      rw [Tensor.extent_part, Tensor.extent_part, extents, extents]
  simp only [exchangeAlong_one, inner]
  exact Tensor.join_join (shape.set tgtDim (shape.getD tgtDim 0 / (mesh.axisSize major * mesh.axisSize minor))) _ _
    (fun outer inner => (operand (mesh.move major inner (mesh.move minor outer device))).part tgtDim
      (mesh.axisSize major * mesh.axisSize minor) (mesh.position [major, minor] device)) srcDim
    fun outer => by rw [Tensor.part_shape, uniform, extents]

theorem exchange_both (srcDim tgtDim : Nat) (operand : Family mesh α) (device : mesh.Device) :
    exchangeAlong [major, minor] srcDim tgtDim operand device =
      Tensor.join (mesh.axisSize major * mesh.axisSize minor) (fun number =>
        (operand (mesh.move major (number / mesh.axisSize minor)
          (mesh.move minor (number % mesh.axisSize minor) device))).part tgtDim
            (mesh.axisSize major * mesh.axisSize minor) (mesh.position [major, minor] device)) srcDim := by
  rw [exchangeAlong, if_neg (List.cons_ne_nil _ _)]
  simp only [combinedSize_two, moveTo_two]

section
variable [Nontrivial α] (knownMajor : mesh.Knows major) (knownMinor : mesh.Knows minor)
include knownMajor knownMinor

/-- Joining the parts with the major axis first or the minor one: the order shows as soon as both
axes have two positions. -/
theorem orders_agree_iff (view : mesh.Device → Tensor α → Tensor α) (newShape : List Nat) (dim : Nat)
    (shapes : ∀ device tensor, tensor.shape = shape → (view device tensor).shape = newShape)
    (constant : ∀ device value index, (view device ⟨shape, fun _ => value⟩).get index = value)
    (empty : 0 ∈ newShape ↔ 0 ∈ shape) (inRange : dim < newShape.length) :
    (∀ operand : Family mesh α, Uniform shape operand → ∀ device,
      (Tensor.join (mesh.axisSize minor * mesh.axisSize major) (fun number =>
        view device (operand (mesh.move major (number % mesh.axisSize major)
          (mesh.move minor (number / mesh.axisSize major) device)))) dim).Same
      (Tensor.join (mesh.axisSize major * mesh.axisSize minor) (fun number =>
        view device (operand (mesh.move major (number / mesh.axisSize minor)
          (mesh.move minor (number % mesh.axisSize minor) device)))) dim)) ↔
      0 ∈ shape ∨ mesh.axisSize major ≤ 1 ∨ mesh.axisSize minor ≤ 1 := by
  have majorPositive := Mesh.axisSize_positive knownMajor
  have minorPositive := Mesh.axisSize_positive knownMinor
  constructor
  · intro agree
    by_contra separate
    simp only [not_or, not_le] at separate
    obtain ⟨full, majorLong, minorLong⟩ := separate
    obtain ⟨marked, other, unequal⟩ := exists_pair_ne α
    let device : mesh.Device := ⟨0, Mesh.devices_positive⟩
    let target := mesh.move major 0 (mesh.move minor 1 device)
    -- one device holds another value than the rest, and the two orders put it in different blocks
    let operand : Family mesh α := fun sender => ⟨shape, fun _ => if sender = target then marked else other⟩
    have elsewhere : mesh.move major 1 (mesh.move minor 0 device) ≠ target := by
      intro same
      have coordinates := congrArg (mesh.coordinate major) same
      rw [Mesh.coordinate_move knownMajor, Mesh.coordinate_move knownMajor, Nat.mod_eq_of_lt majorLong,
        Nat.zero_mod] at coordinates
      exact absurd coordinates Nat.one_ne_zero
    have first : (view device (operand (mesh.move major 0 (mesh.move minor 0 device)))).shape = newShape :=
      shapes _ _ rfl
    refine Tensor.join_swapped_differs _ _
      (fun outer inner => view device (operand (mesh.move major outer (mesh.move minor inner device)))) dim majorLong
      minorLong (first ▸ inRange) ?_ ?_ (agree operand (fun _ => rfl) device)
    · intro extent member
      rw [first] at member
      exact Nat.pos_of_ne_zero fun none => full (empty.mp (none ▸ member))
    · intro index same
      simp only [operand, constant, elsewhere, if_false] at same
      exact unequal (by simpa [target] using same.symm)
  · intro harmless operand uniform device
    have size : ∀ outer inner,
        (view device (operand (mesh.move major outer (mesh.move minor inner device)))).shape = newShape :=
      fun _ _ => shapes _ _ (uniform _)
    rcases harmless with none | single
    · apply Tensor.same_of_empty
      · rw [Tensor.join_shape, Tensor.join_shape, Tensor.extent, Tensor.extent, size, size,
          Nat.mul_comm (mesh.axisSize minor)]
      · have joined : 0 < mesh.axisSize minor * mesh.axisSize major := Nat.mul_pos minorPositive majorPositive
        rw [Tensor.join_shape, Tensor.extent, size, Tensor.zero_mem_set _ _ _ (by simp; omega) inRange]
        exact empty.mpr none
    · have equal := Tensor.join_swapped (mesh.axisSize major) (mesh.axisSize minor)
        (fun outer inner => view device (operand (mesh.move major outer (mesh.move minor inner device)))) dim
        majorPositive minorPositive single
      rw [equal]
      exact Tensor.Same.refl _

theorem gather_agrees_iff (dim : Nat)
    (inRange : dim < shape.length) :
    (∀ operand : Family mesh α, Uniform shape operand → ∀ device,
      (gatherAlong [minor] dim (gatherAlong [major] dim operand) device).Same
        (gatherAlong [major, minor] dim operand device)) ↔
      0 ∈ shape ∨ mesh.axisSize major ≤ 1 ∨ mesh.axisSize minor ≤ 1 := by
  rw [← orders_agree_iff knownMajor knownMinor (fun _ (tensor : Tensor α) => tensor) shape dim (fun _ _ same => same)
    (fun _ _ _ => rfl) Iff.rfl inRange]
  constructor
  · intro agree operand uniform device
    have same := agree operand uniform device
    rwa [gather_steps dim operand uniform, gather_both] at same
  · intro agree operand uniform device
    rw [gather_steps dim operand uniform, gather_both]
    exact agree operand uniform device

theorem exchange_agrees_iff (different : minor ≠ major) (srcDim tgtDim : Nat) (dims : srcDim ≠ tgtDim) (srcRange : srcDim < shape.length)
    (tgtRange : tgtDim < shape.length)
    (divides : mesh.axisSize major * mesh.axisSize minor ∣ shape.getD tgtDim 0) :
    (∀ operand : Family mesh α, Uniform shape operand → ∀ device,
      (exchangeAlong [minor] srcDim tgtDim (exchangeAlong [major] srcDim tgtDim operand) device).Same
        (exchangeAlong [major, minor] srcDim tgtDim operand device)) ↔
      0 ∈ shape ∨ mesh.axisSize major ≤ 1 ∨ mesh.axisSize minor ≤ 1 := by
  have positive : 0 < mesh.axisSize major * mesh.axisSize minor :=
    Nat.mul_pos (Mesh.axisSize_positive knownMajor) (Mesh.axisSize_positive knownMinor)
  have chunkEmpty : shape.getD tgtDim 0 / (mesh.axisSize major * mesh.axisSize minor) = 0 ↔
      shape.getD tgtDim 0 = 0 := by
    obtain ⟨chunk, total⟩ := divides
    rw [total, Nat.mul_div_cancel_left _ positive, Nat.mul_eq_zero]
    omega
  rw [← orders_agree_iff knownMajor knownMinor
    (fun device (tensor : Tensor α) => tensor.part tgtDim (mesh.axisSize major * mesh.axisSize minor)
      (mesh.position [major, minor] device))
    (shape.set tgtDim (shape.getD tgtDim 0 / (mesh.axisSize major * mesh.axisSize minor))) srcDim
    (fun _ tensor same => by rw [Tensor.part_shape, Tensor.extent, same]) (fun _ _ _ => rfl)
    (Tensor.zero_mem_set _ _ _ chunkEmpty tgtRange) (by simpa using srcRange)]
  constructor
  · intro agree operand uniform device
    have same := agree operand uniform device
    rwa [exchange_steps knownMinor different srcDim tgtDim dims operand uniform divides, exchange_both] at same
  · intro agree operand uniform device
    rw [exchange_steps knownMinor different srcDim tgtDim dims operand uniform divides, exchange_both]
    exact agree operand uniform device

end

theorem oneLongAxis_two : SdyOp.OneLongAxis mesh [major, minor] ↔
    mesh.axisSize major ≤ 1 ∨ mesh.axisSize minor ≤ 1 := by
  rw [SdyOp.OneLongAxis]
  by_cases majorLong : 1 < mesh.axisSize major <;> by_cases minorLong : 1 < mesh.axisSize minor <;>
    simp [majorLong, minorLong] <;> omega

end SharedDim

theorem oneLongAxis_short {axes : List String} (short : axes.length ≤ 1) : SdyOp.OneLongAxis mesh axes :=
  Nat.le_trans (List.length_filter_le _ _) short

theorem mem_axisSteps {lists : List (List String)} {step : Nat × String} (member : step ∈ axisSteps lists) :
    step.2 ∈ lists.flatten := by
  obtain ⟨entry, held, used⟩ := List.mem_flatMap.mp member
  obtain ⟨axis, inside, rfl⟩ := List.mem_map.mp used
  exact List.mem_flatten.mpr ⟨entry.1, List.fst_mem_of_mem_zipIdx held, inside⟩

theorem axisSteps_axes (lists : List (List String)) : (axisSteps lists).map (·.2) = lists.flatten := by
  rw [axisSteps, List.map_flatMap]
  simp only [List.map_map, Function.comp_def, List.map_id']
  rw [List.flatMap_def, List.zipIdx_map_fst]

theorem axisSteps_fold {State : Type} (lists : List (List String)) (act : State → Nat × String → State)
    (state : State) :
    (axisSteps lists).foldl act state =
      lists.zipIdx.foldl (fun state entry =>
        entry.1.foldl (fun state axis => act state (entry.2, axis)) state) state := by
  rw [axisSteps, List.foldl_flatMap]
  simp only [List.foldl_map]

def sliceAllowed (mesh : Mesh) (shape : List Nat) (step : Nat × String) : Prop :=
  mesh.Knows step.2 ∧ step.1 < shape.length ∧ mesh.axisSize step.2 ∣ shape.getD step.1 0

def sliceNext (mesh : Mesh) (shape : List Nat) (step : Nat × String) : List Nat :=
  shape.set step.1 (shape.getD step.1 0 / mesh.axisSize step.2)

theorem fits_axes (axes : List String) (dim : Nat) (rest : List (Nat × String)) (shape : List Nat)
    (known : ∀ axis ∈ axes, mesh.Knows axis) (inRange : dim < shape.length)
    (divides : mesh.combinedSize axes ∣ shape.getD dim 0)
    (after : Fits (sliceAllowed mesh) (sliceNext mesh)
      (shape.set dim (shape.getD dim 0 / mesh.combinedSize axes)) rest) :
    Fits (sliceAllowed mesh) (sliceNext mesh) shape (axes.map (fun axis => (dim, axis)) ++ rest) := by
  induction axes generalizing shape with
  | nil =>
      rw [Mesh.combinedSize, List.map_nil, List.prod_nil, Nat.div_one, Tensor.set_getD_self] at after
      exact after
  | cons axis axes ih =>
      rw [Mesh.combinedSize_cons] at divides after
      have chunk : (sliceNext mesh shape (dim, axis)).getD dim 0 = shape.getD dim 0 / mesh.axisSize axis :=
        Tensor.getD_set_self _ _ _ inRange
      constructor
      · exact ⟨known axis List.mem_cons_self, inRange, Nat.dvd_trans (Nat.dvd_mul_right _ _) divides⟩
      · apply ih
        · exact fun other member => known other (List.mem_cons_of_mem _ member)
        · rw [sliceNext, List.length_set]
          exact inRange
        · rw [chunk]
          exact Nat.dvd_div_of_mul_dvd divides
        · rw [chunk, sliceNext, List.set_set, Nat.div_div_eq_div_mul]
          exact after

theorem fits_dims (lists : List (List String)) (start : Nat) (shape : List Nat)
    (known : ∀ axis ∈ lists.flatten, mesh.Knows axis) (inRange : start + lists.length ≤ shape.length)
    (divides : ∀ entry ∈ lists.zipIdx start, mesh.combinedSize entry.1 ∣ shape.getD entry.2 0) :
    Fits (sliceAllowed mesh) (sliceNext mesh) shape
      ((lists.zipIdx start).flatMap fun (axes, dim) => axes.map fun axis => (dim, axis)) := by
  induction lists generalizing start shape with
  | nil => trivial
  | cons axes lists ih =>
      rw [List.length_cons] at inRange
      rw [List.zipIdx_cons, List.flatMap_cons]
      apply fits_axes
      · exact fun axis member => known axis (by simp [member])
      · omega
      · exact divides (axes, start) (by simp)
      · apply ih
        · exact fun axis member => known axis (by simp_all)
        · rw [List.length_set]
          omega
        · intro entry member
          have later := List.le_snd_of_mem_zipIdx member
          rw [Tensor.getD_set_other _ _ _ _ (by omega)]
          exact divides entry (by simp [member])

/-- The op is rewritten, and the chain does what the op defines just when the condition holds. -/
def SdyOp.Lowers (α : Type) [AddCommMonoid α] (mesh : Mesh) (shape : List Nat) (op : SdyOp) (condition : Prop) : Prop :=
  ∃ ops, op.matchAndRewrite mesh shape = .ok ops ∧
    ((∀ operand : Family mesh α, op.Accepts shape operand → ∀ device,
      (run ops operand device).Same (op.meaning operand device)) ↔ condition)

theorem zip_forall (lists : List (List String)) (holds : List String → Prop) :
    (∀ entry ∈ lists.zipIdx, holds entry.1) ↔ ∀ axes ∈ lists, holds axes := by
  conv_rhs => rw [← List.zipIdx_map_fst 0 lists]
  exact List.forall_mem_map.symm

section Order
variable {first second : MeshAxis} {shape : List Nat}

/-- Items whose axes are taken one by one and items taken as a whole agree when no item has two long axes. -/
theorem order_agrees_iff {Item : Type} (two : mesh.axes = [first, second]) (axesOf : Item → List String)
    (items : List Item) (known : ∀ axis ∈ items.flatMap axesOf, mesh.Knows axis)
    (distinct : (items.flatMap axesOf).Nodup) (single : Item → String → Family mesh α → Family mesh α)
    (joint : Item → Family mesh α → Family mesh α) (none : ∀ item value, axesOf item = [] → joint item value = value)
    (one : ∀ item axis value, axesOf item = [axis] → joint item value = single item axis value)
    (pair : ∀ item ∈ items, ∀ major minor, axesOf item = [major, minor] →
      ((∀ operand, Uniform shape operand → ∀ device,
        (single item minor (single item major operand) device).Same (joint item operand device)) ↔
          0 ∈ shape ∨ SdyOp.OneLongAxis mesh [major, minor])) :
    (∀ operand, Uniform shape operand → ∀ device,
      (items.foldl (fun value item => (axesOf item).foldl (fun value axis => single item axis value) value) operand
        device).Same (items.foldl (fun value item => joint item value) operand device)) ↔
      0 ∈ shape ∨ ∀ item ∈ items, SdyOp.OneLongAxis mesh (axesOf item) := by
  rcases shared_or_single two axesOf items known distinct with short | shared
  · constructor
    · exact fun _ => Or.inr fun item member => oneLongAxis_short (short item member)
    · intro _ operand _ device
      rw [fold_singles axesOf single joint items operand none one short]
      exact Tensor.Same.refl _
  · obtain ⟨front, item, back, major, minor, split, both, before, after⟩ := shared
    have member : item ∈ items := by rw [split]; simp
    have taken : ∀ operand : Family mesh α,
        items.foldl (fun value item => (axesOf item).foldl (fun value axis => single item axis value) value) operand =
          single item minor (single item major operand) := by
      intro operand
      rw [split, fold_shared axesOf _ front back item operand (fun other value unused => by rw [unused]; rfl) before
        after, both]
      rfl
    have whole : ∀ operand : Family mesh α,
        items.foldl (fun value item => joint item value) operand = joint item operand := by
      intro operand
      rw [split, fold_shared axesOf _ front back item operand none before after]
    have others : (∀ item ∈ items, SdyOp.OneLongAxis mesh (axesOf item)) ↔ SdyOp.OneLongAxis mesh [major, minor] := by
      constructor
      · intro all
        rw [← both]
        exact all item member
      · intro here other held
        rw [split, List.mem_append, List.mem_cons] at held
        rcases held with held | rfl | held
        · exact oneLongAxis_short (by rw [before other held]; exact Nat.zero_le 1)
        · rwa [both]
        · exact oneLongAxis_short (by rw [after other held]; exact Nat.zero_le 1)
    simp only [taken, whole, others]
    exact pair item member major minor both

end Order

section Ops
variable [AddCommMonoid α] {first second : MeshAxis} {shape : List Nat}

theorem chain_exact {Step : Type} (emit : Emit Step) (allowed : Step → Prop) (next : List Nat → Step → List Nat)
    (act : Step → Family mesh α → Family mesh α) (emitted : List Nat → Step → EmittedOp)
    (emits : ∀ shape step, emit shape step = .ok ([emitted shape step], next shape step))
    (applies : ∀ shape step, allowed step → ∀ operand, (emitted shape step).apply operand = act step operand)
    (shapes : ∀ shape step, allowed step → ∀ operand, Uniform shape operand →
      Uniform (next shape step) (act step operand))
    (shape : List Nat) (steps : List Step) (each : ∀ step ∈ steps, allowed step) :
    ∃ ops, chain emit shape steps = .ok ops ∧ ∀ operand : Family mesh α, Uniform shape operand →
      run ops operand = steps.foldl (fun value step => act step value) operand := by
  obtain ⟨ops, chained, _, same⟩ := chain_run emit (fun _ => allowed) next act Eq (fun _ => rfl) Eq.trans
    (fun _ step _ _ _ same => congrArg (act step) same)
    (fun shape step here => ⟨_, emits shape step, List.cons_ne_nil _ _, fun operand uniform => by
      have applied := applies shape step here operand
      rw [run, List.foldl_cons, List.foldl_nil, applied]
      exact ⟨rfl, shapes shape step here operand uniform⟩⟩)
    shape steps (fits_of_forall allowed next shape steps each)
  exact ⟨ops, chained, same⟩

theorem zipIdx_axes (lists : List (List String)) : lists.zipIdx.flatMap (·.1) = lists.flatten := by
  rw [List.flatMap_def, List.zipIdx_map_fst]

theorem lowers_allGather [Nontrivial α] (two : mesh.axes = [first, second]) (lists : List (List String))
    (formed : (SdyOp.allGather lists).WellFormed mesh shape) :
    SdyOp.Lowers α mesh shape (.allGather lists) ((SdyOp.allGather lists).KeepsOrder mesh shape) := by
  obtain ⟨ops, chained, exact⟩ := chain_exact (emitAllGather mesh) (fun step => mesh.Knows step.2)
    (fun shape step => shape.set step.1 (shape.getD step.1 0 * mesh.axisSize step.2))
    (fun step (value : Family mesh α) => gatherAlong [step.2] step.1 value) _ (fun _ _ => rfl)
    (fun _ step known operand => apply_allGather two known _ step.1 operand)
    (fun shape step _ operand uniform device => by
      rw [gatherAlong_one, Tensor.join_shape, Tensor.extent, uniform])
    shape (axisSteps lists) fun step member => formed.known _ (mem_axisSteps member)
  refine ⟨ops, chained, ?_⟩
  have axes := zipIdx_axes lists
  have order : (∀ operand : Family mesh α, Uniform shape operand → _) ↔ _ := order_agrees_iff two (·.1) lists.zipIdx
    (axes ▸ formed.known) (axes ▸ formed.distinct) (fun entry axis => gatherAlong [axis] entry.2)
    (fun entry => gatherAlong entry.1 entry.2)
    (fun entry value none => by rw [gatherAlong, if_pos none]) (fun entry axis value one => by rw [one])
    fun entry member major minor both => by
      have used : ∀ axis ∈ entry.1, mesh.Knows axis := fun axis held =>
        formed.known axis (List.mem_flatten.mpr ⟨entry.1, List.fst_mem_of_mem_zipIdx member, held⟩)
      have inRange : entry.2 < shape.length := by
        rw [← formed.dims]
        exact List.snd_lt_of_mem_zipIdx member
      rw [both, oneLongAxis_two]
      exact gather_agrees_iff (used major (by simp [both])) (used minor (by simp [both])) entry.2 inRange
  rw [zip_forall lists fun axes => SdyOp.OneLongAxis mesh axes] at order
  constructor
  · intro agree
    apply order.mp
    intro operand uniform device
    have same := agree operand ⟨uniform, trivial⟩ device
    rwa [exact operand uniform, axisSteps_fold] at same
  · intro keeps operand accepted device
    rw [exact operand accepted.1, axisSteps_fold]
    exact order.mpr keeps operand accepted.1 device

theorem lowers_allToAll [Nontrivial α] (two : mesh.axes = [first, second]) (params : List AllToAllParam)
    (formed : (SdyOp.allToAll params).WellFormed mesh shape) :
    SdyOp.Lowers α mesh shape (.allToAll params) ((SdyOp.allToAll params).KeepsOrder mesh shape) := by
  have axes : params.flatMap (·.axes) = (params.map (·.axes)).flatten := List.flatMap_def ..
  have apart : ∀ param ∈ params, param.srcDim ≠ param.tgtDim := by
    intro param member same
    obtain ⟨front, back, rfl⟩ := List.append_of_mem member
    have unique := formed.dims.1
    rw [List.flatMap_append, List.flatMap_cons] at unique
    have pair := (List.nodup_append.mp (List.nodup_append.mp unique).2.1).1
    simp [same] at pair
  obtain ⟨ops, chained, exact⟩ := chain_exact (emitAllToAll mesh)
    (fun step => mesh.Knows step.2 ∧ step.1.srcDim ≠ step.1.tgtDim) 
    (fun shape step =>
      let sliced := shape.set step.1.tgtDim (shape.getD step.1.tgtDim 0 / mesh.axisSize step.2)
      sliced.set step.1.srcDim (sliced.getD step.1.srcDim 0 * mesh.axisSize step.2))
    (fun step (value : Family mesh α) => exchangeAlong [step.2] step.1.srcDim step.1.tgtDim value) _ (fun _ _ => rfl)
    (fun _ step known operand => apply_allToAll two known.1 _ step.1.srcDim step.1.tgtDim operand)
    (fun shape step _ operand uniform device => by
      rw [exchangeAlong_one, Tensor.join_shape, Tensor.part_shape, Tensor.extent, Tensor.extent, Tensor.part_shape,
        Tensor.extent, uniform])
    shape (params.flatMap fun param => param.axes.map fun axis => (param, axis)) fun step member => by
      obtain ⟨param, held, used⟩ := List.mem_flatMap.mp member
      obtain ⟨axis, inside, rfl⟩ := List.mem_map.mp used
      exact ⟨formed.known axis (axes ▸ List.mem_flatMap.mpr ⟨param, held, inside⟩), apart param held⟩
  refine ⟨ops, chained, ?_⟩
  have order : (∀ operand : Family mesh α, Uniform shape operand → _) ↔ _ := order_agrees_iff two (·.axes) params
    (axes ▸ formed.known) (axes ▸ formed.distinct) (fun param axis => exchangeAlong [axis] param.srcDim param.tgtDim)
    (fun param => exchangeAlong param.axes param.srcDim param.tgtDim)
    (fun param value none => by rw [exchangeAlong, if_pos none]) (fun param axis value one => by rw [one])
    fun param member major minor both => by
      have used : ∀ axis ∈ param.axes, mesh.Knows axis := fun axis held =>
        formed.known axis (axes ▸ List.mem_flatMap.mpr ⟨param, member, held⟩)
      have different : major ≠ minor := by
        obtain ⟨front, back, rfl⟩ := List.append_of_mem member
        have unique : ((front ++ param :: back).flatMap (·.axes)).Nodup := axes ▸ formed.distinct
        rw [List.flatMap_append, List.flatMap_cons, both] at unique
        simpa using (List.nodup_append.mp (List.nodup_append.mp unique).2.1).1
      have divides := formed.divides param member
      rw [both, combinedSize_two] at divides
      rw [both, oneLongAxis_two]
      exact exchange_agrees_iff (used major (by simp [both])) (used minor (by simp [both])) different.symm param.srcDim
        param.tgtDim (apart param member) (formed.dims.2 param member).1 (formed.dims.2 param member).2 divides
  -- folding over the flat list of pairs is the nested loop
  have nested : ∀ operand : Family mesh α, (params.flatMap fun param => param.axes.map fun axis => (param, axis)).foldl
        (fun value step => exchangeAlong [step.2] step.1.srcDim step.1.tgtDim value) operand =
      params.foldl (fun value param => param.axes.foldl
        (fun value axis => exchangeAlong [axis] param.srcDim param.tgtDim value) value) operand := by
    intro operand
    rw [List.foldl_flatMap]
    simp only [List.foldl_map]
  constructor
  · intro agree
    apply order.mp
    intro operand uniform device
    have same := agree operand ⟨uniform, trivial⟩ device
    rwa [exact operand uniform, nested] at same
  · intro keeps operand accepted device
    rw [exact operand accepted.1, nested]
    exact order.mpr keeps operand accepted.1 device

theorem lowers_allReduce (two : mesh.axes = [first, second]) (axes : List String)
    (formed : (SdyOp.allReduce axes).WellFormed mesh shape) :
    SdyOp.Lowers α mesh shape (.allReduce axes) True := by
  obtain ⟨ops, chained, exact⟩ := chain_exact (emitAllReduce mesh) (fun axis => mesh.Knows axis) (fun shape _ => shape)
    (fun axis (value : Family mesh α) => reduceAlong [axis] value) _ (fun _ _ => rfl)
    (fun _ axis known operand => apply_allReduce two known _ operand)
    (fun shape axis _ operand uniform => uniform_reduce [axis] uniform)
    shape axes fun axis member => formed.known axis (by simpa [SdyOp.axisLists] using member)
  refine ⟨ops, chained, iff_true_intro ?_⟩
  intro operand accepted device
  rw [exact operand accepted.1, reduceAlong_fold]
  exact Tensor.Same.refl _

omit [AddCommMonoid α] in
theorem sliceDims_steps (lists : List (List String)) (operand : Family mesh α) (uniform : Uniform shape operand)
    (divides : ∀ entry ∈ lists.zipIdx, mesh.combinedSize entry.1 ∣ shape.getD entry.2 0) :
    (axisSteps lists).foldl (fun value step => sliceAlong [step.2] step.1 value) operand = sliceDims lists operand := by
  rw [axisSteps_fold]
  apply sliceDims_fold lists 0 operand
  intro entry member device
  rw [Tensor.extent, uniform]
  exact divides entry member

theorem lowers_reduceScatter (two : mesh.axes = [first, second]) (lists : List (List String))
    (formed : (SdyOp.reduceScatter lists).WellFormed mesh shape) :
    SdyOp.Lowers α mesh shape (.reduceScatter lists) True := by
  have known : ∀ step ∈ axisSteps lists, mesh.Knows step.2 := fun step member =>
    formed.known _ (mem_axisSteps member)
  obtain ⟨ops, chained, exact⟩ := chain_exact (emitReduceScatter mesh) (fun step => mesh.Knows step.2)
    (sliceNext mesh) (fun step (value : Family mesh α) => sliceAlong [step.2] step.1 (reduceAlong [step.2] value)) _
    (fun _ _ => rfl) (fun _ step known operand => apply_reduceScatter two known _ step.1 operand)
    (fun shape step _ operand uniform => by
      rw [sliceNext, ← combinedSize_one]
      exact uniform_slice [step.2] step.1 (uniform_reduce [step.2] uniform))
    shape (axisSteps lists) known
  refine ⟨ops, chained, iff_true_intro ?_⟩
  intro operand accepted device
  rw [exact operand accepted.1, scatter_fold _ known (by rw [axisSteps_axes]; exact formed.distinct) shape operand
    accepted.1, axisSteps_axes,
    sliceDims_steps lists _ (uniform_reduce lists.flatten accepted.1) formed.divides]
  exact Tensor.Same.refl _

theorem lowers_allSlice (two : mesh.axes = [first, second]) (lists : List (List String)) (replicated : Bool)
    (formed : (SdyOp.allSlice lists replicated).WellFormed mesh shape)
    (slices : (SdyOp.allSlice lists replicated).Slices) :
    SdyOp.Lowers α mesh shape (.allSlice lists replicated) True := by
  have known : ∀ step ∈ axisSteps lists, mesh.Knows step.2 := fun step member =>
    formed.known _ (mem_axisSteps member)
  have fits : Fits (sliceAllowed mesh) (sliceNext mesh) shape (axisSteps lists) :=
    fits_dims lists 0 shape formed.known (by rw [Nat.zero_add]; exact formed.dims.le) formed.divides
  obtain ⟨ops, chained, some, same⟩ := chain_run (emitAllSlice mesh) (sliceAllowed mesh) (sliceNext mesh)
    (fun step (value : Family mesh α) => sliceAlong [step.2] step.1 fun other => value (mesh.move step.2 0 other))
    (fun left right => ∀ device, (left device).Same (right device)) (fun _ _ => Tensor.Same.refl _)
    (fun first second device => (first device).trans (second device))
    (fun shape step allowed left right same device => by
      simp only [sliceAlong_one]
      exact (same _).part _ _ _ (Mesh.coordinate_lt allowed.1 device))
    (fun shape step allowed => by
      obtain ⟨ops, emitted, some, same⟩ := run_allSlice α two allowed.1 shape step.1 allowed.2.1 allowed.2.2
      refine ⟨ops, emitted, some, fun operand uniform => ⟨same operand uniform, fun device => ?_⟩⟩
      rw [(same operand uniform device).1, sliceAlong_one, Tensor.part_shape, Tensor.extent, uniform, sliceNext])
    shape (axisSteps lists) fits
  refine ⟨ops, ?_, iff_true_intro ?_⟩
  · have outlined : ¬(replicated = true ∧ ops = []) := by
      rintro ⟨rfl, none⟩
      apply slices
      rw [← axisSteps_axes, some none, List.map_nil]
    simp only [SdyOp.matchAndRewrite, chained, bind, Except.bind, pure, Except.pure]
    rw [if_neg outlined]
  · intro operand accepted device
    rw [SdyOp.meaning, ← sliceDims_steps lists operand accepted.1 formed.divides]
    apply (same operand accepted.1 device).trans
    apply slices_replicated _ known (by rw [axisSteps_axes]; exact formed.distinct) _ _ fun _ => Tensor.Same.refl _
    exact fun step member => accepted.2 _ (mem_axisSteps member)

end Ops

theorem collectives_place (α : Type) [AddCommMonoid α] [Nontrivial α] (mesh : Mesh) (two : mesh.axes.length = 2)
    (shape : List Nat) (op : SdyOp) (formed : op.WellFormed mesh shape) (slices : op.Slices) :
    ∃ ops, op.matchAndRewrite mesh shape = .ok ops ∧
      ((∀ operand : Family mesh α, op.Accepts shape operand → ∀ device,
        (run ops operand device).Same (op.meaning operand device)) ↔ op.KeepsOrder mesh shape) := by
  obtain ⟨first, second, axes⟩ := List.length_eq_two.mp two
  cases op with
  | allGather lists => exact lowers_allGather axes lists formed
  | reduceScatter lists => exact lowers_reduceScatter axes lists formed
  | allReduce reductionAxes => exact lowers_allReduce axes reductionAxes formed
  | allToAll params => exact lowers_allToAll axes params formed
  | allSlice lists replicated => exact lowers_allSlice axes lists replicated formed slices

def square : Mesh where
  axes := [⟨"model", 2⟩, ⟨"batch", 2⟩]
  distinct := by decide
  positive := by decide

def numbered : Family square Nat := fun device => ⟨[1], fun _ => device.val⟩

theorem collectives_place_square :
    ∃ ops, (SdyOp.allGather [["model"], ["batch"]]).matchAndRewrite square [1, 3] = .ok ops ∧
      ((∀ operand : Family square Nat, (SdyOp.allGather [["model"], ["batch"]]).Accepts [1, 3] operand → ∀ device,
        (run ops operand device).Same ((SdyOp.allGather [["model"], ["batch"]]).meaning operand device)) ↔
          (SdyOp.allGather [["model"], ["batch"]]).KeepsOrder square [1, 3]) :=
  collectives_place Nat square rfl [1, 3] (.allGather [["model"], ["batch"]])
    { known := by decide, distinct := by decide, dims := rfl, divides := trivial } trivial

/-- Gathering the major axis first puts the chunks down in the order 0, 2, 1, 3. -/
theorem allGather_misplaces :
    (SdyOp.allGather [["model", "batch"]]).WellFormed square [1] ∧
      (SdyOp.allGather [["model", "batch"]]).Accepts [1] numbered ∧
      ∃ ops, (SdyOp.allGather [["model", "batch"]]).matchAndRewrite square [1] = .ok ops ∧
        ∃ device, ¬(run ops numbered device).Same
          ((SdyOp.allGather [["model", "batch"]]).meaning numbered device) := by
  refine ⟨{ known := by decide, distinct := by decide, dims := rfl, divides := trivial }, ⟨fun _ => rfl, trivial⟩,
    _, rfl, ⟨0, by decide⟩, ?_⟩
  intro same
  have second := same.2 [1] (List.Forall₂.cons (by decide) List.Forall₂.nil)
  revert second
  decide

end TtMlir.Shardy
