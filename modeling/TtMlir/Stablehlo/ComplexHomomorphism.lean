import TtMlir.Stablehlo.ComplexGather

/-!
The conversion of complex tensors is a homomorphism: the operations it puts in the place of one are
accepted by their verifiers, and on unpacked operands they compute the unpacked result.
-/

namespace TtMlir.Stablehlo

open Tensor (Same)

section Transpose

theorem gather_lastFirst (front : List Nat) (value : Nat) :
    gather (front ++ [value]) (front.length :: List.range front.length) = value :: front := by
  rw [gather_cons, gather_entry, gather_front]
  rfl

theorem gather_firstLast (back : List Nat) (value : Nat) :
    gather (value :: back) (List.range' 1 back.length ++ [0]) = back ++ [value] := by
  have behind := gather_middle [value] back []
  rw [List.append_nil, List.length_singleton, List.singleton_append] at behind
  rw [gather_append, behind]
  rfl

theorem lastFirst_permutes (rank : Nat) : Permutes (rank + 1) (rank :: List.range rank) := by
  unfold Permutes
  rw [List.range_succ]
  exact (List.perm_append_singleton _ _).symm

theorem firstLast_permutes (rank : Nat) : Permutes (rank + 1) (List.range' 1 rank ++ [0]) := by
  unfold Permutes
  rw [List.range_eq_range', List.range'_succ]
  exact List.perm_append_singleton _ _

theorem inverse_lastFirst (rank : Nat) : inverse (rank :: List.range rank) = List.range' 1 rank ++ [0] := by
  refine inverse_unique (lastFirst_permutes rank) (firstLast_permutes rank) ?_
  have moved := gather_firstLast (List.range rank) rank
  rw [List.length_range] at moved
  rw [moved, List.range_succ]

theorem inverse_firstLast (rank : Nat) : inverse (List.range' 1 rank ++ [0]) = rank :: List.range rank := by
  refine inverse_unique (firstLast_permutes rank) (lastFirst_permutes rank) ?_
  have moved := gather_lastFirst (List.range' 1 rank) 0
  rw [List.length_range'] at moved
  rw [moved, List.range_eq_range', List.range'_succ]

variable {R : Type} (tensor : Tensor R)

theorem trailingToLeading_spec (front : List Nat) (last : Nat) (shape : tensor.shape = front ++ [last]) :
    ∃ moved, transposeTrailingToLeading tensor = some moved ∧ moved.shape = last :: front ∧
      ∀ index part, index.length = front.length → moved.get (part :: index) = tensor.get (index ++ [part]) := by
  have rank : tensor.shape.length - 1 = front.length := by simp [shape]
  have newShape : tensor.shape.getD front.length 0 :: (List.range front.length).map (tensor.shape.getD · 0) =
      last :: front := by
    have moved := gather_lastFirst front last
    rwa [← shape] at moved
  refine ⟨tensor.permute (front.length :: List.range front.length), ?_, newShape, fun index part length => ?_⟩
  · change (Op.transpose ((tensor.shape.length - 1) :: List.range (tensor.shape.length - 1)) _).run [tensor] = _
    rw [rank]
    apply Op.run_cons
    simp only [List.map_cons, List.map_nil, Op.verify, decide_eq_true_eq]
    exact ⟨by simpa [shape] using lastFirst_permutes front.length, rfl⟩
  · change tensor.get (gather (part :: index) (inverse _)) = _
    rw [inverse_lastFirst, ← length, gather_firstLast]

theorem leadingToTrailing_spec (first : Nat) (back : List Nat) (shape : tensor.shape = first :: back) :
    ∃ moved, transposeLeadingToTrailing tensor = some moved ∧ moved.shape = back ++ [first] ∧
      ∀ index part, index.length = back.length → moved.get (index ++ [part]) = tensor.get (part :: index) := by
  have rank : tensor.shape.length - 1 = back.length := by simp [shape]
  have newShape : (List.range' 1 back.length).map (tensor.shape.getD · 0) ++ [tensor.shape.getD 0 0] =
      back ++ [first] := by
    have moved := gather_firstLast back first
    rw [gather_append, ← shape] at moved
    exact moved
  refine ⟨tensor.permute (List.range' 1 back.length ++ [0]), ?_, ?_, fun index part length => ?_⟩
  · change (Op.transpose (List.range' 1 (tensor.shape.length - 1) ++ [0]) _).run [tensor] = _
    rw [rank]
    apply Op.run_cons
    simp only [List.map_cons, List.map_nil, Op.verify, decide_eq_true_eq]
    refine ⟨by simpa [shape] using firstLast_permutes back.length, ?_⟩
    rw [gather_append]
    rfl
  · change gather tensor.shape _ = _
    rw [shape, gather_firstLast]
  · change tensor.get (gather (index ++ [part]) (inverse _)) = _
    rw [inverse_firstLast, ← length, gather_lastFirst]

end Transpose

section Components
variable {R : Type}

theorem reshape_drop_get (tensor : Tensor R) (shape index : List Nat) (inside : Inside shape index)
    (unit : tensor.shape = 1 :: shape) : (tensor.reshape shape).get index = tensor.get (0 :: index) := by
  refine Tensor.reshape_get tensor shape index (0 :: index) ?_ ?_
  · rw [unit]
    exact List.Forall₂.cons Nat.one_pos inside
  · rw [unit, flatten, Nat.zero_mul, Nat.zero_add]

theorem reshape_unit_get (tensor : Tensor R) (index : List Nat) (inside : Inside tensor.shape index) :
    (tensor.reshape (1 :: tensor.shape)).get (0 :: index) = tensor.get index := by
  refine Tensor.reshape_get tensor _ _ index inside ?_
  rw [flatten, Nat.zero_mul, Nat.zero_add]

theorem slice_part (tensor : Tensor R) (offset : Nat) (shape : List Nat) :
    let part := tensor.slice (offset :: List.replicate shape.length 0) ((offset + 1) :: shape)
      (1 :: List.replicate shape.length 1)
    part.shape = 1 :: shape ∧ ∀ index, Inside shape index → part.get (0 :: index) = tensor.get (offset :: index) := by
  refine ⟨?_, fun index inside => ?_⟩
  · change ((offset + 1 - offset + 1 - 1) / 1) :: List.zipWith _ (List.zipWith _ _ _) _ = _
    rw [show (offset + 1 - offset + 1 - 1) / 1 = 1 by omega]
    exact congrArg (1 :: ·) (Tensor.slice_from_start tensor shape)
  · change tensor.get ((offset + 0 * 1) :: _) = _
    rw [Nat.zero_mul, Nat.add_zero]
    exact Tensor.slice_from_start_get ⟨shape, fun rest => tensor.get (offset :: rest)⟩ shape index inside

theorem realImag_spec (operand : Tensor (ComplexElement R)) (offset : Nat) (part : offset < 2) :
    ∃ converted, realImagToDecomposed offset (encode operand) operand.shape = some converted ∧
      Same converted { shape := operand.shape, get := fun index => (operand.get index).component offset } := by
  obtain ⟨transposed, ran, shape, values⟩ := trailingToLeading_spec (encode operand) operand.shape 2 rfl
  obtain ⟨sliced, parts⟩ := slice_part transposed offset operand.shape
  have accepted : (Op.slice (offset :: List.replicate operand.shape.length 0) ((offset + 1) :: operand.shape)
      (1 :: List.replicate operand.shape.length 1) (1 :: operand.shape)).verify [transposed.shape] = true := by
    simp only [Op.verify, decide_eq_true_eq, shape]
    refine ⟨by simp, by simp, by simp, fun dim inside => ?_, sliced.symm⟩
    cases dim with
    | zero => exact ⟨Nat.le_succ offset, part, Nat.one_pos⟩
    | succ dim =>
        rw [List.length_cons, Nat.add_lt_add_iff_right] at inside
        simp only [List.getD_cons_succ]
        rw [List.getD_eq_getElem _ _ (by rwa [List.length_replicate]), List.getElem_replicate,
          List.getD_eq_getElem (List.replicate _ 1) _ (by rwa [List.length_replicate]), List.getElem_replicate]
        exact ⟨Nat.zero_le _, le_rfl, Nat.one_pos⟩
  have squeezed : (Op.reshape operand.shape).verify [1 :: operand.shape] = true := by
    simp [Op.verify]
  refine ⟨(transposed.slice (offset :: List.replicate operand.shape.length 0) ((offset + 1) :: operand.shape)
    (1 :: List.replicate operand.shape.length 1)).reshape operand.shape, ?_, rfl, fun index inside => ?_⟩
  · have slices := Op.run_cons _ transposed [] accepted
    have reshapes := Op.run_cons (Op.reshape operand.shape) (transposed.slice
      (offset :: List.replicate operand.shape.length 0) ((offset + 1) :: operand.shape)
      (1 :: List.replicate operand.shape.length 1)) [] (by rw [List.map_singleton, sliced]; exact squeezed)
    simp only [realImagToDecomposed, ran, Option.bind_eq_bind, Option.bind_some, shape, List.length_cons,
      List.replicate_succ, List.set_cons_zero, slices]
    exact reshapes
  · rw [reshape_drop_get _ operand.shape index inside sliced, parts index inside, values index offset inside.length,
      encode_get]

theorem concat_pair_get (lhs rhs : Tensor R) (shape : lhs.shape = rhs.shape) (part : Nat) (below : part < 2)
    (index : List Nat) (inside : Inside lhs.shape index) :
    ((Op.concatenate 0 (2 :: lhs.shape)).value (lhs.reshape (1 :: lhs.shape))
      [rhs.reshape (1 :: lhs.shape)]).get (part :: index) = (⟨lhs.get index, rhs.get index⟩ : ComplexElement R).component part := by
  obtain rfl | rfl : part = 0 ∨ part = 1 := by omega
  · exact reshape_unit_get lhs index inside
  · have unit := reshape_unit_get rhs index (shape ▸ inside)
    rw [← shape] at unit
    exact unit

theorem complex_spec (lhs rhs : Tensor R) (shape : lhs.shape = rhs.shape) :
    ∃ converted, complexToDecomposed lhs rhs = some converted ∧
      Same converted (encode { shape := lhs.shape, get := fun index => ⟨lhs.get index, rhs.get index⟩ }) := by
  have unsqueezed : (Op.reshape (1 :: lhs.shape)).verify [lhs.shape] = true := by simp [Op.verify]
  have reshapesLhs := Op.run_cons (Op.reshape (1 :: lhs.shape)) lhs [] unsqueezed
  have reshapesRhs := Op.run_cons (Op.reshape (1 :: lhs.shape)) rhs [] (shape ▸ unsqueezed)
  have concatenates := Op.run_cons (Op.concatenate 0 (2 :: lhs.shape)) (lhs.reshape (1 :: lhs.shape))
    [rhs.reshape (1 :: lhs.shape)] (by simp [Op.verify, Tensor.reshape, Op.concatShape, stackedExtent, List.range_succ])
  obtain ⟨converted, ran, result, values⟩ := leadingToTrailing_spec
    ((Op.concatenate 0 (2 :: lhs.shape)).value (lhs.reshape (1 :: lhs.shape)) [rhs.reshape (1 :: lhs.shape)])
    2 lhs.shape (by simp [Op.value, Tensor.concat, Tensor.reshape, stackedExtent, List.range_succ])
  refine ⟨converted, ?_, same_encode _ result fun index part inside below => ?_⟩
  · simp only [complexToDecomposed, Option.bind_eq_bind, reshapesLhs, reshapesRhs, Option.bind_some, concatenates,
      Op.value]
    exact ran
  · rw [values index part inside.length]
    exact concat_pair_get lhs rhs shape part below index inside

theorem floatValues_getD [Inhabited R] (values : List (ComplexElement R)) (position part : Nat)
    (inside : position < values.length) (below : part < 2) :
    (floatValues values).getD (position * 2 + part) default = (values.getD position default).component part := by
  induction values generalizing position with
  | nil => cases inside
  | cons value rest ih =>
      cases position with
      | zero =>
          obtain rfl | rfl : part = 0 ∨ part = 1 := by omega
          · rfl
          · rfl
      | succ position =>
          rw [show (position + 1) * 2 + part = position * 2 + part + 1 + 1 by omega]
          exact ih position (by simpa using inside)

theorem constant_spec [Inhabited R] (shape : List Nat) (values : List (ComplexElement R))
    (size : values.length = shape.prod) :
    (floatValues values).length = (convertType shape).prod ∧
      Same (constant (convertType shape) (floatValues values)) (encode (constant shape values)) := by
  constructor
  · rw [floatValues, List.length_flatMap, convertType, List.prod_append, ← size]
    simp
  · refine same_encode _ rfl fun index part inside below => ?_
    have position := flatten_lt shape index inside
    have flat : flatten (convertType shape) (index ++ [part]) = flatten shape index * 2 + part := by
      rw [convertType, flatten_append shape _ _ _ inside.length]
      simp [flatten]
    change (floatValues values).getD (flatten (convertType shape) (index ++ [part])) default = _
    rw [flat, floatValues_getD values _ part (by omega) below]
    rfl

end Components

section Data
variable {R : Type}

def Converts (op newOp : Op) (operand : Tensor (ComplexElement R)) (rest : List (Tensor (ComplexElement R))) : Prop :=
  newOp.verify ((encode operand :: rest.map encode).map Tensor.shape) = true ∧
    Same (newOp.value (encode operand) (rest.map encode)) (encode (op.value operand rest))

theorem reshape_converts (resultShape : List Nat) (operand : Tensor (ComplexElement R))
    (accepted : (Op.reshape resultShape).verify [operand.shape] = true) :
    Converts (.reshape resultShape) (.reshape (convertType resultShape)) operand [] := by
  have volume : operand.shape.prod = resultShape.prod := by simpa [Op.verify] using accepted
  refine ⟨?_, same_encode _ rfl fun index part inside below => ?_⟩
  · simp [Op.verify, encode_shape, convertType, volume]
  · have trailing : Inside [2] [part] := List.Forall₂.cons below List.Forall₂.nil
    have read := Tensor.reshape_append_get (encode operand) operand.shape [2] resultShape [2] index [part]
      (encode_shape operand) rfl inside.length trailing
    rw [unflatten_flatten _ _ trailing, encode_get] at read
    exact read

theorem slice_converts (starts limits strides resultShape : List Nat) (operand : Tensor (ComplexElement R))
    (accepted : (Op.slice starts limits strides resultShape).verify [operand.shape] = true) :
    Converts (.slice starts limits strides resultShape)
      (.slice (starts ++ [0]) (limits ++ [2]) (strides ++ [1]) (convertType resultShape)) operand [] := by
  simp only [Op.verify, decide_eq_true_eq] at accepted
  obtain ⟨startsLength, limitsLength, stridesLength, bounds, rfl⟩ := accepted
  have shape : Op.slicedShape (starts ++ [0]) (limits ++ [2]) (strides ++ [1]) =
      convertType (Op.slicedShape starts limits strides) := by
    unfold Op.slicedShape convertType
    rw [List.zipWith_append (by omega), List.zipWith_append (by simp; omega)]
    rfl
  refine ⟨?_, same_encode _ shape fun index part inside below => ?_⟩
  · simp only [List.map_cons, List.map_nil, Op.verify, decide_eq_true_eq, encode_shape, List.length_append,
      List.length_singleton]
    refine ⟨by omega, by omega, by omega, forall_dims (fun dim before => ?_) ?_, shape.symm⟩
    · rw [getD_front starts _ _ (by omega), getD_front limits _ _ (by omega), getD_front strides _ _ (by omega),
        getD_front _ _ _ before]
      exact bounds dim before
    · have start := getD_last starts 0
      have limit := getD_last limits 2
      have stride := getD_last strides 1
      rw [startsLength] at start
      rw [limitsLength] at limit
      rw [stridesLength] at stride
      rw [start, limit, stride, getD_last]
      omega
  · have length : index.length = operand.shape.length := by
      have count : (Op.slicedShape starts limits strides).length = operand.shape.length := by
        simp [Op.slicedShape, startsLength, limitsLength, stridesLength]
      exact inside.length.trans count
    change (encode operand).get (List.zipWith (· + ·) (starts ++ [0])
      (List.zipWith (· * ·) (index ++ [part]) (strides ++ [1]))) = _
    rw [List.zipWith_append (by omega), List.zipWith_append (by simp; omega)]
    simp only [List.zipWith_cons_cons, List.zipWith_nil_left, Nat.mul_one, Nat.zero_add]
    exact encode_get operand _ part

theorem broadcast_converts (dims resultShape : List Nat) (operand : Tensor (ComplexElement R))
    (accepted : (Op.broadcastInDim dims resultShape).verify [operand.shape] = true) :
    Converts (.broadcastInDim dims resultShape)
      (.broadcastInDim (dims ++ [(convertType resultShape).length - 1]) (convertType resultShape)) operand [] := by
  simp only [Op.verify, decide_eq_true_eq] at accepted
  obtain ⟨dimsLength, unique, range, extents⟩ := accepted
  have newDim : (convertType resultShape).length - 1 = resultShape.length := by simp [convertType]
  have dimInside : ∀ dim < operand.shape.length, dims.getD dim 0 < resultShape.length := fun dim before => by
    rw [List.getD_eq_getElem _ _ (by omega)]
    exact range _ (List.getElem_mem _)
  rw [newDim]
  refine ⟨?_, same_encode _ rfl fun index part inside below => ?_⟩
  · simp only [List.map_cons, List.map_nil, Op.verify, decide_eq_true_eq, encode_shape, List.length_append,
      List.length_singleton, convertType]
    refine ⟨by omega, ?_, ?_, forall_dims (fun dim before => ?_) ?_⟩
    · refine List.nodup_append.mpr ⟨unique, List.nodup_singleton _, fun dim member other single => ?_⟩
      have before := range dim member
      have last := List.mem_singleton.mp single
      omega
    · intro dim member
      rcases List.mem_append.mp member with old | new
      · exact Nat.lt_succ_of_lt (range dim old)
      · rw [List.mem_singleton.mp new]
        exact Nat.lt_succ_self _
    · rw [getD_front _ _ _ before, getD_front dims _ _ (by omega), getD_front _ _ _ (dimInside dim before)]
      exact extents dim before
    · have last := getD_last dims resultShape.length
      rw [dimsLength] at last
      rw [last, getD_last, getD_last]
      exact .inr rfl
  · have length : index.length = resultShape.length := inside.length
    have read : Op.broadcastIndex (encode operand).shape (dims ++ [resultShape.length]) (index ++ [part]) =
        Op.broadcastIndex operand.shape dims index ++ [part] := by
      unfold Op.broadcastIndex
      rw [encode_shape, List.length_append, List.length_singleton, List.range_succ, List.map_append, List.map_singleton]
      congr 1
      · refine List.map_congr_left fun dim member => ?_
        have before := List.mem_range.mp member
        have inner := dimInside dim before
        rw [getD_front _ _ _ before, getD_front dims _ _ (by omega), getD_front index _ _ (by omega)]
      · have last := getD_last dims resultShape.length
        have entry := getD_last index part
        rw [dimsLength] at last
        rw [length] at entry
        rw [getD_last, last, entry, if_neg (by omega)]
    change (encode operand).get (Op.broadcastIndex (encode operand).shape (dims ++ [resultShape.length])
      (index ++ [part])) = _
    rw [read]
    exact encode_get operand _ part

theorem concatShape_eq {α : Type} (dimension : Nat) (operand : Tensor α) (rest : List (Tensor α)) :
    Op.concatShape dimension operand.shape ((operand :: rest).map Tensor.shape) =
      (Tensor.concat (rest.length + 1) (fun number => (operand :: rest).getD number operand) dimension).shape := by
  have shapes : (fun number => ((operand :: rest).map Tensor.shape).getD number operand.shape) =
      fun number => ((operand :: rest).getD number operand).shape := funext fun number => List.getD_map _ _ Tensor.shape
  simp only [Op.concatShape, shapes, List.length_map, List.length_cons]
  rfl

theorem concat_encode (count dim : Nat) (parts : Nat → Tensor (ComplexElement R)) (some : 0 < count)
    (known : ∀ number < count, dim < (parts number).shape.length) :
    Same (Tensor.concat count (fun number => encode (parts number)) dim) (encode (Tensor.concat count parts dim)) := by
  have extents : ∀ number < count, (encode (parts number)).extent dim = (parts number).extent dim :=
    fun number below => getD_front _ 2 dim (known number below)
  refine same_encode _ ?_ fun index part inside below => ?_
  · change ((parts 0).shape ++ [2]).set dim (stackedExtent count (fun number => (encode (parts number)).shape) dim) =
      (parts 0).shape.set dim (stackedExtent count (fun number => (parts number).shape) dim) ++ [2]
    rw [stackedExtent_congr count _ _ dim dim extents, List.set_append_left _ _ (known 0 some)]
  · have length : index.length = (parts 0).shape.length := inside.length.trans List.length_set
    have inner : dim < index.length := length ▸ known 0 some
    have found : Tensor.partOf count (fun number => encode (parts number)) dim (index ++ [part]) =
        Tensor.partOf count parts dim index := by
      unfold Tensor.partOf
      rw [getD_front _ _ _ inner]
      exact locate_congr _ _ 0 count _ fun number before => extents number (by omega)
    rw [Tensor.concat_get, Tensor.concat_get, found, List.set_append_left _ _ inner, encode_get]

theorem concatenate_converts (dimension : Nat) (resultShape : List Nat) (operand : Tensor (ComplexElement R))
    (rest : List (Tensor (ComplexElement R)))
    (accepted : (Op.concatenate dimension resultShape).verify ((operand :: rest).map Tensor.shape) = true) :
    Converts (.concatenate dimension resultShape) (.concatenate dimension (convertType resultShape)) operand rest := by
  simp only [List.map_cons, Op.verify, decide_eq_true_eq] at accepted
  obtain ⟨known, stacked, result⟩ := accepted
  have known_all : ∀ tensor ∈ operand :: rest, dimension < tensor.shape.length := fun tensor member => by
    rw [stacked tensor.shape (List.mem_map_of_mem member), List.length_set]
    exact known
  have parts : (fun number => (encode operand :: rest.map encode).getD number (encode operand)) =
      fun number => encode ((operand :: rest).getD number operand) := funext fun number => by
    rw [← List.map_cons, List.getD_map]
  have same := concat_encode (rest.length + 1) dimension (fun number => (operand :: rest).getD number operand)
    (Nat.succ_pos _) fun number below => by
      rw [List.getD_eq_getElem _ _ below]
      exact known_all _ (List.getElem_mem _)
  rw [← parts] at same
  have whole := concatShape_eq dimension (encode operand) (rest.map encode)
  rw [List.length_map, same.1] at whole
  refine ⟨?_, ?_⟩
  · simp only [List.map_cons, Op.verify, decide_eq_true_eq]
    refine ⟨?_, fun shape member => ?_, ?_⟩
    · rw [encode_shape, List.length_append]
      omega
    · obtain ⟨tensor, tensorIn, rfl⟩ : ∃ tensor ∈ operand :: rest, (encode tensor).shape = shape := by
        rcases List.mem_cons.mp member with rfl | later
        · exact ⟨operand, List.mem_cons_self, rfl⟩
        · obtain ⟨unpacked, unpackedIn, rfl⟩ := List.mem_map.mp later
          obtain ⟨tensor, tensorIn, rfl⟩ := List.mem_map.mp unpackedIn
          exact ⟨tensor, List.mem_cons_of_mem _ tensorIn, rfl⟩
      have complex_shape := stacked tensor.shape (List.mem_map_of_mem tensorIn)
      rw [encode_shape, encode_shape, getD_front _ _ _ (known_all tensor tensorIn),
        List.set_append_left _ _ known, ← complex_shape]
    · rw [← List.map_cons, whole, result, ← List.map_cons, concatShape_eq]
      rfl
  · change Same (Tensor.concat ((rest.map encode).length + 1) _ dimension) _
    rw [List.length_map]
    exact same

theorem gather_converts (startIndices : Tensor Int) (numbers : GatherDimensionNumbers) (sliceSizes : List Nat)
    (indicesAreSorted : Bool) (resultShape : List Nat) (operand : Tensor (ComplexElement R))
    (accepted : (Op.gather startIndices numbers sliceSizes indicesAreSorted resultShape).verify [operand.shape] = true) :
    Converts (.gather startIndices numbers sliceSizes indicesAreSorted resultShape)
      (.gather startIndices (numbers.withTrailing ((convertType resultShape).length - 1)) (sliceSizes ++ [2])
        indicesAreSorted (convertType resultShape)) operand [] := by
  have verified : numbers.Verified operand.shape startIndices.shape sliceSizes resultShape := of_decide_eq_true accepted
  have newDim : (convertType resultShape).length - 1 = resultShape.length := by simp [convertType]
  rw [newDim]
  refine ⟨decide_eq_true verified.withTrailing, same_encode _ rfl fun index part inside below => ?_⟩
  have read := verified.operandIndex_succ startIndices index part inside.length
  change (encode operand).get ((numbers.withTrailing resultShape.length).operandIndex (operand.shape ++ [2])
    (sliceSizes ++ [2]) startIndices (index ++ [part])) = _
  rw [read]
  exact encode_get operand _ part

/-- Every operation that the pass rewrites is accepted and computes the unpacked result. -/
theorem convert_converts (op newOp : Op) (operand : Tensor (ComplexElement R))
    (rest : List (Tensor (ComplexElement R))) (rewritten : op.convert = some newOp)
    (accepted : op.verify ((operand :: rest).map Tensor.shape) = true) : Converts op newOp operand rest := by
  cases op with
  | concatenate dimension resultShape =>
      obtain rfl := Option.some.inj rewritten
      exact concatenate_converts dimension resultShape operand rest accepted
  | transpose permutation resultShape => cases rewritten
  | reshape resultShape =>
      obtain rfl := Option.some.inj rewritten
      cases rest with
      | nil => exact reshape_converts resultShape operand accepted
      | cons => cases accepted
  | slice starts limits strides resultShape =>
      obtain rfl := Option.some.inj rewritten
      cases rest with
      | nil => exact slice_converts starts limits strides resultShape operand accepted
      | cons => cases accepted
  | broadcastInDim dims resultShape =>
      obtain rfl := Option.some.inj rewritten
      cases rest with
      | nil => exact broadcast_converts dims resultShape operand accepted
      | cons => cases accepted
  | gather startIndices numbers sliceSizes indicesAreSorted resultShape =>
      obtain rfl := Option.some.inj rewritten
      cases rest with
      | nil => exact gather_converts startIndices numbers sliceSizes indicesAreSorted resultShape operand accepted
      | cons => cases accepted

theorem data_spec (op : Op) (operands : List (Tensor (ComplexElement R))) (result : Tensor (ComplexElement R))
    (rewrites : op.convert.isSome) (ran : op.run operands = some result) :
    ∃ newOp converted, op.convert = some newOp ∧ newOp.run (operands.map encode) = some converted ∧
      Same converted (encode result) := by
  obtain ⟨newOp, rewritten⟩ := Option.isSome_iff_exists.mp rewrites
  cases operands with
  | nil => cases ran
  | cons operand rest =>
      by_cases accepted : op.verify ((operand :: rest).map Tensor.shape) = true
      · rw [op.run_cons operand rest accepted] at ran
        obtain rfl := Option.some.inj ran
        obtain ⟨verifies, same⟩ := convert_converts op newOp operand rest rewritten accepted
        exact ⟨newOp, _, rewritten, newOp.run_cons _ _ verifies, same⟩
      · rw [Op.run, if_neg accepted] at ran
        cases ran

end Data

/-- For each operation that the pass rewrites and whose verifier accepts it: the operations in its
place are accepted, their dim numbers among it, and on unpacked operands they compute the unpacked
result, or the plain component for `real` and `imag`. -/
theorem conversion_homomorphism [Inhabited R] (op : ComplexOp R) (result : Tensor R)
    (expected : op.expected = some result) :
    ∃ converted, op.converted = some converted ∧ Same converted result := by
  cases op with
  | complex lhs rhs =>
      rw [ComplexOp.expected] at expected
      split at expected
      next shape =>
        obtain rfl := Option.some.inj expected
        exact complex_spec lhs rhs shape
      next => cases expected
  | real operand =>
      obtain rfl := Option.some.inj expected
      exact realImag_spec operand 0 (by omega)
  | imag operand =>
      obtain rfl := Option.some.inj expected
      exact realImag_spec operand 1 (by omega)
  | constant shape values =>
      rw [ComplexOp.expected] at expected
      split at expected
      next size =>
        obtain rfl := Option.some.inj expected
        obtain ⟨newSize, same⟩ := constant_spec shape values size
        exact ⟨_, if_pos newSize, same⟩
      next => cases expected
  | data op operands =>
      rw [ComplexOp.expected] at expected
      split at expected
      next rewrites =>
        obtain ⟨complexResult, ran, rfl⟩ := Option.map_eq_some_iff.mp expected
        obtain ⟨newOp, converted, rewritten, newRan, same⟩ := data_spec op operands complexResult rewrites ran
        refine ⟨converted, ?_, same⟩
        rw [ComplexOp.converted, rewritten]
        exact newRan
      next => cases expected

def gatherRows : ComplexOp Int :=
  .data (.gather ⟨[2, 1], fun index => if index = [0, 0] then 2 else 0⟩ ⟨[1], [0], [], [], [0], 1⟩ [1, 4] false [2, 4])
    [⟨[3, 4], fun index => ⟨index.getD 0 0, index.getD 1 0⟩⟩]

theorem gatherRows_homomorphism : ∃ result converted, gatherRows.expected = some result ∧
    gatherRows.converted = some converted ∧ Same converted result := by
  obtain ⟨result, expected⟩ := Option.isSome_iff_exists.mp (show gatherRows.expected.isSome = true by decide)
  obtain ⟨converted, ran, same⟩ := conversion_homomorphism gatherRows result expected
  exact ⟨result, converted, expected, ran, same⟩

end TtMlir.Stablehlo
