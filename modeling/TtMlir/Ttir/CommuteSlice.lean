import TtMlir.Ttir.SliceConcat

/-!
Slices dim by dim: what a slice takes, that it commutes with permuting the dims
together with its attributes, and with a reshape of dims that it takes whole.
-/

namespace TtMlir.Ttir.SliceConcat

open Tensor
open ReduceCommute (normalized)

section Dims

theorem place_lt {attrs : SliceDim} {dimSize position : Nat} (verified : attrs.verify dimSize)
    (inside : position < attrs.expectedDimSize dimSize) : attrs.place dimSize position < dimSize := by
  obtain ⟨range, nonzero, forwards, backwards⟩ := verified
  unfold SliceDim.expectedDimSize at inside
  unfold SliceDim.place
  generalize normalized dimSize attrs.begins = first at *
  generalize normalized dimSize attrs.ends = last at *
  have stepPos : 0 < |attrs.step| := abs_pos.mpr nonzero
  have room : (position : Int) * |attrs.step| < |last - first| := by
    have below : (position : Int) + 1 ≤ (|last - first| + |attrs.step| - 1) / |attrs.step| := by omega
    rw [Int.le_ediv_iff_mul_le stepPos, Int.add_mul] at below
    omega
  have travelled : (0 : Int) ≤ position * |attrs.step| :=
    Int.mul_nonneg (Int.natCast_nonneg _) (abs_nonneg _)
  rcases lt_or_gt_of_ne nonzero with backward | forward
  · have order := backwards backward
    rw [abs_of_neg backward, abs_of_nonpos (by omega), Int.mul_neg] at room
    rw [abs_of_neg backward, Int.mul_neg] at travelled
    omega
  · have order := forwards forward
    rw [abs_of_pos forward, abs_of_nonneg (by omega)] at room
    rw [abs_of_pos forward] at travelled
    omega

theorem expectedDimSize_zero {attrs : SliceDim} (verified : attrs.verify 0) : attrs.expectedDimSize 0 = 0 := by
  by_contra some
  exact absurd (place_lt verified (Nat.pos_of_ne_zero some)) (Nat.not_lt_zero _)

section
variable {attrs : SliceDim} {dimSize : Nat} (whole : isSliced attrs dimSize = false)
include whole

theorem expectedDimSize_unsliced :
    attrs.expectedDimSize dimSize = dimSize := by
  simp only [isSliced, decide_eq_false_iff_not, not_or, not_not] at whole
  obtain ⟨first, last, step⟩ := whole
  simp [SliceDim.expectedDimSize, first, last, step]

theorem place_unsliced (position : Nat) :
    attrs.place dimSize position = position := by
  simp only [isSliced, decide_eq_false_iff_not, not_or, not_not] at whole
  obtain ⟨first, -, step⟩ := whole
  simp [SliceDim.place, first, step]

theorem verify_unsliced :
    attrs.verify dimSize := by
  simp only [isSliced, decide_eq_false_iff_not, not_or, not_not] at whole
  obtain ⟨first, last, step⟩ := whole
  simp only [SliceDim.verify, first, last, step]
  omega

end

end Dims

section Lists

theorem slicedShape_length {attrs : List SliceDim} {shape : List Nat} (length : attrs.length = shape.length) :
    (slicedShape attrs shape).length = shape.length := by
  induction attrs generalizing shape with
  | nil =>
      cases shape with
      | nil => rfl
      | cons _ _ => cases length
  | cons head attrs ih =>
      cases shape with
      | nil => cases length
      | cons dimSize shape =>
          rw [slicedShape, List.length_cons, ih (Nat.succ.inj length), List.length_cons]

theorem slicedShape_append (front back : List SliceDim) (left right : List Nat) (length : front.length = left.length) :
    slicedShape (front ++ back) (left ++ right) = slicedShape front left ++ slicedShape back right := by
  induction front generalizing left with
  | nil => rw [List.length_eq_zero_iff.mp length.symm]; rfl
  | cons head front ih =>
      cases left with
      | nil => cases length
      | cons dimSize left =>
          rw [List.cons_append, List.cons_append, slicedShape, slicedShape, ih left (Nat.succ.inj length),
            List.cons_append]

theorem slicedIndex_append (front back : List SliceDim) (left right outer inner : List Nat)
    (length : front.length = left.length) (outerLength : outer.length = left.length) :
    slicedIndex (front ++ back) (left ++ right) (outer ++ inner) =
      slicedIndex front left outer ++ slicedIndex back right inner := by
  induction front generalizing left outer with
  | nil =>
      rw [List.length_eq_zero_iff.mp length.symm, List.length_nil, List.length_eq_zero_iff] at *
      subst outerLength
      rfl
  | cons head front ih =>
      cases left with
      | nil => cases length
      | cons dimSize left =>
          cases outer with
          | nil => cases outerLength
          | cons position outer =>
              rw [List.cons_append, List.cons_append, List.cons_append, slicedIndex, slicedIndex,
                ih left outer (Nat.succ.inj length) (Nat.succ.inj outerLength), List.cons_append]

theorem slicedIndex_inside {attrs : List SliceDim} {shape index : List Nat} (verified : VerifiedDims attrs shape)
    (inside : Inside (slicedShape attrs shape) index) : Inside shape (slicedIndex attrs shape index) := by
  induction verified generalizing index with
  | nil =>
      cases inside
      exact List.Forall₂.nil
  | cons here _ ih =>
      cases inside with
      | cons below rest => exact List.Forall₂.cons (place_lt here below) (ih rest)

theorem slicedShape_empty {attrs : List SliceDim} {shape : List Nat} (verified : VerifiedDims attrs shape)
    (empty : 0 ∈ shape) : 0 ∈ slicedShape attrs shape := by
  induction verified with
  | nil => cases empty
  | cons here _ ih =>
      rw [slicedShape]
      rcases List.mem_cons.mp empty with first | later
      · subst first
        rw [expectedDimSize_zero here]
        exact List.mem_cons_self
      · exact List.mem_cons_of_mem _ (ih later)

def Unsliced : List SliceDim → List Nat → Prop := List.Forall₂ fun attrs dimSize => isSliced attrs dimSize = false

theorem Unsliced.shape {attrs : List SliceDim} {shape : List Nat} (whole : Unsliced attrs shape) :
    slicedShape attrs shape = shape := by
  induction whole with
  | nil => rfl
  | cons here _ ih => rw [slicedShape, expectedDimSize_unsliced here, ih]

theorem Unsliced.index {attrs : List SliceDim} {shape : List Nat} (whole : Unsliced attrs shape) {index : List Nat}
    (length : index.length = shape.length) : slicedIndex attrs shape index = index := by
  induction whole generalizing index with
  | nil =>
      rw [List.length_eq_zero_iff.mp length]
      rfl
  | cons here _ ih =>
      cases index with
      | nil => cases length
      | cons position index => rw [slicedIndex, place_unsliced here, ih (Nat.succ.inj length)]

theorem Unsliced.verified {attrs : List SliceDim} {shape : List Nat} (whole : Unsliced attrs shape) :
    VerifiedDims attrs shape := whole.imp fun _ _ => verify_unsliced

def wholeDims (shape : List Nat) : List SliceDim := shape.map fun dimSize => ⟨0, (dimSize : Nat), 1⟩

theorem wholeDims_unsliced (shape : List Nat) : Unsliced (wholeDims shape) shape := by
  unfold wholeDims Unsliced
  rw [List.forall₂_map_left_iff]
  refine List.forall₂_same.mpr fun dimSize _ => ?_
  simp [isSliced, normalized]

end Lists

section Reshape
variable {α : Type}

theorem slice_reshape (tensor : Tensor α) {front front' back : List SliceDim} {left left' right : List Nat}
    (shape : tensor.shape = left ++ right) (whole : Unsliced front left) (whole' : Unsliced front' left')
    (verified : VerifiedDims back right) :
    Same (sliceStatic (front' ++ back) (tensor.reshape (left' ++ right)))
      ((sliceStatic (front ++ back) tensor).reshape (left' ++ slicedShape back right)) := by
  have length := List.Forall₂.length_eq whole
  have length' := List.Forall₂.length_eq whole'
  have newShape : (sliceStatic (front' ++ back) (tensor.reshape (left' ++ right))).shape =
      left' ++ slicedShape back right := by
    change slicedShape (front' ++ back) (left' ++ right) = _
    rw [slicedShape_append _ _ _ _ length', whole'.shape]
  have oldShape : (sliceStatic (front ++ back) tensor).shape = left ++ slicedShape back right := by
    change slicedShape (front ++ back) tensor.shape = _
    rw [shape, slicedShape_append _ _ _ _ length, whole.shape]
  constructor
  · exact newShape
  · intro index inside
    rw [newShape] at inside
    obtain ⟨outer, inner, rfl, outerInside, innerInside⟩ := inside.halves
    have read := slicedIndex_inside verified innerInside
    rw [reshape_append_get _ left _ left' _ outer inner oldShape rfl outerInside.length innerInside,
      unflatten_flatten _ _ innerInside]
    change (tensor.reshape (left' ++ right)).get (slicedIndex (front' ++ back) (left' ++ right) (outer ++ inner)) =
      tensor.get (slicedIndex (front ++ back) tensor.shape _)
    rw [slicedIndex_append _ _ _ _ _ _ length' outerInside.length, whole'.index outerInside.length,
      reshape_append_get _ left right left' right outer _ shape rfl outerInside.length read, unflatten_flatten _ _ read,
      shape, slicedIndex_append _ _ _ _ _ _ length (unflatten_length _ _), whole.index (unflatten_length _ _)]

end Reshape

section Permute
variable {rank : Nat} {axes : List Nat}

theorem slicedShape_getD {attrs : List SliceDim} {shape : List Nat} (length : attrs.length = shape.length) (dim : Nat)
    (known : dim < shape.length) : (slicedShape attrs shape).getD dim 0 =
      (attrs.getD dim ⟨0, 0, 1⟩).expectedDimSize (shape.getD dim 0) := by
  induction attrs generalizing shape dim with
  | nil =>
      rw [← length] at known
      cases known
  | cons head attrs ih =>
      cases shape with
      | nil => cases length
      | cons dimSize shape =>
          cases dim with
          | zero => rfl
          | succ dim => exact ih (Nat.succ.inj length) dim (Nat.lt_of_succ_lt_succ known)

theorem slicedIndex_length {attrs : List SliceDim} {shape index : List Nat} (length : attrs.length = shape.length)
    (indexLength : index.length = shape.length) : (slicedIndex attrs shape index).length = shape.length := by
  induction attrs generalizing shape index with
  | nil =>
      rw [← length]
      rfl
  | cons head attrs ih =>
      cases shape with
      | nil => cases length
      | cons dimSize shape =>
          cases index with
          | nil => cases indexLength
          | cons position index =>
              rw [slicedIndex, List.length_cons, ih (Nat.succ.inj length) (Nat.succ.inj indexLength), List.length_cons]

theorem slicedIndex_getD {attrs : List SliceDim} {shape index : List Nat} (length : attrs.length = shape.length)
    (indexLength : index.length = shape.length) (dim : Nat) (known : dim < shape.length) :
    (slicedIndex attrs shape index).getD dim 0 =
      (attrs.getD dim ⟨0, 0, 1⟩).place (shape.getD dim 0) (index.getD dim 0) := by
  induction attrs generalizing shape index dim with
  | nil =>
      rw [← length] at known
      cases known
  | cons head attrs ih =>
      cases shape with
      | nil => cases length
      | cons dimSize shape =>
          cases index with
          | nil => cases indexLength
          | cons position index =>
              cases dim with
              | zero => rfl
              | succ dim => exact ih (Nat.succ.inj length) (Nat.succ.inj indexLength) dim (Nat.lt_of_succ_lt_succ known)

theorem VerifiedDims.getD {attrs : List SliceDim} {shape : List Nat} (verified : VerifiedDims attrs shape) (dim : Nat)
    (known : dim < shape.length) : (attrs.getD dim ⟨0, 0, 1⟩).verify (shape.getD dim 0) := by
  induction verified generalizing dim with
  | nil => cases known
  | cons here _ ih =>
      cases dim with
      | zero => exact here
      | succ dim => exact ih dim (Nat.lt_of_succ_lt_succ known)

theorem applyPermutation_length (attrs : List SliceDim) (axes : List Nat) :
    (applyPermutation attrs axes).length = axes.length := List.length_map _

theorem applyPermutation_getD (attrs : List SliceDim) (axes : List Nat) (position : Nat)
    (inside : position < axes.length) :
    (applyPermutation attrs axes).getD position ⟨0, 0, 1⟩ = attrs.getD (axes.getD position 0) ⟨0, 0, 1⟩ := by
  rw [List.getD_eq_getElem _ _ (by rwa [applyPermutation_length]), List.getD_eq_getElem axes _ inside]
  exact List.getElem_map _

theorem applyPermutation_inverse (attrs : List SliceDim) (permutes : Permutes attrs.length axes) :
    applyPermutation (applyPermutation attrs (inverse axes)) axes = attrs := by
  apply List.ext_getElem
  · rw [applyPermutation_length, permutes.length]
  · intro position inside known
    have below : position < axes.length := by rwa [permutes.length]
    have axis := permutes.getD_lt position known
    have back := permutes.idxOf_getD position known
    rw [← List.getD_eq_getElem _ ⟨0, 0, 1⟩ inside, applyPermutation_getD _ _ _ below,
      applyPermutation_getD _ _ _ (by rwa [inverse_length, permutes.length]), inverse_getD permutes _ axis, back,
      List.getD_eq_getElem _ _ known]

theorem verifiedDims_applyPermutation {attrs : List SliceDim} {shape : List Nat} (verified : VerifiedDims attrs shape)
    (below : ∀ axis ∈ axes, axis < shape.length) : VerifiedDims (applyPermutation attrs axes) (gather shape axes) := by
  unfold VerifiedDims applyPermutation gather
  rw [List.forall₂_map_left_iff, List.forall₂_map_right_iff]
  exact List.forall₂_same.mpr fun axis member => verified.getD axis (below axis member)

theorem slicedShape_applyPermutation {attrs : List SliceDim} {shape : List Nat} (length : attrs.length = shape.length)
    (below : ∀ axis ∈ axes, axis < shape.length) :
    slicedShape (applyPermutation attrs axes) (gather shape axes) = gather (slicedShape attrs shape) axes := by
  have sizes : (applyPermutation attrs axes).length = (gather shape axes).length := by
    rw [applyPermutation_length, gather_length]
  apply ext_getD 0
  · rw [slicedShape_length sizes, gather_length, gather_length]
  · intro position inside
    rw [slicedShape_length sizes, gather_length] at inside
    have axis := below _ (List.getElem_mem inside)
    rw [← List.getD_eq_getElem axes 0 inside] at axis
    rw [slicedShape_getD sizes _ (by rwa [gather_length]), applyPermutation_getD _ _ _ inside,
      gather_getD _ _ _ inside, gather_getD _ _ _ inside, slicedShape_getD length _ axis]

theorem slice_permute {α : Type} (tensor : Tensor α) {attrs : List SliceDim}
    (length : attrs.length = tensor.shape.length)
    (permutes : Permutes tensor.shape.length axes) :
    Same (sliceStatic (applyPermutation attrs axes) (tensor.permute axes))
      ((sliceStatic attrs tensor).permute axes) := by
  have below : ∀ axis ∈ axes, axis < tensor.shape.length := fun axis => (permutes.mem axis).mp
  have sizes : (applyPermutation attrs axes).length = (gather tensor.shape axes).length := by
    rw [applyPermutation_length, gather_length]
  have shape : slicedShape (applyPermutation attrs axes) (gather tensor.shape axes) =
      gather (slicedShape attrs tensor.shape) axes := slicedShape_applyPermutation length below
  constructor
  · exact shape
  · intro index inside
    have indexLength : index.length = tensor.shape.length := by
      rw [inside.length]
      change (slicedShape _ (gather tensor.shape axes)).length = _
      rw [shape, gather_length, permutes.length]
    have indexSizes : index.length = (gather tensor.shape axes).length :=
      by rw [gather_length, permutes.length, indexLength]
    have gatheredLength : (gather index (inverse axes)).length = tensor.shape.length := by
      rw [gather_length, inverse_length, permutes.length]
    change tensor.get (gather (slicedIndex _ (gather tensor.shape axes) index) (inverse axes)) =
      tensor.get (slicedIndex attrs tensor.shape (gather index (inverse axes)))
    congr 1
    apply ext_getD 0
    · rw [gather_length, inverse_length, permutes.length, slicedIndex_length length gatheredLength]
    · intro dim known
      rw [gather_length, inverse_length, permutes.length] at known
      have located := permutes.idxOf_lt dim known
      rw [gather_getD _ _ _ (by rwa [inverse_length, permutes.length]), inverse_getD permutes dim known,
        slicedIndex_getD sizes indexSizes _ (by rwa [gather_length, permutes.length]),
        applyPermutation_getD _ _ _ (by rwa [permutes.length]), gather_getD _ _ _ (by rwa [permutes.length]),
        permutes.getD_idxOf dim known, slicedIndex_getD length gatheredLength dim known,
        gather_getD _ _ _ (by rwa [inverse_length, permutes.length]), inverse_getD permutes dim known]

end Permute

end TtMlir.Ttir.SliceConcat
