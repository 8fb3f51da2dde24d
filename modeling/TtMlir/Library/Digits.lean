import TtMlir.Library.Fiber
import TtMlir.Library.Reshape

/-!
Row-major positions as mixed-radix numbers: dropping dims from an index removes their digits
from its flat position. A digit is an extent and the stride behind it, so shapes of one volume that
drop the same digits have reductions that agree up to a reshape.
-/

namespace TtMlir

open Tensor

def unmasked : List Bool → List Nat → List Nat
  | true :: mask, _ :: values => unmasked mask values
  | false :: mask, value :: values => value :: unmasked mask values
  | _, _ => []

def keptDims (mask : List Bool) : List Nat := (List.range mask.length).filter fun dim => !mask.getD dim false

def maskedDigits : List Bool → List Nat → List (Nat × Nat)
  | true :: mask, extent :: shape => (extent, shape.prod) :: maskedDigits mask shape
  | false :: mask, _ :: shape => maskedDigits mask shape
  | _, _ => []

def removeDigit (flat : Nat) (digit : Nat × Nat) : Nat := flat / (digit.1 * digit.2) * digit.2 + flat % digit.2

def removeDigits (digits : List (Nat × Nat)) (flat : Nat) : Nat := digits.foldl removeDigit flat

section Masks

theorem keptDims_cons (masked : Bool) (mask : List Bool) :
    keptDims (masked :: mask) = (if masked then [] else [0]) ++ (keptDims mask).map (· + 1) := by
  unfold keptDims
  rw [List.length_cons, List.range_succ_eq_map, List.filter_cons, List.filter_map]
  cases masked <;> rfl

theorem gather_keptDims (mask : List Bool) (values : List Nat) (length : mask.length = values.length) :
    gather values (keptDims mask) = unmasked mask values := by
  induction mask generalizing values with
  | nil => rfl
  | cons masked mask ih =>
      cases values with
      | nil => simp at length
      | cons value values =>
          have rest : gather (value :: values) ((keptDims mask).map (· + 1)) = unmasked mask values := by
            rw [← ih values (by simpa using length)]
            simp [gather]
          rw [keptDims_cons]
          cases masked with
          | true => exact rest
          | false =>
              rw [unmasked, ← rest]
              simp [gather]

theorem mem_maskedDigits {mask : List Bool} {shape : List Nat} (length : mask.length = shape.length)
    (digit : Nat × Nat) : digit ∈ maskedDigits mask shape ↔
      ∃ dim < shape.length, mask.getD dim false = true ∧ digit = (shape.getD dim 0, (shape.drop (dim + 1)).prod) := by
  induction mask generalizing shape with
  | nil =>
      obtain rfl := List.length_eq_zero_iff.mp length.symm
      simp [maskedDigits]
  | cons masked mask ih =>
      cases shape with
      | nil => simp at length
      | cons extent shape =>
          have lengths : mask.length = shape.length := by simpa using length
          have rest := ih lengths
          constructor
          · intro member
            have split : (masked = true ∧ digit = (extent, shape.prod)) ∨ digit ∈ maskedDigits mask shape := by
              cases masked <;> simpa [maskedDigits] using member
            rcases split with ⟨here, same⟩ | later
            · exact ⟨0, by simp, by simpa using here, by simpa using same⟩
            · obtain ⟨dim, known, here, same⟩ := rest.mp later
              exact ⟨dim + 1, by simpa using known, by simpa using here, by simpa using same⟩
          · rintro ⟨dim, known, here, same⟩
            cases dim with
            | zero =>
                obtain rfl : masked = true := by simpa using here
                simp [maskedDigits, same]
            | succ dim =>
                have later := rest.mpr ⟨dim, by simpa using known, by simpa using here, by simpa using same⟩
                cases masked with
                | true => exact List.mem_cons_of_mem _ later
                | false => exact later

theorem Inside.unmasked {shape index : List Nat} (inside : Inside shape index) (mask : List Bool) :
    Inside (TtMlir.unmasked mask shape) (TtMlir.unmasked mask index) := by
  induction inside generalizing mask with
  | nil =>
      cases mask with
      | nil => exact List.Forall₂.nil
      | cons masked mask => cases masked <;> exact List.Forall₂.nil
  | cons here _ ih =>
      cases mask with
      | nil => exact List.Forall₂.nil
      | cons masked mask =>
          cases masked with
          | true => exact ih mask
          | false => exact List.Forall₂.cons here (ih mask)

end Masks

section Removal

theorem removeDigits_block (mask : List Bool) (shape : List Nat) (length : mask.length = shape.length)
    (block flat : Nat)
    (below : flat < shape.prod) : removeDigits (maskedDigits mask shape) (block * shape.prod + flat) =
      block * (unmasked mask shape).prod + removeDigits (maskedDigits mask shape) flat := by
  induction mask generalizing shape block flat with
  | nil =>
      obtain rfl := List.length_eq_zero_iff.mp length.symm
      simp [maskedDigits, unmasked, removeDigits]
  | cons masked mask ih =>
      cases shape with
      | nil => simp at length
      | cons extent shape =>
          have rest := ih shape (by simpa using length)
          rw [List.prod_cons] at below ⊢
          have positive : 0 < shape.prod := Nat.pos_of_ne_zero fun zero => by simp [zero] at below
          have low : flat % shape.prod < shape.prod := Nat.mod_lt _ positive
          cases masked with
          | true =>
              have outer : (block * (extent * shape.prod) + flat) / (extent * shape.prod) = block := by
                rw [Nat.add_comm, Nat.add_mul_div_right _ _ (by omega), Nat.div_eq_of_lt below, Nat.zero_add]
              have inner : (block * (extent * shape.prod) + flat) % shape.prod = flat % shape.prod := by
                rw [← Nat.mul_assoc, Nat.mul_add_mod_self_right]
              simp only [maskedDigits, unmasked, removeDigits, List.foldl_cons, removeDigit, outer, inner,
                Nat.div_eq_of_lt below, Nat.zero_mul, Nat.zero_add] at rest ⊢
              exact rest block (flat % shape.prod) low
          | false =>
              simp only [maskedDigits, unmasked, List.prod_cons]
              have split : block * (extent * shape.prod) + flat =
                  (block * extent + flat / shape.prod) * shape.prod + flat % shape.prod := by
                conv_lhs => rw [← Nat.div_add_mod' flat shape.prod]
                ring
              rw [split, rest _ _ low]
              conv_rhs => rw [← Nat.div_add_mod' flat shape.prod, rest _ _ low]
              ring

theorem flatten_unmasked (mask : List Bool) (shape : List Nat) (length : mask.length = shape.length) (flat : Nat)
    (below : flat < shape.prod) :
    flatten (unmasked mask shape) (unmasked mask (unflatten shape flat)) =
      removeDigits (maskedDigits mask shape) flat := by
  induction mask generalizing shape flat with
  | nil =>
      obtain rfl := List.length_eq_zero_iff.mp length.symm
      simp only [List.prod_nil] at below
      simp [unmasked, flatten, maskedDigits, removeDigits]
      omega
  | cons masked mask ih =>
      cases shape with
      | nil => simp at length
      | cons extent shape =>
          have rest := ih shape (by simpa using length)
          rw [List.prod_cons] at below
          have positive : 0 < shape.prod := Nat.pos_of_ne_zero fun zero => by simp [zero] at below
          have low : flat % shape.prod < shape.prod := Nat.mod_lt _ positive
          have digit : flat / shape.prod < extent := Nat.div_lt_of_lt_mul (by rwa [Nat.mul_comm])
          have same : unflatten shape flat = unflatten shape (flat % shape.prod) := by
            conv_lhs => rw [← Nat.div_add_mod' flat shape.prod, unflatten_add]
          rw [unflatten, same]
          cases masked with
          | true =>
              simp only [unmasked, maskedDigits, removeDigits, List.foldl_cons, removeDigit, Nat.div_eq_of_lt below,
                Nat.zero_mul, Nat.zero_add] at rest ⊢
              exact rest _ low
          | false =>
              rw [unmasked, unmasked, flatten, maskedDigits, rest _ low, Nat.mod_eq_of_lt digit]
              have block := removeDigits_block mask shape (by simpa using length) (flat / shape.prod) _ low
              rw [Nat.div_add_mod'] at block
              exact block.symm

theorem removeDigit_unit (flat stride : Nat) : removeDigit flat (1, stride) = flat := by
  simp only [removeDigit, Nat.one_mul]
  exact Nat.div_add_mod' flat stride

def wideDigits (digits : List (Nat × Nat)) : List (Nat × Nat) := digits.filter fun digit => digit.1 ≠ 1

theorem removeDigits_wide (digits : List (Nat × Nat)) (flat : Nat) :
    removeDigits (wideDigits digits) flat = removeDigits digits flat := by
  induction digits generalizing flat with
  | nil => rfl
  | cons digit digits ih =>
      obtain ⟨extent, stride⟩ := digit
      by_cases unit : extent = 1
      · subst unit
        have skip : wideDigits ((1, stride) :: digits) = wideDigits digits := by simp [wideDigits]
        have step : removeDigits ((1, stride) :: digits) flat = removeDigits digits flat := by
          rw [removeDigits, List.foldl_cons, removeDigit_unit]
          rfl
        rw [skip, step, ih]
      · have keep : wideDigits ((extent, stride) :: digits) = (extent, stride) :: wideDigits digits := by
          simp [wideDigits, unit]
        rw [keep]
        exact ih (removeDigit flat (extent, stride))

theorem prod_wide (digits : List (Nat × Nat)) :
    ((wideDigits digits).map Prod.fst).prod = (digits.map Prod.fst).prod := by
  induction digits with
  | nil => rfl
  | cons digit digits ih =>
      obtain ⟨extent, stride⟩ := digit
      by_cases unit : extent = 1
      · subst unit
        simpa [wideDigits] using ih
      · simp only [wideDigits, List.filter_cons, List.map_cons, List.prod_cons] at ih ⊢
        rw [if_pos (by simpa using unit), List.map_cons, List.prod_cons, ih]

theorem prod_unmasked (mask : List Bool) (shape : List Nat) (length : mask.length = shape.length) :
    (unmasked mask shape).prod * ((maskedDigits mask shape).map Prod.fst).prod = shape.prod := by
  induction mask generalizing shape with
  | nil =>
      obtain rfl := List.length_eq_zero_iff.mp length.symm
      rfl
  | cons masked mask ih =>
      cases shape with
      | nil => simp at length
      | cons extent shape =>
          have rest := ih shape (by simpa using length)
          cases masked with
          | true =>
              simp only [unmasked, maskedDigits, List.map_cons, List.prod_cons]
              rw [← rest]
              ring
          | false =>
              simp only [unmasked, maskedDigits, List.prod_cons]
              rw [← rest]
              ring

theorem stride_le {mask : List Bool} {shape : List Nat} (length : mask.length = shape.length)
    (positive : ∀ extent ∈ shape, 0 < extent) {digit : Nat × Nat} (member : digit ∈ maskedDigits mask shape) :
    digit.1 * digit.2 ≤ shape.prod ∧ 0 < digit.2 := by
  obtain ⟨dim, known, _, rfl⟩ := (mem_maskedDigits length digit).mp member
  have split : shape.prod = (shape.take dim).prod * (shape.getD dim 0 * (shape.drop (dim + 1)).prod) := by
    conv_lhs => rw [← List.take_append_drop dim shape, List.drop_eq_getElem_cons known]
    rw [List.prod_append, List.prod_cons, List.getD_eq_getElem _ _ known]
  have front : 0 < (shape.take dim).prod :=
    List.prod_pos_iff_forall_pos_nat.mpr fun extent inFront => positive extent (List.mem_of_mem_take inFront)
  have back : 0 < (shape.drop (dim + 1)).prod :=
    List.prod_pos_iff_forall_pos_nat.mpr fun extent inBack => positive extent (List.mem_of_mem_drop inBack)
  refine ⟨?_, back⟩
  rw [split]
  exact Nat.le_mul_of_pos_left _ front

theorem wideDigits_sorted (mask : List Bool) (shape : List Nat) (length : mask.length = shape.length)
    (positive : ∀ extent ∈ shape, 0 < extent) :
    (wideDigits (maskedDigits mask shape)).Pairwise fun left right => right.2 < left.2 := by
  induction mask generalizing shape with
  | nil => exact List.Pairwise.nil
  | cons masked mask ih =>
      cases shape with
      | nil => simp at length
      | cons extent shape =>
          have positiveRest : ∀ other ∈ shape, 0 < other := fun other member =>
            positive other (List.mem_cons_of_mem _ member)
          have rest := ih shape (by simpa using length) positiveRest
          cases masked with
          | false => exact rest
          | true =>
              by_cases unit : extent = 1
              · subst unit
                have skip : wideDigits (maskedDigits (true :: mask) (1 :: shape)) =
                    wideDigits (maskedDigits mask shape) := by simp [wideDigits, maskedDigits]
                rwa [skip]
              · have keep : wideDigits (maskedDigits (true :: mask) (extent :: shape)) =
                    (extent, shape.prod) :: wideDigits (maskedDigits mask shape) := by
                  simp [wideDigits, maskedDigits, unit]
                rw [keep, List.pairwise_cons]
                refine ⟨fun digit member => ?_, rest⟩
                obtain ⟨inMask, wide⟩ := List.mem_filter.mp member
                obtain ⟨bound, stride⟩ := stride_le (by simpa using length) positiveRest inMask
                obtain ⟨dim, known, _, same⟩ := (mem_maskedDigits (by simpa using length) digit).mp inMask
                have extentPositive : 0 < digit.1 := by
                  rw [same, List.getD_eq_getElem _ _ known]
                  exact positiveRest _ (List.getElem_mem known)
                have two : 2 ≤ digit.1 := by
                  have : digit.1 ≠ 1 := by simpa using wide
                  omega
                calc digit.2 < 2 * digit.2 := by omega
                  _ ≤ digit.1 * digit.2 := Nat.mul_le_mul_right _ two
                  _ ≤ shape.prod := bound

end Removal

section Reshaping

theorem fiber_flat (shape kept out : List Nat) : (fiber shape kept out).map (flatten shape) =
    (List.range shape.prod).filter fun flat => gather (unflatten shape flat) kept = out := by
  unfold fiber indices
  rw [List.filter_map, List.map_map]
  conv_rhs => rw [← List.map_id ((List.range shape.prod).filter _)]
  refine List.map_congr_left fun flat member => ?_
  exact flatten_unflatten shape flat (List.mem_range.mp (List.mem_of_mem_filter member))

/-- Two masked shapes drop the same digits, apart from those of extent 1. -/
structure SameDigits (mask : List Bool) (shape : List Nat) (mask' : List Bool) (shape' : List Nat) : Prop where
  length : mask.length = shape.length
  length' : mask'.length = shape'.length
  digits : ∀ digit : Nat × Nat, digit.1 ≠ 1 → (digit ∈ maskedDigits mask shape ↔ digit ∈ maskedDigits mask' shape')

namespace SameDigits

variable {mask mask' : List Bool} {shape shape' : List Nat} (drops : SameDigits mask shape mask' shape')
include drops

section
variable (positive : ∀ extent ∈ shape, 0 < extent) (positive' : ∀ extent ∈ shape', 0 < extent)
include positive positive'

theorem wide_eq :
    wideDigits (maskedDigits mask shape) = wideDigits (maskedDigits mask' shape') := by
  have sorted := wideDigits_sorted mask shape drops.length positive
  have sorted' := wideDigits_sorted mask' shape' drops.length' positive'
  have nodup : ∀ list : List (Nat × Nat), list.Pairwise (fun left right => right.2 < left.2) → list.Nodup :=
    fun list sorted => sorted.imp fun {left right} below same => by
      rw [same] at below
      exact lt_irrefl _ below
  refine List.Perm.eq_of_pairwise ?_ sorted sorted' ?_
  · intro left right _ _ below above
    exact absurd (below.trans above) (lt_irrefl _)
  · rw [List.perm_ext_iff_of_nodup (nodup _ sorted) (nodup _ sorted')]
    intro digit
    unfold wideDigits
    rw [List.mem_filter, List.mem_filter, decide_eq_true_eq]
    constructor
    · exact fun ⟨member, wide⟩ => ⟨(drops.digits digit wide).mp member, wide⟩
    · exact fun ⟨member, wide⟩ => ⟨(drops.digits digit wide).mpr member, wide⟩

theorem kept_volume (volume : shape.prod = shape'.prod) : (unmasked mask shape).prod = (unmasked mask' shape').prod := by
  have whole := prod_unmasked mask shape drops.length
  have whole' := prod_unmasked mask' shape' drops.length'
  rw [← prod_wide, drops.wide_eq positive positive', prod_wide, volume, ← whole'] at whole
  refine Nat.eq_of_mul_eq_mul_right ?_ whole
  refine Nat.pos_of_ne_zero fun zero => ?_
  rw [zero, Nat.mul_zero] at whole'
  exact (List.prod_pos_iff_forall_pos_nat.mpr positive').ne whole'

theorem fiber_eq (volume : shape.prod = shape'.prod) (out : List Nat) (inside : Inside (unmasked mask shape) out) :
    (fiber shape (keptDims mask) out).map (flatten shape) =
      (fiber shape' (keptDims mask') (unflatten (unmasked mask' shape') (flatten (unmasked mask shape) out))).map
        (flatten shape') := by
  rw [fiber_flat, fiber_flat, volume]
  refine List.filter_congr fun flat member => ?_
  have below' : flat < shape'.prod := List.mem_range.mp member
  have below : flat < shape.prod := by rwa [volume]
  have kept := drops.kept_volume positive positive' volume
  have outBelow : flatten (unmasked mask shape) out < (unmasked mask' shape').prod := by
    rw [← kept]
    exact flatten_lt _ _ inside
  have part := flatten_unmasked mask shape drops.length flat below
  have part' := flatten_unmasked mask' shape' drops.length' flat below'
  rw [← removeDigits_wide, drops.wide_eq positive positive', removeDigits_wide] at part
  have same : flatten (unmasked mask shape) (unmasked mask (unflatten shape flat)) =
      flatten (unmasked mask' shape') (unmasked mask' (unflatten shape' flat)) := part.trans part'.symm
  have here := (inside_of_flat shape flat below).unmasked mask
  have there := (inside_of_flat shape' flat below').unmasked mask'
  rw [gather_keptDims mask _ (drops.length.trans (unflatten_length shape flat).symm),
    gather_keptDims mask' _ (drops.length'.trans (unflatten_length shape' flat).symm), decide_eq_decide]
  constructor
  · rintro rfl
    rw [same, unflatten_flatten _ _ there]
  · intro agrees
    apply flatten_injective here inside
    rw [same, agrees, flatten_unflatten _ _ outBelow]

end

end SameDigits

namespace Tensor

variable {α β : Type} (tensor : Tensor α) (f : List α → β)

theorem reduce_flat (shape kept out : List Nat) :
    (fiber shape kept out).map (tensor.reshape shape).get =
      ((fiber shape kept out).map (flatten shape)).map fun flat => tensor.get (unflatten tensor.shape flat) := by
  rw [List.map_map]
  rfl

theorem map_fiber_flat (kept out : List Nat) : ((fiber tensor.shape kept out).map (flatten tensor.shape)).map
    (fun flat => tensor.get (unflatten tensor.shape flat)) = (fiber tensor.shape kept out).map tensor.get := by
  rw [List.map_map]
  refine List.map_congr_left fun index member => ?_
  simp only [Function.comp_apply]
  rw [unflatten_flatten _ _ (mem_fiber.mp member).1]

theorem fiber_empty {shape : List Nat} (empty : shape.prod = 0) (kept out : List Nat) : fiber shape kept out = [] := by
  unfold fiber indices
  rw [empty]
  rfl

theorem reduce_reshape {mask mask' : List Bool} {shape : List Nat} (drops : SameDigits mask shape mask' tensor.shape)
    (volume : shape.prod = tensor.shape.prod) :
    Same ((tensor.reshape shape).reduce f (keptDims mask))
      ((tensor.reduce f (keptDims mask')).reshape (unmasked mask shape)) := by
  have shapes : gather shape (keptDims mask) = unmasked mask shape := gather_keptDims mask shape drops.length
  have shapes' : gather tensor.shape (keptDims mask') = unmasked mask' tensor.shape :=
    gather_keptDims mask' tensor.shape drops.length'
  constructor
  · exact shapes
  · intro out inside
    change Inside (gather shape (keptDims mask)) out at inside
    rw [shapes] at inside
    change f ((fiber shape (keptDims mask) out).map (tensor.reshape shape).get) =
      f ((fiber tensor.shape (keptDims mask') (unflatten (gather tensor.shape (keptDims mask'))
        (flatten (unmasked mask shape) out))).map tensor.get)
    rcases Nat.eq_zero_or_pos shape.prod with empty | some
    · rw [fiber_empty empty, fiber_empty (volume.symm.trans empty)]
      rfl
    · have positive := List.prod_pos_iff_forall_pos_nat.mp some
      have positive' := List.prod_pos_iff_forall_pos_nat.mp (some.trans_eq volume)
      rw [reduce_flat, drops.fiber_eq positive positive' volume out inside, shapes', map_fiber_flat]

theorem reduce_all_reshape (shape : List Nat) (volume : shape.prod = tensor.shape.prod) :
    Same ((tensor.reshape shape).reduce f []) (tensor.reduce f []) := by
  constructor
  · rfl
  · intro out inside
    cases inside
    change f ((fiber shape [] []).map (tensor.reshape shape).get) = f ((fiber tensor.shape [] []).map tensor.get)
    rw [reduce_flat, ← map_fiber_flat, fiber_flat, fiber_flat, volume]
    rfl

end Tensor

end Reshaping

section Units

def unitsAt (mask : List Bool) (shape : List Nat) : List Nat :=
  List.zipWith (fun masked extent => if masked then 1 else extent) mask shape

variable {mask : List Bool} {shape : List Nat}

theorem unitsAt_length (length : mask.length = shape.length) : (unitsAt mask shape).length = shape.length := by
  rw [unitsAt, List.length_zipWith, length, Nat.min_self]

theorem unitsAt_getD (length : mask.length = shape.length) (dim : Nat) (known : dim < shape.length) :
    (unitsAt mask shape).getD dim 0 = if mask.getD dim false then 1 else shape.getD dim 0 := by
  have inMask : dim < mask.length := by rwa [length]
  rw [List.getD_eq_getElem _ _ (by rwa [unitsAt_length length]), List.getD_eq_getElem _ _ inMask,
    List.getD_eq_getElem _ _ known]
  simp [unitsAt]

theorem unmasked_unitsAt (length : mask.length = shape.length) :
    unmasked mask (unitsAt mask shape) = unmasked mask shape := by
  induction mask generalizing shape with
  | nil => rfl
  | cons masked mask ih =>
      cases shape with
      | nil => simp at length
      | cons extent shape =>
          have lengths : mask.length = shape.length := by simpa using length
          have rest := ih lengths
          cases masked with
          | true => exact rest
          | false => exact congrArg (extent :: ·) rest

theorem maskedDigits_unitsAt {digit : Nat × Nat} (length : mask.length = shape.length)
    (member : digit ∈ maskedDigits mask (unitsAt mask shape)) : digit.1 = 1 := by
  induction mask generalizing shape with
  | nil => cases member
  | cons masked mask ih =>
      cases shape with
      | nil => simp at length
      | cons extent shape =>
          have lengths : mask.length = shape.length := by simpa using length
          cases masked with
          | true =>
              rcases List.mem_cons.mp member with rfl | later
              · rfl
              · exact ih lengths later
          | false => exact ih lengths member

theorem flatten_unitsAt (length : mask.length = shape.length) {index : List Nat}
    (inside : Inside (unitsAt mask shape) index) :
    flatten (unmasked mask shape) (unmasked mask index) = flatten (unitsAt mask shape) index := by
  have sizes : mask.length = (unitsAt mask shape).length := length.trans (unitsAt_length length).symm
  have part := flatten_unmasked mask (unitsAt mask shape) sizes _ (flatten_lt _ _ inside)
  have none : wideDigits (maskedDigits mask (unitsAt mask shape)) = [] := by
    rw [wideDigits, List.filter_eq_nil_iff]
    intro digit member
    simpa using maskedDigits_unitsAt length member
  rw [unflatten_flatten _ _ inside, unmasked_unitsAt length, ← removeDigits_wide, none] at part
  exact part

theorem prod_unitsAt (length : mask.length = shape.length) : (unitsAt mask shape).prod = (unmasked mask shape).prod := by
  have sizes : mask.length = (unitsAt mask shape).length := length.trans (unitsAt_length length).symm
  have whole := prod_unmasked mask (unitsAt mask shape) sizes
  have ones : ((maskedDigits mask (unitsAt mask shape)).map Prod.fst).prod = 1 := by
    apply List.prod_eq_one
    intro extent member
    obtain ⟨digit, inMask, rfl⟩ := List.mem_map.mp member
    exact maskedDigits_unitsAt length inMask
  rw [ones, Nat.mul_one, unmasked_unitsAt length] at whole
  exact whole.symm

theorem exists_unmasked (length : mask.length = shape.length) {out : List Nat}
    (inside : Inside (unmasked mask shape) out) : ∃ index, Inside (unitsAt mask shape) index ∧
      unmasked mask index = out := by
  induction mask generalizing shape out with
  | nil =>
      obtain rfl := List.length_eq_zero_iff.mp length.symm
      cases inside
      exact ⟨[], List.Forall₂.nil, rfl⟩
  | cons masked mask ih =>
      cases shape with
      | nil => simp at length
      | cons extent shape =>
          have size : mask.length = shape.length := by simpa using length
          cases masked with
          | true =>
              obtain ⟨index, indexInside, rfl⟩ := ih size inside
              exact ⟨0 :: index, List.Forall₂.cons Nat.one_pos indexInside, rfl⟩
          | false =>
              cases inside with
              | cons here rest =>
                  obtain ⟨index, indexInside, rfl⟩ := ih size rest
                  exact ⟨_ :: index, List.Forall₂.cons here indexInside, rfl⟩

/-- The tensor with dims of extent 1 put in at the masked places of a shape. -/
def Tensor.withUnits {β : Type} (tensor : Tensor β) (mask : List Bool) (shape : List Nat) : Tensor β :=
  { shape := unitsAt mask shape, get := fun index => tensor.get (unmasked mask index) }

theorem Tensor.withUnits_same_iff {β : Type} (left right : Tensor β) (length : mask.length = shape.length)
    (leftShape : left.shape = unmasked mask shape) (rightShape : right.shape = unmasked mask shape) :
    Same (left.withUnits mask shape) (right.withUnits mask shape) ↔ Same left right := by
  constructor
  · intro same
    refine ⟨leftShape.trans rightShape.symm, fun out inside => ?_⟩
    rw [leftShape] at inside
    obtain ⟨index, indexInside, rfl⟩ := exists_unmasked length inside
    exact same.2 index indexInside
  · intro same
    refine ⟨rfl, fun index inside => same.2 _ ?_⟩
    have within := inside.unmasked mask
    change Inside (unmasked mask (unitsAt mask shape)) _ at within
    rwa [unmasked_unitsAt length, ← leftShape] at within

theorem Tensor.withUnits_reshape {β : Type} (tensor : Tensor β) (length : mask.length = shape.length)
    (kept : tensor.shape = unmasked mask shape) :
    Same (tensor.withUnits mask shape) (tensor.reshape (unitsAt mask shape)) := by
  constructor
  · rfl
  · intro index inside
    change tensor.get (unmasked mask index) = tensor.get (unflatten tensor.shape (flatten (unitsAt mask shape) index))
    have within := inside.unmasked mask
    change Inside (unmasked mask (unitsAt mask shape)) _ at within
    rw [unmasked_unitsAt length] at within
    rw [← flatten_unitsAt length inside, kept, unflatten_flatten _ _ within]

end Units

section Empty

def headVolume (shape : List Nat) : Nat := ((shape.reverse.dropWhile fun extent => decide (extent ≠ 0)).drop 1).prod

theorem exists_last_zero {shape : List Nat} (empty : 0 ∈ shape) :
    ∃ front back, shape = front ++ 0 :: back ∧ ∀ extent ∈ back, 0 < extent := by
  induction shape with
  | nil => cases empty
  | cons extent shape ih =>
      by_cases later : 0 ∈ shape
      · obtain ⟨front, back, rfl, positive⟩ := ih later
        exact ⟨extent :: front, back, rfl, positive⟩
      · have here : 0 = extent := by
          rcases List.mem_cons.mp empty with same | member
          · exact same
          · exact absurd member later
        exact ⟨[], shape, by rw [← here]; rfl, fun other member => Nat.pos_of_ne_zero fun zero => later (zero ▸ member)⟩

theorem headVolume_eq (front back : List Nat) (positive : ∀ extent ∈ back, 0 < extent) :
    headVolume (front ++ 0 :: back) = front.prod := by
  unfold headVolume
  have reversed : (front ++ 0 :: back).reverse = back.reverse ++ (0 :: front.reverse) := by simp
  have skipped : (back.reverse ++ (0 :: front.reverse)).dropWhile (fun extent => decide (extent ≠ 0)) =
      0 :: front.reverse := by
    rw [List.dropWhile_append_of_pos]
    · simp
    · intro extent member
      have := positive extent (List.mem_reverse.mp member)
      simp
      omega
  rw [reversed, skipped, List.drop_one, List.tail_cons, List.prod_reverse]

variable {front : List Nat} {mask : List Bool} {shape : List Nat}

theorem maskedDigits_front : maskedDigits (List.replicate front.length false ++ mask) (front ++ shape) =
    maskedDigits mask shape := by
  induction front with
  | nil => rfl
  | cons extent front ih => simpa [List.replicate_succ, maskedDigits] using ih

theorem unmasked_front : unmasked (List.replicate front.length false ++ mask) (front ++ shape) =
    front ++ unmasked mask shape := by
  induction front with
  | nil => rfl
  | cons extent front ih => simpa [List.replicate_succ, unmasked] using ih

theorem mask_split (length : mask.length = shape.length) {back : List Nat} (split : shape = front ++ 0 :: back)
    (strides : ∀ digit ∈ maskedDigits mask shape, 0 < digit.2) :
    ∃ here rest, mask = List.replicate front.length false ++ here :: rest ∧ rest.length = back.length := by
  subst split
  induction front generalizing mask with
  | nil =>
      cases mask with
      | nil => simp at length
      | cons here rest => exact ⟨here, rest, rfl, by simpa using length⟩
  | cons extent front ih =>
      cases mask with
      | nil => simp at length
      | cons masked mask =>
          have unmaskedHere : masked = false := by
            by_contra here
            have zero := strides (extent, (front ++ 0 :: back).prod) (by simp [maskedDigits, here])
            simp at zero
          subst unmaskedHere
          have lengths : mask.length = (front ++ 0 :: back).length := by simpa using length
          obtain ⟨here, rest, same, size⟩ := ih lengths fun digit member => strides digit member
          exact ⟨here, rest, by rw [same]; rfl, size⟩

theorem maskedDigits_positive (length : mask.length = shape.length) (positive : ∀ extent ∈ shape, 0 < extent) :
    ∀ digit ∈ maskedDigits mask shape, 0 < digit.1 := by
  intro digit member
  obtain ⟨dim, known, _, rfl⟩ := (mem_maskedDigits length digit).mp member
  simp only [List.getD_eq_getElem _ _ known]
  exact positive _ (List.getElem_mem known)

/-- Two empty shapes keep one volume, unless the last extent of zero is masked: then the extents
before it decide. -/
theorem kept_volume_iff {mask' : List Bool} {shape' : List Nat} (length : mask.length = shape.length)
    (length' : mask'.length = shape'.length)
    (digits : ∀ digit : Nat × Nat, digit ∈ maskedDigits mask shape ↔ digit ∈ maskedDigits mask' shape')
    (strides : ∀ digit ∈ maskedDigits mask shape, 0 < digit.2) (empty : 0 ∈ shape) (empty' : 0 ∈ shape') :
    (unmasked mask shape).prod = (unmasked mask' shape').prod ↔
      ((∃ digit ∈ maskedDigits mask shape, digit.1 = 0) → headVolume shape = headVolume shape') := by
  obtain ⟨front, back, split, positive⟩ := exists_last_zero empty
  obtain ⟨front', back', split', positive'⟩ := exists_last_zero empty'
  have strides' : ∀ digit ∈ maskedDigits mask' shape', 0 < digit.2 := fun digit member =>
    strides digit ((digits digit).mpr member)
  obtain ⟨here, rest, rfl, size⟩ := mask_split length split strides
  obtain ⟨here', rest', rfl, size'⟩ := mask_split length' split' strides'
  subst split split'
  rw [maskedDigits_front] at digits strides ⊢
  rw [maskedDigits_front] at digits
  rw [unmasked_front, unmasked_front, List.prod_append, List.prod_append, headVolume_eq front back positive,
    headVolume_eq front' back' positive']
  have behind := maskedDigits_positive size positive
  have behind' := maskedDigits_positive size' positive'
  -- whether the last zero dim itself is masked: digits with extent zero have to agree
  cases here with
  | false =>
      cases here' with
      | false =>
          have none : ¬ ∃ digit ∈ maskedDigits (false :: rest) (0 :: back), digit.1 = 0 := by
            rintro ⟨digit, member, zero⟩
            exact (behind digit member).ne' zero
          simp only [unmasked, List.prod_cons, Nat.zero_mul, Nat.mul_zero, none, false_implies]
      | true =>
          have member := (digits (0, back'.prod)).mpr List.mem_cons_self
          exact absurd rfl (behind _ member).ne
  | true =>
      cases here' with
      | false =>
          have member := (digits (0, back.prod)).mp List.mem_cons_self
          exact absurd rfl (behind' _ member).ne
      | true =>
          have volume : back.prod = back'.prod := by
            rcases List.mem_cons.mp ((digits (0, back.prod)).mp List.mem_cons_self) with same | member
            · exact (Prod.mk.inj same).2
            · exact absurd rfl (behind' _ member).ne
          -- both masks drop the same digits behind the last zero
          have drops : SameDigits rest back rest' back' := by
            refine ⟨size, size', fun digit _ => ⟨fun member => ?_, fun member => ?_⟩⟩
            · rcases List.mem_cons.mp ((digits digit).mp (List.mem_cons_of_mem _ member)) with rfl | there
              · exact absurd rfl (behind _ member).ne
              · exact there
            · rcases List.mem_cons.mp ((digits digit).mpr (List.mem_cons_of_mem _ member)) with rfl | there
              · exact absurd rfl (behind' _ member).ne
              · exact there
          have kept := drops.kept_volume positive positive' volume
          have some : 0 < (unmasked rest' back').prod := by
            rw [← kept]
            refine Nat.pos_of_ne_zero fun zero => ?_
            have whole := prod_unmasked rest back size
            rw [zero, Nat.zero_mul] at whole
            exact (List.prod_pos_iff_forall_pos_nat.mpr positive).ne whole
          have zeroDigit : ∃ digit ∈ maskedDigits (true :: rest) (0 :: back), digit.1 = 0 :=
            ⟨_, List.mem_cons_self, rfl⟩
          simp only [unmasked, kept, zeroDigit, true_implies]
          exact ⟨fun same => Nat.eq_of_mul_eq_mul_right some same, fun same => by rw [same]⟩

end Empty

end TtMlir
