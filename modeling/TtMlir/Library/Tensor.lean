import Mathlib

/-!
Tensors as a shape and a value for every index inside it. Splitting, joining
and reshaping, with row-major flat positions.
-/

namespace TtMlir

def Inside (shape index : List Nat) : Prop := List.Forall₂ (fun position extent => position < extent) index shape

namespace Inside
variable {shape index : List Nat}

theorem length (inside : Inside shape index) : index.length = shape.length := List.Forall₂.length_eq inside

theorem getD_lt (inside : Inside shape index) (dim : Nat) (known : dim < shape.length) :
    index.getD dim 0 < shape.getD dim 0 := by
  induction inside generalizing dim with
  | nil => cases known
  | @cons position extent index shape here _ ih =>
      cases dim with
      | zero => exact here
      | succ dim => exact ih dim (by simpa using known)

theorem set (inside : Inside shape index) (dim position : Nat)
    (bound : dim < shape.length → position < shape.getD dim 0) : Inside shape (index.set dim position) := by
  induction inside generalizing dim with
  | nil => exact List.Forall₂.nil
  | @cons here extent index shape below rest ih =>
      cases dim with
      | zero => exact List.Forall₂.cons (bound (Nat.zero_lt_succ _)) rest
      | succ dim => exact List.Forall₂.cons below (ih dim fun known => bound (Nat.succ_lt_succ known))

theorem modify (inside : Inside shape index) (dim extent : Nat) (change : Nat → Nat)
    (bound : dim < shape.length → change (index.getD dim 0) < extent) :
    Inside (shape.set dim extent) (index.modify dim change) := by
  induction inside generalizing dim with
  | nil => simp [Inside]
  | @cons position size index shape here rest ih =>
      cases dim with
      | zero => exact List.Forall₂.cons (bound (Nat.zero_lt_succ _)) rest
      | succ dim =>
          exact List.Forall₂.cons here (ih dim fun known => by simpa using bound (by simpa using known))

theorem append {front back left right : List Nat} (inside : Inside front left) (rest : Inside back right) :
    Inside (front ++ back) (left ++ right) := by
  induction inside with
  | nil => exact rest
  | cons here _ ih => exact List.Forall₂.cons here ih

theorem halves {front back : List Nat} (inside : Inside (front ++ back) index) :
    ∃ left right, index = left ++ right ∧ Inside front left ∧ Inside back right :=
  ⟨index.take front.length, index.drop front.length, (List.take_append_drop _ _).symm,
    List.forall₂_take_append _ _ _ inside, List.forall₂_drop_append _ _ _ inside⟩

theorem split {front back : List Nat} {extent : Nat} (inside : Inside (front ++ extent :: back) index) :
    ∃ left position right, index = left ++ position :: right ∧
      Inside front left ∧ position < extent ∧ Inside back right := by
  induction front generalizing index with
  | nil =>
      cases inside with
      | cons here rest => exact ⟨[], _, _, rfl, List.Forall₂.nil, here, rest⟩
  | cons size front ih =>
      cases inside with
      | cons here rest =>
          obtain ⟨left, position, right, rfl, before, below, after⟩ := ih rest
          exact ⟨_ :: left, position, right, rfl, List.Forall₂.cons here before, below, after⟩

end Inside

theorem modify_middle (left right : List Nat) (position : Nat) (change : Nat → Nat) :
    (left ++ position :: right).modify left.length change = left ++ change position :: right := by
  induction left with
  | nil => rfl
  | cons head left ih => rw [List.cons_append, List.length_cons, List.modify_succ_cons, ih, List.cons_append]

theorem getD_middle (left right : List Nat) (position : Nat) :
    (left ++ position :: right).getD left.length 0 = position := by
  simp [List.getD_eq_getElem?_getD]

theorem set_middle (left right : List Nat) (position other : Nat) :
    (left ++ position :: right).set left.length other = left ++ other :: right := by
  simp

def flatten : List Nat → List Nat → Nat
  | _ :: shape, position :: index => position * shape.prod + flatten shape index
  | _, _ => 0

def unflatten : List Nat → Nat → List Nat
  | [], _ => []
  | extent :: shape, flat => flat / shape.prod % extent :: unflatten shape flat

theorem unflatten_add (shape : List Nat) (blocks flat : Nat) :
    unflatten shape (blocks * shape.prod + flat) = unflatten shape flat := by
  induction shape generalizing blocks with
  | nil => rfl
  | cons extent shape ih =>
      have regroup : blocks * (extent * shape.prod) + flat = blocks * extent * shape.prod + flat := by ring
      rw [List.prod_cons, regroup, unflatten, unflatten, ih]
      congr 1
      rcases Nat.eq_zero_or_pos shape.prod with empty | positive
      · rw [empty, Nat.mul_zero, Nat.zero_add]
      · rw [Nat.add_comm, Nat.add_mul_div_right _ _ positive, Nat.add_mul_mod_self_right]

theorem flatten_lt (shape index : List Nat) (inside : Inside shape index) : flatten shape index < shape.prod := by
  induction inside with
  | nil => exact Nat.one_pos
  | @cons position extent index shape here _ ih =>
      rw [flatten, List.prod_cons]
      calc position * shape.prod + flatten shape index < position * shape.prod + shape.prod := Nat.add_lt_add_left ih _
        _ = (position + 1) * shape.prod := by ring
        _ ≤ extent * shape.prod := Nat.mul_le_mul_right _ here

theorem unflatten_flatten (shape index : List Nat) (inside : Inside shape index) :
    unflatten shape (flatten shape index) = index := by
  induction inside with
  | nil => rfl
  | @cons position extent index shape here rest ih =>
      have below := flatten_lt shape index rest
      have quotient : (position * shape.prod + flatten shape index) / shape.prod = position := by
        rw [Nat.add_comm, Nat.add_mul_div_right _ _ (by omega), Nat.div_eq_of_lt below, Nat.zero_add]
      rw [flatten, unflatten, unflatten_add, ih, quotient, Nat.mod_eq_of_lt here]

theorem unflatten_inside (shape : List Nat) (flat : Nat) (positive : ∀ extent ∈ shape, 0 < extent) :
    Inside shape (unflatten shape flat) := by
  induction shape with
  | nil => exact List.Forall₂.nil
  | cons extent shape ih =>
      exact List.Forall₂.cons (Nat.mod_lt _ (positive extent List.mem_cons_self))
        (ih fun other member => positive other (List.mem_cons_of_mem _ member))

theorem flatten_unflatten (shape : List Nat) (flat : Nat) (below : flat < shape.prod) :
    flatten shape (unflatten shape flat) = flat := by
  induction shape generalizing flat with
  | nil =>
      rw [List.prod_nil] at below
      simp only [flatten]
      omega
  | cons extent shape ih =>
      rw [List.prod_cons] at below
      have positive : 0 < shape.prod := by
        by_contra none
        rw [show shape.prod = 0 by omega] at below
        omega
      have digit : flat / shape.prod < extent := Nat.div_lt_of_lt_mul (by rw [Nat.mul_comm]; exact below)
      have rest := ih (flat % shape.prod) (Nat.mod_lt _ positive)
      have same : unflatten shape flat = unflatten shape (flat % shape.prod) := by
        conv_lhs => rw [← Nat.div_add_mod' flat shape.prod, unflatten_add]
      rw [unflatten, flatten, Nat.mod_eq_of_lt digit, same, rest, Nat.div_add_mod']

theorem flatten_append (front back index rest : List Nat) (length : index.length = front.length) :
    flatten (front ++ back) (index ++ rest) = flatten front index * back.prod + flatten back rest := by
  induction front generalizing index with
  | nil =>
      rw [List.length_eq_zero_iff.mp length]
      simp [flatten]
  | cons extent front ih =>
      cases index with
      | nil => simp at length
      | cons position index =>
          rw [List.cons_append, List.cons_append, flatten, flatten, ih index (by simpa using length), List.prod_append]
          ring

theorem unflatten_length (shape : List Nat) (flat : Nat) : (unflatten shape flat).length = shape.length := by
  induction shape with
  | nil => rfl
  | cons extent shape ih => rw [unflatten, List.length_cons, List.length_cons, ih]

theorem unflatten_append (front back : List Nat) (flat : Nat) :
    unflatten (front ++ back) flat = unflatten front (flat / back.prod) ++ unflatten back flat := by
  induction front with
  | nil => rfl
  | cons extent front ih =>
      rw [List.cons_append, unflatten, unflatten, ih, List.prod_append, List.cons_append, Nat.div_div_eq_div_mul,
        Nat.mul_comm]

@[ext]
structure Tensor (α : Type) where
  shape : List Nat
  get : List Nat → α

namespace Tensor
variable {α : Type}

def Same (left right : Tensor α) : Prop :=
  left.shape = right.shape ∧ ∀ index, Inside left.shape index → left.get index = right.get index

theorem Same.refl (tensor : Tensor α) : Same tensor tensor := ⟨rfl, fun _ _ => rfl⟩

theorem Same.symm {left right : Tensor α} (same : Same left right) : Same right left :=
  ⟨same.1.symm, fun index inside => (same.2 index (same.1 ▸ inside)).symm⟩

theorem Same.trans {left middle right : Tensor α} (first : Same left middle) (second : Same middle right) :
    Same left right :=
  ⟨first.1.trans second.1, fun index inside => (first.2 index inside).trans (second.2 index (first.1 ▸ inside))⟩

def extent (tensor : Tensor α) (dim : Nat) : Nat := tensor.shape.getD dim 0

def part (tensor : Tensor α) (dim count number : Nat) : Tensor α :=
  { shape := tensor.shape.set dim (tensor.extent dim / count)
    get := fun index => tensor.get (index.modify dim (number * (tensor.extent dim / count) + ·)) }

def join (count : Nat) (parts : Nat → Tensor α) (dim : Nat) : Tensor α :=
  let size := (parts 0).extent dim
  { shape := (parts 0).shape.set dim (size * count)
    get := fun index => (parts (index.getD dim 0 / size % count)).get (index.modify dim (· % size)) }

def reshape (tensor : Tensor α) (shape : List Nat) : Tensor α :=
  { shape, get := fun index => tensor.get (unflatten tensor.shape (flatten shape index)) }

def slice (tensor : Tensor α) (starts limits strides : List Nat) : Tensor α :=
  { shape := List.zipWith (fun span stride => (span + stride - 1) / stride) (List.zipWith (· - ·) limits starts) strides
    get := fun index => tensor.get (List.zipWith (· + ·) starts (List.zipWith (· * ·) index strides)) }

def sum [AddCommMonoid α] (shape : List Nat) (tensors : List (Tensor α)) : Tensor α :=
  { shape, get := fun index => (tensors.map (·.get index)).sum }

theorem getD_modify_self (index : List Nat) (dim : Nat) (change : Nat → Nat) (fixed : change 0 = 0) :
    (index.modify dim change).getD dim 0 = change (index.getD dim 0) := by
  rw [List.getD_eq_getElem?_getD, List.getD_eq_getElem?_getD, List.getElem?_modify_eq]
  cases index[dim]? <;> simp [fixed]

theorem getD_modify_other (index : List Nat) (dim other : Nat) (change : Nat → Nat) (different : dim ≠ other) :
    (index.modify dim change).getD other 0 = index.getD other 0 := by
  rw [List.getD_eq_getElem?_getD, List.getD_eq_getElem?_getD, List.getElem?_modify_ne change _ different]

theorem getD_set_self (shape : List Nat) (dim size : Nat) (known : dim < shape.length) :
    (shape.set dim size).getD dim 0 = size := by
  simp [List.getD_eq_getElem?_getD, known]

theorem getD_set_other (shape : List Nat) (dim other size : Nat) (different : dim ≠ other) :
    (shape.set dim size).getD other 0 = shape.getD other 0 := by
  rw [List.getD_eq_getElem?_getD, List.getD_eq_getElem?_getD, List.getElem?_set_ne different]

theorem set_getD_self (shape : List Nat) (dim : Nat) : shape.set dim (shape.getD dim 0) = shape := by
  by_cases known : dim < shape.length
  · rw [List.getD_eq_getElem _ _ known, List.set_getElem_self]
  · exact List.set_eq_of_length_le (Nat.le_of_not_lt known)

theorem getD_set_scaled (shape : List Nat) (dim : Nat) (scale : Nat → Nat) (fixed : scale 0 = 0) :
    (shape.set dim (scale (shape.getD dim 0))).getD dim 0 = scale (shape.getD dim 0) := by
  by_cases known : dim < shape.length
  · exact getD_set_self shape dim _ known
  · rw [List.set_eq_of_length_le (Nat.le_of_not_lt known), List.getD_eq_default _ _ (Nat.le_of_not_lt known), fixed]

@[simp] theorem part_shape (tensor : Tensor α) (dim count number : Nat) :
    (tensor.part dim count number).shape = tensor.shape.set dim (tensor.extent dim / count) := rfl

@[simp] theorem join_shape (count : Nat) (parts : Nat → Tensor α) (dim : Nat) :
    (join count parts dim).shape = (parts 0).shape.set dim ((parts 0).extent dim * count) := rfl

theorem extent_part (tensor : Tensor α) (dim count number : Nat) :
    (tensor.part dim count number).extent dim = tensor.extent dim / count :=
  getD_set_scaled tensor.shape dim (· / count) (Nat.zero_div count)

theorem extent_part_other (tensor : Tensor α) (dim other count number : Nat) (different : dim ≠ other) :
    (tensor.part dim count number).extent other = tensor.extent other :=
  getD_set_other tensor.shape dim other _ different

theorem extent_join (count : Nat) (parts : Nat → Tensor α) (dim : Nat) :
    (join count parts dim).extent dim = (parts 0).extent dim * count :=
  getD_set_scaled (parts 0).shape dim (· * count) (Nat.zero_mul count)

theorem extent_join_other (count : Nat) (parts : Nat → Tensor α) (dim other : Nat) (different : dim ≠ other) :
    (join count parts dim).extent other = (parts 0).extent other :=
  getD_set_other (parts 0).shape dim other _ different

theorem part_get (tensor : Tensor α) (dim count number : Nat) (index : List Nat) :
    (tensor.part dim count number).get index =
      tensor.get (index.modify dim (number * (tensor.extent dim / count) + ·)) := rfl

theorem join_get (count : Nat) (parts : Nat → Tensor α) (dim : Nat) (index : List Nat) :
    (join count parts dim).get index =
      (parts (index.getD dim 0 / (parts 0).extent dim % count)).get (index.modify dim (· % (parts 0).extent dim)) := rfl

theorem part_part (tensor : Tensor α) (dim outer inner number digit : Nat)
    (divisible : outer * inner ∣ tensor.extent dim) :
    (tensor.part dim outer number).part dim inner digit = tensor.part dim (outer * inner) (number * inner + digit) := by
  have rest : tensor.extent dim / outer / inner = tensor.extent dim / (outer * inner) := Nat.div_div_eq_div_mul _ _ _
  have block : tensor.extent dim / outer = inner * (tensor.extent dim / (outer * inner)) := by
    obtain ⟨size, total⟩ := divisible
    rcases Nat.eq_zero_or_pos (outer * inner) with none | positive
    · simp [total, none]
    · rw [total, Nat.mul_div_cancel_left _ positive, Nat.mul_assoc,
        Nat.mul_div_cancel_left _ (Nat.pos_of_mul_pos_right positive)]
  ext1
  · rw [part_shape, part_shape, part_shape, List.set_set, extent_part, rest]
  · funext index
    rw [part_get, part_get, part_get, extent_part, rest, List.modify_modify_eq]
    congr 2
    funext position
    rw [Function.comp_apply, block]
    ring

theorem join_join (shape : List Nat) (outer inner : Nat) (parts : Nat → Nat → Tensor α) (dim : Nat)
    (uniform : ∀ number, (parts number 0).shape = shape) :
    join outer (fun number => join inner (parts number) dim) dim =
      join (outer * inner) (fun number => parts (number / inner) (number % inner)) dim := by
  have sizes : ∀ number, (parts number 0).extent dim = shape.getD dim 0 := fun number => by
    rw [extent, uniform]
  ext1
  · rw [join_shape, join_shape, join_shape, extent_join, List.set_set, Nat.zero_div, Nat.zero_mod, Nat.mul_assoc,
      Nat.mul_comm inner outer]
  · funext index
    rw [join_get, join_get, join_get, extent_join, Nat.zero_div, Nat.zero_mod, sizes, sizes,
      getD_modify_self index dim (· % _) (Nat.zero_mod _), List.modify_modify_eq, Nat.mod_mul_right_div_self,
      Nat.mod_mod, Nat.mul_comm outer inner, Nat.mod_mul_right_div_self, Nat.mod_mul_right_mod,
      Nat.div_div_eq_div_mul]
    congr 2
    funext position
    exact Nat.mod_mul_right_mod position _ inner

theorem part_join (count : Nat) (parts : Nat → Tensor α) (source target pieces number : Nat)
    (different : source ≠ target) (uniform : ∀ other, (parts other).extent target = (parts 0).extent target) :
    (join count parts source).part target pieces number =
      join count (fun other => (parts other).part target pieces number) source := by
  ext1
  · rw [part_shape, join_shape, join_shape, part_shape, extent_join_other _ _ _ _ different,
      extent_part_other _ _ _ _ _ different.symm, List.set_comm _ _ different]
  · funext index
    rw [part_get, join_get, join_get, part_get, extent_join_other _ _ _ _ different, uniform (_ / _ % _),
      extent_part_other _ _ _ _ _ different.symm, getD_modify_other _ _ _ _ different.symm,
      List.modify_modify_ne _ _ _ different.symm]

theorem join_congr (count : Nat) (left right : Nat → Tensor α) (dim : Nat) (positive : 0 < count)
    (equal : ∀ number, number < count → left number = right number) : join count left dim = join count right dim := by
  have first := equal 0 positive
  ext1
  · rw [join_shape, join_shape, first]
  · funext index
    rw [join_get, join_get, first, equal _ (Nat.mod_lt _ positive)]

theorem Same.part {left right : Tensor α} (same : Same left right) (dim count number : Nat) (below : number < count) :
    Same (left.part dim count number) (right.part dim count number) := by
  have extents : left.extent dim = right.extent dim := by rw [extent, extent, same.1]
  constructor
  · rw [part_shape, part_shape, same.1, extents]
  · intro index inside
    rw [part_get, part_get, ← extents]
    apply same.2
    have moved := inside.modify dim (left.extent dim) (number * (left.extent dim / count) + ·) fun known => by
      rw [part_shape, List.length_set] at known
      have size := inside.getD_lt dim (by rwa [part_shape, List.length_set])
      rw [part_shape, getD_set_self _ _ _ known] at size
      calc number * (left.extent dim / count) + index.getD dim 0 < number * (left.extent dim / count) +
            left.extent dim / count := Nat.add_lt_add_left size _
        _ = (number + 1) * (left.extent dim / count) := by ring
        _ ≤ count * (left.extent dim / count) := Nat.mul_le_mul_right _ below
        _ ≤ left.extent dim := Nat.mul_div_le _ _
    rwa [part_shape, List.set_set, extent, set_getD_self] at moved

theorem reshape_get (tensor : Tensor α) (shape index target : List Nat) (inside : Inside tensor.shape target)
    (same : flatten shape index = flatten tensor.shape target) :
    (tensor.reshape shape).get index = tensor.get target := by
  change tensor.get (unflatten tensor.shape (flatten shape index)) = _
  rw [same, unflatten_flatten _ _ inside]

theorem sum_part [AddCommMonoid α] (shape : List Nat) (tensors : List (Tensor α)) (dim count number : Nat)
    (uniform : ∀ tensor ∈ tensors, tensor.shape = shape) :
    (sum shape tensors).part dim count number =
      sum (shape.set dim (shape.getD dim 0 / count)) (tensors.map (·.part dim count number)) := by
  ext1
  · rfl
  · funext index
    rw [part_get]
    simp only [sum, List.map_map]
    congr 1
    apply List.map_congr_left
    intro tensor member
    rw [Function.comp_apply, part_get, extent, extent, uniform tensor member]

theorem slice_from_start (tensor : Tensor α) (limits : List Nat) :
    (tensor.slice (List.replicate limits.length 0) limits (List.replicate limits.length 1)).shape = limits := by
  change List.zipWith _ (List.zipWith _ limits (List.replicate limits.length 0)) (List.replicate limits.length 1) = _
  induction limits with
  | nil => rfl
  | cons limit limits ih =>
      simp only [List.length_cons, List.replicate_succ, List.zipWith_cons_cons]
      rw [ih, Nat.sub_zero, Nat.add_sub_cancel, Nat.div_one]

theorem slice_from_start_get (tensor : Tensor α) (limits index : List Nat) (inside : Inside limits index) :
    (tensor.slice (List.replicate limits.length 0) limits (List.replicate limits.length 1)).get index =
      tensor.get index := by
  change tensor.get (List.zipWith _ (List.replicate limits.length 0)
    (List.zipWith _ index (List.replicate limits.length 1))) = _
  congr 1
  induction inside with
  | nil => rfl
  | cons _ _ ih =>
      simp only [List.length_cons, List.replicate_succ, List.zipWith_cons_cons]
      rw [ih, Nat.mul_one, Nat.zero_add]
theorem part_one (tensor : Tensor α) (dim : Nat) : tensor.part dim 1 0 = tensor := by
  ext1
  · rw [part_shape, Nat.div_one, extent, set_getD_self]
  · funext index
    have unchanged : (fun position => 0 + position) = id := funext Nat.zero_add
    rw [part_get, Nat.zero_mul, unchanged, List.modify_id]

theorem join_swapped (outer inner : Nat) (parts : Nat → Nat → Tensor α) (dim : Nat) (outerPositive : 0 < outer)
    (innerPositive : 0 < inner) (single : outer ≤ 1 ∨ inner ≤ 1) :
    join (inner * outer) (fun number => parts (number % outer) (number / outer)) dim =
      join (outer * inner) (fun number => parts (number / inner) (number % inner)) dim := by
  rw [Nat.mul_comm inner outer]
  apply join_congr _ _ _ _ (Nat.mul_pos outerPositive innerPositive)
  intro number below
  rcases single with one | one
  · obtain rfl : outer = 1 := by omega
    rw [Nat.one_mul] at below
    rw [Nat.mod_one, Nat.div_one, Nat.div_eq_of_lt below, Nat.mod_eq_of_lt below]
  · obtain rfl : inner = 1 := by omega
    rw [Nat.mul_one] at below
    rw [Nat.mod_one, Nat.div_one, Nat.div_eq_of_lt below, Nat.mod_eq_of_lt below]

theorem join_swapped_differs (outer inner : Nat) (parts : Nat → Nat → Tensor α) (dim : Nat) (outerLong : 1 < outer)
    (innerLong : 1 < inner) (known : dim < (parts 0 0).shape.length) (full : ∀ extent ∈ (parts 0 0).shape, 0 < extent)
    (differ : ∀ index, (parts 1 0).get index ≠ (parts 0 1).get index) :
    ¬Same (join (inner * outer) (fun number => parts (number % outer) (number / outer)) dim)
      (join (outer * inner) (fun number => parts (number / inner) (number % inner)) dim) := by
  intro same
  have size : (parts 0 0).extent dim = (parts 0 0).shape[dim] := List.getD_eq_getElem _ _ known
  have positive : 0 < (parts 0 0).extent dim := by rw [size]; exact full _ (List.getElem_mem _)
  have long : 1 < inner * outer := Nat.lt_of_lt_of_le outerLong (Nat.le_mul_of_pos_left _ (by omega))
  have origin : Inside (parts 0 0).shape ((parts 0 0).shape.map fun _ => 0) := by
    generalize (parts 0 0).shape = shape at full
    induction shape with
    | nil => exact List.Forall₂.nil
    | cons extent shape ih =>
        exact List.Forall₂.cons (full extent List.mem_cons_self)
          (ih fun other member => full other (List.mem_cons_of_mem _ member))
  have inside := origin.modify dim ((parts 0 0).extent dim * (inner * outer)) (fun _ => (parts 0 0).extent dim)
    fun _ => by
      calc (parts 0 0).extent dim = (parts 0 0).extent dim * 1 := (Nat.mul_one _).symm
        _ < (parts 0 0).extent dim * (inner * outer) := Nat.mul_lt_mul_of_pos_left long positive
  generalize chosen : ((parts 0 0).shape.map fun _ => 0).modify dim (fun _ => (parts 0 0).extent dim) = index at inside
  have position : index.getD dim 0 = (parts 0 0).extent dim := by
    rw [← chosen, List.getD_eq_getElem?_getD, List.getElem?_modify_eq]
    simp [known]
  have equal := same.2 index (by
    rw [join_shape]
    simpa only [Nat.zero_div, Nat.zero_mod] using inside)
  rw [join_get, join_get, Nat.zero_div, Nat.zero_mod, Nat.zero_div, Nat.zero_mod, position, Nat.div_self positive,
    Nat.mod_eq_of_lt long, Nat.mul_comm outer inner, Nat.mod_eq_of_lt long, Nat.mod_eq_of_lt outerLong,
    Nat.div_eq_of_lt outerLong, Nat.div_eq_of_lt innerLong, Nat.mod_eq_of_lt innerLong] at equal
  exact differ _ equal

theorem zero_mem_set (shape : List Nat) (dim size : Nat) (same : size = 0 ↔ shape.getD dim 0 = 0)
    (known : dim < shape.length) : 0 ∈ shape.set dim size ↔ 0 ∈ shape := by
  induction shape generalizing dim with
  | nil => rfl
  | cons extent shape ih =>
      cases dim with
      | zero =>
          simp only [List.getD_cons_zero] at same
          simp only [List.set_cons_zero, List.mem_cons, @eq_comm Nat 0, same]
      | succ dim =>
          simp only [List.set_cons_succ, List.mem_cons]
          rw [ih dim (by simpa using same) (by simpa using known)]

theorem same_of_empty (left right : Tensor α) (shape : left.shape = right.shape) (empty : 0 ∈ left.shape) :
    Same left right := by
  constructor
  · exact shape
  · intro index inside
    obtain ⟨dim, below, none⟩ := List.getElem_of_mem empty
    have := inside.getD_lt dim below
    rw [List.getD_eq_getElem _ _ below, none] at this
    exact absurd this (Nat.not_lt_zero _)

end Tensor

end TtMlir
