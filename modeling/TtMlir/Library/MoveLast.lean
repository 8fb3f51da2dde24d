import TtMlir.Library.Reshape

/-!
Moving one axis behind the others and back, and repeats of tensors by the position that is
read. A move commutes with a reshape that keeps the axis; a repeat reads the same flat positions
when factors move between neighbouring dims of extent one.
-/

namespace TtMlir

def moveLast (rank axis : Nat) : List Nat := List.range axis ++ (List.range' (axis + 1) (rank - axis - 1) ++ [axis])

def moveBack (rank axis : Nat) : List Nat := List.range axis ++ (rank - 1) :: List.range' axis (rank - 1 - axis)

section Gather

theorem gather_append (values first second : List Nat) :
    gather values (first ++ second) = gather values first ++ gather values second := List.map_append

theorem gather_cons (values rest : List Nat) (axis : Nat) :
    gather values (axis :: rest) = gather values [axis] ++ gather values rest :=
  rfl

theorem gather_middle (front middle back : List Nat) :
    gather (front ++ (middle ++ back)) (List.range' front.length middle.length) = middle := by
  apply ext_getD 0
  · rw [gather_length, List.length_range']
  · intro position inside
    rw [gather_length, List.length_range'] at inside
    have known : position < (List.range' front.length middle.length).length := by rwa [List.length_range']
    rw [gather_getD _ _ _ known, List.getD_eq_getElem _ _ known, List.getElem_range', Nat.one_mul,
      List.getD_append_right _ _ _ _ (by omega),
      Nat.add_sub_cancel_left, List.getD_append _ _ _ _ inside]

theorem gather_front (front back : List Nat) : gather (front ++ back) (List.range front.length) = front := by
  have whole := gather_middle [] front back
  rwa [List.nil_append, List.length_nil, ← List.range_eq_range'] at whole

theorem gather_entry (front back : List Nat) (value : Nat) : gather (front ++ value :: back) [front.length] =
    [value] := by
  unfold gather
  rw [List.map_singleton, getD_middle]

end Gather

section Move
variable {rank axis : Nat} (front back : List Nat) (value : Nat)

theorem gather_moveLast :
    gather (front ++ value :: back) (moveLast (front.length + (back.length + 1)) front.length) =
      front ++ (back ++ [value]) := by
  have count : front.length + (back.length + 1) - front.length - 1 = back.length := by omega
  have behind := gather_middle (front ++ [value]) back []
  rw [List.append_nil, List.length_append, List.length_singleton, List.append_assoc, List.singleton_append] at behind
  unfold moveLast
  rw [count, gather_append, gather_append, gather_front, behind, gather_entry]

theorem gather_moveBack :
    gather (front ++ (back ++ [value])) (moveBack (front.length + (back.length + 1)) front.length) =
      front ++ value :: back := by
  have last : front.length + (back.length + 1) - 1 = (front ++ back).length := by
    rw [List.length_append]
    omega
  have count : front.length + (back.length + 1) - 1 - front.length = back.length := by omega
  have entry := gather_entry (front ++ back) [] value
  rw [List.append_assoc] at entry
  unfold moveBack
  rw [count, last, gather_append, gather_cons, entry, gather_front, gather_middle]
  rfl

theorem range_append (first second : Nat) :
    List.range (first + second) = List.range first ++ List.range' first second := by
  have joined := @List.range'_append_1 0 first second
  rw [Nat.zero_add] at joined
  rw [List.range_eq_range', List.range_eq_range', joined]

theorem range_split (inside : axis < rank) :
    List.range rank = List.range axis ++ axis :: List.range' (axis + 1) (rank - axis - 1) := by
  have later : axis :: List.range' (axis + 1) (rank - axis - 1) = List.range' axis (rank - axis) := by
    rw [show rank - axis = rank - axis - 1 + 1 by omega]
    rfl
  rw [later, ← range_append, Nat.add_sub_cancel' (Nat.le_of_lt inside)]

theorem range_last (inside : axis < rank) :
    List.range rank = List.range axis ++ (List.range' axis (rank - 1 - axis) ++ [rank - 1]) := by
  rw [← List.append_assoc, ← range_append, Nat.add_sub_cancel' (by omega), ← List.range_succ, Nat.succ_eq_add_one,
    Nat.sub_add_cancel (by omega)]

theorem moveLast_permutes (inside : axis < rank) : Permutes rank (moveLast rank axis) := by
  unfold Permutes moveLast
  rw [range_split inside]
  exact List.Perm.append_left _ (List.perm_append_singleton _ _)

theorem moveBack_permutes (inside : axis < rank) : Permutes rank (moveBack rank axis) := by
  unfold Permutes moveBack
  rw [range_last inside]
  exact List.Perm.append_left _ (List.perm_append_singleton _ _).symm

theorem moveLast_gather_moveBack (inside : axis < rank) : gather (moveLast rank axis)
    (moveBack rank axis) = List.range rank := by
  have moved := gather_moveBack (List.range axis) (List.range' (axis + 1) (rank - axis - 1)) axis
  rw [List.length_range, List.length_range', ← range_split inside,
    show axis + (rank - axis - 1 + 1) = rank by omega] at moved
  exact moved

theorem inverse_unique {first second : List Nat} (outer : Permutes rank first) (inner : Permutes rank second)
    (identity : gather first second = List.range rank) : inverse first = second := by
  have below : ∀ axis ∈ second, axis < first.length := fun axis member => by
    rw [outer.length]
    exact (inner.mem axis).mp member
  calc inverse first = gather (inverse first) (List.range rank) := by
        rw [← outer.length, ← inverse_length, gather_range]
    _ = gather (gather (inverse first) first) second := by
        rw [← identity, gather_gather _ _ _ below]
    _ = second := by
        rw [inverse_gather outer, range_gather rank second fun axis member => (inner.mem axis).mp member]

theorem inverse_moveLast (inside : axis < rank) : inverse (moveLast rank axis) = moveBack rank axis :=
  inverse_unique (moveLast_permutes inside) (moveBack_permutes inside) (moveLast_gather_moveBack inside)

theorem inverse_moveBack (inside : axis < rank) : inverse (moveBack rank axis) = moveLast rank axis := by
  apply inverse_unique (moveBack_permutes inside) (moveLast_permutes inside)
  have moved := gather_moveLast (List.range axis) (List.range' axis (rank - 1 - axis)) (rank - 1)
  rw [List.length_range, List.length_range', ← range_last inside,
    show axis + (rank - 1 - axis + 1) = rank by omega] at moved
  exact moved

end Move

namespace Tensor
variable {α : Type}

def repeated (tensor : Tensor α) (counts : List Nat) : Tensor α :=
  { shape := List.zipWith (· * ·) tensor.shape counts
    get := fun index => tensor.get (List.zipWith (fun extent position => position % extent) tensor.shape index) }

theorem permute_read (tensor : Tensor α) (axes index : List Nat) :
    (tensor.permute axes).get index = tensor.get (gather index (inverse axes)) := rfl

section Move
variable (front back front' back' : List Nat) (extent : Nat)

theorem unflatten_last {right : List Nat} {position : Nat} (length : right.length = back'.length)
    (here : position < extent) :
    unflatten (back ++ [extent]) (flatten (back' ++ [extent]) (right ++ [position])) =
      unflatten back (flatten back' right) ++ [position] := by
  rw [flatten_append _ _ _ _ length, unflatten_append]
  have one : flatten [extent] [position] = position := by simp [flatten]
  rw [List.prod_singleton, one, Nat.add_comm, Nat.add_mul_div_right _ _ (by omega), Nat.div_eq_of_lt here, Nat.zero_add]
  congr 1
  simp [unflatten, Nat.mod_eq_of_lt here]

theorem reshape_moveLast (tensor : Tensor α) (shape : tensor.shape = front ++ extent :: back)
    (after : back.prod = back'.prod) :
    Same (((tensor.permute (moveLast (front.length + (back.length + 1)) front.length)).reshape
      (front' ++ (back' ++ [extent]))).permute
      (moveBack (front'.length + (back'.length + 1)) front'.length)) (tensor.reshape (front' ++ extent :: back')) := by
  have moved : (tensor.permute (moveLast (front.length + (back.length + 1)) front.length)).shape =
      front ++ (back ++ [extent]) := by
    change gather tensor.shape _ = _
    rw [shape, gather_moveLast]
  constructor
  · exact gather_moveBack front' back' extent
  · intro index inside
    change Inside (gather (front' ++ (back' ++ [extent])) _) index at inside
    rw [gather_moveBack] at inside
    obtain ⟨left, position, right, rfl, leftInside, here, rightInside⟩ := inside.split
    have leftLength := leftInside.length
    have rightLength := rightInside.length
    have innerLength := unflatten_length front (flatten front' left)
    have outerLength := unflatten_length back (flatten back' right)
    have pairInside : Inside (back' ++ [extent]) (right ++ [position]) :=
      rightInside.append (List.Forall₂.cons here List.Forall₂.nil)
    have single : Inside (extent :: back') (position :: right) := List.Forall₂.cons here rightInside
    have below := flatten_lt back' right rightInside
    -- The position of the dim stays the last digit through both moves and the reshape.
    calc _ = ((tensor.permute (moveLast (front.length + (back.length + 1)) front.length)).reshape
      (front' ++ (back' ++ [extent]))).get
          (left ++ (right ++ [position])) := by
          rw [permute_read, inverse_moveBack (by omega), ← leftLength, ← rightLength, gather_moveLast]
      _ = (tensor.permute (moveLast (front.length + (back.length + 1)) front.length)).get
          (unflatten front (flatten front' left) ++ (unflatten back (flatten back' right) ++ [position])) := by
          rw [reshape_append_get _ front (back ++ [extent]) front' (back' ++ [extent]) left (right ++ [position]) moved
            (by rw [List.prod_append, List.prod_append, after]) leftLength pairInside, unflatten_last _ _ _ rightLength here]
      _ = tensor.get (unflatten front (flatten front' left) ++ position :: unflatten back (flatten back' right)) := by
          rw [permute_read, inverse_moveLast (by omega), ← innerLength, ← outerLength, gather_moveBack]
      _ = _ := by
          rw [reshape_append_get _ front (extent :: back) front' (extent :: back') left (position :: right) shape
            (by rw [List.prod_cons, List.prod_cons, after]) leftLength single, flatten, ← after,
            unflatten_cons extent back position _ here (by rwa [after])]

end Move

def repeatSource (shape counts : List Nat) (flat : Nat) : List Nat :=
  List.zipWith (fun extent position => position % extent) shape (unflatten (List.zipWith (· * ·) shape counts) flat)

theorem zipWith_ones (counts : List Nat) : List.zipWith (· * ·) (List.replicate counts.length 1) counts = counts := by
  induction counts with
  | nil => rfl
  | cons count counts ih => rw [List.length_cons, List.replicate_succ, List.zipWith_cons_cons, ih, Nat.one_mul]

theorem zipWith_mod_ones (index : List Nat) :
    List.zipWith (fun extent position => position % extent)
      (List.replicate index.length 1) index = List.replicate index.length 0 := by
  induction index with
  | nil => rfl
  | cons position index ih => rw [List.length_cons, List.replicate_succ, List.zipWith_cons_cons, ih, Nat.mod_one,
    List.replicate_succ]

theorem repeatSource_moved (front back outer inner counts moved : List Nat) (outerLength : outer.length = front.length)
    (length : moved.length = counts.length) (product : moved.prod = counts.prod) (flat : Nat) :
    repeatSource (front ++ (List.replicate counts.length 1 ++ back)) (outer ++ (moved ++ inner)) flat =
      repeatSource (front ++ (List.replicate counts.length 1 ++ back)) (outer ++ (counts ++ inner)) flat := by
  have middle : ∀ factors : List Nat, factors.length = counts.length → factors.prod = counts.prod →
      repeatSource (front ++ (List.replicate counts.length 1 ++ back)) (outer ++ (factors ++ inner)) flat =
        List.zipWith (fun extent position => position % extent) front (unflatten (List.zipWith (· * ·) front outer)
          (flat / (counts.prod * (List.zipWith (· * ·) back inner).prod))) ++
          (List.replicate counts.length 0 ++ List.zipWith (fun extent position => position % extent) back
            (unflatten (List.zipWith (· * ·) back inner) flat)) := by
    intro factors count volume
    have ones := zipWith_ones factors
    rw [count] at ones
    have zeros := zipWith_mod_ones (unflatten factors (flat / (List.zipWith (· * ·) back inner).prod))
    rw [unflatten_length, count] at zeros
    unfold repeatSource
    rw [List.zipWith_append outerLength.symm, List.zipWith_append (by rw [List.length_replicate, count]), ones,
      unflatten_append, unflatten_append, List.prod_append, volume, List.zipWith_append, List.zipWith_append, zeros]
    · rw [List.length_replicate, unflatten_length, count]
    · rw [unflatten_length, List.length_zipWith, outerLength, Nat.min_self]
  rw [middle moved length product, middle counts rfl rfl]

end Tensor

end TtMlir
