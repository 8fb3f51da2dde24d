import TtMlir.Library.Permute

/-!
Reshapes as row-major flat positions. A reshape of a reshape is one reshape, and
swapping two neighbouring axes is a reshape exactly when one of them is of extent 1
or their order does not show.
-/

namespace TtMlir.Tensor

variable {α : Type}

theorem inside_of_flat (shape : List Nat) (flat : Nat) (below : flat < shape.prod) :
    Inside shape (unflatten shape flat) := by
  apply unflatten_inside
  exact List.prod_pos_iff_forall_pos_nat.mp (Nat.lt_of_le_of_lt (Nat.zero_le flat) below)

theorem reshape_self (tensor : Tensor α) : Same (tensor.reshape tensor.shape) tensor := by
  constructor
  · rfl
  · intro index inside
    exact reshape_get tensor tensor.shape index index inside rfl

theorem reshape_reshape (tensor : Tensor α) (middle shape : List Nat) (volume : middle.prod = shape.prod) :
    Same ((tensor.reshape middle).reshape shape) (tensor.reshape shape) := by
  constructor
  · rfl
  · intro index inside
    have below := flatten_lt shape index inside
    rw [← volume] at below
    change tensor.get (unflatten tensor.shape (flatten middle (unflatten middle (flatten shape index)))) = _
    rw [flatten_unflatten middle _ below]
    rfl

theorem Same.reshape {left right : Tensor α} (same : Same left right) (shape : List Nat)
    (volume : left.shape.prod = shape.prod) : Same (left.reshape shape) (right.reshape shape) := by
  constructor
  · rfl
  · intro index inside
    have below := flatten_lt shape index inside
    rw [← volume] at below
    change left.get (unflatten left.shape (flatten shape index)) =
      right.get (unflatten right.shape (flatten shape index))
    rw [← same.1]
    exact same.2 _ (inside_of_flat left.shape _ below)

theorem reshape_append_get (tensor : Tensor α) (front back front' back' left right : List Nat)
    (shape : tensor.shape = front ++ back) (volume : back.prod = back'.prod) (length : left.length = front'.length)
    (inside : Inside back' right) : (tensor.reshape (front' ++ back')).get (left ++ right) =
      tensor.get (unflatten front (flatten front' left) ++ unflatten back (flatten back' right)) := by
  have below := flatten_lt back' right inside
  change tensor.get (unflatten tensor.shape (flatten (front' ++ back') (left ++ right))) = _
  rw [shape, flatten_append _ _ _ _ length, ← volume, unflatten_append, unflatten_add, Nat.add_comm,
    Nat.add_mul_div_right _ _ (by omega), Nat.div_eq_of_lt (by omega), Nat.zero_add]

theorem unflatten_cons (extent : Nat) (back : List Nat) (position flat : Nat) (here : position < extent)
    (below : flat < back.prod) : unflatten (extent :: back) (position * back.prod + flat) =
      position :: unflatten back flat := by
  rw [unflatten, unflatten_add, Nat.add_comm, Nat.add_mul_div_right _ _ (by omega), Nat.div_eq_of_lt below,
    Nat.zero_add, Nat.mod_eq_of_lt here]

theorem flatten_pair (front index : List Nat) (length : index.length = front.length) (first second i j : Nat) :
    flatten (front ++ [first, second])
      (index ++ [i, j]) = flatten front index * (first * second) + (i * second + j) := by
  rw [flatten_append _ _ _ _ length]
  simp [flatten]

section SwapLast
variable (tensor : Tensor α) (front : List Nat) (first second : Nat)

theorem permute_swapLast_shape (shape : tensor.shape = front ++ [first, second]) :
    (tensor.permute (swapLast (front.length + 2))).shape = front ++ [second, first] := by
  change gather tensor.shape _ = _
  rw [shape, gather_swapLast]

theorem permute_swapLast_get (index : List Nat) (i j : Nat) (length : index.length = front.length) :
    (tensor.permute (swapLast (front.length + 2))).get (index ++ [j, i]) = tensor.get (index ++ [i, j]) := by
  change tensor.get (gather _ (inverse _)) = _
  rw [inverse_swapLast _ (Nat.le_add_left 2 _), ← length, gather_swapLast]

theorem permute_swapLast (shape : tensor.shape = front ++ [first, second]) (unit : first = 1 ∨ second = 1) :
    Same (tensor.permute (swapLast (front.length + 2))) (tensor.reshape (front ++ [second, first])) := by
  constructor
  · exact permute_swapLast_shape tensor front first second shape
  · intro index inside
    rw [permute_swapLast_shape tensor front first second shape] at inside
    obtain ⟨before, j, rest, rfl, beforeInside, jBelow, restInside⟩ := inside.split
    cases restInside with
    | cons iBelow none =>
        cases none
        rename_i i
        have length := beforeInside.length
        rw [permute_swapLast_get tensor front before i j length]
        refine (reshape_get tensor _ _ (before ++ [i, j]) ?_ ?_).symm
        · rw [shape]
          exact beforeInside.append (List.Forall₂.cons iBelow (List.Forall₂.cons jBelow List.Forall₂.nil))
        · rw [shape, flatten_pair front before length, flatten_pair front before length, Nat.mul_comm second first]
          congr 1
          rcases unit with rfl | rfl
          · obtain rfl : i = 0 := by omega
            omega
          · obtain rfl : j = 0 := by omega
            omega

end SwapLast

end TtMlir.Tensor
