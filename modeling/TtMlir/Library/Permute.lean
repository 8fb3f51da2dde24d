import Mathlib.Data.List.Nodup
import TtMlir.Library.Lists
import TtMlir.Library.Tensor

/-!
Permutations of axes as lists, and the tensors whose axes they permute. Gathering
reads the entry of each axis, so the last permutation of a sequence is read first.
-/

namespace TtMlir

def Permutes (rank : Nat) (axes : List Nat) : Prop := axes.Perm (List.range rank)

instance (rank : Nat) (axes : List Nat) : Decidable (Permutes rank axes) := by
  unfold Permutes
  infer_instance

def gather (values axes : List Nat) : List Nat := axes.map fun axis => values.getD axis 0

def inverse (axes : List Nat) : List Nat := (List.range axes.length).map axes.idxOf

namespace Permutes
variable {rank : Nat} {axes : List Nat}

section
variable (permutes : Permutes rank axes)
include permutes

theorem length : axes.length = rank :=
  permutes.length_eq.trans List.length_range

theorem mem (axis : Nat) : axis ∈ axes ↔ axis < rank :=
  permutes.mem_iff.trans List.mem_range

theorem nodup : axes.Nodup := permutes.nodup_iff.mpr List.nodup_range

theorem getD_lt (position : Nat) (inside : position < rank) :
    axes.getD position 0 < rank := by
  have known : position < axes.length := by rwa [permutes.length]
  rw [List.getD_eq_getElem _ _ known]
  exact (permutes.mem _).mp (List.getElem_mem known)

theorem getD_injective (left right : Nat) (leftInside : left < rank)
    (rightInside : right < rank) (same : axes.getD left 0 = axes.getD right 0) : left = right := by
  rw [List.getD_eq_getElem _ _ (by rwa [permutes.length]), List.getD_eq_getElem _ _ (by rwa [permutes.length])] at same
  exact (permutes.nodup.getElem_inj_iff).mp same

theorem idxOf_lt (axis : Nat) (inside : axis < rank) : axes.idxOf axis < rank := by
  have located := List.idxOf_lt_length_of_mem ((permutes.mem axis).mpr inside)
  rwa [permutes.length] at located

theorem getD_idxOf (axis : Nat) (inside : axis < rank) :
    axes.getD (axes.idxOf axis) 0 = axis := by
  have located := List.idxOf_lt_length_of_mem ((permutes.mem axis).mpr inside)
  rw [List.getD_eq_getElem _ _ located, List.getElem_idxOf]

theorem idxOf_getD (position : Nat) (inside : position < rank) :
    axes.idxOf (axes.getD position 0) = position := by
  apply permutes.getD_injective
  · exact permutes.idxOf_lt _ (permutes.getD_lt position inside)
  · exact inside
  · exact permutes.getD_idxOf _ (permutes.getD_lt position inside)

end

theorem of_injective (length : axes.length = rank) (below : ∀ position < rank, axes.getD position 0 < rank)
    (injective : ∀ left < rank, ∀ right < rank, axes.getD left 0 = axes.getD right 0 → left = right) :
    Permutes rank axes := by
  have nodup : axes.Nodup := by
    rw [List.nodup_iff_injective_get]
    rintro ⟨left, leftInside⟩ ⟨right, rightInside⟩ same
    have position := injective left (by omega) right (by omega) (by
      rw [List.getD_eq_getElem _ _ leftInside, List.getD_eq_getElem _ _ rightInside]
      exact same)
    exact Fin.ext position
  have inRange : axes ⊆ List.range rank := by
    intro axis member
    obtain ⟨position, inside, found⟩ := List.getElem_of_mem member
    have bound := below position (by omega)
    rw [List.getD_eq_getElem _ _ inside, found] at bound
    exact List.mem_range.mpr bound
  exact (List.subperm_of_subset nodup inRange).perm_of_length_le (by rw [List.length_range, length])

theorem range (rank : Nat) : Permutes rank (List.range rank) := List.Perm.refl _

end Permutes

section Gather

theorem gather_length (values axes : List Nat) : (gather values axes).length = axes.length := List.length_map _

theorem gather_getD (values axes : List Nat) (position : Nat) (inside : position < axes.length) :
    (gather values axes).getD position 0 = values.getD (axes.getD position 0) 0 := by
  rw [List.getD_eq_getElem _ _ (by rwa [gather_length]), List.getD_eq_getElem axes _ inside]
  exact List.getElem_map _

theorem gather_gather (values first second : List Nat) (below : ∀ axis ∈ second, axis < first.length) :
    gather (gather values first) second = gather values (gather first second) := by
  unfold gather
  rw [List.map_map]
  apply List.map_congr_left
  intro axis member
  exact gather_getD values first axis (below axis member)

theorem gather_range (values : List Nat) : gather values (List.range values.length) = values :=
  map_range_getD 0 values

theorem range_gather (rank : Nat) (axes : List Nat) (below : ∀ axis ∈ axes, axis < rank) :
    gather (List.range rank) axes = axes := by
  unfold gather
  conv_rhs => rw [← List.map_id axes]
  apply List.map_congr_left
  intro axis member
  rw [List.getD_eq_getElem _ _ (by rw [List.length_range]; exact below axis member), List.getElem_range, id]

theorem Permutes.gather {rank : Nat} {first second : List Nat} (outer : Permutes rank first)
    (inner : Permutes rank second) : Permutes rank (gather first second) := by
  have entry : ∀ position < rank, (TtMlir.gather first second).getD position 0 =
      first.getD (second.getD position 0) 0 :=
    fun position inside => gather_getD first second position (by rwa [inner.length])
  apply Permutes.of_injective
  · rw [gather_length, inner.length]
  · intro position inside
    rw [entry position inside]
    exact outer.getD_lt _ (inner.getD_lt position inside)
  · intro left leftInside right rightInside same
    rw [entry left leftInside, entry right rightInside] at same
    exact inner.getD_injective left right leftInside rightInside
      (outer.getD_injective _ _ (inner.getD_lt left leftInside) (inner.getD_lt right rightInside) same)

theorem inverse_length (axes : List Nat) : (inverse axes).length = axes.length := by
  rw [inverse, List.length_map, List.length_range]

section
variable {rank : Nat} {axes : List Nat} (permutes : Permutes rank axes)
include permutes

theorem inverse_getD (axis : Nat)
    (inside : axis < rank) :
    (inverse axes).getD axis 0 = axes.idxOf axis := by
  have known : axis < (List.range axes.length).length := by rwa [List.length_range, permutes.length]
  unfold inverse
  rw [List.getD_eq_getElem _ _ (by rwa [List.length_map]), List.getElem_map, List.getElem_range]

theorem Permutes.inverse :
    Permutes rank (inverse axes) := by
  apply Permutes.of_injective
  · rw [inverse_length, permutes.length]
  · intro axis inside
    rw [inverse_getD permutes axis inside]
    exact permutes.idxOf_lt axis inside
  · intro left leftInside right rightInside same
    rw [inverse_getD permutes left leftInside, inverse_getD permutes right rightInside] at same
    rw [← permutes.getD_idxOf left leftInside, same, permutes.getD_idxOf right rightInside]

theorem gather_inverse :
    gather axes (inverse axes) = List.range rank := by
  apply ext_getD 0
  · rw [gather_length, inverse_length, permutes.length, List.length_range]
  · intro axis inside
    rw [gather_length, inverse_length, permutes.length] at inside
    rw [gather_getD _ _ _ (by rwa [inverse_length, permutes.length]), inverse_getD permutes axis inside,
      permutes.getD_idxOf axis inside, List.getD_eq_getElem _ _ (by rwa [List.length_range]), List.getElem_range]

theorem inverse_gather :
    gather (inverse axes) axes = List.range rank := by
  apply ext_getD 0
  · rw [gather_length, permutes.length, List.length_range]
  · intro position inside
    rw [gather_length, permutes.length] at inside
    rw [gather_getD _ _ _ (by rwa [permutes.length]), inverse_getD permutes _ (permutes.getD_lt position inside),
      permutes.idxOf_getD position inside, List.getD_eq_getElem _ _ (by rwa [List.length_range]), List.getElem_range]

end

theorem inverse_of_gather {rank : Nat} {first second : List Nat} (outer : Permutes rank first)
    (inner : Permutes rank second) : inverse (gather first second) = gather (inverse second) (inverse first) := by
  have both := outer.gather inner
  apply ext_getD 0
  · rw [inverse_length, gather_length, gather_length, inverse_length, inner.length, outer.length]
  · intro axis inside
    rw [inverse_length, gather_length, inner.length] at inside
    have located := outer.idxOf_lt axis inside
    have place := inner.idxOf_lt _ located
    rw [gather_getD _ _ _ (by rwa [inverse_length, outer.length]), inverse_getD outer axis inside,
      inverse_getD inner _ located, inverse_getD both axis inside]
    have entry : (gather first second).getD (second.idxOf (first.idxOf axis)) 0 = axis := by
      rw [gather_getD _ _ _ (by rwa [inner.length]), inner.getD_idxOf _ located, outer.getD_idxOf axis inside]
    conv_lhs => rw [← entry]
    exact both.idxOf_getD _ place

theorem Inside.gather {shape index : List Nat} (inside : Inside shape index) (axes : List Nat)
    (below : ∀ axis ∈ axes, axis < shape.length) : Inside (gather shape axes) (gather index axes) := by
  unfold Inside TtMlir.gather
  exact List.forall₂_map_left_iff.mpr (List.forall₂_map_right_iff.mpr
    (List.forall₂_same.mpr fun axis member => inside.getD_lt axis (below axis member)))

end Gather

def swapLast (rank : Nat) : List Nat := List.range (rank - 2) ++ [rank - 1, rank - 2]

section SwapLast
variable (n : Nat)

theorem swapLast_length (wide : 2 ≤ n) : (swapLast n).length = n := by
  unfold swapLast
  rw [List.length_append, List.length_range]
  exact Nat.sub_add_cancel wide

theorem swapLast_getD (wide : 2 ≤ n) (axis : Nat) (inside : axis < n) :
    (swapLast n).getD axis 0 = if axis = n - 2 then n - 1 else if axis = n - 1 then n - 2 else axis := by
  unfold swapLast
  by_cases front : axis < n - 2
  · rw [List.getD_append _ _ _ _ (by rwa [List.length_range]), if_neg (by omega), if_neg (by omega),
      List.getD_eq_getElem _ _ (by rwa [List.length_range]), List.getElem_range]
  · rw [List.getD_append_right _ _ _ _ (by rw [List.length_range]; omega), List.length_range]
    by_cases first : axis = n - 2
    · rw [if_pos first, first, Nat.sub_self, List.getD_cons_zero]
    · have second : axis = n - 1 := by omega
      have step : axis - (n - 2) = 1 := by omega
      rw [if_neg first, if_pos second, step, List.getD_cons_succ, List.getD_cons_zero]

theorem swapLast_permutes (wide : 2 ≤ n) : Permutes n (swapLast n) := by
  apply Permutes.of_injective (swapLast_length n wide)
  · intro axis inside
    rw [swapLast_getD n wide axis inside]
    split
    · omega
    · split <;> omega
  · intro left leftInside right rightInside same
    rw [swapLast_getD n wide left leftInside, swapLast_getD n wide right rightInside] at same
    split at same <;> split at same <;> try split at same
    all_goals (try split at same) <;> omega

theorem swapLast_front (wide : 2 ≤ n) (axis : Nat) (front : axis < n - 2) : (swapLast n).getD axis 0 = axis := by
  rw [swapLast_getD n wide axis (by omega), if_neg (by omega), if_neg (by omega)]

theorem swapLast_lastButOne (wide : 2 ≤ n) : (swapLast n).getD (n - 2) 0 = n - 1 := by
  rw [swapLast_getD n wide _ (by omega), if_pos rfl]

theorem swapLast_last (wide : 2 ≤ n) : (swapLast n).getD (n - 1) 0 = n - 2 := by
  rw [swapLast_getD n wide _ (by omega), if_neg (by omega), if_pos rfl]

theorem swapLast_swapLast (wide : 2 ≤ n) : gather (swapLast n) (swapLast n) = List.range n := by
  have length := swapLast_length n wide
  apply ext_getD 0
  · rw [gather_length, length, List.length_range]
  · intro axis inside
    rw [gather_length, length] at inside
    rw [gather_getD _ _ _ (by rwa [length]), List.getD_eq_getElem (List.range n) _ (by rwa [List.length_range]),
      List.getElem_range]
    have place : axis < n - 2 ∨ axis = n - 2 ∨ axis = n - 1 := by omega
    rcases place with front | rfl | rfl
    · rw [swapLast_front n wide axis front, swapLast_front n wide axis front]
    · rw [swapLast_lastButOne n wide, swapLast_last n wide]
    · rw [swapLast_last n wide, swapLast_lastButOne n wide]

theorem inverse_involution {rank : Nat} {axes : List Nat} (permutes : Permutes rank axes)
    (involution : gather axes axes = List.range rank) : inverse axes = axes := by
  apply ext_getD 0 (inverse_length axes)
  intro axis inside
  rw [inverse_length, permutes.length] at inside
  have twice : axes.getD (axes.getD axis 0) 0 = axis := by
    rw [← gather_getD _ _ _ (by rwa [permutes.length]), involution,
      List.getD_eq_getElem _ _ (by rwa [List.length_range]), List.getElem_range]
  rw [inverse_getD permutes axis inside]
  conv_lhs => rw [← twice]
  exact permutes.idxOf_getD _ (permutes.getD_lt axis inside)

theorem inverse_swapLast (wide : 2 ≤ n) : inverse (swapLast n) = swapLast n :=
  inverse_involution (swapLast_permutes n wide) (swapLast_swapLast n wide)

theorem gather_swapLast (front : List Nat) (first second : Nat) :
    gather (front ++ [first, second]) (swapLast (front.length + 2)) = front ++ [second, first] := by
  have identity : gather (front ++ [first, second]) (List.range front.length) = front := by
    apply ext_getD 0
    · rw [gather_length, List.length_range]
    · intro position inside
      rw [gather_length, List.length_range] at inside
      rw [gather_getD _ _ _ (by rwa [List.length_range]),
        List.getD_eq_getElem (List.range _) _ (by rwa [List.length_range]), List.getElem_range,
        List.getD_append _ _ _ _ inside]
  have split : gather (front ++ [first, second]) (swapLast (front.length + 2)) =
      gather (front ++ [first, second]) (List.range front.length) ++
        gather (front ++ [first, second]) [front.length + 1, front.length] := List.map_append
  rw [split, identity]
  congr 1
  unfold gather
  rw [List.map_cons, List.map_singleton, List.getD_append_right _ _ _ _ (Nat.le_add_right _ 1),
    List.getD_append_right _ _ _ _ (Nat.le_refl _), Nat.sub_self, Nat.add_sub_cancel_left]
  rfl

end SwapLast

namespace Tensor
variable {α : Type}

/-- Axis `i` of the result is axis `axes[i]` of the tensor. -/
def permute (tensor : Tensor α) (axes : List Nat) : Tensor α :=
  { shape := gather tensor.shape axes, get := fun index => tensor.get (gather index (inverse axes)) }

theorem permute_permute (tensor : Tensor α) {rank : Nat} {first second : List Nat} (outer : Permutes rank first)
    (inner : Permutes rank second) : (tensor.permute first).permute second = tensor.permute (gather first second) := by
  ext1
  · apply gather_gather
    intro axis member
    rw [outer.length]
    exact (inner.mem axis).mp member
  · funext index
    change tensor.get (gather (gather index (inverse second)) (inverse first)) =
      tensor.get (gather index (inverse (gather first second)))
    rw [inverse_of_gather outer inner, gather_gather]
    intro axis member
    rw [inverse_length, inner.length]
    exact (outer.inverse.mem axis).mp member

theorem permute_range (tensor : Tensor α) : Same (tensor.permute (List.range tensor.shape.length)) tensor := by
  constructor
  · exact gather_range tensor.shape
  · intro index inside
    have length : index.length = tensor.shape.length := by
      rw [inside.length]
      exact (gather_length _ _).trans List.length_range
    have identity : inverse (List.range tensor.shape.length) = List.range tensor.shape.length := by
      have inverted := gather_inverse (Permutes.range tensor.shape.length)
      rwa [range_gather] at inverted
      intro axis member
      exact ((Permutes.range _).inverse.mem axis).mp member
    change tensor.get (gather index (inverse (List.range tensor.shape.length))) = _
    rw [identity, ← length, gather_range]

theorem Same.permute {left right : Tensor α} (same : Same left right) {axes : List Nat}
    (permutes : Permutes left.shape.length axes) : Same (left.permute axes) (right.permute axes) := by
  constructor
  · change gather left.shape axes = gather right.shape axes
    rw [same.1]
  · intro index inside
    have length : index.length = axes.length := inside.length.trans (gather_length _ _)
    have back := inside.gather (inverse axes) fun axis member => by
      rw [show (left.permute axes).shape.length = axes.length from gather_length _ _, permutes.length]
      exact (permutes.inverse.mem axis).mp member
    change Inside (gather (gather left.shape axes) (inverse axes)) _ at back
    rw [gather_gather _ _ _ fun axis member => by rw [permutes.length]; exact (permutes.inverse.mem axis).mp member,
      gather_inverse permutes, gather_range] at back
    exact same.2 _ back

end Tensor

end TtMlir
