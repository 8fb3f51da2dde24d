import TtMlir.Library.Permute

/-!
Axes in consecutive groups. A dim that holds a group of axes splits into their digits, and
permuting the groups permutes the axes, so a permutation that is undone group by group is
a reshape.
-/

namespace TtMlir

variable {α : Type}

theorem unflatten_groups (groups : List (List Nat)) (index : List Nat) (inside : Inside (groups.map List.prod) index) :
    unflatten groups.flatten (flatten (groups.map List.prod) index) = (List.zipWith unflatten groups index).flatten := by
  induction groups generalizing index with
  | nil => cases inside; rfl
  | cons group rest ih =>
      cases inside with
      | @cons position _ index _ here inner =>
          have below := flatten_lt _ _ inner
          have volume : (rest.map List.prod).prod = rest.flatten.prod := List.prod_flatten.symm
          have quotient : (position * (rest.map List.prod).prod + flatten
              (rest.map List.prod) index) / rest.flatten.prod =
              position := by
            rw [volume] at below ⊢
            rw [Nat.mul_comm, Nat.mul_add_div (by omega), Nat.div_eq_of_lt below, Nat.add_zero]
          rw [List.map_cons, flatten, List.flatten_cons, unflatten_append, quotient, volume, unflatten_add,
            ih index inner]
          rfl

section Lookup

variable {axes digits other : List Nat} {rank : Nat}

theorem gather_of_zip_perm (permutes : Permutes rank axes) (length : digits.length = rank)
    (otherLength : other.length = rank)
    (same : ((List.range rank).zip other).Perm (axes.zip digits)) : gather digits (inverse axes) = other := by
  apply ext_getD 0
  · rw [gather_length, inverse_length, permutes.length, otherLength]
  · intro axis inside
    rw [gather_length, inverse_length, permutes.length] at inside
    rw [gather_getD _ _ _ (by rwa [inverse_length, permutes.length]), inverse_getD permutes axis inside]
    have listed : (axis, other.getD axis 0) ∈ (List.range rank).zip other := by
      rw [List.mem_iff_getElem]
      refine ⟨axis, by simp [inside, otherLength], ?_⟩
      rw [List.getElem_zip, List.getElem_range, List.getD_eq_getElem _ _ (by omega)]
    obtain ⟨position, here, found⟩ := List.mem_iff_getElem.mp (same.mem_iff.mp listed)
    rw [List.getElem_zip, Prod.mk.injEq] at found
    rw [List.length_zip, permutes.length, length, Nat.min_self] at here
    have place : axes.idxOf axis = position := by
      rw [← found.1, ← List.getD_eq_getElem axes 0 (by rwa [permutes.length])]
      exact permutes.idxOf_getD position here
    rw [place, List.getD_eq_getElem _ _ (by omega)]
    exact found.2

end Lookup

section Groups

def groupDigits (shape : List Nat) (groups : List (List Nat)) (index : List Nat) : List (List (Nat × Nat)) :=
  List.zipWith (fun group position => group.zip (unflatten (gather shape group) position)) groups index

theorem groupDigits_zip (shape : List Nat) (groups : List (List Nat)) (index : List Nat)
    (length : groups.length = index.length) :
    (groupDigits shape groups index).flatten =
      groups.flatten.zip (List.zipWith unflatten (groups.map (gather shape)) index).flatten := by
  induction groups generalizing index with
  | nil => rfl
  | cons group rest ih =>
      cases index with
      | nil => simp at length
      | cons position index =>
          have width : group.length = (unflatten (gather shape group) position).length := by
            rw [unflatten_length, gather_length]
          have tail := ih index (Nat.succ.inj length)
          simp only [groupDigits, List.zipWith_cons_cons, List.map_cons, List.flatten_cons] at tail ⊢
          rw [tail, List.zip_append width]

theorem groupDigits_gather (shape : List Nat) (groups : List (List Nat)) (index axes : List Nat)
    (length : groups.length = index.length) (below : ∀ axis ∈ axes, axis < groups.length) :
    groupDigits shape (axes.map (groups.getD · [])) (gather index axes) =
      axes.map ((groupDigits shape groups index).getD · []) := by
  unfold groupDigits gather
  rw [List.zipWith_map, List.zipWith_self]
  apply List.map_congr_left
  intro axis member
  have here := below axis member
  rw [List.getD_eq_getElem _ _ here, List.getD_eq_getElem index _ (by omega), List.getD_eq_getElem _ _ (by simp; omega),
    List.getElem_zipWith]

theorem map_getD_perm {β : Type} (values : List β) (default : β) {axes : List Nat}
    (permutes : Permutes values.length axes) :
    (axes.map (values.getD · default)).Perm values := by
  have identity : (List.range values.length).map (values.getD · default) = values := by
    apply List.ext_getElem (by simp)
    intro position _ here
    rw [List.getElem_map, List.getElem_range, List.getD_eq_getElem _ _ here]
  exact (permutes.map _).trans (List.Perm.of_eq identity)

theorem inside_inverse {sizes index axes : List Nat} (permutes : Permutes sizes.length axes)
    (inside : Inside (gather sizes axes) index) :
    Inside sizes (gather index (inverse axes)) ∧ gather (gather index (inverse axes)) axes = index := by
  have belowAxes (axis : Nat) (member : axis ∈ axes) : axis < sizes.length := (permutes.mem axis).mp member
  have belowInverse (axis : Nat) (member : axis ∈ inverse axes) : axis < sizes.length :=
    (permutes.inverse.mem axis).mp member
  have indexLength : index.length = sizes.length := by rw [inside.length, gather_length, permutes.length]
  constructor
  · have moved := inside.gather (inverse axes) (by rw [gather_length, permutes.length]; exact belowInverse)
    rwa [gather_gather _ _ _ (by rw [permutes.length]; exact belowInverse), gather_inverse permutes, gather_range] at moved
  · rw [gather_gather _ _ _ (by rw [inverse_length, permutes.length]; exact belowAxes), inverse_gather permutes,
      ← indexLength, gather_range]

namespace Tensor

/-- Axes are permuted, split into consecutive groups that become one dim each, and the groups
permuted: one reshape, when the groups then list the axes in order. -/
theorem permute_reshape_permute (tensor : Tensor α) {first last sizes : List Nat} {groups : List (List Nat)}
    (permutes : Permutes tensor.shape.length first) (grouped : groups.flatten = first)
    (volumes : (groups.map (gather tensor.shape)).map List.prod = sizes) (lastPermutes : Permutes sizes.length last)
    (ordered : (last.map (groups.getD · [])).flatten = List.range tensor.shape.length) :
    Same (tensor.reshape (gather sizes last)) (((tensor.permute first).reshape sizes).permute last) := by
  refine ⟨rfl, fun index inside => ?_⟩
  obtain ⟨sourceInside, indexEq⟩ := inside_inverse lastPermutes inside
  change tensor.get (unflatten tensor.shape (flatten (gather sizes last) index)) = tensor.get (gather
    (unflatten (gather tensor.shape first) (flatten sizes (gather index (inverse last)))) (inverse first))
  generalize gather index (inverse last) = source at sourceInside indexEq
  subst indexEq
  have count : groups.length = sizes.length := by simp [← volumes]
  have below (axis : Nat) (member : axis ∈ last) : axis < groups.length := count ▸ (lastPermutes.mem axis).mp member
  -- the dims of the groups, as they are permuted first and in the order of the axes
  have dims : gather tensor.shape first = (groups.map (gather tensor.shape)).flatten := by
    rw [← grouped]
    exact List.map_flatten
  have orderedDims : tensor.shape = ((last.map (groups.getD · [])).map (gather tensor.shape)).flatten := by
    conv_lhs => rw [← gather_range tensor.shape, ← ordered]
    exact List.map_flatten
  have orderedVolumes : gather sizes last = ((last.map (groups.getD · [])).map (gather tensor.shape)).map List.prod := by
    rw [← volumes, List.map_map, List.map_map, List.map_map]
    refine List.map_congr_left fun axis member => ?_
    have here := below axis member
    rw [List.getD_eq_getElem _ _ (by rwa [List.length_map]), List.getElem_map]
    simp [here]
  have left : unflatten tensor.shape (flatten (gather sizes last) (gather source last)) =
      (List.zipWith unflatten ((last.map (groups.getD · [])).map (gather tensor.shape))
        (gather source last)).flatten := by
    conv_lhs => arg 1; rw [orderedDims]
    rw [orderedVolumes]
    apply unflatten_groups
    rwa [← orderedVolumes]
  have right : unflatten (gather tensor.shape first) (flatten sizes source) =
      (List.zipWith unflatten (groups.map (gather tensor.shape)) source).flatten := by
    rw [dims, ← volumes]
    apply unflatten_groups
    rwa [volumes]
  have sourceLength : groups.length = source.length := count.trans sourceInside.length.symm
  have listed := groupDigits_zip tensor.shape groups source sourceLength
  have orderedListed := groupDigits_zip tensor.shape (last.map (groups.getD · [])) (gather source last)
    (by rw [gather_length, List.length_map])
  rw [groupDigits_gather tensor.shape groups source last sourceLength below, ordered, ← left] at orderedListed
  rw [grouped, ← right] at listed
  congr 1
  refine (gather_of_zip_perm permutes ?_ ?_ ?_).symm
  · rw [unflatten_length, gather_length, permutes.length]
  · rw [unflatten_length]
  · rw [← listed, ← orderedListed]
    apply List.Perm.flatten
    apply map_getD_perm
    rwa [groupDigits, List.length_zipWith, ← sourceLength, Nat.min_self, count]

end Tensor

end Groups

end TtMlir
