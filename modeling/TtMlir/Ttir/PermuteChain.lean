import TtMlir.Ttir.DecomposePermute

/-!
The decomposition composes to the permutation it replaces. Every part is read
entry by entry; the two outer permutes bring a dim next to the last one and put
the others where they belong.
-/

namespace TtMlir.Ttir

section Entries
variable (n : Nat)

theorem swapLast_inner (wide : 2 ≤ n) : Inner (swapLast n) := by
  unfold Inner
  rw [swapLast_length n wide]
  rfl

theorem outer1Of_length (k : Nat) : (outer1Of n k).length = n := by
  unfold outer1Of
  rw [List.length_set, List.length_set, List.length_range]

theorem outer1Of_getD (k axis : Nat) (known : k < n) (inside : axis < n) :
    (outer1Of n k).getD axis 0 = if axis = k then n - 2 else if axis = n - 2 then k else axis := by
  unfold outer1Of
  by_cases atK : axis = k
  · subst atK
    rw [if_pos rfl, Tensor.getD_set_self _ _ _ (by rwa [List.length_set, List.length_range])]
  · rw [if_neg atK, Tensor.getD_set_other _ _ _ _ (Ne.symm atK)]
    by_cases swapped : axis = n - 2
    · subst swapped
      rw [if_pos rfl, Tensor.getD_set_self _ _ _ (by rwa [List.length_range])]
    · rw [if_neg swapped, Tensor.getD_set_other _ _ _ _ (Ne.symm swapped),
        List.getD_eq_getElem _ _ (by rwa [List.length_range]), List.getElem_range]

theorem outer1Of_permutes (wide : 2 ≤ n) (k : Nat) (known : k < n) : Permutes n (outer1Of n k) := by
  apply Permutes.of_injective (outer1Of_length n k)
  · intro axis inside
    rw [outer1Of_getD n k axis known inside]
    split
    · omega
    · split <;> omega
  · intro left leftInside right rightInside same
    rw [outer1Of_getD n k left known leftInside, outer1Of_getD n k right known rightInside] at same
    split at same <;> split at same <;> try split at same
    all_goals (try split at same) <;> omega

end Entries

section Composition
variable {n : Nat} {permutation : List Nat}

theorem isIdentity_iff : isIdentity permutation = true ↔ permutation = List.range permutation.length := by
  unfold isIdentity
  rw [List.all_eq_true]
  constructor
  · intro entries
    apply ext_getD 0 List.length_range.symm
    intro position inside
    rw [of_decide_eq_true (entries position (List.mem_range.mpr inside)),
      List.getD_eq_getElem _ _ (by rwa [List.length_range]), List.getElem_range]
  · intro identity position member
    have inside := List.mem_range.mp member
    apply decide_eq_true
    rw [identity, List.getD_eq_getElem _ _ (by rwa [List.length_range]), List.getElem_range]

theorem permutes_of_gather {outer inner : List Nat} (length : inner.length = n)
    (below : ∀ axis < n, inner.getD axis 0 < n) (composed : Permutes n (gather outer inner)) : Permutes n inner := by
  apply Permutes.of_injective length below
  intro left leftInside right rightInside same
  apply composed.getD_injective left right leftInside rightInside
  rw [gather_getD _ _ _ (by rwa [length]), gather_getD _ _ _ (by rwa [length]), same]

theorem outerOf_gather (wide : 2 ≤ n) (permutes : Permutes n permutation)
    (nearly : permutation.getD (n - 2) 0 = n - 1) : outerOf permutation = gather permutation (swapLast n) := by
  have length := permutes.length
  have inner := swapLast_length n wide
  unfold outerOf
  rw [length]
  apply ext_getD 0
  · rw [List.length_append, List.length_take, gather_length, inner, length]
    change min (n - 2) n + 2 = n
    omega
  · intro axis inside
    rw [List.length_append, List.length_take, length] at inside
    change axis < min (n - 2) n + 2 at inside
    rw [gather_getD _ _ _ (by omega), swapLast_getD n wide axis (by omega)]
    have front : (permutation.take (n - 2)).length = n - 2 := by
      rw [List.length_take, length]
      omega
    by_cases before : axis < n - 2
    · rw [List.getD_append _ _ _ _ (by rwa [front]), if_neg (by omega), if_neg (by omega),
        List.getD_eq_getElem _ _ (by rwa [front]), List.getElem_take, List.getD_eq_getElem _ _ (by omega)]
    · rw [List.getD_append_right _ _ _ _ (by omega), front]
      by_cases first : axis = n - 2
      · rw [if_pos first, first, Nat.sub_self, List.getD_cons_zero]
      · have second : axis = n - 1 := by omega
        have step : axis - (n - 2) = 1 := by omega
        rw [if_neg first, if_pos second, step, List.getD_cons_succ, List.getD_cons_zero, nearly]

theorem outer2Of_length (wide : 2 ≤ n) (permutes : Permutes n permutation) : (outer2Of permutation).length = n := by
  unfold outer2Of
  rw [List.length_append, List.length_map, List.length_take, permutes.length, List.length_singleton]
  omega

theorem outer2Of_getD (permutes : Permutes n permutation) (axis : Nat) (inside : axis < n) :
    (outer2Of permutation).getD axis 0 =
      if axis = n - 1 then n - 1
      else if permutation.getD axis 0 = n - 2 then permutation.getD (n - 1) 0
      else if permutation.getD axis 0 = n - 1 then n - 2 else permutation.getD axis 0 := by
  have length := permutes.length
  unfold outer2Of
  rw [length]
  have front : (permutation.take (n - 1)).length = n - 1 := by
    rw [List.length_take, length]
    omega
  by_cases last : axis = n - 1
  · rw [if_pos last, List.getD_append_right _ _ _ _
      (by rw [List.length_map, front, last]), List.length_map, front, last,
      Nat.sub_self, List.getD_cons_zero]
  · have before : axis < (permutation.take (n - 1)).length := by omega
    rw [if_neg last, List.getD_append _ _ _ _ (by rwa [List.length_map]),
      List.getD_eq_getElem (List.map _ _) _ (by rwa [List.length_map]), List.getElem_map, List.getElem_take,
      List.getD_eq_getElem permutation _ (show axis < permutation.length by omega)]

theorem three_compose (wide : 2 ≤ n) (permutes : Permutes n permutation)
    (moved : permutation.getD (n - 1) 0 ≠ n - 1) :
    gather (gather (outer1Of n (permutation.getD (n - 1) 0)) (swapLast n)) (outer2Of permutation) =
      permutation := by
  have length := permutes.length
  have known := permutes.getD_lt (n - 1) (by omega)
  have size := outer2Of_length wide permutes
  have inner := swapLast_length n wide
  apply ext_getD 0
  · rw [gather_length, size, length]
  · intro axis inside
    rw [gather_length, size] at inside
    have entry := permutes.getD_lt axis inside
    have different : axis ≠ n - 1 → permutation.getD axis 0 ≠ permutation.getD (n - 1) 0 := fun other same =>
      other (permutes.getD_injective axis (n - 1) inside (by omega) same)
    have located : (outer2Of permutation).getD axis 0 < n := by
      rw [outer2Of_getD permutes axis inside]
      split
      · omega
      · split
        · exact known
        · split <;> omega
    have swapped : (swapLast n).getD ((outer2Of permutation).getD axis 0) 0 < n :=
      (swapLast_permutes n wide).getD_lt _ located
    have outer := outer2Of_getD permutes axis inside
    rw [gather_getD _ _ _ (by rwa [size]), gather_getD _ _ _ (by rwa [inner]), outer1Of_getD n _ _ known swapped]
    by_cases last : axis = n - 1
    · rw [if_pos last] at outer
      rw [outer, swapLast_last n wide, last]
      split
      · omega
      · rw [if_pos rfl]
    · have apart := different last
      rw [if_neg last] at outer
      by_cases lastButOne : permutation.getD axis 0 = n - 2
      · rw [if_pos lastButOne] at outer
        rw [outer, swapLast_front n wide _ (by omega), if_pos rfl, lastButOne]
      · rw [if_neg lastButOne] at outer
        by_cases lastOne : permutation.getD axis 0 = n - 1
        · rw [if_pos lastOne] at outer
          rw [outer, swapLast_lastButOne n wide, if_neg (Ne.symm moved), if_neg (by omega), lastOne]
        · rw [if_neg lastOne] at outer
          rw [outer, swapLast_front n wide _ (by omega), if_neg apart, if_neg lastButOne]

theorem outer2Of_permutes (wide : 2 ≤ n) (permutes : Permutes n permutation)
    (moved : permutation.getD (n - 1) 0 ≠ n - 1) : Permutes n (outer2Of permutation) := by
  have known := permutes.getD_lt (n - 1) (by omega)
  apply permutes_of_gather (outer2Of_length wide permutes)
  · intro axis inside
    have entry := permutes.getD_lt axis inside
    rw [outer2Of_getD permutes axis inside]
    split
    · omega
    · split
      · exact known
      · split <;> omega
  · rw [three_compose wide permutes moved]
    exact permutes

end Composition

end TtMlir.Ttir
