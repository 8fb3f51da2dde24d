import TtMlir.Ttir.PermuteChain

/-!
The pass over a module. A permute that swaps the last two dims is taken for an
inner one whatever it does to the others, so it stays as it is.
-/

namespace TtMlir.Ttir

section Parts
variable {n : Nat} {permutation : List Nat}

theorem outer_iff (length : permutation.length = n) : Outer permutation ↔ permutation.getD (n - 1) 0 = n - 1 := by
  unfold Outer
  rw [length]

theorem identity_gather (input : List Nat) (length : permutation.length = input.length)
    (identity : isIdentity permutation = true) : gather input permutation = input := by
  rw [isIdentity_iff.mp identity, length, gather_range]

theorem foldl_pushUnlessIdentity (rest : List (List Nat)) (input : List Nat)
    (length : permutation.length = input.length) :
    (pushUnlessIdentity permutation ++ rest).foldl gather input = rest.foldl gather (gather input permutation) := by
  unfold pushUnlessIdentity
  split
  · rename_i identity
    rw [List.nil_append, identity_gather input length identity]
  · rfl

theorem mem_pushUnlessIdentity {part : List Nat} (member : part ∈ pushUnlessIdentity permutation) :
    part = permutation := by
  unfold pushUnlessIdentity at member
  split at member
  · cases member
  · exact List.mem_singleton.mp member

theorem length_pushUnlessIdentity : (pushUnlessIdentity permutation).length ≤ 1 := by
  unfold pushUnlessIdentity
  split
  · exact Nat.zero_le 1
  · exact Nat.le_refl 1

theorem decomposePermutation_eq (permutes : Permutes n permutation) :
    decomposePermutation permutation =
      if permutation.getD (n - 1) 0 = n - 1 then []
      else if permutation.getD (n - 2) 0 = n - 1 then pushUnlessIdentity (outerOf permutation) ++ [swapLast n]
      else
        pushUnlessIdentity (outer1Of n (permutation.getD (n - 1) 0)) ++ [swapLast n] ++
          pushUnlessIdentity (outer2Of permutation) := by
  unfold decomposePermutation
  rw [permutes.length]
  rfl

theorem decomposePermutation_nil (permutes : Permutes n permutation) :
    decomposePermutation permutation = [] ↔ Outer permutation := by
  rw [outer_iff permutes.length, decomposePermutation_eq permutes]
  split
  · rename_i kept
    exact iff_of_true rfl kept
  · rename_i moved
    refine iff_of_false ?_ moved
    split <;> simp

theorem decomposePermutation_parts (wide : 2 ≤ n) (permutes : Permutes n permutation) :
    (decomposePermutation permutation).length ≤ 3 ∧
      ∀ part ∈ decomposePermutation permutation, Permutes n part ∧ (Inner part ∨ Outer part) := by
  have inner : Permutes n (swapLast n) ∧ (Inner (swapLast n) ∨ Outer (swapLast n)) :=
    ⟨swapLast_permutes n wide, Or.inl (swapLast_inner n wide)⟩
  rw [decomposePermutation_eq permutes]
  split
  · exact ⟨Nat.zero_le 3, fun part member => by cases member⟩
  · rename_i moved
    split
    · rename_i nearly
      have outer := outerOf_gather wide permutes nearly
      have outerPermutes : Permutes n (outerOf permutation) := by
        rw [outer]
        exact permutes.gather inner.1
      constructor
      · rw [List.length_append, List.length_singleton]
        have short := @length_pushUnlessIdentity (outerOf permutation)
        omega
      · intro part member
        rcases List.mem_append.mp member with pushed | last
        · rw [mem_pushUnlessIdentity pushed]
          refine ⟨outerPermutes, Or.inr ?_⟩
          rw [outer_iff outerPermutes.length, outer,
            gather_getD _ _ _ (by rw [swapLast_length n wide]; omega), swapLast_last n wide, nearly]
        · rw [List.mem_singleton.mp last]
          exact inner
    · have known := permutes.getD_lt (n - 1) (by omega)
      have firstPermutes := outer1Of_permutes n wide _ known
      have lastPermutes := outer2Of_permutes wide permutes moved
      constructor
      · rw [List.length_append, List.length_append, List.length_singleton]
        have first := @length_pushUnlessIdentity (outer1Of n (permutation.getD (n - 1) 0))
        have last := @length_pushUnlessIdentity (outer2Of permutation)
        omega
      · intro part member
        rcases List.mem_append.mp member with front | pushed
        · rcases List.mem_append.mp front with pushed | middle
          · rw [mem_pushUnlessIdentity pushed]
            refine ⟨firstPermutes, Or.inr ?_⟩
            rw [outer_iff firstPermutes.length, outer1Of_getD n _ _ known (by omega), if_neg (Ne.symm moved),
              if_neg (by omega)]
          · rw [List.mem_singleton.mp middle]
            exact inner
        · rw [mem_pushUnlessIdentity pushed]
          refine ⟨lastPermutes, Or.inr ?_⟩
          rw [outer_iff lastPermutes.length, outer2Of_getD permutes _ (by omega), if_pos rfl]

theorem decomposePermutation_composes (wide : 2 ≤ n) (permutes : Permutes n permutation)
    (moved : ¬ Outer permutation) (input : List Nat) (length : input.length = n) :
    (decomposePermutation permutation).foldl gather input = gather input permutation := by
  rw [outer_iff permutes.length] at moved
  have inner := swapLast_permutes n wide
  rw [decomposePermutation_eq permutes, if_neg moved]
  split
  · rename_i nearly
    have outer := outerOf_gather wide permutes nearly
    have outerLength : (outerOf permutation).length = n := by rw [outer, gather_length, inner.length]
    rw [foldl_pushUnlessIdentity _ _ (by rw [outerLength, length]), List.foldl_cons, List.foldl_nil, outer]
    have below : ∀ axis ∈ swapLast n, axis < n := fun axis member => (inner.mem axis).mp member
    have whole : gather permutation (List.range n) = permutation := by
      have same := gather_range permutation
      rwa [permutes.length] at same
    rw [gather_gather _ _ _ (by rwa [gather_length, inner.length]), gather_gather _ _ _ (by rwa [inner.length]),
      swapLast_swapLast n wide, whole]
  · have known := permutes.getD_lt (n - 1) (by omega)
    have firstPermutes := outer1Of_permutes n wide _ known
    have lastPermutes := outer2Of_permutes wide permutes moved
    rw [List.append_assoc, foldl_pushUnlessIdentity _ _ (by rw [firstPermutes.length, length]), List.singleton_append,
      List.foldl_cons]
    have final := @foldl_pushUnlessIdentity (outer2Of permutation) []
      (gather (gather input (outer1Of n (permutation.getD (n - 1) 0))) (swapLast n))
      (by rw [gather_length, lastPermutes.length, inner.length])
    rw [List.append_nil] at final
    rw [final, List.foldl_nil]
    have innerBelow : ∀ axis ∈ swapLast n, axis < n := fun axis member => (inner.mem axis).mp member
    have lastBelow : ∀ axis ∈ outer2Of permutation, axis < n := fun axis member => (lastPermutes.mem axis).mp member
    rw [gather_gather input _ (swapLast n) (by rwa [firstPermutes.length]),
      gather_gather input _ (outer2Of permutation) (by rwa [gather_length, inner.length]),
      three_compose wide permutes moved]

theorem permute_foldl {α : Type} (parts : List (List Nat)) (tensor : Tensor α) (start : List Nat)
    (started : Permutes n start) (permute : ∀ part ∈ parts, Permutes n part) :
    parts.foldl Tensor.permute (tensor.permute start) = tensor.permute (parts.foldl gather start) := by
  induction parts generalizing start with
  | nil => rfl
  | cons part parts ih =>
      have here := permute part List.mem_cons_self
      rw [List.foldl_cons, List.foldl_cons, Tensor.permute_permute tensor started here]
      exact ih (gather start part) (started.gather here) fun other member =>
        permute other (List.mem_cons_of_mem _ member)

theorem decomposePermutation_permutes {α : Type} (wide : 2 ≤ n) (permutes : Permutes n permutation)
    (moved : ¬ Outer permutation) (tensor : Tensor α) :
    (decomposePermutation permutation).foldl Tensor.permute tensor = tensor.permute permutation := by
  have parts := (decomposePermutation_parts wide permutes).2
  have composed := decomposePermutation_composes wide permutes moved (List.range n) List.length_range
  rw [range_gather n permutation fun axis member => (permutes.mem axis).mp member] at composed
  cases listed : decomposePermutation permutation with
  | nil => exact absurd ((decomposePermutation_nil permutes).mp listed) moved
  | cons first rest =>
      rw [listed] at parts composed
      have here := (parts first List.mem_cons_self).1
      rw [List.foldl_cons, range_gather n first fun axis member => (here.mem axis).mp member] at composed
      rw [List.foldl_cons,
        permute_foldl rest tensor first here fun part member => (parts part (List.mem_cons_of_mem _ member)).1,
          composed]

end Parts

section Classes
variable {n : Nat} {permutation : List Nat}

def SwapsLastTwo (permutation : List Nat) : Prop :=
  2 ≤ permutation.length ∧ permutation.getD (permutation.length - 2) 0 = permutation.length - 1 ∧
    permutation.getD (permutation.length - 1) 0 = permutation.length - 2

/-- The last two dims are swapped, and another one is moved. -/
def Overlooked (permutation : List Nat) : Prop :=
  SwapsLastTwo permutation ∧ ∃ axis < permutation.length - 2, permutation.getD axis 0 ≠ axis

theorem isInnerPermute_iff : isInnerPermute permutation = true ↔ SwapsLastTwo permutation := by
  unfold isInnerPermute SwapsLastTwo
  dsimp only
  by_cases narrow : permutation.length < 2
  · rw [if_pos narrow]
    exact iff_of_false Bool.false_ne_true fun swaps => absurd swaps.1 (by omega)
  · rw [if_neg narrow, if_neg (not_not.mpr rfl), Bool.and_eq_true, decide_eq_true_iff, decide_eq_true_iff,
      and_iff_right (show 2 ≤ permutation.length by omega)]

theorem inner_iff (wide : 2 ≤ n) (length : permutation.length = n) :
    Inner permutation ↔ (∀ axis < n - 2, permutation.getD axis 0 = axis) ∧ permutation.getD (n - 2) 0 = n - 1 ∧
      permutation.getD (n - 1) 0 = n - 2 := by
  have inner : Inner permutation ↔ permutation = swapLast n := by
    unfold Inner
    rw [length]
    rfl
  rw [inner]
  constructor
  · rintro rfl
    exact ⟨swapLast_front n wide, swapLast_lastButOne n wide, swapLast_last n wide⟩
  · rintro ⟨front, lastButOne, last⟩
    apply ext_getD 0
    · rw [length, swapLast_length n wide]
    · intro axis inside
      rw [length] at inside
      have place : axis < n - 2 ∨ axis = n - 2 ∨ axis = n - 1 := by omega
      rcases place with before | rfl | rfl
      · rw [front axis before, swapLast_front n wide axis before]
      · rw [lastButOne, swapLast_lastButOne n wide]
      · rw [last, swapLast_last n wide]

theorem isComplex_iff (permutes : Permutes n permutation) :
    isComplex permutation = true ↔ ¬ SwapsLastTwo permutation ∧ ¬ Outer permutation := by
  unfold isComplex
  rw [Bool.and_eq_true, Bool.not_eq_true', Bool.eq_false_iff, decide_eq_true_iff, ← isInnerPermute_iff, ne_eq, ne_eq,
    decomposePermutation_nil permutes]

/-- A permute that the walk leaves alone is of one of the two kinds, unless it is overlooked. -/
theorem left_alone (permutes : Permutes n permutation) (simple : ¬ isComplex permutation = true) :
    Inner permutation ∨ Outer permutation ↔ ¬ Overlooked permutation := by
  rw [isComplex_iff permutes, not_and_or, not_not, not_not] at simple
  have length := permutes.length
  unfold Overlooked
  by_cases outer : Outer permutation
  · refine iff_of_true (Or.inr outer) ?_
    rintro ⟨⟨wide, _, last⟩, _⟩
    unfold Outer at outer
    omega
  · have swaps := simple.resolve_right outer
    rw [or_iff_left outer, inner_iff (n := permutation.length) swaps.1 rfl, and_iff_left swaps.2, not_and]
    push Not
    rw [imp_iff_right swaps]

theorem overlooked_simple (permutes : Permutes n permutation) (complex : isComplex permutation = true) :
    ¬ Overlooked permutation := fun overlooked => ((isComplex_iff permutes).mp complex).1 overlooked.1

end Classes

section Blocks

/-- Every permute is verified. -/
def Block.Verified (block : Block) : Prop := ∀ op ∈ block.permutes, op.Verified

@[simp] theorem permutes_addPermutes (ops : List PermuteOp) (rest : Block) :
    (rest.addPermutes ops).permutes = ops ++ rest.permutes := by
  induction ops with
  | nil => rfl
  | cons op ops ih =>
      change op :: (rest.addPermutes ops).permutes = _
      rw [ih, List.cons_append]

theorem chain_permutations (result : Value) (number : Nat) (input : Value) (shape : List Nat)
    (parts : List (List Nat)) : (chain result number input shape parts).map (·.permutation) = parts := by
  induction parts generalizing number input shape with
  | nil => rfl
  | cons part parts ih =>
      rw [chain, List.map_cons, ih]

variable {block : Block}

theorem wide_of_complex {op : PermuteOp} (verified : op.Verified) (complex : isComplex op.permutation = true) :
    2 ≤ op.inputShape.length := by
  obtain ⟨positive, permutes, _⟩ := verified
  have moved := ((isComplex_iff permutes).mp complex).2
  rw [outer_iff permutes.length] at moved
  have last := permutes.getD_lt (op.inputShape.length - 1) (by omega)
  omega

theorem runOnOperation_kinds (verified : block.Verified) :
    (∀ op ∈ (runOnOperation block).permutes, Inner op.permutation ∨ Outer op.permutation) ↔
      ∀ op ∈ block.permutes, ¬ Overlooked op.permutation := by
  induction block with
  | done => exact iff_of_true (fun op member => by cases member) (fun op member => by cases member)
  | permute op rest ih =>
      have here : op.Verified := verified op List.mem_cons_self
      have later := ih fun other member => verified other (List.mem_cons_of_mem _ member)
      rw [runOnOperation]
      split
      · rename_i complex
        have parts := (decomposePermutation_parts (wide_of_complex here complex) here.2.1).2
        have chained : ∀ made ∈ chain op.result 0 op.input op.inputShape (decomposePermutation op.permutation),
            Inner made.permutation ∨ Outer made.permutation := by
          intro made member
          apply fun known => (parts made.permutation known).2
          have listed := List.mem_map_of_mem (f := (·.permutation)) member
          rwa [chain_permutations] at listed
        rw [permutes_addPermutes, List.forall_mem_append, and_iff_right chained, later, Block.permutes,
          List.forall_mem_cons, and_iff_right (overlooked_simple here.2.1 complex)]
      · rename_i simple
        rw [Block.permutes, Block.permutes, List.forall_mem_cons, List.forall_mem_cons, later,
          left_alone here.2.1 simple]
  | other name operands results rest ih => exact ih verified
  | region body rest bodyIh restIh =>
      have inner := bodyIh fun op member => verified op (List.mem_append_left _ member)
      have later := restIh fun op member => verified op (List.mem_append_right _ member)
      rw [runOnOperation, Block.permutes, Block.permutes, List.forall_mem_append, List.forall_mem_append, inner, later]

/-- Every permutation is decomposed into at most three permutes of the two kinds that compose to
it, and the pass leaves only permutes of the two kinds exactly in the modules without an
overlooked one. -/
theorem decomposes_permutes (block : Block) (verified : block.Verified) :
    (∀ (n : Nat) (permutation : List Nat), 2 ≤ n → Permutes n permutation →
      (decomposePermutation permutation = [] ↔ Outer permutation) ∧
      (¬ Outer permutation →
        (∀ input : List Nat, input.length = n →
          (decomposePermutation permutation).foldl applyPermutation input = applyPermutation input permutation) ∧
        (∀ (α : Type) (tensor : Tensor α),
          (decomposePermutation permutation).foldl Tensor.permute tensor = tensor.permute permutation) ∧
        (decomposePermutation permutation).length ≤ 3 ∧
        ∀ part ∈ decomposePermutation permutation, Permutes n part ∧ (Inner part ∨ Outer part))) ∧
      ((∀ op ∈ (runOnOperation block).permutes, Inner op.permutation ∨ Outer op.permutation) ↔
        ∀ op ∈ block.permutes, ¬ Overlooked op.permutation) := by
  constructor
  · intro n permutation wide permutes
    refine ⟨decomposePermutation_nil permutes, fun moved => ⟨?_, ?_, decomposePermutation_parts wide permutes⟩⟩
    · exact decomposePermutation_composes wide permutes moved
    · exact fun α tensor => decomposePermutation_permutes wide permutes moved tensor
  · exact runOnOperation_kinds verified

def singlePermute (shape permutation : List Nat) : Block :=
  .permute ⟨.given 0, .given 1, permutation, shape, applyPermutation shape permutation, false⟩ .done

theorem decomposes_permutes_rotation :
    (decomposePermutation [0, 3, 1, 2]).foldl applyPermutation [2, 3, 5, 7] = [2, 7, 3, 5] ∧
      ∀ op ∈ (runOnOperation (singlePermute [2, 3, 5, 7] [0, 3, 1, 2])).permutes,
        Inner op.permutation ∨ Outer op.permutation := by
  have verified : (singlePermute [2, 3, 5, 7] [0, 3, 1, 2]).Verified := by
    intro op member
    rw [List.mem_singleton.mp member]
    exact ⟨by decide, by decide, rfl⟩
  have exact := decomposes_permutes (singlePermute [2, 3, 5, 7] [0, 3, 1, 2]) verified
  constructor
  · exact ((exact.1 4 [0, 3, 1, 2] (by decide) (by decide)).2 (by decide)).1 [2, 3, 5, 7] rfl
  · apply exact.2.mpr
    intro op member
    rw [List.mem_singleton.mp member]
    rintro ⟨⟨_, swapped, _⟩, _⟩
    exact absurd swapped (by decide)

/-- Both pairs of dims swapped: the pass takes the permute for an inner one. -/
theorem overlooked_permute_left :
    ¬ ∀ block : Block, block.Verified →
      ∀ op ∈ (runOnOperation block).permutes, Inner op.permutation ∨ Outer op.permutation := by
  intro complete
  have kinds := complete (singlePermute [2, 3, 5, 7] [1, 0, 3, 2])
    (by intro op member; rw [List.mem_singleton.mp member]; exact ⟨by decide, by decide, rfl⟩)
    ⟨.given 0, .given 1, [1, 0, 3, 2], [2, 3, 5, 7], [3, 2, 7, 5], false⟩ (by decide)
  exact absurd kinds (by decide)

end Blocks

end TtMlir.Ttir
