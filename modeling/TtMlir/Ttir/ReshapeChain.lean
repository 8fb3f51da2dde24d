import TtMlir.Ttir.DecomposeReshape

/-!
Every decomposition reshapes, swaps the last two dims and reshapes again. It is the
reshape that it replaces exactly when one of the swapped dims has extent 1.
-/

namespace TtMlir.Ttir.ComplexReshape

open Tensor

section Shapes
variable (front : List Nat) (first second : Nat)

theorem exists_lastTwo (shape : List Nat) (wide : 2 ≤ shape.length) :
    ∃ front first second, shape = front ++ [first, second] := by
  refine ⟨shape.take (shape.length - 2), shape[shape.length - 2], shape[shape.length - 1], ?_⟩
  have lastTwo : shape.drop (shape.length - 2) = [shape[shape.length - 2], shape[shape.length - 1]] := by
    have step : shape.length - 2 + 1 = shape.length - 1 := by omega
    have stop : shape.length - 1 + 1 = shape.length := by omega
    rw [List.drop_eq_getElem_cons (by omega)]
    simp only [step]
    rw [List.drop_eq_getElem_cons (by omega)]
    simp only [stop]
    rw [List.drop_length]
  rw [← lastTwo, List.take_append_drop]

theorem length_pair : (front ++ [first, second]).length = front.length + 2 := List.length_append

theorem getD_lastButOne : (front ++ [first, second]).getD ((front ++ [first, second]).length - 2) 0 = first := by
  rw [length_pair, Nat.add_sub_cancel, List.getD_append_right _ _ _ _ (Nat.le_refl _), Nat.sub_self]
  rfl

theorem getD_last : (front ++ [first, second]).getD ((front ++ [first, second]).length - 1) 0 = second := by
  have step : front.length + 2 - 1 = front.length + 1 := rfl
  rw [length_pair, step, List.getD_append_right _ _ _ _ (Nat.le_add_right _ 1), Nat.add_sub_cancel_left]
  rfl

theorem back_pair : back (front ++ [first, second]) = second := getD_last front first second

theorem swapLastTwoDims_pair : swapLastTwoDims (front ++ [first, second]) = front ++ [second, first] := by
  unfold swapLastTwoDims
  dsimp only
  rw [getD_lastButOne, getD_last, length_pair]
  have step : front.length + 2 - 1 = front.length + 1 := rfl
  rw [step, Nat.add_sub_cancel, List.set_append_right _ _ (Nat.le_add_right _ 1), Nat.add_sub_cancel_left,
    List.set_append_right _ _ (Nat.le_refl _), Nat.sub_self]
  rfl

theorem prod_pair : (front ++ [first, second]).prod = front.prod * (first * second) := by
  rw [List.prod_append, List.prod_cons, List.prod_singleton]

theorem buildLastTwoSwapPerm_eq (rank : Nat) : buildLastTwoSwapPerm rank = swapLast rank := List.append_assoc _ _ _

theorem createPermuteSwapLastTwoDims_pair : createPermuteSwapLastTwoDims (front ++ [first, second]) =
    .permute (swapLast (front.length + 2)) (front ++ [second, first]) := by
  unfold createPermuteSwapLastTwoDims
  dsimp only
  rw [buildLastTwoSwapPerm_eq, length_pair]
  congr 1
  exact gather_swapLast front first second

theorem pair_swapped_ne : front ++ [second, first] ≠ front ++ [first, second] ↔ first ≠ second := by
  rw [ne_eq, List.append_cancel_left_eq]
  constructor
  · rintro differ rfl
    exact differ rfl
  · intro differ same
    injection same with head
    exact differ head.symm

end Shapes

section Chain
variable {α : Type}

/-- Reshape, swap the last two dims, and reshape again. -/
def swapChain (inputShape front : List Nat) (first second : Nat) (outputShape : List Nat) : List Step :=
  reshapeUnless inputShape (front ++ [first, second]) ++
    [.permute (swapLast (front.length + 2)) (front ++ [second, first])] ++
    reshapeUnless (front ++ [second, first]) outputShape

def UnitSwaps : List Nat → List Step → Prop
  | _, [] => True
  | _, .reshape shape :: rest => UnitSwaps shape rest
  | inputShape, .permute _ shape :: rest =>
      (inputShape.getD (inputShape.length - 2) 0 = 1 ∨ inputShape.getD (inputShape.length - 1) 0 = 1) ∧
        UnitSwaps shape rest

theorem run_append (before after : List Step) (tensor : Tensor α) :
    run (before ++ after) tensor = run after (run before tensor) := List.foldl_append

theorem run_reshapeUnless (tensor : Tensor α) (shape : List Nat) :
    Same (run (reshapeUnless tensor.shape shape) tensor) (tensor.reshape shape) := by
  unfold reshapeUnless
  split
  · exact Same.refl _
  · rename_i known
    rw [← not_not.mp known]
    exact (reshape_self tensor).symm

theorem unitSwaps_reshapeUnless (inputShape shape : List Nat) (rest : List Step) :
    UnitSwaps inputShape (reshapeUnless inputShape shape ++ rest) ↔ UnitSwaps shape rest := by
  unfold reshapeUnless
  split
  · exact Iff.rfl
  · rename_i known
    rw [not_not.mp known, List.nil_append]

variable (front : List Nat) (first second : Nat) (outputShape : List Nat)

theorem unitSwaps_swapChain (inputShape : List Nat) :
    UnitSwaps inputShape (swapChain inputShape front first second outputShape) ↔ first = 1 ∨ second = 1 := by
  unfold swapChain
  rw [List.append_assoc, unitSwaps_reshapeUnless, List.singleton_append, UnitSwaps, getD_lastButOne, getD_last]
  have last := unitSwaps_reshapeUnless (front ++ [second, first]) outputShape []
  rw [List.append_nil] at last
  rw [and_iff_left (last.mpr trivial)]

theorem run_swapChain (tensor : Tensor α) (outVolume : (front ++ [second, first]).prod = outputShape.prod) :
    Same (run (swapChain tensor.shape front first second outputShape) tensor)
      (((tensor.reshape (front ++ [first, second])).permute (swapLast (front.length + 2))).reshape outputShape) := by
  unfold swapChain
  rw [run_append, run_append]
  have started := run_reshapeUnless tensor (front ++ [first, second])
  generalize run (reshapeUnless tensor.shape (front ++ [first, second])) tensor = middle at started
  have shape : middle.shape = front ++ [first, second] := started.1
  have swapped := @Tensor.Same.permute _ _ _ started (swapLast (front.length + 2)) (by
    rw [shape, length_pair]
    exact swapLast_permutes _ (Nat.le_add_left 2 _))
  have swappedShape := permute_swapLast_shape middle front first second shape
  have last := run_reshapeUnless (middle.permute (swapLast (front.length + 2))) outputShape
  rw [swappedShape] at last
  exact last.trans (swapped.reshape outputShape (by rw [swappedShape, outVolume]))

theorem swapChain_reshapes (tensor : Tensor α) (outVolume : (front ++ [second, first]).prod = outputShape.prod)
    (unit : first = 1 ∨ second = 1) :
    Same (run (swapChain tensor.shape front first second outputShape) tensor) (tensor.reshape outputShape) := by
  have chain := run_swapChain front first second outputShape tensor outVolume
  have swap := permute_swapLast (tensor.reshape (front ++ [first, second])) front first second rfl unit
  have middle : ((tensor.reshape (front ++ [first, second])).permute (swapLast (front.length + 2))).shape.prod =
      outputShape.prod := by
    rw [swap.1]
    exact outVolume
  have volumes : (front ++ [first, second]).prod = (front ++ [second, first]).prod := by
    rw [prod_pair, prod_pair, Nat.mul_comm first]
  exact chain.trans ((swap.reshape outputShape middle).trans
    ((reshape_reshape _ _ _ outVolume).trans (reshape_reshape tensor _ _ (volumes.trans outVolume))))

def positions (shape : List Nat) : Tensor Nat := ⟨shape, flatten shape⟩

theorem positions_reshape (inputShape shape index : List Nat) (volume : inputShape.prod = shape.prod)
    (inside : Inside shape index) : ((positions inputShape).reshape shape).get index = flatten shape index := by
  have below := flatten_lt shape index inside
  rw [← volume] at below
  exact flatten_unflatten inputShape _ below

theorem swapChain_moves (inputShape : List Nat) (volume : inputShape.prod = (front ++ [first, second]).prod)
    (outVolume : (front ++ [second, first]).prod = outputShape.prod) (positive : 0 < front.prod)
    (firstLong : 1 < first) (secondLong : 1 < second) :
    ¬ Same (run (swapChain inputShape front first second outputShape) (positions inputShape))
      ((positions inputShape).reshape outputShape) := by
  intro same
  have chain := run_swapChain front first second outputShape (positions inputShape) outVolume
  have moved := chain.symm.trans same
  have zeros : Inside front (unflatten front 0) := inside_of_flat front 0 positive
  have origin : flatten front (unflatten front 0) = 0 := flatten_unflatten front 0 positive
  have length := zeros.length
  have one : 1 < outputShape.prod := by
    rw [← outVolume, prod_pair]
    calc 1 < second := secondLong
      _ ≤ second * first := Nat.le_mul_of_pos_right _ (by omega)
      _ ≤ front.prod * (second * first) := Nat.le_mul_of_pos_left _ positive
  have flat : flatten outputShape (unflatten outputShape 1) = 1 := flatten_unflatten outputShape 1 one
  have entry := moved.2 (unflatten outputShape 1) (inside_of_flat outputShape 1 one)
  have insideSwapped : Inside (front ++ [second, first]) (unflatten front 0 ++ [0, 1]) :=
    zeros.append (List.Forall₂.cons (by omega) (List.Forall₂.cons firstLong List.Forall₂.nil))
  have insideMiddle : Inside (front ++ [first, second]) (unflatten front 0 ++ [1, 0]) :=
    zeros.append (List.Forall₂.cons firstLong (List.Forall₂.cons (by omega) List.Forall₂.nil))
  have volumes : (front ++ [first, second]).prod = (front ++ [second, first]).prod := by
    rw [prod_pair, prod_pair, Nat.mul_comm first]
  have swappedShape := permute_swapLast_shape ((positions inputShape).reshape (front ++ [first, second])) front first
    second rfl
  have left : ((((positions inputShape).reshape (front ++ [first, second])).permute
      (swapLast (front.length + 2))).reshape outputShape).get (unflatten outputShape 1) = second := by
    rw [reshape_get _ outputShape _ (unflatten front 0 ++ [0, 1]) (by rwa [swappedShape]) (by
        rw [flat, swappedShape, flatten_pair front _ length, origin]
        omega),
      permute_swapLast_get _ front (unflatten front 0) 1 0 length, positions_reshape _ _ _ volume insideMiddle,
      flatten_pair front _ length, origin]
    omega
  rw [left, positions_reshape _ _ _ (volume.trans (volumes.trans outVolume)) (inside_of_flat outputShape 1 one),
    flat] at entry
  omega

end Chain

end TtMlir.Ttir.ComplexReshape
