import Mathlib.Algebra.Order.Ring.Rat
import TtMlir.Ttir.CommuteReshape

/-!
Exactly when commuting a permute or a reshape through a reduction preserves the
result and gives a dim list that verifies.
-/

namespace TtMlir.Ttir.ReduceCommute

def reducedDims (attrs : Reduce) (rank : Nat) : List Nat := getReduceDimValues rank attrs.dimArg

/-- No two entries of the dim list name one dim, and an argmax over several dims finds them in the
same order on both sides. Through a reshape no two listed dims share extent and stride, and the
extents before the last zero give one product. -/
def HoldsWhen (direction : Direction) (tm : Tm) (attrs : Reduce) (shape : List Nat) : Prop :=
  match direction, tm with
  | .upwards, .permute userPerm =>
      (reducedDims attrs shape.length).Nodup ∧ (attrs.op = .argMax → attrs.keepDim = true → 0 ∈ shape ∨
        OrderKept (reducedDims attrs shape.length) shape fun dim => userPerm.idxOf dim)
  | .downwards, .permute permutation =>
      (reducedDims attrs shape.length).Nodup ∧ (attrs.op = .argMax → 0 ∈ shape ∨
        OrderKept (reducedDims attrs shape.length) (gather shape permutation) fun dim => permutation.getD dim 0)
  | .upwards, .reshape _ =>
      attrs.dimArg ≠ none → ((reducedDims attrs shape.length).map (digitOf shape)).Nodup
  | .downwards, .reshape mid =>
      attrs.dimArg ≠ none → ((reducedDims attrs mid.length).map (digitOf mid)).Nodup ∧
        ((∃ dim ∈ reducedDims attrs mid.length, mid.getD dim 0 = 0) → headVolume mid = headVolume shape)

theorem orderKept_inverse {shape permutation dims : List Nat} (permutes : Permutes shape.length permutation)
    (inRange : ∀ dim ∈ dims, dim < shape.length) :
    OrderKept (gather (inverse permutation) dims) (gather shape permutation) (fun dim => permutation.getD dim 0) ↔
      OrderKept dims shape fun dim => permutation.idxOf dim := by
  have extent : ∀ dim < shape.length, (gather shape permutation).getD (permutation.idxOf dim) 0 = shape.getD dim 0 := by
    intro dim known
    rw [gather_getD _ _ _ (by rw [permutes.length]; exact permutes.idxOf_lt dim known), permutes.getD_idxOf dim known]
  have member : ∀ dim ∈ dims, permutation.idxOf dim ∈ gather (inverse permutation) dims := fun dim inDims =>
    List.mem_map.mpr ⟨dim, inDims, inverse_getD permutes dim (inRange dim inDims)⟩
  constructor
  · intro ordered left leftMember right rightMember less leftWide rightWide
    have leftKnown := inRange left leftMember
    have rightKnown := inRange right rightMember
    by_contra notLess
    have apart : permutation.idxOf right < permutation.idxOf left := by
      refine lt_of_le_of_ne (not_lt.mp notLess) fun same => ?_
      have back := congrArg (fun place => permutation.getD place 0) same
      simp only [permutes.getD_idxOf right rightKnown, permutes.getD_idxOf left leftKnown] at back
      omega
    have moved := ordered _ (member right rightMember) _ (member left leftMember) apart
      (by rwa [extent right rightKnown]) (by rwa [extent left leftKnown])
    simp only [permutes.getD_idxOf right rightKnown, permutes.getD_idxOf left leftKnown] at moved
    omega
  · intro ordered left leftMember right rightMember less leftWide rightWide
    obtain ⟨first, firstIn, firstAt⟩ := List.mem_map.mp leftMember
    obtain ⟨second, secondIn, secondAt⟩ := List.mem_map.mp rightMember
    have firstKnown := inRange first firstIn
    have secondKnown := inRange second secondIn
    rw [inverse_getD permutes first firstKnown] at firstAt
    rw [inverse_getD permutes second secondKnown] at secondAt
    subst firstAt secondAt
    simp only [permutes.getD_idxOf first firstKnown, permutes.getD_idxOf second secondKnown]
    rw [extent first firstKnown] at leftWide
    rw [extent second secondKnown] at rightWide
    by_contra notLess
    rcases Nat.lt_or_eq_of_le (not_lt.mp notLess) with reversed | same
    · have reversedBelow : permutation.idxOf second < permutation.idxOf first :=
        ordered second secondIn first firstIn reversed rightWide leftWide
      exact lt_asymm less reversedBelow
    · rw [same] at less
      exact lt_irrefl _ less

variable {attrs : Reduce} {shape userPerm : List Nat}

theorem keepsOrder_expand {small dims : List Nat} (inRange : ∀ dim ∈ dims, dim < shape.length) :
    KeepsOrder shape (expandPermutation small dims shape.length) (survivors shape.length dims) := by
  rw [keepsOrder_iff inRange]
  intro left leftMember right rightMember less _ _
  change (expandPermutation small dims shape.length).getD left 0 <
    (expandPermutation small dims shape.length).getD right 0
  rw [expandPermutation_getD _ _ _ _ (inRange left leftMember),
    expandPermutation_getD _ _ _ _ (inRange right rightMember),
    if_pos leftMember, if_pos rightMember]
  exact less

theorem upwards_order_iff (valid : (resultShape (original .upwards (.permute userPerm) attrs) shape).isSome) :
    KeepsOrder shape (inputPermutation attrs shape.length userPerm) (survivors shape.length
      (gather (inverse (inputPermutation attrs shape.length userPerm)) (reducedDims attrs shape.length))) ↔
      (attrs.keepDim = true → OrderKept (reducedDims attrs shape.length) shape fun dim => userPerm.idxOf dim) := by
  obtain ⟨verified, userPermutes⟩ := upwards_verified valid
  have inRange := inRange_of_verified verified
  have below := getReduceDimValues_lt inRange
  obtain ⟨chosen, moves, _⟩ := upwards_moves inRange userPermutes
  have permutes := moves.keeps.permutes
  unfold reducedDims
  rw [keepsOrder_iff (gather_lt permutes.inverse below), orderKept_inverse permutes below]
  cases keep : attrs.keepDim with
  | true =>
      rw [inputPermutation, if_pos keep]
      simp
  | false =>
      simp only [Bool.false_eq_true, false_implies, iff_true]
      rw [← orderKept_inverse permutes below, ← keepsOrder_iff (gather_lt permutes.inverse below)]
      have sizes : (maskOf shape.length (getReduceDimValues shape.length attrs.dimArg)).length = shape.length :=
        maskOf_length _ _
      have small : Permutes (survivors shape.length (getReduceDimValues shape.length attrs.dimArg)).length userPerm := by
        rwa [reduceDimsMask_eq inRange, keep, expectedOutputShape, if_neg Bool.false_ne_true,
          ← gather_keptDims _ _ sizes, gather_length, keptDims_maskOf] at userPermutes
      rw [inputPermutation, if_neg (by simp [keep]), gather_inverse_expand below small]
      exact keepsOrder_expand below

/-- Wherever a pattern rewrites, the new ops preserve the result exactly when the condition holds. -/
theorem commute_preserves_iff {K : Type} [Field K] [LinearOrder K] [IsStrictOrderedRing K] (direction : Direction)
    (tm : Tm) (attrs : Reduce) (shape : List Nat) (new : Tm × Reduce)
    (valid : (resultShape (original direction tm attrs) shape).isSome)
    (rewrites : commute direction tm attrs shape = some new) :
    Preserves K direction tm attrs shape new ↔ HoldsWhen direction tm attrs shape := by
  match direction, tm with
  | .upwards, .permute userPerm =>
      obtain rfl := Option.some.inj rewrites
      rw [preserves_upwards valid]
      have order := upwards_order_iff valid
      unfold reducedDims at order
      rw [order]
      simp only [HoldsWhen, reducedDims]
      refine and_congr_right fun _ => ?_
      constructor
      · exact fun given isArgMax keep => (given isArgMax).imp_right fun kept => kept keep
      · intro given isArgMax
        cases keep : attrs.keepDim with
        | true => exact (given isArgMax keep).imp_right fun kept _ => kept
        | false => exact .inr fun impossible => absurd impossible Bool.false_ne_true
  | .downwards, .permute permutation =>
      obtain rfl := Option.some.inj rewrites
      obtain ⟨permutes, verified⟩ := downwards_verified valid
      have below := getReduceDimValues_lt (inRange_of_verified verified)
      rw [preserves_downwards valid, keepsOrder_iff below]
      exact Iff.rfl
  | .upwards, .reshape target => exact preserves_reshape_upwards valid rewrites
  | .downwards, .reshape mid => exact preserves_reshape_downwards valid rewrites

/-- The sum of the rows, then a transpose. -/
theorem commute_preserves_iff_sum :
    (resultShape (original .upwards (.permute [1, 0]) ⟨.sum, true, some [-1]⟩) [2, 3]).isSome ∧
      (Preserves ℚ .upwards (.permute [1, 0]) ⟨.sum, true, some [-1]⟩ [2, 3]
          (commutePermuteUpwards ⟨.sum, true, some [-1]⟩ [2, 3] [1, 0]) ↔
        HoldsWhen .upwards (.permute [1, 0]) ⟨.sum, true, some [-1]⟩ [2, 3]) :=
  ⟨by decide, commute_preserves_iff .upwards (.permute [1, 0]) ⟨.sum, true, some [-1]⟩ [2, 3] _ (by decide) rfl⟩

/-- The argmax of [[0, 1], [0, 0]] over both dims is at 1; transposed first, it is at 2. -/
theorem argMax_permute_changed :
    (resultShape (original .upwards (.permute [1, 0]) ⟨.argMax, true, some [0, 1]⟩) [2, 2]).isSome ∧
      commute .upwards (.permute [1, 0]) ⟨.argMax, true, some [0, 1]⟩ [2, 2] =
        some (.permute [1, 0], ⟨.argMax, true, some [1, 0]⟩) ∧
      ¬Preserves ℚ .upwards (.permute [1, 0]) ⟨.argMax, true, some [0, 1]⟩ [2, 2]
        (.permute [1, 0], ⟨.argMax, true, some [1, 0]⟩) := by
  refine ⟨by decide, rfl, fun preserves => ?_⟩
  let tensor : Tensor ℚ := { shape := [2, 2], get := fun index => if index = [0, 1] then 1 else 0 }
  have inside : Inside [1, 1] [0, 0] := .cons Nat.one_pos (.cons Nat.one_pos .nil)
  have shape : (run (rewritten .upwards (.permute [1, 0]) ⟨.argMax, true, some [1, 0]⟩) tensor).shape = [1, 1] := by
    decide
  have same := (preserves.values tensor rfl).2 [0, 0] (by rw [shape]; exact inside)
  have before : (run (original .upwards (.permute [1, 0]) ⟨.argMax, true, some [0, 1]⟩) tensor).get [0, 0] = 1 := by
    decide
  have after : (run (rewritten .upwards (.permute [1, 0]) ⟨.argMax, true, some [1, 0]⟩) tensor).get [0, 0] = 2 := by
    decide
  rw [before, after] at same
  exact absurd same (by decide)


end TtMlir.Ttir.ReduceCommute
