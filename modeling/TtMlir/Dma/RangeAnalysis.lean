import TtMlir.Dma.Coalescing
import TtMlir.Library.AffineBuilder

/-!
Simplification by range analysis: with every dim between zero and its bound, a
remainder or a floor division whose left side stays below the divisor is its
left side or zero.
-/

namespace TtMlir.Dma

def bothBounds (combine : Int → Int → Int) : Option Int → Option Int → Option Int
  | some lhs, some rhs => some (combine lhs rhs)
  | _, _ => none

theorem bothBounds_eq_some {combine : Int → Int → Int} {lhs rhs : Option Int} {upper : Int}
    (bounded : bothBounds combine lhs rhs = some upper) :
    ∃ lhsUpper rhsUpper, lhs = some lhsUpper ∧ rhs = some rhsUpper ∧ combine lhsUpper rhsUpper = upper := by
  unfold bothBounds at bounded
  split at bounded
  · exact ⟨_, _, rfl, rfl, Option.some.inj bounded⟩
  · cases bounded

/-- An upper bound of a non-negative expression; the lower bound is zero. -/
def getExprUpperBound (dimBounds : List Int) : AffineExpr → Option Int
  | .dim position => if position < dimBounds.length then some (dimBounds.getD position 0 - 1) else none
  | .sym _ => none
  | .const value => if value < 0 then none else some value
  | .mod lhs (.const value) =>
      if value ≤ 0 then none
      else match getExprUpperBound dimBounds lhs with
        | some upper => some (min upper (value - 1))
        | none => some (value - 1)
  | .mod _ _ => none
  | .floorDiv lhs (.const value) =>
      if value ≤ 0 then none else (getExprUpperBound dimBounds lhs).map (·.tdiv value)
  | .floorDiv _ _ => none
  | .add lhs rhs => bothBounds (· + ·) (getExprUpperBound dimBounds lhs) (getExprUpperBound dimBounds rhs)
  | .mul lhs rhs => bothBounds (· * ·) (getExprUpperBound dimBounds lhs) (getExprUpperBound dimBounds rhs)
  | .ceilDiv _ _ => none

def staysBelow (dimBounds : List Int) (lhs rhs : AffineExpr) : Bool :=
  match rhs, getExprUpperBound dimBounds lhs with
  | .const value, some upper => decide (upper < value)
  | _, _ => false

section Simplify
variable (build : AffineBuilder) (dimBounds : List Int)

def simplifyAffineExprWithRangeAnalysis : AffineExpr → AffineExpr
  | .dim position => .dim position
  | .sym position => .sym position
  | .const value => .const value
  | .mod lhs rhs =>
      let lhs := simplifyAffineExprWithRangeAnalysis lhs
      let rhs := simplifyAffineExprWithRangeAnalysis rhs
      if staysBelow dimBounds lhs rhs then lhs else build.mod lhs rhs
  | .floorDiv lhs rhs =>
      let lhs := simplifyAffineExprWithRangeAnalysis lhs
      let rhs := simplifyAffineExprWithRangeAnalysis rhs
      if staysBelow dimBounds lhs rhs then .const 0 else build.floorDiv lhs rhs
  | .add lhs rhs =>
      build.add (simplifyAffineExprWithRangeAnalysis lhs) (simplifyAffineExprWithRangeAnalysis rhs)
  | .mul lhs rhs =>
      build.mul (simplifyAffineExprWithRangeAnalysis lhs) (simplifyAffineExprWithRangeAnalysis rhs)
  | .ceilDiv lhs rhs =>
      build.ceilDiv (simplifyAffineExprWithRangeAnalysis lhs) (simplifyAffineExprWithRangeAnalysis rhs)

theorem simplify_mod (lhs : AffineExpr) (value : Int) :
    simplifyAffineExprWithRangeAnalysis build dimBounds (.mod lhs (.const value)) =
      if staysBelow dimBounds (simplifyAffineExprWithRangeAnalysis build dimBounds lhs) (.const value) then
        simplifyAffineExprWithRangeAnalysis build dimBounds lhs
      else build.mod (simplifyAffineExprWithRangeAnalysis build dimBounds lhs) (.const value) := rfl

theorem simplify_floorDiv (lhs : AffineExpr) (value : Int) :
    simplifyAffineExprWithRangeAnalysis build dimBounds (.floorDiv lhs (.const value)) =
      if staysBelow dimBounds (simplifyAffineExprWithRangeAnalysis build dimBounds lhs) (.const value) then
        .const 0
      else build.floorDiv (simplifyAffineExprWithRangeAnalysis build dimBounds lhs) (.const value) := rfl

/-- With the equivalence check, a difference at a sampled point gives up the simplified map. -/
def simplifyAffineMapWithRangeAnalysis (map : AffineMap) (performEquivalenceCheck : Bool) : Option AffineMap :=
  if map.numDims = dimBounds.length then
    let simplifiedMap :=
      { map with results := map.results.map (simplifyAffineExprWithRangeAnalysis build dimBounds) }
    let equivalent := (sample dimBounds).all fun point =>
      decide (map.evaluate point = simplifiedMap.evaluate point)
    some (if performEquivalenceCheck && !equivalent then map else simplifiedMap)
  else none

end Simplify

section Sound
variable (dimBounds point : List Int) (inBox : Within dimBounds point)
include inBox

theorem dim_bounds (position : Nat) (inside : position < dimBounds.length) :
    0 ≤ point.getD position 0 ∧ point.getD position 0 ≤ dimBounds.getD position 0 - 1 := by
  have bounds := ((MixedRadix.within_iff dimBounds point).mp inBox).2 position inside
  omega

theorem getExprUpperBound_bounds (expr : AffineExpr) (upper : Int)
    (bounded : getExprUpperBound dimBounds expr = some upper) :
    0 ≤ expr.eval point [] ∧ expr.eval point [] ≤ upper := by
  -- both bounds at once: a product or a quotient needs its operands nonnegative
  induction expr generalizing upper with
  | dim position =>
      by_cases inside : position < dimBounds.length
      · simp only [getExprUpperBound, inside, ↓reduceIte, Option.some.injEq] at bounded
        rw [← bounded]
        exact dim_bounds dimBounds point inBox position inside
      · simp [getExprUpperBound, inside] at bounded
  | sym position => simp [getExprUpperBound] at bounded
  | const value =>
      by_cases negative : value < 0
      · simp [getExprUpperBound, negative] at bounded
      · simp only [getExprUpperBound, negative, ↓reduceIte, Option.some.injEq] at bounded
        simp only [AffineExpr.eval]
        omega
  | add lhs rhs left right =>
      obtain ⟨lhsUpper, rhsUpper, lhsBound, rhsBound, rfl⟩ := bothBounds_eq_some bounded
      have lhsRange := left lhsUpper lhsBound
      have rhsRange := right rhsUpper rhsBound
      simp only [AffineExpr.eval]
      omega
  | mul lhs rhs left right =>
      obtain ⟨lhsUpper, rhsUpper, lhsBound, rhsBound, rfl⟩ := bothBounds_eq_some bounded
      have lhsRange := left lhsUpper lhsBound
      have rhsRange := right rhsUpper rhsBound
      exact ⟨Int.mul_nonneg lhsRange.1 rhsRange.1,
        Int.mul_le_mul lhsRange.2 rhsRange.2 rhsRange.1 (lhsRange.1.trans lhsRange.2)⟩
  | mod lhs rhs left _ =>
      cases rhs with
      | const value =>
          by_cases small : value ≤ 0
          · simp [getExprUpperBound, small] at bounded
          · simp only [getExprUpperBound, small, ↓reduceIte] at bounded
            simp only [AffineExpr.eval]
            have low := Int.emod_nonneg (lhs.eval point []) (show value ≠ 0 by omega)
            have high := Int.emod_lt_of_pos (lhs.eval point []) (show 0 < value by omega)
            cases lhsBound : getExprUpperBound dimBounds lhs with
            | none =>
                simp only [lhsBound, Option.some.injEq] at bounded
                omega
            | some lhsUpper =>
                simp only [lhsBound, Option.some.injEq] at bounded
                have lhsRange := left lhsUpper lhsBound
                -- the left bound also holds, as the remainder is at most the operand
                have below : lhs.eval point [] % value ≤ lhs.eval point [] := by
                  have quotient := Int.ediv_nonneg lhsRange.1 (show 0 ≤ value by omega)
                  have product := Int.mul_nonneg (show 0 ≤ value by omega) quotient
                  have split := Int.mul_ediv_add_emod (lhs.eval point []) value
                  omega
                omega
      | dim _ | sym _ | add _ _ | mul _ _ | mod _ _ | floorDiv _ _ | ceilDiv _ _ =>
          simp [getExprUpperBound] at bounded
  | floorDiv lhs rhs left _ =>
      cases rhs with
      | const value =>
          by_cases small : value ≤ 0
          · simp [getExprUpperBound, small] at bounded
          · simp only [getExprUpperBound, small, ↓reduceIte, Option.map_eq_some_iff] at bounded
            obtain ⟨lhsUpper, lhsBound, rfl⟩ := bounded
            have lhsRange := left lhsUpper lhsBound
            have positive : 0 < value := by omega
            rw [Int.tdiv_eq_ediv_of_nonneg (lhsRange.1.trans lhsRange.2)]
            exact ⟨Int.ediv_nonneg lhsRange.1 positive.le, Int.ediv_le_ediv positive lhsRange.2⟩
      | dim _ | sym _ | add _ _ | mul _ _ | mod _ _ | floorDiv _ _ | ceilDiv _ _ =>
          simp [getExprUpperBound] at bounded
  | ceilDiv lhs rhs _ _ => simp [getExprUpperBound] at bounded

theorem staysBelow_range (lhs rhs : AffineExpr) (below : staysBelow dimBounds lhs rhs = true) :
    0 ≤ lhs.eval point [] ∧ lhs.eval point [] < rhs.eval point [] := by
  cases rhs with
  | const value =>
      cases lhsBound : getExprUpperBound dimBounds lhs with
      | none => simp [staysBelow, lhsBound] at below
      | some upper =>
          simp only [staysBelow, lhsBound, decide_eq_true_eq] at below
          have range := getExprUpperBound_bounds dimBounds point inBox lhs upper lhsBound
          exact ⟨range.1, range.2.trans_lt below⟩
  | dim _ | sym _ | add _ _ | mul _ _ | mod _ _ | floorDiv _ _ | ceilDiv _ _ => simp [staysBelow] at below

theorem simplifyAffineExpr_value (build : AffineBuilder) (sound : build.Sound) (expr : AffineExpr)
    (divisors : expr.divisorsPositive = true) :
    (simplifyAffineExprWithRangeAnalysis build dimBounds expr).eval point [] = expr.eval point [] := by
  have constPositive (value : Int) (positive : 0 < value) : 0 < (AffineExpr.const value).eval point [] := positive
  induction expr with
  | dim position => rfl
  | sym position => rfl
  | const value => rfl
  | add lhs rhs left right =>
      simp only [AffineExpr.divisorsPositive, Bool.and_eq_true] at divisors
      rw [simplifyAffineExprWithRangeAnalysis, sound.add, left divisors.1, right divisors.2, AffineExpr.eval]
  | mul lhs rhs left right =>
      simp only [AffineExpr.divisorsPositive, Bool.and_eq_true] at divisors
      rw [simplifyAffineExprWithRangeAnalysis, sound.mul, left divisors.1, right divisors.2, AffineExpr.eval]
  | mod lhs rhs left _ =>
      obtain ⟨lhsDivisors, value, rfl, positive⟩ :=
        AffineExpr.divisor_const rhs lhs .mod (Or.inl rfl) divisors
      rw [simplify_mod]
      split
      case isTrue below =>
        have range := staysBelow_range dimBounds point inBox _ _ below
        rw [left lhsDivisors] at range
        rw [left lhsDivisors, AffineExpr.eval, Int.emod_eq_of_lt range.1 range.2]
      case isFalse =>
        rw [sound.mod _ _ _ _ (constPositive value positive), left lhsDivisors]
        rfl
  | floorDiv lhs rhs left _ =>
      obtain ⟨lhsDivisors, value, rfl, positive⟩ :=
        AffineExpr.divisor_const rhs lhs .floorDiv (Or.inr (Or.inl rfl)) divisors
      rw [simplify_floorDiv]
      split
      case isTrue below =>
        have range := staysBelow_range dimBounds point inBox _ _ below
        rw [left lhsDivisors] at range
        simp only [AffineExpr.eval] at range ⊢
        rw [Int.ediv_eq_zero_of_lt range.1 range.2]
      case isFalse =>
        rw [sound.floorDiv _ _ _ _ (constPositive value positive), left lhsDivisors]
        rfl
  | ceilDiv lhs rhs left _ =>
      obtain ⟨lhsDivisors, value, rfl, positive⟩ :=
        AffineExpr.divisor_const rhs lhs .ceilDiv (Or.inr (Or.inr rfl)) divisors
      simp only [simplifyAffineExprWithRangeAnalysis]
      rw [sound.ceilDiv _ _ _ _ (constPositive value positive), left lhsDivisors]
      rfl

end Sound

/-- On the box the simplified map is the map, and upper bounds bound. -/
theorem simplifyAffineMapWithRangeAnalysis_preserves (build : AffineBuilder) (sound : build.Sound)
    (dimBounds point : List Int) (map simplified : AffineMap) (performEquivalenceCheck : Bool)
    (divisors : ∀ expr ∈ map.results, expr.divisorsPositive = true) (inBox : Within dimBounds point)
    (ran : simplifyAffineMapWithRangeAnalysis build dimBounds map performEquivalenceCheck = some simplified) :
    simplified.evaluate point = map.evaluate point ∧
      ∀ expr upper, getExprUpperBound dimBounds expr = some upper →
        0 ≤ expr.eval point [] ∧ expr.eval point [] ≤ upper := by
  refine ⟨?_, getExprUpperBound_bounds dimBounds point inBox⟩
  by_cases ranks : map.numDims = dimBounds.length
  · simp only [simplifyAffineMapWithRangeAnalysis, ranks, ↓reduceIte, Option.some.injEq] at ran
    subst ran
    split
    · rfl
    · simp only [AffineMap.evaluate, List.map_map]
      apply List.map_congr_left
      intro expr member
      exact simplifyAffineExpr_value dimBounds point inBox build sound expr (divisors expr member)
  · simp [simplifyAffineMapWithRangeAnalysis, ranks] at ran

def flatTile : AffineMap where
  numDims := 2
  results := [.mod (.add (.mul (.dim 0) (.const 4)) (.dim 1)) (.const 32),
    .floorDiv (.add (.mul (.dim 0) (.const 4)) (.dim 1)) (.const 16)]

theorem simplifyAffineMapWithRangeAnalysis_preserves_flatTile :
    (simplifyAffineMapWithRangeAnalysis .plain [2, 4] flatTile true).map (·.results) =
        some [.add (.mul (.dim 0) (.const 4)) (.dim 1), .const 0] ∧
      (simplifyAffineMapWithRangeAnalysis .plain [2, 4] flatTile true).map (·.evaluate [1, 3]) =
        some [7, 0] := by
  refine ⟨by decide, ?_⟩
  obtain ⟨simplified, ran⟩ :
      ∃ simplified, simplifyAffineMapWithRangeAnalysis .plain [2, 4] flatTile true = some simplified := ⟨_, rfl⟩
  have inBox : Within [2, 4] [1, 3] := by simp [Within]
  rw [ran, Option.map_some, (simplifyAffineMapWithRangeAnalysis_preserves .plain AffineBuilder.plain_sound
    [2, 4] [1, 3] flatTile simplified true (by decide) inBox ran).1]
  decide

end TtMlir.Dma
