import TtMlir.Library.Affine

/-!
The operators that build affine expressions. They may simplify what they build,
and all that is known of them is the value of the result.
-/

namespace TtMlir

structure AffineBuilder where
  add : AffineExpr → AffineExpr → AffineExpr
  mul : AffineExpr → AffineExpr → AffineExpr
  mod : AffineExpr → AffineExpr → AffineExpr
  floorDiv : AffineExpr → AffineExpr → AffineExpr
  ceilDiv : AffineExpr → AffineExpr → AffineExpr

namespace AffineBuilder

/-- A built expression has the value of its operation; a divisor is positive. -/
structure Sound (build : AffineBuilder) : Prop where
  add : ∀ lhs rhs dims syms,
    (build.add lhs rhs).eval dims syms = lhs.eval dims syms + rhs.eval dims syms
  mul : ∀ lhs rhs dims syms,
    (build.mul lhs rhs).eval dims syms = lhs.eval dims syms * rhs.eval dims syms
  mod : ∀ lhs rhs dims syms, 0 < rhs.eval dims syms →
    (build.mod lhs rhs).eval dims syms = lhs.eval dims syms % rhs.eval dims syms
  floorDiv : ∀ lhs rhs dims syms, 0 < rhs.eval dims syms →
    (build.floorDiv lhs rhs).eval dims syms = lhs.eval dims syms / rhs.eval dims syms
  ceilDiv : ∀ lhs rhs dims syms, 0 < rhs.eval dims syms →
    (build.ceilDiv lhs rhs).eval dims syms = -((-lhs.eval dims syms) / rhs.eval dims syms)

def plain : AffineBuilder where
  add := .add
  mul := .mul
  mod := .mod
  floorDiv := .floorDiv
  ceilDiv := .ceilDiv

theorem plain_sound : plain.Sound where
  add _ _ _ _ := rfl
  mul _ _ _ _ := rfl
  mod _ _ _ _ _ := rfl
  floorDiv _ _ _ _ _ := rfl
  ceilDiv _ _ _ _ _ := rfl

end AffineBuilder

namespace AffineExpr

theorem divisor_const (rhs : AffineExpr) (lhs : AffineExpr) (build : AffineExpr → AffineExpr → AffineExpr)
    (division : build = mod ∨ build = floorDiv ∨ build = ceilDiv)
    (positive : (build lhs rhs).divisorsPositive = true) :
    lhs.divisorsPositive = true ∧ ∃ value, rhs = const value ∧ 0 < value := by
  rcases division with rfl | rfl | rfl <;> cases rhs <;> simp_all [divisorsPositive]

end AffineExpr

end TtMlir
