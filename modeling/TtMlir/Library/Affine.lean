import Mathlib.Data.List.Basic

/-!
Affine expressions and maps. Division and remainder are those of a positive
right operand, the only one affine expressions admit: there floor division is
`/` and the remainder `%` of `Int`.
-/

namespace TtMlir

inductive AffineExpr where
  | dim (position : Nat)
  | sym (position : Nat)
  | const (value : Int)
  | add (lhs rhs : AffineExpr)
  | mul (lhs rhs : AffineExpr)
  | mod (lhs rhs : AffineExpr)
  | floorDiv (lhs rhs : AffineExpr)
  | ceilDiv (lhs rhs : AffineExpr)
  deriving DecidableEq, Repr

namespace AffineExpr

instance : Inhabited AffineExpr := ⟨.const 0⟩

def eval (dims syms : List Int) : AffineExpr → Int
  | dim position => dims.getD position 0
  | sym position => syms.getD position 0
  | const value => value
  | add lhs rhs => lhs.eval dims syms + rhs.eval dims syms
  | mul lhs rhs => lhs.eval dims syms * rhs.eval dims syms
  | mod lhs rhs => lhs.eval dims syms % rhs.eval dims syms
  | floorDiv lhs rhs => lhs.eval dims syms / rhs.eval dims syms
  | ceilDiv lhs rhs => -((-lhs.eval dims syms) / rhs.eval dims syms)

def divisorsPositive : AffineExpr → Bool
  | dim _ | sym _ | const _ => true
  | add lhs rhs | mul lhs rhs => lhs.divisorsPositive && rhs.divisorsPositive
  | mod lhs (const value) | floorDiv lhs (const value) | ceilDiv lhs (const value) =>
      lhs.divisorsPositive && decide (0 < value)
  | mod _ _ | floorDiv _ _ | ceilDiv _ _ => false

/-- `replaceDimsAndSymbols`; the replacements cover every position that occurs. -/
def replace (dims syms : List AffineExpr) : AffineExpr → AffineExpr
  | dim position => dims.getD position default
  | sym position => syms.getD position default
  | const value => const value
  | add lhs rhs => add (lhs.replace dims syms) (rhs.replace dims syms)
  | mul lhs rhs => mul (lhs.replace dims syms) (rhs.replace dims syms)
  | mod lhs rhs => mod (lhs.replace dims syms) (rhs.replace dims syms)
  | floorDiv lhs rhs => floorDiv (lhs.replace dims syms) (rhs.replace dims syms)
  | ceilDiv lhs rhs => ceilDiv (lhs.replace dims syms) (rhs.replace dims syms)

theorem eval_getD (dims syms : List Int) (exprs : List AffineExpr) (position : Nat) :
    (exprs.getD position default).eval dims syms =
      (exprs.map (eval dims syms)).getD position 0 := by
  simp only [List.getD_eq_getElem?_getD, List.getElem?_map]
  cases exprs[position]? <;> rfl

theorem eval_replace (dims syms : List Int) (newDims newSyms : List AffineExpr) (expr : AffineExpr) :
    (expr.replace newDims newSyms).eval dims syms =
      expr.eval (newDims.map (eval dims syms)) (newSyms.map (eval dims syms)) := by
  induction expr with
  | dim position => exact eval_getD dims syms newDims position
  | sym position => exact eval_getD dims syms newSyms position
  | const value => rfl
  | add lhs rhs left right => simp only [replace, eval, left, right]
  | mul lhs rhs left right => simp only [replace, eval, left, right]
  | mod lhs rhs left right => simp only [replace, eval, left, right]
  | floorDiv lhs rhs left right => simp only [replace, eval, left, right]
  | ceilDiv lhs rhs left right => simp only [replace, eval, left, right]

end AffineExpr

structure AffineMap where
  numDims : Nat
  numSymbols : Nat := 0
  results : List AffineExpr
  deriving DecidableEq, Repr

namespace AffineMap

def evaluate (map : AffineMap) (dims : List Int) (syms : List Int := []) : List Int :=
  map.results.map (·.eval dims syms)

def isEmpty (map : AffineMap) : Bool :=
  decide (map.numDims = 0) && decide (map.numSymbols = 0) && map.results.isEmpty

def identity (rank : Nat) : AffineMap :=
  { numDims := rank, results := (List.range rank).map .dim }

def compose (outer inner : AffineMap) : AffineMap :=
  { numDims := inner.numDims
    results := outer.results.map (·.replace inner.results []) }

/-- `replaceAffineMapSymbols`: every symbol becomes a constant. -/
def replaceSymbols (map : AffineMap) (symbols : List Int) : AffineMap :=
  { numDims := map.numDims
    results := map.results.map
      (·.replace ((List.range map.numDims).map .dim) (symbols.map .const)) }

theorem evaluate_identity (rank : Nat) (dims : List Int) (length : dims.length = rank) :
    (identity rank).evaluate dims = dims := by
  subst length
  apply List.ext_getElem (by simp [evaluate, identity])
  intro position _ inside
  simp [evaluate, identity, AffineExpr.eval, inside]

theorem evaluate_compose (outer inner : AffineMap) (dims : List Int) :
    (outer.compose inner).evaluate dims = outer.evaluate (inner.evaluate dims) := by
  simp [evaluate, compose, Function.comp_def, AffineExpr.eval_replace]

theorem evaluate_replaceSymbols (map : AffineMap) (symbols dims : List Int)
    (length : dims.length = map.numDims) :
    (map.replaceSymbols symbols).evaluate dims = map.evaluate dims symbols := by
  have sameDims := evaluate_identity map.numDims dims length
  simp only [evaluate, identity, List.map_map] at sameDims
  simp [evaluate, replaceSymbols, Function.comp_def, AffineExpr.eval_replace, AffineExpr.eval] at sameDims ⊢
  simp [sameDims]

end AffineMap

end TtMlir
