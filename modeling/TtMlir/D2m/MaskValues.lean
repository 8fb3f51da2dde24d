import Mathlib.Analysis.SpecialFunctions.Trigonometric.Arctan
import Mathlib.MeasureTheory.Integral.IntervalIntegral.Basic
import TtMlir.D2m.OptimizeMasks
import TtMlir.Library.Extended

/-!
What the ops compute on the reals with infinities and NaN, and what the states say of
such a value. A function is extended to an infinity by its limit there, where it has one.
-/

namespace TtMlir.D2m.OptimizeMasks

open TtMlir.Library

noncomputable section

def OOBVal.number : OOBVal → Option (Extended ℝ)
  | .zero => some 0
  | .one => some 1
  | .inf => some .posInf
  | .negInf => some .negInf
  | .undef => none

def OOBVal.Describes (state : OOBVal) (value : Extended ℝ) : Prop := ∀ known ∈ state.number, value = known

def FloatConstant.number : FloatConstant → Extended ℝ
  | .finite value => .finite value
  | .infinity isNegative => if isNegative then .negInf else .posInf
  | .nan => .nan

/-- An integer is read as the lattice reads it: the extremes of its width are the infinities. -/
def ConstantAttr.number (unknown : Extended ℝ) : ConstantAttr → Extended ℝ
  | .splat element => element.number unknown
  | .integer width value => (getConstantOOBVal (.integer width value)).number.getD (.finite value.toInt)
  | .float value => value.number
  | .dense | .other => unknown

def ConstantAttr.bound : ConstantAttr → Extended ℝ
  | .splat element => element.bound
  | .integer _ value => .finite value.toInt
  | .float value => value.number
  | .dense | .other => .nan

section Functions

def errorFunction (value : ℝ) : ℝ := 2 / √Real.pi * ∫ point in (0 : ℝ)..value, Real.exp (-point ^ 2)

def logistic (value : ℝ) : ℝ := (1 + Real.exp (-value))⁻¹

def hardLogistic (value : ℝ) : ℝ := max 0 (min 1 (value / 6 + 1 / 2))

def logarithm (value : ℝ) : Extended ℝ :=
  if value < 0 then .nan else if value = 0 then .negInf else .finite (Real.log value)

def squareRoot (value : ℝ) : Extended ℝ := if value < 0 then .nan else .finite √value

def reciprocalRoot (value : ℝ) : Extended ℝ :=
  if value < 0 then .nan else if value = 0 then .posInf else .finite (√value)⁻¹

def onUnitInterval (inverse : ℝ → ℝ) (value : ℝ) : Extended ℝ :=
  if |value| ≤ 1 then .finite (inverse value) else .nan

def truncated (value : ℝ) : ℝ := if 0 ≤ value then ⌊value⌋ else ⌈value⌉

def pointwise (function : ℝ → ℝ) (value : ℝ) : Extended ℝ := .finite (function value)

end Functions

section Operations

open Extended

def UnaryOp.eval (op : UnaryOp) (value : Extended ℝ) : Extended ℝ :=
  match op with
  | .typecast | .bcast | .transpose | .dstReinterpretCast | .fill => value
  | .negative | .negF => neg value
  | .abs => extend (pointwise fun value => |value|) posInf posInf value
  | .recip => div 1 value
  | .exp => extend (pointwise Real.exp) posInf 0 value
  | .exp2 => extend (pointwise fun value => 2 ^ value) posInf 0 value
  | .expm1 => extend (pointwise fun value => Real.exp value - 1) posInf (finite (-1)) value
  | .log => extend logarithm posInf nan value
  | .log1p => extend (fun value => logarithm (1 + value)) posInf nan value
  | .sqrt => extend squareRoot posInf nan value
  | .rsqrt => extend reciprocalRoot 0 nan value
  | .square => mul value value
  | .sin => extend (pointwise Real.sin) nan nan value
  | .tan => extend (pointwise Real.tan) nan nan value
  | .atan => extend (pointwise Real.arctan) (finite (Real.pi / 2)) (finite (-Real.pi / 2)) value
  | .asin => extend (onUnitInterval Real.arcsin) nan nan value
  | .cos => extend (pointwise Real.cos) nan nan value
  | .acos => extend (onUnitInterval Real.arccos) nan nan value
  | .tanh => extend (pointwise Real.tanh) 1 (finite (-1)) value
  | .sigmoid => extend (pointwise logistic) 1 0 value
  | .hardsigmoid => extend (pointwise hardLogistic) 1 0 value
  | .relu => if Less value 0 then 0 else value
  | .gelu => extend (pointwise fun value => value * ((1 + errorFunction (value / √2)) / 2)) posInf 0 value
  | .silu => extend (pointwise fun value => value * logistic value) posInf 0 value
  | .selu scale alpha =>
      mul scale.number <|
        if Less value 0 then mul alpha.number (extend (pointwise fun value => Real.exp value - 1) posInf (finite (-1)) value)
        else value
  | .softsign => extend (pointwise fun value => value / (1 + |value|)) 1 (finite (-1)) value
  | .erf => extend (pointwise errorFunction) 1 (finite (-1)) value
  | .erfc => extend (pointwise fun value => 1 - errorFunction value) 0 (finite 2) value
  | .sign => extend (pointwise fun value => (SignType.sign value : ℝ)) 1 (finite (-1)) value
  | .signbit | .ltz => indicator (Less value 0)
  | .ceil => extend (pointwise fun value => ⌈value⌉) posInf negInf value
  | .floor => extend (pointwise fun value => ⌊value⌋) posInf negInf value
  | .trunc => extend (pointwise truncated) posInf negInf value
  | .frac => extend (pointwise fun value => value - truncated value) nan nan value
  | .logicalNot | .eqz => indicator (value = 0)
  | .nez => indicator (value ≠ 0)
  | .gtz => indicator (Less 0 value)
  | .gez => indicator (value = 0 ∨ Less 0 value)
  | .lez => indicator (value = 0 ∨ Less value 0)
  | .clampScalar min max => clamp value min.bound max.bound

def infinitePower (base above below : Extended ℝ) : Extended ℝ :=
  match base with
  | finite base => if |base| = 1 then 1 else if |base| < 1 then below else above
  | posInf | negInf => above
  | nan => nan

def finitePower (base exponent : ℝ) : Extended ℝ :=
  if 0 < base then finite (base ^ exponent)
  else if (⌊exponent⌋ : ℝ) = exponent then finite (base ^ ⌊exponent⌋)
  else nan

def power (base exponent : Extended ℝ) : Extended ℝ :=
  if exponent = 0 ∨ base = 1 then 1
  else
    match base, exponent with
    | nan, _ | _, nan => nan
    | base, posInf => infinitePower base posInf 0
    | base, negInf => infinitePower base 0 posInf
    | finite base, finite exponent =>
        if base = 0 then if 0 < exponent then 0 else posInf else finitePower base exponent
    | posInf, finite exponent => if 0 < exponent then posInf else 0
    | negInf, finite exponent =>
        if 0 < exponent then if (⌊exponent⌋ : ℝ) = exponent ∧ Odd ⌊exponent⌋ then negInf else posInf else 0

def FloatOp.eval (op : FloatOp) : Extended ℝ → Extended ℝ → Extended ℝ :=
  match op with
  | .tileAdd | .addF => add
  | .tileSub | .subF => sub
  | .tileMul | .mulF => mul
  | .tileDiv | .divF => div
  | .pow => power
  | .tileMaximum | .maximumF => maximum
  | .maxNumF => maxNumber
  | .tileMinimum | .minimumF => minimum
  | .minNumF => minNumber

def IntegerOp.number (op : IntegerOp) : Extended ℝ → Extended ℝ → Extended ℝ :=
  match op with
  | .addI => add
  | .subI => sub
  | .mulI => mul
  | .divSI | .divUI => fun lhs rhs => extend (pointwise truncated) posInf negInf (div lhs rhs)
  | .maxSI | .maxUI => maximum
  | .minSI | .minUI => minimum

def BinaryOp.number : BinaryOp → Extended ℝ → Extended ℝ → Extended ℝ
  | .float op => op.eval
  | .integer op => op.number

def SelectOp.eval (_ : SelectOp) (condition trueValue falseValue : Extended ℝ) : Extended ℝ :=
  if condition = 0 then falseValue else trueValue

/-- The value of a padded element. What no op of these defines has any value, and so has an
element of a constant that is no splat. -/
def Expr.value (unknown : Expr → Extended ℝ) : Expr → Extended ℝ
  | .leaf recorded id => unknown (.leaf recorded id)
  | .constant recorded attr => attr.number (unknown (.constant recorded attr))
  | .unary _ op operand => op.eval (operand.value unknown)
  | .binary _ op lhs rhs => op.number (lhs.value unknown) (rhs.value unknown)
  | .select _ op condition trueValue falseValue =>
      op.eval (condition.value unknown) (trueValue.value unknown) (falseValue.value unknown)

end Operations

end

section Constants

theorem OOBVal.describes_getD (state : OOBVal) (value : Extended ℝ) : state.Describes (state.number.getD value) := by
  cases state <;> simp [OOBVal.Describes, OOBVal.number]

theorem getConstantOOBVal_number (unknown : Extended ℝ) (attr : ConstantAttr) :
    (getConstantOOBVal attr).Describes (attr.number unknown) := by
  induction attr with
  | splat element ih => exact ih
  | integer width value => exact OOBVal.describes_getD _ _
  | dense | other => simp [getConstantOOBVal, OOBVal.Describes, OOBVal.number]
  | float value =>
      cases value with
      | nan => simp [getConstantOOBVal, OOBVal.Describes, OOBVal.number]
      | infinity isNegative =>
          cases isNegative <;>
            simp [getConstantOOBVal, OOBVal.Describes, OOBVal.number, ConstantAttr.number, FloatConstant.number]
      | finite value =>
          simp only [getConstantOOBVal]
          split_ifs <;>
            simp_all [OOBVal.Describes, OOBVal.number, ConstantAttr.number, FloatConstant.number, Extended.zero_def,
              Extended.one_def]

end Constants

end TtMlir.D2m.OptimizeMasks
