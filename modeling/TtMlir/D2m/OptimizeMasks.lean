import Mathlib.Data.Rat.Defs

/-!
The lattice in which `D2MOptimizeMasks` tracks padded elements, and its transfer
function for the pointwise ops. A value with a concrete state holds that constant in
every padded element. Whether an element is zero is inferred through a few ops more.
-/

namespace TtMlir.D2m.OptimizeMasks

inductive OOBVal
  | undef | zero | one | inf | negInf
  deriving DecidableEq, Repr

inductive FloatConstant
  | finite (value : ℚ)
  | infinity (isNegative : Bool)
  | nan
  deriving DecidableEq

/-- A constant's attribute; a dense one is a splat or not. -/
inductive ConstantAttr
  | integer (width : Nat) (value : BitVec width)
  | float (value : FloatConstant)
  | splat (element : ConstantAttr)
  | dense
  | other

/-- Ops with one operand. `selu` has its scale and alpha, `clampScalar` its bounds. -/
inductive UnaryOp
  | typecast | bcast | transpose | dstReinterpretCast
  | negative | negF | abs | recip | exp | exp2 | expm1 | log | log1p | sqrt | rsqrt | square
  | sin | tan | atan | asin | cos | acos | tanh | sigmoid | hardsigmoid | relu | gelu | silu
  | selu (scale alpha : FloatConstant)
  | softsign | erf | erfc | sign | signbit | ceil | floor | trunc | frac
  | logicalNot | eqz | nez | gtz | gez | ltz | lez
  | clampScalar (min max : ConstantAttr)
  | fill

inductive FloatOp
  | tileAdd | addF | tileSub | subF | tileMul | mulF | tileDiv | divF | pow
  | tileMaximum | maximumF | maxNumF | tileMinimum | minimumF | minNumF
  deriving DecidableEq, Repr

inductive IntegerOp
  | addI | subI | mulI | divSI | divUI | maxSI | maxUI | minSI | minUI
  deriving DecidableEq, Repr

inductive BinaryOp
  | float (op : FloatOp)
  | integer (op : IntegerOp)
  deriving DecidableEq, Repr

/-- `arith.select` or `tile_where`. -/
inductive SelectOp
  | select | tileWhere
  deriving DecidableEq, Repr

/-- A value with the op that defines it, down to values that no op of these defines.
Each may have a state in the map. -/
inductive Expr
  | leaf (recorded : Option OOBVal) (id : Nat)
  | constant (recorded : Option OOBVal) (attr : ConstantAttr)
  | unary (recorded : Option OOBVal) (op : UnaryOp) (operand : Expr)
  | binary (recorded : Option OOBVal) (op : BinaryOp) (lhs rhs : Expr)
  | select (recorded : Option OOBVal) (op : SelectOp) (condition trueValue falseValue : Expr)

def isConcreteOOBVal (value : OOBVal) : Bool := value != .undef

def OOBVal.isInfinite : OOBVal → Bool
  | .inf | .negInf => true
  | _ => false

def getConstantOOBVal : ConstantAttr → OOBVal
  | .splat element => getConstantOOBVal element
  | .integer width value =>
      if value = 0 then .zero
      else if value = 1 then .one
      else if value = BitVec.intMin width then .negInf
      else if value = BitVec.intMax width then .inf
      else .undef
  | .float (.finite value) => if value = 0 then .zero else if value = 1 then .one else .undef
  | .float (.infinity isNegative) => if isNegative then .negInf else .inf
  | .float .nan => .undef
  | .dense | .other => OOBVal.undef

/-- Constants need no entry of their own; any other value without one is unknown. -/
def getStateOrUndef : Expr → OOBVal
  | .constant none attr => getConstantOOBVal attr
  | .leaf recorded _ | .constant recorded _ | .unary recorded _ _ | .binary recorded _ _ _ | .select recorded _ _ _ _ =>
      recorded.getD .undef

section Unary

def negateOOBVal : OOBVal → OOBVal
  | .zero => .zero
  | .inf => .negInf
  | .negInf => .inf
  | .one | .undef => .undef

def absOOBVal : OOBVal → OOBVal
  | .negInf => .inf
  | value => value

def recipOOBVal : OOBVal → OOBVal
  | .one => .one
  | .inf | .negInf => .zero
  | .zero | .undef => .undef

def expOOBVal : OOBVal → OOBVal
  | .zero => .one
  | .inf => .inf
  | .negInf => .zero
  | .one | .undef => .undef

def expm1OOBVal : OOBVal → OOBVal
  | .zero => .zero
  | .inf => .inf
  | .one | .negInf | .undef => .undef

def logOOBVal : OOBVal → OOBVal
  | .zero => .negInf
  | .one => .zero
  | .inf => .inf
  | .negInf | .undef => .undef

def log1pOOBVal : OOBVal → OOBVal
  | .zero => .zero
  | .inf => .inf
  | .one | .negInf | .undef => .undef

def sqrtOOBVal : OOBVal → OOBVal
  | .negInf => .undef
  | value => value

def rsqrtOOBVal : OOBVal → OOBVal
  | .zero => .inf
  | .one => .one
  | .inf => .zero
  | .negInf | .undef => .undef

def squareOOBVal : OOBVal → OOBVal
  | .negInf => .inf
  | value => value

def sinOOBVal : OOBVal → OOBVal
  | .zero => .zero
  | _ => .undef

def cosOOBVal : OOBVal → OOBVal
  | .zero => .one
  | _ => .undef

def acosOOBVal : OOBVal → OOBVal
  | .one => .zero
  | _ => .undef

def tanhOOBVal : OOBVal → OOBVal
  | .zero => .zero
  | .inf => .one
  | .one | .negInf | .undef => .undef

def sigmoidOOBVal : OOBVal → OOBVal
  | .inf => .one
  | .negInf => .zero
  | .zero | .one | .undef => .undef

def reluOOBVal : OOBVal → OOBVal
  | .negInf => .zero
  | value => value

def geluOOBVal : OOBVal → OOBVal
  | .zero => .zero
  | .inf => .inf
  | .negInf => .zero
  | .one | .undef => .undef

def seluOOBVal : OOBVal → OOBVal
  | .zero => .zero
  | .inf => .inf
  | .one | .negInf | .undef => .undef

def erfcOOBVal : OOBVal → OOBVal
  | .zero => .one
  | .inf => .zero
  | _ => .undef

def signOOBVal : OOBVal → OOBVal
  | .zero => .zero
  | .one | .inf => .one
  | .negInf | .undef => .undef

def signbitOOBVal : OOBVal → OOBVal
  | .one | .inf => .zero
  | .negInf => .one
  | .zero | .undef => .undef

def fracOOBVal : OOBVal → OOBVal
  | .zero | .one => .zero
  | .inf | .negInf | .undef => .undef

def positivePredicateOOBVal : OOBVal → OOBVal
  | .one | .inf => .one
  | .zero | .negInf => .zero
  | .undef => .undef

def nonNegativePredicateOOBVal : OOBVal → OOBVal
  | .zero | .one | .inf => .one
  | .negInf => .zero
  | .undef => .undef

def negativePredicateOOBVal : OOBVal → OOBVal
  | .negInf => .one
  | .zero | .one | .inf => .zero
  | .undef => .undef

def nonPositivePredicateOOBVal : OOBVal → OOBVal
  | .zero | .negInf => .one
  | .one | .inf => .zero
  | .undef => .undef

end Unary

section Binary

def addOOBVals (lhs rhs : OOBVal) : OOBVal :=
  if lhs = .zero then rhs
  else if rhs = .zero then lhs
  else if lhs = .inf ∨ rhs = .inf then if lhs = .negInf ∨ rhs = .negInf then .undef else .inf
  else if lhs = .negInf ∨ rhs = .negInf then .negInf
  else .undef

def subOOBVals (lhs rhs : OOBVal) : OOBVal :=
  if rhs = .zero then lhs
  else if lhs = .zero then negateOOBVal rhs
  else if lhs = .inf then if rhs = .inf then .undef else .inf
  else if lhs = .negInf then if rhs = .negInf then .undef else .negInf
  else if rhs = .inf then .negInf
  else if rhs = .negInf then .inf
  else if lhs = .one ∧ rhs = .one then .zero
  else OOBVal.undef

/-- Zero does not absorb what may be infinite. -/
def mulOOBVals (lhs rhs : OOBVal) : OOBVal :=
  if lhs = .zero ∨ rhs = .zero then
    let other := if lhs = .zero then rhs else lhs
    if other = .zero ∨ other = .one then .zero else .undef
  else if lhs = .one then rhs
  else if rhs = .one then lhs
  else if lhs = .undef ∨ rhs = .undef then .undef
  else if lhs = rhs then .inf
  else .negInf

def divOOBVals (lhs rhs : OOBVal) : OOBVal :=
  if rhs = .one then lhs
  else if lhs = .zero ∧ isConcreteOOBVal rhs = true ∧ rhs ≠ .zero then .zero
  else if lhs = .one ∧ (rhs = .inf ∨ rhs = .negInf) then .zero
  else .undef

def maxOOBVals (lhs rhs : OOBVal) : OOBVal :=
  if lhs = .inf ∨ rhs = .inf then .inf
  else if lhs = .negInf then rhs
  else if rhs = .negInf then lhs
  else if lhs = .undef ∨ rhs = .undef then .undef
  else if lhs = .one ∨ rhs = .one then .one
  else .zero

def minOOBVals (lhs rhs : OOBVal) : OOBVal :=
  if lhs = .negInf ∨ rhs = .negInf then .negInf
  else if lhs = .inf then rhs
  else if rhs = .inf then lhs
  else if lhs = .undef ∨ rhs = .undef then .undef
  else if lhs = .zero ∨ rhs = .zero then .zero
  else .one

def powOOBVals (lhs rhs : OOBVal) : OOBVal :=
  if rhs = .zero then .one
  else if rhs = .one then lhs
  else if lhs = .one then .one
  else OOBVal.undef

/-- Floating ops and integer ops share their tables. -/
def binaryOOBVals : BinaryOp → OOBVal → OOBVal → OOBVal
  | .float .tileAdd | .float .addF | .integer .addI => addOOBVals
  | .float .tileSub | .float .subF | .integer .subI => subOOBVals
  | .float .tileMul | .float .mulF | .integer .mulI => mulOOBVals
  | .float .tileDiv | .float .divF | .integer .divSI | .integer .divUI => divOOBVals
  | .float .pow => powOOBVals
  | .float .tileMaximum | .float .maximumF | .float .maxNumF | .integer .maxSI | .integer .maxUI => maxOOBVals
  | .float .tileMinimum | .float .minimumF | .float .minNumF | .integer .minSI | .integer .minUI => minOOBVals

end Binary

inductive KnownZero
  | unknown | zero | nonZero
  deriving DecidableEq, Repr

def getConstantKnownZero : ConstantAttr → KnownZero
  | .splat element => getConstantKnownZero element
  | .integer _ value => if value = 0 then .zero else .nonZero
  | .float (.finite value) => if value = 0 then .zero else .nonZero
  | .float (.infinity _) => .nonZero
  | .float .nan | .dense | .other => .unknown

def getKnownZero : OOBVal → KnownZero
  | .zero => .zero
  | .one | .inf | .negInf => .nonZero
  | .undef => .unknown

def getZeroPredicateOOBVal : KnownZero → OOBVal
  | .zero => .one
  | .nonZero => .zero
  | .unknown => .undef

def getNonZeroPredicateOOBVal : KnownZero → OOBVal
  | .zero => .zero
  | .nonZero => .one
  | .unknown => .undef

def inferAddKnownZero (lhsZero rhsZero : KnownZero) (lhs rhs : OOBVal) : KnownZero :=
  if lhsZero = .zero then rhsZero
  else if rhsZero = .zero then lhsZero
  else if lhsZero ≠ .nonZero ∨ rhsZero ≠ .nonZero ∨ isConcreteOOBVal lhs = false ∨ isConcreteOOBVal rhs = false then
    .unknown
  else if (lhs = .inf ∧ rhs = .negInf) ∨ (lhs = .negInf ∧ rhs = .inf) then .unknown
  else .nonZero

def inferSubKnownZero (lhsZero rhsZero : KnownZero) (lhs rhs : OOBVal) : KnownZero :=
  if rhsZero = .zero then lhsZero
  else if lhsZero = .zero then if rhsZero = .nonZero then .nonZero else .unknown
  else if lhs = .one ∧ rhs = .one then .zero
  else if lhs = .inf then if rhs = .inf then .unknown else .nonZero
  else if lhs = .negInf then if rhs = .negInf then .unknown else .nonZero
  else if rhs = .inf ∨ rhs = .negInf then if lhs = .undef then .unknown else .nonZero
  else .unknown

def inferMulKnownZero (lhsZero rhsZero : KnownZero) : KnownZero :=
  if lhsZero = .zero ∨ rhsZero = .zero then .zero
  else if lhsZero = .nonZero ∧ rhsZero = .nonZero then .nonZero
  else .unknown

def inferSelectKnownZero (conditionZero trueValueZero falseValueZero : KnownZero) : KnownZero :=
  if conditionZero = .zero then falseValueZero
  else if conditionZero = .nonZero then trueValueZero
  else if trueValueZero = falseValueZero then trueValueZero
  else .unknown

def knownZeroOr (state : OOBVal) (otherwise : KnownZero) : KnownZero :=
  match getKnownZero state with
  | .unknown => otherwise
  | knownZero => knownZero

/-- Through at most four ops. -/
def inferKnownZero (depth : Nat) : Expr → KnownZero
  | value@(.leaf _ _) => knownZeroOr (getStateOrUndef value) .unknown
  | value@(.constant _ attr) => knownZeroOr (getStateOrUndef value) (getConstantKnownZero attr)
  | value@(.unary _ op operand) =>
      knownZeroOr (getStateOrUndef value) <|
        if depth ≥ 4 then .unknown
        else
          match op with
          | .logicalNot | .eqz => getKnownZero (getZeroPredicateOOBVal (inferKnownZero (depth + 1) operand))
          | .nez => getKnownZero (getNonZeroPredicateOOBVal (inferKnownZero (depth + 1) operand))
          | _ => .unknown
  | value@(.binary _ op lhs rhs) =>
      knownZeroOr (getStateOrUndef value) <|
        if depth ≥ 4 then .unknown
        else
          let lhsZero := inferKnownZero (depth + 1) lhs
          let rhsZero := inferKnownZero (depth + 1) rhs
          match op with
          | .float .tileAdd | .float .addF | .integer .addI =>
              inferAddKnownZero lhsZero rhsZero (getStateOrUndef lhs) (getStateOrUndef rhs)
          | .float .tileSub | .float .subF | .integer .subI =>
              inferSubKnownZero lhsZero rhsZero (getStateOrUndef lhs) (getStateOrUndef rhs)
          | .float .tileMul | .float .mulF | .integer .mulI => inferMulKnownZero lhsZero rhsZero
          | _ => .unknown
  | value@(.select _ _ condition trueValue falseValue) =>
      knownZeroOr (getStateOrUndef value) <|
        if depth ≥ 4 then .unknown
        else
          inferSelectKnownZero (inferKnownZero (depth + 1) condition) (inferKnownZero (depth + 1) trueValue)
            (inferKnownZero (depth + 1) falseValue)

def getOOBValAsBool : OOBVal → Option Bool
  | .zero => some false
  | .one | .inf | .negInf => some true
  | .undef => none

def selectOOBVals (condition trueValue falseValue : OOBVal) : OOBVal :=
  match getOOBValAsBool condition with
  | some conditionValue => if conditionValue then trueValue else falseValue
  | none => if trueValue = falseValue then trueValue else .undef

def getOOBValAsDouble : OOBVal → Option FloatConstant
  | .zero => some (.finite 0)
  | .one => some (.finite 1)
  | .inf => some (.infinity false)
  | .negInf => some (.infinity true)
  | .undef => none

def getConstantAsDouble : ConstantAttr → Option FloatConstant
  | .integer width value => if width > 63 then none else some (.finite value.toInt)
  | .float value => some value
  | .splat _ | .dense | .other => none

/-- `<` on doubles: never true of a NaN. -/
def FloatConstant.less : FloatConstant → FloatConstant → Bool
  | .nan, _ | _, .nan => false
  | .finite lhs, .finite rhs => decide (lhs < rhs)
  | .infinity isNegative, .finite _ => isNegative
  | .finite _, .infinity isNegative => !isNegative
  | .infinity lhsNegative, .infinity rhsNegative => lhsNegative && !rhsNegative

/-- Below the minimum first, then above the maximum. -/
def clampOOBVal (value : OOBVal) (minAttr maxAttr : ConstantAttr) : OOBVal :=
  match getOOBValAsDouble value, getConstantAsDouble minAttr, getConstantAsDouble maxAttr with
  | some value, some min, some max =>
      let raised := if value.less min then min else value
      let clamped := if max.less raised then max else raised
      match clamped with
      | .finite clamped => if clamped = 0 then .zero else if clamped = 1 then .one else .undef
      | .infinity isNegative => if isNegative then .negInf else .inf
      | .nan => .undef
  | _, _, _ => OOBVal.undef

/-- The transfer function of the ops with one operand. -/
def unaryOOBVal (op : UnaryOp) (operand : Expr) : OOBVal :=
  let input := getStateOrUndef operand
  match op with
  | .typecast | .bcast | .transpose | .dstReinterpretCast | .ceil | .floor | .trunc | .fill => input
  | .negative | .negF => negateOOBVal input
  | .abs => absOOBVal input
  | .recip => recipOOBVal input
  | .exp | .exp2 => expOOBVal input
  | .expm1 => expm1OOBVal input
  | .log => logOOBVal input
  | .log1p => log1pOOBVal input
  | .sqrt => sqrtOOBVal input
  | .rsqrt => rsqrtOOBVal input
  | .square => squareOOBVal input
  | .sin | .tan | .atan | .asin => sinOOBVal input
  | .cos => cosOOBVal input
  | .acos => acosOOBVal input
  | .tanh | .softsign | .erf => tanhOOBVal input
  | .sigmoid | .hardsigmoid => sigmoidOOBVal input
  | .relu => reluOOBVal input
  | .gelu | .silu => geluOOBVal input
  | .selu _ _ => seluOOBVal input
  | .erfc => erfcOOBVal input
  | .sign => signOOBVal input
  | .signbit => signbitOOBVal input
  | .frac => fracOOBVal input
  | .logicalNot | .eqz => getZeroPredicateOOBVal (inferKnownZero 0 operand)
  | .nez => getNonZeroPredicateOOBVal (inferKnownZero 0 operand)
  | .gtz => positivePredicateOOBVal input
  | .gez => nonNegativePredicateOOBVal input
  | .ltz => negativePredicateOOBVal input
  | .lez => nonPositivePredicateOOBVal input
  | .clampScalar min max => clampOOBVal input min max

def inferElementwiseOOBVal : Expr → OOBVal
  | .select _ _ condition trueValue falseValue =>
      selectOOBVals (getStateOrUndef condition) (getStateOrUndef trueValue) (getStateOrUndef falseValue)
  | .unary _ op operand => unaryOOBVal op operand
  | .binary _ op lhs rhs => binaryOOBVals op (getStateOrUndef lhs) (getStateOrUndef rhs)
  | .leaf _ _ | .constant _ _ => .undef

end TtMlir.D2m.OptimizeMasks
