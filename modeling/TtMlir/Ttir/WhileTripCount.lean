import TtMlir.Library.WrappingCount

/-!
Trip counts of counted while loops, WhileTripCount.cpp. The matchers look at the
ops that define the start, the limit and the step of a counter.
-/

namespace TtMlir.Ttir.While

/-- An integer element type of a width that elementTypeToDataType knows. -/
structure IntegerType where
  width : Nat
  isUnsigned : Bool
  positive : 0 < width
  supported : width ≤ 64
  deriving DecidableEq

inductive ElementType where
  | integer (type : IntegerType)
  | float
  deriving DecidableEq

structure APInt where
  width : Nat
  bits : BitVec width
  deriving DecidableEq

namespace APInt

def isNegative (value : APInt) : Bool := value.bits.msb

def sextOrTrunc (value : APInt) (width : Nat) : APInt := ⟨width, value.bits.signExtend width⟩

def zextOrTrunc (value : APInt) (width : Nat) : APInt := ⟨width, value.bits.zeroExtend width⟩

end APInt

inductive Comparison where
  | lessThan | lessEqual | greaterThan | greaterEqual
  deriving DecidableEq

/-- The values of a region or around the loop, by the ops that define them. -/
inductive Value where
  | argument (element : ElementType) (index : Nat)
  | constant (type : IntegerType) (splat : Option (BitVec type.width))
  | full (element : ElementType) (fillValue : Option (BitVec 32))
  | reshape (input : Value)
  | broadcast (input : Value)
  | typecast (input : Value) (result : ElementType)
  | compare (kind : Comparison) (lhs rhs : Value)
  | add (lhs rhs : Value)
  | other (element : ElementType) (name : Nat)
  deriving DecidableEq

def boolean : IntegerType := ⟨1, false, by decide, by decide⟩

def Value.element : Value → ElementType
  | .argument element _ => element
  | .constant type _ => .integer type
  | .full element _ => element
  | .reshape input => input.element
  | .broadcast input => input.element
  | .typecast _ result => result
  | .compare _ _ _ => .integer boolean
  | .add lhs _ => lhs.element
  | .other element _ => element

structure WhileOp where
  inits : List Value
  captures : List Value
  condYield : Value
  bodyYield : List Value
  tripCount : Option Int

section Constants

def getScalarIntType (value : Value) : Option IntegerType :=
  match value.element with
  | .integer type => some type
  | .float => none

def isSupportedCastType (type : IntegerType) : Bool := decide (type.width = 32) || decide (type.width = 64)

def castConstant (inputType resultType : IntegerType) (input : APInt) : Option APInt :=
  let converted :=
    if inputType.isUnsigned then input.zextOrTrunc resultType.width else input.sextOrTrunc resultType.width
  if resultType.isUnsigned && converted.isNegative then none
  -- APInt only compares values of one width
  else if converted.sextOrTrunc inputType.width ≠ input then none
  else some converted

def matchScalarIntConstant : Value → Option APInt
  | .reshape input => matchScalarIntConstant input
  | .broadcast input => matchScalarIntConstant input
  | .typecast input result =>
      match getScalarIntType input, result with
      | some inputType, .integer resultType =>
          if !isSupportedCastType inputType || !isSupportedCastType resultType then none
          else (matchScalarIntConstant input).bind (castConstant inputType resultType)
      | _, _ => none
  | .constant type splat => splat.map fun bits => ⟨type.width, bits⟩
  | .full _ fillValue => fillValue.map fun bits => ⟨32, bits⟩
  | _ => none

def matchLoopInvariantConstant (whileOp : WhileOp) (value : Value) : Option APInt :=
  match value with
  | .argument _ index =>
      if index < whileOp.inits.length then none
      else whileOp.captures[index - whileOp.inits.length]?.bind matchScalarIntConstant
  | value => matchScalarIntConstant value

end Constants

section Matching
variable (whileOp : WhileOp)

structure InductionComparison where
  inductionIndex : Nat
  limit : APInt
  ascending : Bool
  inclusive : Bool

def Comparison.ascending : Comparison → Bool
  | .lessThan | .lessEqual => true
  | .greaterThan | .greaterEqual => false

def Comparison.inclusive : Comparison → Bool
  | .lessEqual | .greaterEqual => true
  | .lessThan | .greaterThan => false

def inductionArg (value : Value) : Option Nat :=
  match value with
  | .argument _ index => if index < whileOp.inits.length then some index else none
  | _ => none

def matchConditionRegion : Option InductionComparison :=
  match whileOp.condYield with
  | .compare kind lhs rhs =>
      match inductionArg whileOp lhs with
      | some index =>
          (matchLoopInvariantConstant whileOp rhs).map fun limit => ⟨index, limit, kind.ascending, kind.inclusive⟩
      | none =>
          match inductionArg whileOp rhs with
          | some index =>
              -- swapping the operands mirrors the comparison
              (matchLoopInvariantConstant whileOp lhs).map fun limit => ⟨index, limit, !kind.ascending, kind.inclusive⟩
          | none => none
  | _ => none

def isInductionArg (inductionIndex : Nat) (value : Value) : Bool :=
  match value with
  | .argument _ index => decide (index = inductionIndex)
  | _ => false

def matchInductionStep (inductionIndex : Nat) : Option APInt :=
  match whileOp.bodyYield[inductionIndex]? with
  | some (.add lhs rhs) =>
      if isInductionArg inductionIndex lhs then matchLoopInvariantConstant whileOp rhs
      else if isInductionArg inductionIndex rhs then matchLoopInvariantConstant whileOp lhs
      else none
  | _ => none

end Matching

section Counting

/-- 128 bits hold every value on the way. -/
def computeTripCount (comparison : InductionComparison) (start step : APInt) : Option Int :=
  let begin := start.bits.toInt
  let stride := step.bits.toInt
  if stride = 0 then none
  else if comparison.ascending ≠ decide (0 < stride) then none
  else
    let limit := comparison.limit.bits.toInt +
      if comparison.inclusive then (if comparison.ascending then 1 else -1) else 0
    let distance := if comparison.ascending then limit - begin else begin - limit
    let absStride := if comparison.ascending then stride else -stride
    if ¬ 0 < distance then some 0
    else
      let count := (distance + absStride - 1).tdiv absStride
      if ¬ (-(2 : Int) ^ 62 ≤ count ∧ count < 2 ^ 62) then none else some count

def analyzeTripCount (whileOp : WhileOp) : Option Int := do
  let comparison ← matchConditionRegion whileOp
  let init ← whileOp.inits[comparison.inductionIndex]?
  let start ← matchScalarIntConstant init
  let step ← matchInductionStep whileOp comparison.inductionIndex
  computeTripCount comparison start step

def runOnOperation (whileOp : WhileOp) : WhileOp :=
  if whileOp.tripCount.isSome then whileOp
  else
    match analyzeTripCount whileOp with
    | some tripCount => { whileOp with tripCount := some tripCount }
    | none => whileOp

end Counting

end TtMlir.Ttir.While
