import TtMlir.Ttir.WhileTripCount

/-!
What a while loop does: arithmetic that wraps around at the width of the element
type, and comparisons of the type's own sign.
-/

namespace TtMlir.Ttir.While

/-- A tensor of one integer. -/
structure Scalar where
  type : IntegerType
  bits : BitVec type.width
  deriving DecidableEq

def IntegerType.size (type : IntegerType) : Int := 2 ^ type.width

def IntegerType.low (type : IntegerType) : Int := if type.isUnsigned then 0 else -(2 ^ (type.width - 1))

def Scalar.value (scalar : Scalar) : Int :=
  if scalar.type.isUnsigned then scalar.bits.toNat else scalar.bits.toInt

def Comparison.holds (kind : Comparison) (left right : Int) : Bool :=
  match kind with
  | .lessThan => decide (left < right)
  | .lessEqual => decide (left ≤ right)
  | .greaterThan => decide (right < left)
  | .greaterEqual => decide (right ≤ left)

abbrev Arguments := Nat → Option Scalar

section Evaluation
variable (unknown : Nat → Arguments → Option Scalar) (arguments : Arguments)

def Value.eval : Value → Option Scalar
  | .argument _ index => arguments index
  | .constant type splat => splat.map fun bits => ⟨type, bits⟩
  | .full (.integer type) (some fillValue) => some ⟨type, fillValue.signExtend type.width⟩
  | .full _ _ => none
  | .reshape input => input.eval
  | .broadcast input => input.eval
  | .typecast input (.integer type) => input.eval.map fun scalar =>
      ⟨type, if scalar.type.isUnsigned then scalar.bits.zeroExtend type.width else scalar.bits.signExtend type.width⟩
  | .typecast _ .float => none
  | .compare kind lhs rhs =>
      match lhs.eval, rhs.eval with
      | some left, some right =>
          if left.type = right.type then
            some ⟨boolean, if kind.holds left.value right.value then 1 else 0⟩
          else none
      | _, _ => none
  | .add lhs rhs =>
      match lhs.eval, rhs.eval with
      | some left, some right =>
          if left.type = right.type then some ⟨left.type, left.bits + right.bits.setWidth left.type.width⟩ else none
      | _, _ => none
  | .other _ name => unknown name arguments

end Evaluation

namespace WhileOp
variable (whileOp : WhileOp) (unknown : Nat → Arguments → Option Scalar) (around : Arguments)

def carried : Nat → Arguments
  | 0, index =>
      if index < whileOp.inits.length then (whileOp.inits[index]?.bind (Value.eval unknown around))
      else whileOp.captures[index - whileOp.inits.length]?.bind (Value.eval unknown around)
  | iteration + 1, index =>
      if index < whileOp.inits.length then whileOp.bodyYield[index]?.bind (Value.eval unknown (carried iteration))
      else carried iteration index

def condition (iteration : Nat) : Option Bool :=
  (whileOp.condYield.eval unknown (whileOp.carried unknown around iteration)).map fun scalar => decide (scalar.bits ≠ 0)

def RunsExactly (count : Nat) : Prop :=
  (∀ iteration < count, whileOp.condition unknown around iteration = some true) ∧
    whileOp.condition unknown around count = some false

end WhileOp

section Typing

/-- Arguments have the element types of the signature, and operands agree in their types. -/
def Value.Typed (signature : List ElementType) : Value → Prop
  | .argument element index => signature[index]? = some element
  | .constant _ _ => True
  | .full _ _ => True
  | .reshape input => input.Typed signature
  | .broadcast input => input.Typed signature
  | .typecast input _ => input.Typed signature
  | .compare _ lhs rhs => lhs.Typed signature ∧ rhs.Typed signature ∧ lhs.element = rhs.element
  | .add lhs rhs => lhs.Typed signature ∧ rhs.Typed signature ∧ lhs.element = rhs.element
  | .other _ _ => True

def WhileOp.signature (whileOp : WhileOp) : List ElementType := (whileOp.inits ++ whileOp.captures).map Value.element

/-- WhileOp::verify, and the types of the ops. -/
structure WhileOp.Verified (whileOp : WhileOp) : Prop where
  condTyped : whileOp.condYield.Typed whileOp.signature
  bodyTyped : ∀ value ∈ whileOp.bodyYield, value.Typed whileOp.signature
  bodyTypes : whileOp.bodyYield.map Value.element = whileOp.inits.map Value.element

end Typing

end TtMlir.Ttir.While
