import Mathlib.Algebra.Order.Field.Basic

/-!
Numbers of a linearly ordered field with two infinities and a value that is no number.
Arithmetic follows the floating conventions: an infinity meeting the opposite one, or
zero in a product, gives no number, and there is one zero.
-/

namespace TtMlir.Library

inductive Extended (α : Type) where
  | finite (value : α)
  | posInf
  | negInf
  | nan
  deriving DecidableEq

namespace Extended

variable {α : Type}

def extend (onFinite : α → Extended α) (atPosInf atNegInf : Extended α) : Extended α → Extended α
  | finite value => onFinite value
  | posInf => atPosInf
  | negInf => atNegInf
  | nan => nan

def IsFinite : Extended α → Prop
  | finite _ => True
  | posInf | negInf | nan => False

section Field
variable [Field α]

instance : Zero (Extended α) := ⟨finite 0⟩

instance : One (Extended α) := ⟨finite 1⟩

theorem zero_def : (0 : Extended α) = finite 0 := rfl

theorem one_def : (1 : Extended α) = finite 1 := rfl

def indicator (condition : Prop) [Decidable condition] : Extended α := if condition then 1 else 0

def neg : Extended α → Extended α := extend (fun value => finite (-value)) negInf posInf

def add : Extended α → Extended α → Extended α
  | nan, _ | _, nan | posInf, negInf | negInf, posInf => nan
  | finite lhs, finite rhs => finite (lhs + rhs)
  | posInf, _ | _, posInf => posInf
  | negInf, _ | _, negInf => negInf

def sub (lhs rhs : Extended α) : Extended α := add lhs (neg rhs)

theorem indicator_eq_zero (condition : Prop) [Decidable condition] :
    (indicator condition : Extended α) = 0 ↔ ¬condition := by
  unfold indicator
  split <;> simp_all [zero_def, one_def]

theorem zero_add (value : Extended α) : add 0 value = value := by
  cases value <;> simp [add]

theorem add_zero (value : Extended α) : add value 0 = value := by
  cases value <;> simp [add]

theorem sub_zero (value : Extended α) : sub value 0 = value := by
  cases value <;> simp [sub, neg, extend, add]

theorem zero_sub (value : Extended α) : sub 0 value = neg value := zero_add (neg value)

theorem neg_eq_zero (value : Extended α) : neg value = 0 ↔ value = 0 := by
  cases value <;> simp [zero_def, neg, extend]

section Ordered
variable [LinearOrder α]

def scaled (positive negative : Extended α) (factor : α) : Extended α :=
  if factor = 0 then nan else if 0 < factor then positive else negative

def mul : Extended α → Extended α → Extended α
  | nan, _ | _, nan => nan
  | finite lhs, finite rhs => finite (lhs * rhs)
  | posInf, finite factor | finite factor, posInf => scaled posInf negInf factor
  | negInf, finite factor | finite factor, negInf => scaled negInf posInf factor
  | posInf, posInf | negInf, negInf => posInf
  | posInf, negInf | negInf, posInf => negInf

def div : Extended α → Extended α → Extended α
  | nan, _ | _, nan => nan
  | finite _, posInf | finite _, negInf => 0
  | posInf, posInf | posInf, negInf | negInf, posInf | negInf, negInf => nan
  | finite lhs, finite rhs => if rhs = 0 then scaled posInf negInf lhs else finite (lhs / rhs)
  | posInf, finite rhs => if rhs < 0 then negInf else posInf
  | negInf, finite rhs => if rhs < 0 then posInf else negInf

def Less : Extended α → Extended α → Prop
  | nan, _ | _, nan | posInf, _ | _, negInf => False
  | finite lhs, finite rhs => lhs < rhs
  | negInf, _ | _, posInf => True

instance : DecidableRel (Less (α := α))
  | nan, _ => isFalse (by simp [Less])
  | posInf, nan | posInf, finite _ | posInf, posInf | posInf, negInf => isFalse (by simp [Less])
  | negInf, nan | negInf, negInf => isFalse (by simp [Less])
  | negInf, finite _ | negInf, posInf => isTrue (by simp [Less])
  | finite _, nan | finite _, negInf => isFalse (by simp [Less])
  | finite _, posInf => isTrue (by simp [Less])
  | finite lhs, finite rhs => inferInstanceAs (Decidable (lhs < rhs))

def maxNumber (lhs rhs : Extended α) : Extended α :=
  if lhs = nan then rhs else if rhs = nan then lhs else if Less lhs rhs then rhs else lhs

def minNumber (lhs rhs : Extended α) : Extended α :=
  if lhs = nan then rhs else if rhs = nan then lhs else if Less rhs lhs then rhs else lhs

/-- No number where either operand is none. -/
def maximum (lhs rhs : Extended α) : Extended α := if lhs = nan ∨ rhs = nan then nan else maxNumber lhs rhs

def minimum (lhs rhs : Extended α) : Extended α := if lhs = nan ∨ rhs = nan then nan else minNumber lhs rhs

def clamp (value lower upper : Extended α) : Extended α :=
  let raised := if Less value lower then lower else value
  if Less upper raised then upper else raised

theorem scaled_ne_zero {positive negative : Extended α} (factor : α) (left : positive ≠ 0) (right : negative ≠ 0) :
    scaled positive negative factor ≠ 0 := by
  unfold scaled
  split_ifs <;> first | assumption | simp [zero_def]

theorem scaled_eq_posInf (factor : α) : scaled posInf negInf factor = posInf ↔ 0 < factor := by
  unfold scaled
  split_ifs with zero positive
  · simp [zero]
  · simp [positive]
  · simp [positive]

theorem mul_eq_zero (lhs rhs : Extended α) : mul lhs rhs = 0 ↔ lhs.IsFinite ∧ rhs.IsFinite ∧ (lhs = 0 ∨ rhs = 0) := by
  have infinite : (posInf : Extended α) ≠ 0 ∧ (negInf : Extended α) ≠ 0 := by simp [zero_def]
  cases lhs <;> cases rhs <;> simp [mul, IsFinite, scaled_ne_zero, infinite]
  -- left: both are finite
  simp [zero_def]

end Ordered

end Field

end Extended

end TtMlir.Library
