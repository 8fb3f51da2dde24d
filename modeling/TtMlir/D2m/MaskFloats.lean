import TtMlir.D2m.MaskZeros

/-!
The transfer function on floating values. The tables of the ops with one operand are
right; among the others an infinite state absorbs an unknown operand, which may be the
opposite infinity or NaN.
-/

namespace TtMlir.D2m.OptimizeMasks

open TtMlir.Library

section States

variable {value : Extended ℝ}

@[simp] theorem describes_undef : OOBVal.undef.Describes value := by simp [OOBVal.Describes, OOBVal.number]

@[simp] theorem describes_zero : OOBVal.zero.Describes value ↔ value = 0 := by simp [OOBVal.Describes, OOBVal.number]

@[simp] theorem describes_one : OOBVal.one.Describes value ↔ value = 1 := by simp [OOBVal.Describes, OOBVal.number]

@[simp] theorem describes_inf : OOBVal.inf.Describes value ↔ value = .posInf := by
  simp [OOBVal.Describes, OOBVal.number]

@[simp] theorem describes_negInf : OOBVal.negInf.Describes value ↔ value = .negInf := by
  simp [OOBVal.Describes, OOBVal.number]

/-- A table is right that knows nothing of an unknown value and is right of the four known ones. -/
theorem table_describes (table : OOBVal → OOBVal) (function : Extended ℝ → Extended ℝ) {state : OOBVal}
    (described : state.Describes value) (undef : table .undef = .undef) (zero : (table .zero).Describes (function 0))
    (one : (table .one).Describes (function 1)) (inf : (table .inf).Describes (function .posInf))
    (negInf : (table .negInf).Describes (function .negInf)) : (table state).Describes (function value) := by
  cases state with
  | undef => simp [undef]
  | zero => exact describes_zero.mp described ▸ zero
  | one => exact describes_one.mp described ▸ one
  | inf => exact describes_inf.mp described ▸ inf
  | negInf => exact describes_negInf.mp described ▸ negInf

end States

theorem one_not_negative : ¬(1 : ℝ) < 0 := not_lt.mpr zero_le_one

section Unary

open Extended

/-- The transfer function at a state, for the ops that look at no more of their operand. -/
def UnaryOp.table (op : UnaryOp) (state : OOBVal) : OOBVal := unaryOOBVal op (.leaf (some state) 0)

def UnaryOp.hasParameters : UnaryOp → Bool
  | .selu _ _ | .clampScalar _ _ => true
  | _ => false

theorem table_known (op : UnaryOp) (plain : op.hasParameters = false) (known : OOBVal) (value : Extended ℝ)
    (number : known.number = some value) : (op.table known).Describes (op.eval value) := by
  cases known <;> cases number
  all_goals
    cases op with
    | selu | clampScalar => exact nomatch plain
    | _ =>
        simp [UnaryOp.table, unaryOOBVal, getStateOrUndef, UnaryOp.eval, negateOOBVal, absOOBVal, recipOOBVal,
          expOOBVal,
          expm1OOBVal, logOOBVal, log1pOOBVal, sqrtOOBVal, rsqrtOOBVal, squareOOBVal, sinOOBVal, cosOOBVal, acosOOBVal,
          tanhOOBVal, sigmoidOOBVal, reluOOBVal, geluOOBVal, erfcOOBVal, signOOBVal, signbitOOBVal, fracOOBVal,
          positivePredicateOOBVal, nonNegativePredicateOOBVal, negativePredicateOOBVal, nonPositivePredicateOOBVal,
          getZeroPredicateOOBVal, getNonZeroPredicateOOBVal, inferKnownZero, knownZeroOr, getKnownZero, neg, extend,
            div,
          mul, scaled, Less, indicator, pointwise, truncated, logarithm, squareRoot, reciprocalRoot, onUnitInterval,
          errorFunction, zero_def, one_def, one_not_negative]

theorem table_undef (op : UnaryOp) : op.table .undef = .undef := by
  cases op <;> rfl

theorem ordinary_describes {unknown : Expr → Extended ℝ} {operand : Expr} (op : UnaryOp)
    (plain : op.hasParameters = false)
    (notZero : op.isZeroPredicate = false)
    (described : (getStateOrUndef operand).Describes (operand.value unknown)) :
    (unaryOOBVal op operand).Describes (op.eval (operand.value unknown)) := by
  have byState : unaryOOBVal op operand = op.table (getStateOrUndef operand) := by
    cases op <;> first | rfl | exact nomatch notZero
  rw [byState]
  exact table_describes op.table op.eval described (table_undef op) (table_known op plain .zero 0 rfl)
    (table_known op plain .one 1 rfl) (table_known op plain .inf .posInf rfl) (table_known op plain .negInf .negInf rfl)

def UnaryOp.Fits (unknown : Expr → Extended ℝ) (op : UnaryOp) (operand : Expr) : Prop :=
  match op with
  | .logicalNot | .eqz | .nez => VerdictHolds unknown (0, operand)
  | .selu scale _ =>
      (getStateOrUndef operand = .zero → scale.number.IsFinite) ∧ (getStateOrUndef operand = .inf → Less 0 scale.number)
  | _ => True

theorem zeroPredicate_describes_iff (knownZero : KnownZero) (value : Extended ℝ) :
    (getZeroPredicateOOBVal knownZero).Describes (indicator (value = 0)) ↔ knownZero.Holds value := by
  cases knownZero <;> simp [getZeroPredicateOOBVal, KnownZero.Holds, indicator, zero_def, one_def]

theorem nonZeroPredicate_describes_iff (knownZero : KnownZero) (value : Extended ℝ) :
    (getNonZeroPredicateOOBVal knownZero).Describes (indicator (value ≠ 0)) ↔ knownZero.Holds value := by
  cases knownZero <;> simp [getNonZeroPredicateOOBVal, KnownZero.Holds, indicator, zero_def, one_def]

theorem selu_describes_iff {value : Extended ℝ} {state : OOBVal} (scale alpha : FloatConstant)
    (described : state.Describes value) :
    (seluOOBVal state).Describes ((UnaryOp.selu scale alpha).eval value) ↔
      (state = .zero → scale.number.IsFinite) ∧ (state = .inf → Less 0 scale.number) := by
  cases state with
  | undef | one | negInf => simp [seluOOBVal]
  | zero =>
      have whole : (UnaryOp.selu scale alpha).eval 0 = mul scale.number 0 := by simp [UnaryOp.eval, Less, zero_def]
      rw [describes_zero.mp described, whole]
      cases scale.number <;> simp [seluOOBVal, mul, scaled, IsFinite, zero_def]
  | inf =>
      have whole : (UnaryOp.selu scale alpha).eval posInf = mul scale.number posInf := by simp [UnaryOp.eval, Less]
      rw [describes_inf.mp described, whole]
      cases scale.number <;> simp [seluOOBVal, mul, scaled_eq_posInf, Less]

theorem getOOBValAsDouble_number {state : OOBVal} {double : FloatConstant}
    (known : getOOBValAsDouble state = some double) :
    state.number = some double.number := by
  cases state <;> simp_all [getOOBValAsDouble] <;> simp [← known, OOBVal.number, FloatConstant.number, zero_def,
    one_def]

theorem getConstantAsDouble_number {attr : ConstantAttr} {double : FloatConstant}
    (known : getConstantAsDouble attr = some double) : attr.bound = double.number := by
  cases attr with
  | integer width value =>
      simp only [getConstantAsDouble] at known
      split at known
      · cases known
      · cases known
        simp [ConstantAttr.bound, FloatConstant.number]
  | float value => cases known; rfl
  | splat | dense | other => cases known

theorem less_number (lhs rhs : FloatConstant) : lhs.less rhs = true ↔ Less lhs.number rhs.number := by
  rcases lhs with lhs | (_ | _) | _ <;> rcases rhs with rhs | (_ | _) | _ <;>
    simp [FloatConstant.less, FloatConstant.number, Less]

theorem clamp_describes {value : Extended ℝ} {state : OOBVal} (min max : ConstantAttr)
    (described : state.Describes value) :
    (clampOOBVal state min max).Describes (clamp value min.bound max.bound) := by
  unfold clampOOBVal
  split
  · rename_i double lower upper known lowerKnown upperKnown
    have exactly := described _ (getOOBValAsDouble_number known)
    have clamped : clamp value min.bound max.bound =
        (if upper.less (if double.less lower then lower else double) then upper
          else if double.less lower then lower else double).number := by
      rw [exactly, getConstantAsDouble_number lowerKnown, getConstantAsDouble_number upperKnown]
      simp only [clamp, less_number, apply_ite FloatConstant.number]
    rw [clamped]
    dsimp only
    generalize (if upper.less (if double.less lower then lower else double) then upper
          else if double.less lower then lower else double) = result
    rcases result with result | (_ | _) | _
    · have whole : OOBVal.Describes (if result = 0 then .zero else if result = 1 then .one else .undef)
          (finite (result : ℝ)) := by
        split_ifs with zero one <;> simp [*, zero_def, one_def]
      exact whole
    · simp [FloatConstant.number]
    · simp [FloatConstant.number]
    · simp
  · exact describes_undef

end Unary

section Binary

open Extended

/-- An unknown operand that meets an infinity is no number that the infinity cannot absorb. -/
def FloatOp.Fits (op : FloatOp) (lhs rhs : OOBVal) (left right : Extended ℝ) : Prop :=
  match op with
  | .tileAdd | .addF =>
      (lhs.isInfinite = true → rhs = .undef → right ≠ nan ∧ right ≠ neg left) ∧
        (rhs.isInfinite = true → lhs = .undef → left ≠ nan ∧ left ≠ neg right)
  | .tileSub | .subF =>
      (lhs.isInfinite = true → rhs = .undef → right ≠ nan ∧ right ≠ left) ∧
        (rhs.isInfinite = true → lhs = .undef → left ≠ nan ∧ left ≠ right)
  | .tileMaximum | .maximumF => (lhs = .inf → rhs = .undef → right ≠ nan) ∧ (rhs = .inf → lhs = .undef → left ≠ nan)
  | .tileMinimum | .minimumF =>
      (lhs = .negInf → rhs = .undef → right ≠ nan) ∧ (rhs = .negInf → lhs = .undef → left ≠ nan)
  | .tileMul | .mulF | .tileDiv | .divF | .pow | .maxNumF | .minNumF => True

variable {lhs rhs : OOBVal} {left right : Extended ℝ} (leftDescribed : lhs.Describes left)
  (rightDescribed : rhs.Describes right)
include leftDescribed rightDescribed

theorem add_describes_iff : (addOOBVals lhs rhs).Describes (add left right) ↔ FloatOp.addF.Fits lhs rhs left right := by
  cases lhs <;> cases rhs <;> simp_all [addOOBVals, FloatOp.Fits, OOBVal.isInfinite]
  case undef.inf | undef.negInf => cases left <;> simp [add, neg, extend]
  case inf.undef | negInf.undef => cases right <;> simp [add, neg, extend]
  all_goals simp [add, zero_def, one_def]

theorem sub_describes_iff : (subOOBVals lhs rhs).Describes (sub left right) ↔ FloatOp.subF.Fits lhs rhs left right := by
  cases lhs <;> cases rhs <;> simp_all [subOOBVals, negateOOBVal, FloatOp.Fits, OOBVal.isInfinite]
  case undef.inf | undef.negInf => cases left <;> simp [sub, add, neg, extend]
  case inf.undef | negInf.undef => cases right <;> simp [sub, add, neg, extend]
  all_goals simp [sub, add, neg, extend, zero_def, one_def]

theorem mul_describes : (mulOOBVals lhs rhs).Describes (mul left right) := by
  cases lhs <;> cases rhs <;> simp_all [mulOOBVals]
  all_goals simp [mul, scaled, zero_def, one_def]

theorem div_describes : (divOOBVals lhs rhs).Describes (div left right) := by
  cases lhs <;> cases rhs <;> simp_all [divOOBVals, isConcreteOOBVal]
  all_goals simp [div, zero_def, one_def, one_not_negative]

theorem pow_describes : (powOOBVals lhs rhs).Describes (power left right) := by
  cases lhs <;> cases rhs <;> simp_all [powOOBVals]
  all_goals simp [power, zero_def, one_def]

theorem maximum_describes_iff :
    (maxOOBVals lhs rhs).Describes (maximum left right) ↔ FloatOp.maximumF.Fits lhs rhs left right := by
  cases lhs <;> cases rhs <;> simp_all [maxOOBVals, FloatOp.Fits]
  case undef.inf => cases left <;> simp [maximum, maxNumber, Less]
  case inf.undef => cases right <;> simp [maximum, maxNumber, Less]
  all_goals simp [maximum, maxNumber, Less, zero_def, one_def, one_not_negative]

theorem maxNumber_describes : (maxOOBVals lhs rhs).Describes (maxNumber left right) := by
  cases lhs <;> cases rhs <;> simp_all [maxOOBVals]
  case undef.inf => cases left <;> simp [maxNumber, Less]
  case inf.undef => cases right <;> simp [maxNumber, Less]
  all_goals simp [maxNumber, Less, zero_def, one_def, one_not_negative]

theorem minimum_describes_iff :
    (minOOBVals lhs rhs).Describes (minimum left right) ↔ FloatOp.minimumF.Fits lhs rhs left right := by
  cases lhs <;> cases rhs <;> simp_all [minOOBVals, FloatOp.Fits]
  case undef.negInf => cases left <;> simp [minimum, minNumber, Less]
  case negInf.undef => cases right <;> simp [minimum, minNumber, Less]
  all_goals simp [minimum, minNumber, Less, zero_def, one_def, one_not_negative]

theorem minNumber_describes : (minOOBVals lhs rhs).Describes (minNumber left right) := by
  cases lhs <;> cases rhs <;> simp_all [minOOBVals]
  case undef.negInf => cases left <;> simp [minNumber, Less]
  case negInf.undef => cases right <;> simp [minNumber, Less]
  all_goals simp [minNumber, Less, zero_def, one_def, one_not_negative]

theorem float_describes_iff (op : FloatOp) :
    (binaryOOBVals (.float op) lhs rhs).Describes (op.eval left right) ↔ op.Fits lhs rhs left right := by
  cases op with
  | tileAdd | addF => exact add_describes_iff leftDescribed rightDescribed
  | tileSub | subF => exact sub_describes_iff leftDescribed rightDescribed
  | tileMul | mulF => exact iff_of_true (mul_describes leftDescribed rightDescribed) trivial
  | tileDiv | divF => exact iff_of_true (div_describes leftDescribed rightDescribed) trivial
  | pow => exact iff_of_true (pow_describes leftDescribed rightDescribed) trivial
  | tileMaximum | maximumF => exact maximum_describes_iff leftDescribed rightDescribed
  | maxNumF => exact iff_of_true (maxNumber_describes leftDescribed rightDescribed) trivial
  | tileMinimum | minimumF => exact minimum_describes_iff leftDescribed rightDescribed
  | minNumF => exact iff_of_true (minNumber_describes leftDescribed rightDescribed) trivial

omit leftDescribed rightDescribed in
theorem select_describes {condition trueState falseState : OOBVal} {conditionValue trueValue falseValue : Extended ℝ}
    (op : SelectOp) (conditionDescribed : condition.Describes conditionValue)
    (trueDescribed : trueState.Describes trueValue)
    (falseDescribed : falseState.Describes falseValue) :
    (selectOOBVals condition trueState falseState).Describes (op.eval conditionValue trueValue falseValue) := by
  unfold SelectOp.eval
  cases condition with
  | undef =>
      simp only [selectOOBVals, getOOBValAsBool]
      split_ifs <;> simp_all
  | zero => simp_all [selectOOBVals, getOOBValAsBool]
  | one | inf | negInf => simp_all [selectOOBVals, getOOBValAsBool, zero_def, one_def]

end Binary

section Transfer

variable (unknown : Expr → Extended ℝ)

def Expr.OperandsDescribed : Expr → Prop
  | .leaf _ _ | .constant _ _ => True
  | .unary _ _ operand => (getStateOrUndef operand).Describes (operand.value unknown)
  | .binary _ _ lhs rhs =>
      (getStateOrUndef lhs).Describes (lhs.value unknown) ∧ (getStateOrUndef rhs).Describes (rhs.value unknown)
  | .select _ _ condition trueValue falseValue =>
      (getStateOrUndef condition).Describes (condition.value unknown) ∧
        (getStateOrUndef trueValue).Describes (trueValue.value unknown) ∧
          (getStateOrUndef falseValue).Describes (falseValue.value unknown)

def Expr.isFloatOp : Expr → Bool
  | .unary _ _ _ | .binary _ (.float _) _ _ | .select _ _ _ _ _ => true
  | .leaf _ _ | .constant _ _ | .binary _ (.integer _) _ _ => false

def Expr.FloatFits : Expr → Prop
  | .unary _ op operand => op.Fits unknown operand
  | .binary _ (.float op) lhs rhs =>
      op.Fits (getStateOrUndef lhs) (getStateOrUndef rhs) (lhs.value unknown) (rhs.value unknown)
  | _ => True

theorem unary_describes_iff (op : UnaryOp) (operand : Expr)
    (described : (getStateOrUndef operand).Describes (operand.value unknown)) :
    (unaryOOBVal op operand).Describes (op.eval (operand.value unknown)) ↔ op.Fits unknown operand := by
  cases op with
  | logicalNot | eqz => exact zeroPredicate_describes_iff _ _
  | nez => exact nonZeroPredicate_describes_iff _ _
  | selu scale alpha => exact selu_describes_iff scale alpha described
  | clampScalar min max => exact iff_of_true (clamp_describes min max described) trivial
  | _ => exact iff_of_true (ordinary_describes _ rfl rfl described) trivial

/-- The inferred state is right of the op's result, unless an infinite state meets an unknown operand that it cannot
absorb, a zero is missed or made up, or the parameters of `selu` turn an infinity or a zero. -/
theorem float_transfer_iff (expr : Expr) (floating : expr.isFloatOp = true) (described : expr.OperandsDescribed unknown) :
    (inferElementwiseOOBVal expr).Describes (expr.value unknown) ↔ expr.FloatFits unknown := by
  cases expr with
  | leaf | constant => exact nomatch floating
  | unary recorded op operand => exact unary_describes_iff unknown op operand described
  | binary recorded op lhs rhs =>
      cases op with
      | float op => exact float_describes_iff described.1 described.2 op
      | integer op => exact nomatch floating
  | select recorded op condition trueValue falseValue =>
      exact iff_of_true (select_describes op described.1 described.2.1 described.2.2) trivial

def exponential : Expr := .unary none .exp (.leaf (some .negInf) 0)

theorem exponential_transfers :
    (inferElementwiseOOBVal exponential).Describes (exponential.value fun _ => .negInf) :=
  (float_transfer_iff (fun _ => .negInf) exponential rfl (describes_negInf.mpr rfl)).mpr trivial

def sumOfUnknown : Expr := .binary none (.float .addF) (.leaf (some .inf) 0) (.leaf none 1)

noncomputable def oppositeInfinities : Expr → Extended ℝ
  | .leaf _ 1 => .negInf
  | _ => .posInf

/-- The sum is inferred to be infinite; it is NaN. -/
theorem infinities_cancel : sumOfUnknown.OperandsDescribed oppositeInfinities ∧
    ¬(inferElementwiseOOBVal sumOfUnknown).Describes (sumOfUnknown.value oppositeInfinities) := by
  refine ⟨⟨describes_inf.mpr rfl, describes_undef⟩, fun described => ?_⟩
  have claimed : OOBVal.inf.Describes (.nan : Extended ℝ) := described
  exact nomatch describes_inf.mp claimed

end Transfer

end TtMlir.D2m.OptimizeMasks
