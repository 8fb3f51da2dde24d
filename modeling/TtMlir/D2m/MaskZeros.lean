import TtMlir.D2m.MaskValues

/-!
Zero and non-zero as `inferKnownZero` finds them. The one rule that does not carry the verdicts
of its operands through is the product's: a zero is taken to absorb the other factor, which may be
infinite or NaN.
-/

namespace TtMlir.D2m.OptimizeMasks

open TtMlir.Library

def KnownZero.Holds (knownZero : KnownZero) (value : Extended ℝ) : Prop :=
  match knownZero with
  | .zero => value = 0
  | .nonZero => value ≠ 0
  | .unknown => True

def Expr.Consistent (unknown : Expr → Extended ℝ) : Expr → Prop
  | .leaf recorded id => ∀ state ∈ recorded, state.Describes ((Expr.leaf recorded id).value unknown)
  | .constant recorded attr => ∀ state ∈ recorded, state.Describes ((Expr.constant recorded attr).value unknown)
  | .unary recorded op operand =>
      (∀ state ∈ recorded, state.Describes ((Expr.unary recorded op operand).value unknown)) ∧
        operand.Consistent unknown
  | .binary recorded op lhs rhs =>
      (∀ state ∈ recorded, state.Describes ((Expr.binary recorded op lhs rhs).value unknown)) ∧
        lhs.Consistent unknown ∧ rhs.Consistent unknown
  | .select recorded op condition trueValue falseValue =>
      (∀ state ∈ recorded, state.Describes ((Expr.select recorded op condition trueValue falseValue).value unknown)) ∧
        condition.Consistent unknown ∧ trueValue.Consistent unknown ∧ falseValue.Consistent unknown

def Expr.Stops (depth : Nat) (expr : Expr) : Bool := isConcreteOOBVal (getStateOrUndef expr) || decide (depth ≥ 4)

def UnaryOp.isZeroPredicate : UnaryOp → Bool
  | .logicalNot | .eqz | .nez => true
  | _ => false

def BinaryOp.isProduct : BinaryOp → Bool
  | .float .tileMul | .float .mulF | .integer .mulI => true
  | _ => false

def BinaryOp.isSum : BinaryOp → Bool
  | .float .tileAdd | .float .addF | .integer .addI | .float .tileSub | .float .subF | .integer .subI => true
  | _ => false

def Expr.visited (depth : Nat) : Expr → List (Nat × Expr)
  | expr@(.leaf _ _) | expr@(.constant _ _) => [(depth, expr)]
  | expr@(.unary _ op operand) =>
      (depth, expr) :: if expr.Stops depth || !op.isZeroPredicate then [] else operand.visited (depth + 1)
  | expr@(.binary _ op lhs rhs) =>
      (depth, expr) ::
        if expr.Stops depth || !(op.isProduct || op.isSum) then []
        else lhs.visited (depth + 1) ++ rhs.visited (depth + 1)
  | expr@(.select _ _ condition trueValue falseValue) =>
      (depth, expr) ::
        if expr.Stops depth then []
        else
          condition.visited (depth + 1) ++
            (trueValue.visited (depth + 1) ++ falseValue.visited (depth + 1))

def Expr.ProductFinite (unknown : Expr → Extended ℝ) (depth : Nat) : Expr → Prop
  | expr@(.binary _ op lhs rhs) =>
      op.isProduct = true → expr.Stops depth = false →
        (inferKnownZero (depth + 1) lhs = .zero → (rhs.value unknown).IsFinite) ∧
          (inferKnownZero (depth + 1) rhs = .zero → (lhs.value unknown).IsFinite)
  | _ => True

section Rules

theorem getKnownZero_holds {state : OOBVal} {value : Extended ℝ} (described : state.Describes value) :
    (getKnownZero state).Holds value := by
  cases state <;> simp_all [getKnownZero, KnownZero.Holds, OOBVal.Describes, OOBVal.number, Extended.zero_def,
    Extended.one_def]

theorem knownZeroOr_holds {state : OOBVal} {otherwise : KnownZero} {value : Extended ℝ}
    (described : state.Describes value) (holds : otherwise.Holds value) : (knownZeroOr state otherwise).Holds value := by
  have decided := getKnownZero_holds described
  unfold knownZeroOr
  split
  · exact holds
  · exact decided

theorem getConstantKnownZero_holds (unknown : Extended ℝ) (attr : ConstantAttr) :
    (getConstantKnownZero attr).Holds (attr.number unknown) := by
  induction attr with
  | splat element ih => exact ih
  | dense | other => trivial
  | integer width value =>
      simp only [getConstantKnownZero]
      split
      · simp_all [KnownZero.Holds, ConstantAttr.number, getConstantOOBVal, OOBVal.number]
      · rename_i nonzero
        have signed : (value.toInt : ℝ) ≠ 0 := by
          simpa using fun zero => nonzero (BitVec.eq_of_toInt_eq (zero.trans BitVec.toInt_zero.symm))
        simp only [KnownZero.Holds, ConstantAttr.number, getConstantOOBVal, if_neg nonzero]
        split_ifs <;> simp_all [OOBVal.number, Extended.zero_def, Extended.one_def]
  | float value =>
      cases value with
      | nan => trivial
      | infinity isNegative =>
          cases isNegative <;> simp [KnownZero.Holds, getConstantKnownZero, ConstantAttr.number, FloatConstant.number,
            Extended.zero_def]
      | finite value =>
          simp only [getConstantKnownZero]
          split <;> simp_all [KnownZero.Holds, ConstantAttr.number, FloatConstant.number, Extended.zero_def]

theorem zeroPredicate_holds {knownZero : KnownZero} {value : Extended ℝ} (holds : knownZero.Holds value) :
    (getKnownZero (getZeroPredicateOOBVal knownZero)).Holds (Extended.indicator (value = 0)) := by
  cases knownZero <;> simp_all [KnownZero.Holds, getZeroPredicateOOBVal, getKnownZero, Extended.indicator_eq_zero]

theorem nonZeroPredicate_holds {knownZero : KnownZero} {value : Extended ℝ} (holds : knownZero.Holds value) :
    (getKnownZero (getNonZeroPredicateOOBVal knownZero)).Holds (Extended.indicator (value ≠ 0)) := by
  cases knownZero <;> simp_all [KnownZero.Holds, getNonZeroPredicateOOBVal, getKnownZero, Extended.indicator_eq_zero]

variable {lhsZero rhsZero : KnownZero} {lhs rhs : OOBVal} {left right : Extended ℝ}

theorem inferAdd_holds (leftHolds : lhsZero.Holds left) (rightHolds : rhsZero.Holds right)
    (leftDescribed : lhs.Describes left) (rightDescribed : rhs.Describes right) :
    (inferAddKnownZero lhsZero rhsZero lhs rhs).Holds (Extended.add left right) := by
  unfold inferAddKnownZero
  split_ifs with leftZero rightZero unclear opposite
  · subst leftZero
    rw [leftHolds, Extended.zero_add]
    exact rightHolds
  · subst rightZero
    rw [rightHolds, Extended.add_zero]
    exact leftHolds
  · trivial
  · trivial
  · -- both are ones or infinities
    cases lhs <;> cases rhs <;>
      simp_all [KnownZero.Holds, OOBVal.Describes, OOBVal.number, isConcreteOOBVal, Extended.add, Extended.zero_def,
        Extended.one_def]

theorem inferSub_holds (leftHolds : lhsZero.Holds left) (rightHolds : rhsZero.Holds right)
    (leftDescribed : lhs.Describes left) (rightDescribed : rhs.Describes right) :
    (inferSubKnownZero lhsZero rhsZero lhs rhs).Holds (Extended.sub left right) := by
  unfold inferSubKnownZero
  split_ifs with rightZero leftZero rightNonZero ones leftInf rightInf leftNegInf rightNegInf rightInfinite leftUnknown
  · subst rightZero
    rw [rightHolds, Extended.sub_zero]
    exact leftHolds
  · subst leftZero rightNonZero
    rw [leftHolds, Extended.zero_sub]
    exact fun zero => rightHolds ((Extended.neg_eq_zero _).mp zero)
  all_goals try trivial
  · obtain ⟨rfl, rfl⟩ := ones
    rw [leftDescribed _ rfl, rightDescribed _ rfl]
    simp [KnownZero.Holds, Extended.sub, Extended.neg, Extended.extend, Extended.add, Extended.one_def,
      Extended.zero_def]
  · subst leftInf
    rw [leftDescribed _ rfl]
    cases right <;> simp [KnownZero.Holds, Extended.sub, Extended.neg, Extended.extend, Extended.add, Extended.zero_def]
  · subst leftNegInf
    rw [leftDescribed _ rfl]
    cases right <;> simp [KnownZero.Holds, Extended.sub, Extended.neg, Extended.extend, Extended.add, Extended.zero_def]
  · obtain rfl | rfl := rightInfinite <;> rw [rightDescribed _ rfl] <;> cases lhs <;>
      simp_all [KnownZero.Holds, OOBVal.Describes, OOBVal.number, Extended.sub, Extended.neg, Extended.extend,
        Extended.add, Extended.zero_def, Extended.one_def]

theorem inferMul_holds_iff (leftHolds : lhsZero.Holds left) (rightHolds : rhsZero.Holds right) :
    (inferMulKnownZero lhsZero rhsZero).Holds (Extended.mul left right) ↔
      (lhsZero = .zero → right.IsFinite) ∧ (rhsZero = .zero → left.IsFinite) := by
  have zeroFinite : (0 : Extended ℝ).IsFinite := trivial
  cases lhsZero <;> cases rhsZero <;>
    simp_all [inferMulKnownZero, KnownZero.Holds, Extended.mul_eq_zero]

theorem inferSelect_holds {conditionZero trueValueZero falseValueZero : KnownZero}
    {condition trueValue falseValue : Extended ℝ} (op : SelectOp) (conditionHolds : conditionZero.Holds condition)
    (trueHolds : trueValueZero.Holds trueValue) (falseHolds : falseValueZero.Holds falseValue) :
    (inferSelectKnownZero conditionZero trueValueZero falseValueZero).Holds
    (op.eval condition trueValue falseValue) := by
  unfold inferSelectKnownZero SelectOp.eval
  split_ifs <;> simp_all [KnownZero.Holds]

end Rules

section Recursion

variable {unknown : Expr → Extended ℝ}

theorem state_describes {expr : Expr} (consistent : expr.Consistent unknown) :
    (getStateOrUndef expr).Describes (expr.value unknown) := by
  have undefined (value : Extended ℝ) : OOBVal.undef.Describes value := by simp [OOBVal.Describes, OOBVal.number]
  cases expr with
  | constant recorded attr =>
      cases recorded with
      | none => exact getConstantOOBVal_number _ attr
      | some state => exact consistent state rfl
  | leaf recorded id =>
      cases recorded with
      | none => exact undefined _
      | some state => exact consistent state rfl
  | unary recorded op operand =>
      cases recorded with
      | none => exact undefined _
      | some state => exact consistent.1 state rfl
  | binary recorded op lhs rhs =>
      cases recorded with
      | none => exact undefined _
      | some state => exact consistent.1 state rfl
  | select recorded op condition trueValue falseValue =>
      cases recorded with
      | none => exact undefined _
      | some state => exact consistent.1 state rfl

theorem visited_self (depth : Nat) (expr : Expr) : (depth, expr) ∈ expr.visited depth := by
  cases expr <;> simp [Expr.visited]

def VerdictHolds (unknown : Expr → Extended ℝ) (call : Nat × Expr) : Prop :=
  (inferKnownZero call.1 call.2).Holds (call.2.value unknown)

theorem knownZeroOr_stopped {state : OOBVal} {depth : Nat} {otherwise : KnownZero} {value : Extended ℝ}
    (described : state.Describes value) (stops : (isConcreteOOBVal state || decide (depth ≥ 4)) = true) :
    (knownZeroOr state (if depth ≥ 4 then .unknown else otherwise)).Holds value := by
  split
  · exact knownZeroOr_holds described trivial
  · rename_i shallow
    have decided := getKnownZero_holds described
    cases state with
    | undef => exact absurd (of_decide_eq_true stops) shallow
    | _ => exact decided

theorem knownZeroOr_going {state : OOBVal} {depth : Nat} (otherwise : KnownZero)
    (goes : (isConcreteOOBVal state || decide (depth ≥ 4)) = false) :
    knownZeroOr state (if depth ≥ 4 then .unknown else otherwise) = otherwise := by
  cases state <;> simp_all [isConcreteOOBVal, knownZeroOr, getKnownZero]

theorem unary_holds {recorded : Option OOBVal} {op : UnaryOp} {operand : Expr} (depth : Nat)
    (consistent : (Expr.unary recorded op operand).Consistent unknown)
    (operandHolds : (Expr.unary recorded op operand).Stops depth = false → op.isZeroPredicate = true →
      VerdictHolds unknown (depth + 1, operand)) : VerdictHolds unknown (depth, .unary recorded op operand) := by
  have described := state_describes consistent
  unfold VerdictHolds inferKnownZero
  cases goes : (Expr.unary recorded op operand).Stops depth with
  | true => exact knownZeroOr_stopped described goes
  | false =>
      rw [knownZeroOr_going _ goes]
      cases op with
      | logicalNot | eqz => exact zeroPredicate_holds (operandHolds goes rfl)
      | nez => exact nonZeroPredicate_holds (operandHolds goes rfl)
      | _ => trivial

theorem productFinite_stopped {recorded : Option OOBVal} {op : BinaryOp} {lhs rhs : Expr} {depth : Nat}
    (stops : (Expr.binary recorded op lhs rhs).Stops depth = true) :
    (Expr.binary recorded op lhs rhs).ProductFinite unknown depth := by
  intro _ goes
  rw [stops] at goes
  exact absurd goes (by decide)

/-- Once the verdicts on the operands are right, the verdict on the op is, unless it is a product. -/
theorem binary_holds_iff {recorded : Option OOBVal} {op : BinaryOp} {lhs rhs : Expr} (depth : Nat)
    (consistent : (Expr.binary recorded op lhs rhs).Consistent unknown)
    (operandsHold : (Expr.binary recorded op lhs rhs).Stops depth = false → (op.isProduct || op.isSum) = true →
      VerdictHolds unknown (depth + 1, lhs) ∧ VerdictHolds unknown (depth + 1, rhs)) :
    VerdictHolds unknown (depth, .binary recorded op lhs rhs) ↔
      (Expr.binary recorded op lhs rhs).ProductFinite unknown depth := by
  have described := state_describes consistent
  have leftDescribed := state_describes consistent.2.1
  have rightDescribed := state_describes consistent.2.2
  cases goes : (Expr.binary recorded op lhs rhs).Stops depth with
  | true => exact iff_of_true (knownZeroOr_stopped described goes) (productFinite_stopped goes)
  | false =>
      unfold VerdictHolds inferKnownZero
      rw [knownZeroOr_going _ goes]
      cases op with
      | float op =>
          cases op with
          | tileAdd | addF =>
              obtain ⟨left, right⟩ := operandsHold goes rfl
              exact iff_of_true (inferAdd_holds left right leftDescribed rightDescribed)
                (fun product => nomatch product)
          | tileSub | subF =>
              obtain ⟨left, right⟩ := operandsHold goes rfl
              exact iff_of_true (inferSub_holds left right leftDescribed rightDescribed)
                (fun product => nomatch product)
          | tileMul | mulF =>
              obtain ⟨left, right⟩ := operandsHold goes rfl
              exact (inferMul_holds_iff left right).trans ⟨fun fits _ _ => fits, fun fits => fits rfl goes⟩
          | _ => exact iff_of_true trivial (fun product => nomatch product)
      | integer op =>
          cases op with
          | addI =>
              obtain ⟨left, right⟩ := operandsHold goes rfl
              exact iff_of_true (inferAdd_holds left right leftDescribed rightDescribed)
                (fun product => nomatch product)
          | subI =>
              obtain ⟨left, right⟩ := operandsHold goes rfl
              exact iff_of_true (inferSub_holds left right leftDescribed rightDescribed)
                (fun product => nomatch product)
          | mulI =>
              obtain ⟨left, right⟩ := operandsHold goes rfl
              exact (inferMul_holds_iff left right).trans ⟨fun fits _ _ => fits, fun fits => fits rfl goes⟩
          | _ => exact iff_of_true trivial (fun product => nomatch product)

theorem select_holds {recorded : Option OOBVal} {op : SelectOp} {condition trueValue falseValue : Expr} (depth : Nat)
    (consistent : (Expr.select recorded op condition trueValue falseValue).Consistent unknown)
    (operandsHold : (Expr.select recorded op condition trueValue falseValue).Stops depth = false →
      VerdictHolds unknown (depth + 1, condition) ∧ VerdictHolds unknown (depth + 1, trueValue) ∧
        VerdictHolds unknown (depth + 1, falseValue)) :
    VerdictHolds unknown (depth, .select recorded op condition trueValue falseValue) := by
  have described := state_describes consistent
  unfold VerdictHolds inferKnownZero
  cases goes : (Expr.select recorded op condition trueValue falseValue).Stops depth with
  | true => exact knownZeroOr_stopped described goes
  | false =>
      rw [knownZeroOr_going _ goes]
      obtain ⟨conditionHolds, trueHolds, falseHolds⟩ := operandsHold goes
      exact inferSelect_holds op conditionHolds trueHolds falseHolds

/-- The verdicts of all calls are right exactly when no call multiplies what was found zero by what is infinite or
NaN. -/
theorem known_zero_sound_iff (unknown : Expr → Extended ℝ) (expr : Expr) (depth : Nat)
    (consistent : expr.Consistent unknown) :
    (∀ call ∈ expr.visited depth, VerdictHolds unknown call) ↔
      ∀ call ∈ expr.visited depth, call.2.ProductFinite unknown call.1 := by
  induction expr generalizing depth with
  | leaf recorded id =>
      have own : VerdictHolds unknown (depth, .leaf recorded id) :=
        knownZeroOr_holds (state_describes consistent) (show KnownZero.unknown.Holds _ from trivial)
      rw [Expr.visited, List.forall_mem_singleton, List.forall_mem_singleton]
      exact iff_of_true own trivial
  | constant recorded attr =>
      have own : VerdictHolds unknown (depth, .constant recorded attr) :=
        knownZeroOr_holds (state_describes consistent) (getConstantKnownZero_holds _ attr)
      rw [Expr.visited, List.forall_mem_singleton, List.forall_mem_singleton]
      exact iff_of_true own trivial
  | unary recorded op operand ih =>
      have operandIff := ih (depth + 1) consistent.2
      have own := unary_holds depth consistent
      rw [Expr.visited, List.forall_mem_cons, List.forall_mem_cons]
      split
      · rename_i stops
        have holds := own fun goes known => absurd stops (by simp [goes, known])
        exact and_congr (iff_of_true holds trivial) (by simp)
      · rw [operandIff]
        refine ⟨fun holds => ⟨trivial, holds.2⟩, fun fits => ⟨own fun _ _ => ?_, fits.2⟩⟩
        exact operandIff.mpr fits.2 _ (visited_self _ _)
  | binary recorded op lhs rhs leftIh rightIh =>
      have leftIff := leftIh (depth + 1) consistent.2.1
      have rightIff := rightIh (depth + 1) consistent.2.2
      have own := binary_holds_iff depth consistent
      rw [Expr.visited, List.forall_mem_cons, List.forall_mem_cons]
      split
      · rename_i stops
        exact and_congr (own fun goes known => absurd stops (by simp [goes, known])) (by simp)
      · rw [List.forall_mem_append, List.forall_mem_append, leftIff, rightIff]
        refine and_congr_left fun fits => own fun _ _ => ?_
        exact ⟨leftIff.mpr fits.1 _ (visited_self _ _), rightIff.mpr fits.2 _ (visited_self _ _)⟩
  | select recorded op condition trueValue falseValue conditionIh trueIh falseIh =>
      have conditionIff := conditionIh (depth + 1) consistent.2.1
      have trueIff := trueIh (depth + 1) consistent.2.2.1
      have falseIff := falseIh (depth + 1) consistent.2.2.2
      have own := select_holds depth consistent
      rw [Expr.visited, List.forall_mem_cons, List.forall_mem_cons]
      split
      · rename_i stops
        have holds := own fun goes => absurd stops (by simp [goes])
        exact and_congr (iff_of_true holds trivial) (by simp)
      · simp only [List.forall_mem_append]
        rw [conditionIff, trueIff, falseIff]
        refine ⟨fun holds => ⟨trivial, holds.2⟩, fun fits => ⟨own fun _ => ⟨?_, ?_, ?_⟩, fits.2⟩⟩
        · exact conditionIff.mpr fits.2.1 _ (visited_self _ _)
        · exact trueIff.mpr fits.2.2.1 _ (visited_self _ _)
        · exact falseIff.mpr fits.2.2.2 _ (visited_self _ _)

def productOfConcrete : Expr := .binary none (.float .mulF) (.leaf (some .zero) 0) (.leaf (some .one) 1)

def productOfUnknown : Expr := .binary none (.float .mulF) (.leaf (some .zero) 0) (.leaf none 1)

noncomputable def second (value : Extended ℝ) : Expr → Extended ℝ
  | .leaf _ 1 => value
  | _ => 0

theorem verdicts_on_product : VerdictHolds (second 1) (0, productOfConcrete) := by
  refine (known_zero_sound_iff (second 1) productOfConcrete 0 ?_).mpr ?_ _ (visited_self 0 productOfConcrete)
  · simp [productOfConcrete, Expr.Consistent, OOBVal.Describes, OOBVal.number, Expr.value, second]
  · intro call visited
    have calls : productOfConcrete.visited 0 =
        [(0, productOfConcrete), (1, .leaf (some .zero) 0), (1, .leaf (some .one) 1)] :=
      rfl
    rw [calls] at visited
    fin_cases visited
    · exact fun _ _ => ⟨fun _ => trivial, fun _ => trivial⟩
    · trivial
    · trivial

/-- Infinity makes the product NaN, which was found zero. -/
theorem zero_times_infinity : productOfUnknown.Consistent (second .posInf) ∧
    inferKnownZero 0 productOfUnknown = .zero ∧ productOfUnknown.value (second .posInf) ≠ 0 := by
  refine ⟨?_, by decide, ?_⟩
  · simp [productOfUnknown, Expr.Consistent, OOBVal.Describes, OOBVal.number, Expr.value, second]
  · simp [productOfUnknown, Expr.value, second, BinaryOp.number, FloatOp.eval, Extended.mul_eq_zero, Extended.IsFinite]

end Recursion

end TtMlir.D2m.OptimizeMasks
