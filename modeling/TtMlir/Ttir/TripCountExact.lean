import TtMlir.Ttir.WhileLoop

/-!
A recorded trip count against the loop. The constants are read as signed numbers;
the loop counts in the range of its type, so the two agree while the counter and the
limit are read alike and the last step does not leave the range.
-/

namespace TtMlir.Ttir.While

open Wrapping

section Values
variable (type : IntegerType)

theorem IntegerType.size_pos : 0 < type.size := by
  unfold IntegerType.size
  positivity

def IntegerType.scalar (number : Int) : Scalar := ⟨type, BitVec.ofInt type.width number⟩

theorem value_scalar (number : Int) : (type.scalar number).value = wrap type.low type.size number := by
  unfold Scalar.value IntegerType.scalar wrap IntegerType.low IntegerType.size
  cases type.isUnsigned with
  | true =>
      have positive : (0 : Int) < 2 ^ type.width := by positivity
      have natural := Int.toNat_of_nonneg (Int.emod_nonneg number (Int.ne_of_gt positive))
      rw [if_pos rfl, if_pos rfl, BitVec.toNat_ofInt, Int.sub_zero, Int.add_zero]
      push_cast
      exact_mod_cast natural
  | false =>
      have half : (2 : Int) ^ type.width = 2 * 2 ^ (type.width - 1) := by
        rw [← pow_succ', Nat.sub_add_cancel type.positive]
      have positive : (0 : Int) < 2 ^ (type.width - 1) := by positivity
      rw [if_neg Bool.false_ne_true, if_neg Bool.false_ne_true, BitVec.toInt_ofInt, Int.bmod_def]
      push_cast
      rw [half]
      generalize (2 : Int) ^ (type.width - 1) = bound at positive
      have lower := Int.emod_nonneg number (show 2 * bound ≠ 0 by omega)
      have upper := Int.emod_lt_of_pos number (show 0 < 2 * bound by omega)
      have shifted : (number - -bound) % (2 * bound) = (number % (2 * bound) + bound) % (2 * bound) := by
        rw [Int.emod_add_emod]
        congr 1
        omega
      rw [shifted]
      by_cases low : number % (2 * bound) < bound
      · rw [if_pos (by omega), Int.emod_eq_of_lt (a := number % (2 * bound) + bound) (by omega) (by omega)]
        omega
      · have back : number % (2 * bound) + bound = number % (2 * bound) - bound + 2 * bound * 1 := by ring
        rw [if_neg (by omega), back, Int.add_mul_emod_self_left,
          Int.emod_eq_of_lt (a := number % (2 * bound) - bound) (by omega) (by omega)]
        omega

theorem holds_fails (kind : Comparison) (left right : Int) :
    kind.holds left right = true ↔ ¬ Fails kind.ascending kind.inclusive right left := by
  cases kind <;> simp [Comparison.holds, Comparison.ascending, Comparison.inclusive, Fails]

theorem holds_fails_mirrored (kind : Comparison) (left right : Int) :
    kind.holds left right = true ↔ ¬ Fails (!kind.ascending) kind.inclusive left right := by
  cases kind <;> simp [Comparison.holds, Comparison.ascending, Comparison.inclusive, Fails]

end Values

section Constants
variable {unknown : Nat → Arguments → Option Scalar} {arguments : Arguments}

theorem castConstant_survives {inputType resultType : IntegerType} {input constant : APInt}
    (cast : castConstant inputType resultType input = some constant) :
    input.width = inputType.width ∧ constant =
      if inputType.isUnsigned then input.zextOrTrunc resultType.width else input.sextOrTrunc resultType.width := by
  unfold castConstant at cast
  generalize (if inputType.isUnsigned then input.zextOrTrunc resultType.width
    else input.sextOrTrunc resultType.width) = converted at cast ⊢
  dsimp only at cast
  split at cast
  · cases cast
  · split at cast
    · cases cast
    · rename_i survives
      exact ⟨(congrArg APInt.width (not_not.mp survives)).symm, (Option.some.inj cast).symm⟩

theorem matchScalarIntConstant_eval (value : Value) (type : IntegerType) (element : value.element = .integer type)
    (constant : APInt) (matched : matchScalarIntConstant value = some constant) :
    value.eval unknown arguments = some (type.scalar constant.bits.toInt) := by
  induction value generalizing type constant with
  | argument _ index => cases matched
  | constant own splat =>
      cases element
      obtain ⟨bits, rfl, rfl⟩ := Option.map_eq_some_iff.mp matched
      change some _ = some _
      rw [IntegerType.scalar, BitVec.ofInt_toInt]
  | full own fillValue =>
      cases element
      obtain ⟨bits, rfl, rfl⟩ := Option.map_eq_some_iff.mp matched
      rfl
  | reshape input ih => exact ih type element constant matched
  | broadcast input ih => exact ih type element constant matched
  | typecast input result ih =>
      cases element
      unfold matchScalarIntConstant getScalarIntType at matched
      cases inputElement : input.element with
      | float =>
          rw [inputElement] at matched
          cases matched
      | integer inputType =>
          rw [inputElement] at matched
          dsimp only at matched
          split at matched
          · cases matched
          · obtain ⟨read, inputMatched, cast⟩ := Option.bind_eq_some_iff.mp matched
            have evaluated := ih inputType inputElement read inputMatched
            obtain ⟨same, rfl⟩ := castConstant_survives cast
            obtain ⟨width, bits⟩ := read
            dsimp only at same
            subst same
            rw [Value.eval, evaluated, Option.map_some]
            unfold IntegerType.scalar
            dsimp only
            rw [BitVec.ofInt_toInt]
            cases inputType.isUnsigned with
            | true => exact congrArg (fun bits => some (Scalar.mk type bits)) BitVec.ofInt_toInt.symm
            | false => exact congrArg (fun bits => some (Scalar.mk type bits)) BitVec.ofInt_toInt.symm
  | compare kind lhs rhs => cases matched
  | add lhs rhs => cases matched
  | other own name => cases matched

variable {type : IntegerType} {lhs rhs : Value} {left right : Int}

theorem eval_add (leftEval : lhs.eval unknown arguments = some (type.scalar left))
    (rightEval : rhs.eval unknown arguments = some (type.scalar right)) :
    (Value.add lhs rhs).eval unknown arguments = some (type.scalar (left + right)) := by
  rw [Value.eval, leftEval, rightEval]
  dsimp only
  rw [if_pos (show (type.scalar left).type = (type.scalar right).type from rfl)]
  unfold IntegerType.scalar
  rw [BitVec.setWidth_eq, BitVec.ofInt_add]

theorem eval_compare (kind : Comparison) (leftEval : lhs.eval unknown arguments = some (type.scalar left))
    (rightEval : rhs.eval unknown arguments = some (type.scalar right)) :
    ((Value.compare kind lhs rhs).eval unknown arguments).map (fun scalar => decide (scalar.bits ≠ 0)) =
      some (kind.holds (wrap type.low type.size left) (wrap type.low type.size right)) := by
  rw [Value.eval, leftEval, rightEval]
  dsimp only
  rw [if_pos (show (type.scalar left).type = (type.scalar right).type from rfl), value_scalar, value_scalar,
    Option.map_some]
  cases kind.holds (wrap type.low type.size left) (wrap type.low type.size right) with
  | true => rfl
  | false => rfl

end Constants

section Counting

theorem ceiling (distance stride : Int) (far : 0 < distance) (positive : 0 < stride) :
    ∃ count : Nat, (distance + stride - 1).tdiv stride = count ∧ distance ≤ count * stride ∧
      ∀ position : Nat, position < count → position * stride < distance := by
  have division := Int.tdiv_eq_ediv_of_nonneg (b := stride) (show 0 ≤ distance + stride - 1 by omega)
  have lower := Int.ediv_mul_le (distance + stride - 1) (Int.ne_of_gt positive)
  have upper := Int.lt_ediv_add_one_mul_self (distance + stride - 1) positive
  have nonnegative : 0 ≤ (distance + stride - 1) / stride := Int.ediv_nonneg (by omega) (Int.le_of_lt positive)
  rw [division]
  generalize (distance + stride - 1) / stride = quotient at lower upper nonnegative
  obtain ⟨count, rfl⟩ := Int.eq_ofNat_of_zero_le nonnegative
  have next : ((count : Int) + 1) * stride = count * stride + stride := by ring
  rw [next] at upper
  refine ⟨count, rfl, by omega, ?_⟩
  intro position below
  have least : (position : Int) + 1 ≤ count := by exact_mod_cast below
  have scaled := Int.mul_le_mul_of_nonneg_right least (Int.le_of_lt positive)
  have split : ((position : Int) + 1) * stride = position * stride + stride := by ring
  omega

/-- The computed count is the first number of unbounded steps after which the comparison fails. -/
theorem computeTripCount_first (comparison : InductionComparison) (start step : APInt) (tripCount : Int)
    (computed : computeTripCount comparison start step = some tripCount) :
    ∃ count : Nat, tripCount = count ∧ Forward comparison.ascending step.bits.toInt ∧
      FirstFailure (Fails comparison.ascending comparison.inclusive comparison.limit.bits.toInt)
        (fun position => start.bits.toInt + position * step.bits.toInt) count := by
  unfold computeTripCount at computed
  dsimp only at computed
  generalize start.bits.toInt = first at computed ⊢
  generalize step.bits.toInt = stride at computed ⊢
  generalize comparison.limit.bits.toInt = limit at computed ⊢
  generalize distant : (if comparison.ascending = true then
      limit + (if comparison.inclusive = true then if comparison.ascending = true then 1 else -1 else 0) - first
    else first - (limit + if comparison.inclusive = true then if comparison.ascending = true then 1 else -1 else 0)) =
    distance at computed
  generalize long : (if comparison.ascending = true then stride else -stride) = absStride at computed
  split at computed
  · cases computed
  rename_i moving
  split at computed
  · cases computed
  rename_i direction
  have known := not_not.mp direction
  have forward : Forward comparison.ascending stride := by
    unfold Forward
    split <;> rename_i ascending
    · rw [ascending] at known
      exact of_decide_eq_true known.symm
    · rw [Bool.eq_false_iff.mpr ascending] at known
      have down := of_decide_eq_false known.symm
      omega
  have absPositive : 0 < absStride := by
    unfold Forward at forward
    split at forward <;> rename_i ascending
    · rw [if_pos ascending] at long
      omega
    · rw [if_neg ascending] at long
      omega
  -- a value fails when the distance is covered
  have covered : ∀ position : Nat, Fails comparison.ascending comparison.inclusive limit
      (first + position * stride) ↔ distance ≤ position * absStride := by
    intro position
    rw [← distant, ← long]
    unfold Fails
    cases comparison.ascending <;> cases comparison.inclusive <;>
      simp only [if_true, Bool.false_eq_true, if_false, Int.mul_neg] <;> omega
  split at computed
  · rename_i reached
    cases computed
    refine ⟨0, rfl, forward, fun position below => absurd below (Nat.not_lt_zero _), ?_⟩
    rw [covered]
    simp only [Nat.cast_zero, zero_mul]
    omega
  · rename_i far
    split at computed
    · cases computed
    · cases computed
      obtain ⟨count, counted, reached, before⟩ := ceiling distance absStride (not_not.mp far) absPositive
      refine ⟨count, counted, forward, ?_, (covered count).mpr reached⟩
      intro position below failed
      exact absurd ((covered position).mp failed) (Int.not_le.mpr (before position below))

end Counting

section Loop
variable {whileOp : WhileOp} {unknown : Nat → Arguments → Option Scalar} {around : Arguments}

theorem signature_init {index : Nat} {init : Value} (known : whileOp.inits[index]? = some init) :
    whileOp.signature[index]? = some init.element := by
  obtain ⟨inside, found⟩ := List.getElem?_eq_some_iff.mp known
  unfold WhileOp.signature
  rw [List.getElem?_map, List.getElem?_append_left inside, known, Option.map_some]

theorem signature_capture {index : Nat} {capture : Value} (outside : ¬ index < whileOp.inits.length)
    (known : whileOp.captures[index - whileOp.inits.length]? = some capture) :
    whileOp.signature[index]? = some capture.element := by
  unfold WhileOp.signature
  rw [List.getElem?_map, List.getElem?_append_right (Nat.le_of_not_lt outside), known, Option.map_some]

theorem carried_capture {index : Nat} (outside : ¬ index < whileOp.inits.length) (iteration : Nat) :
    whileOp.carried unknown around iteration index =
      whileOp.captures[index - whileOp.inits.length]?.bind (Value.eval unknown around) := by
  induction iteration with
  | zero => rw [WhileOp.carried, if_neg outside]
  | succ iteration ih => rw [WhileOp.carried, if_neg outside, ih]

theorem carried_zero {index : Nat} {init : Value} (known : whileOp.inits[index]? = some init) :
    whileOp.carried unknown around 0 index = init.eval unknown around := by
  obtain ⟨inside, _⟩ := List.getElem?_eq_some_iff.mp known
  rw [WhileOp.carried, if_pos inside, known, Option.bind_some]

theorem matchLoopInvariantConstant_eval (value : Value) (type : IntegerType) (typed : value.Typed whileOp.signature)
    (element : value.element = .integer type) (constant : APInt)
    (matched : matchLoopInvariantConstant whileOp value = some constant) (iteration : Nat) :
    value.eval unknown (whileOp.carried unknown around iteration) = some (type.scalar constant.bits.toInt) := by
  unfold matchLoopInvariantConstant at matched
  split at matched
  · rename_i own index
    split at matched
    · cases matched
    · rename_i outside
      obtain ⟨capture, known, captureMatched⟩ := Option.bind_eq_some_iff.mp matched
      have captured := signature_capture outside known
      have same : capture.element = own := by
        change whileOp.signature[index]? = some own at typed
        rw [captured] at typed
        exact Option.some.inj typed
      change whileOp.carried unknown around iteration index = _
      rw [carried_capture outside, known, Option.bind_some]
      exact matchScalarIntConstant_eval capture type (same.trans element) constant captureMatched
  · exact matchScalarIntConstant_eval value type element constant matched

theorem isInductionArg_argument {inductionIndex : Nat} {value : Value}
    (isArg : isInductionArg inductionIndex value = true) : ∃ element, value = .argument element inductionIndex := by
  cases value with
  | argument element index =>
      have same : index = inductionIndex := of_decide_eq_true isArg
      exact ⟨element, by rw [same]⟩
  | _ => cases isArg

theorem inductionArg_argument {index : Nat} {value : Value} (isArg : inductionArg whileOp value = some index) :
    ∃ element, value = .argument element index := by
  cases value with
  | argument element own =>
      unfold inductionArg at isArg
      dsimp only at isArg
      split at isArg
      · cases isArg
        exact ⟨element, rfl⟩
      · cases isArg
  | _ => cases isArg

variable {inductionIndex : Nat} {init : Value} {type : IntegerType} {start step : APInt}

theorem counter_eval (verified : whileOp.Verified) (known : whileOp.inits[inductionIndex]? = some init)
    (integer : init.element = .integer type) (started : matchScalarIntConstant init = some start)
    (stepped : matchInductionStep whileOp inductionIndex = some step) (iteration : Nat) :
    whileOp.carried unknown around iteration inductionIndex =
      some (type.scalar (start.bits.toInt + iteration * step.bits.toInt)) := by
  induction iteration with
  | zero =>
      rw [carried_zero known, matchScalarIntConstant_eval init type integer start started]
      simp
  | succ iteration ih =>
      obtain ⟨inside, _⟩ := List.getElem?_eq_some_iff.mp known
      have more : start.bits.toInt + ((iteration + 1 : Nat) : Int) * step.bits.toInt =
          start.bits.toInt + iteration * step.bits.toInt + step.bits.toInt := term_succ iteration
      have signature := signature_init known
      rw [WhileOp.carried, if_pos inside, more]
      unfold matchInductionStep at stepped
      split at stepped
      · rename_i lhs rhs yielded
        rw [yielded, Option.bind_some]
        have typed := verified.bodyTyped _ (List.mem_of_getElem? yielded)
        obtain ⟨lhsTyped, rhsTyped, same⟩ := typed
        have counter : ∀ element, whileOp.signature[inductionIndex]? = some element →
            element = .integer type := by
          intro element found
          rw [signature] at found
          exact (Option.some.inj found).symm.trans integer
        split at stepped
        · rename_i isArg
          obtain ⟨element, rfl⟩ := isInductionArg_argument isArg
          have own := counter element lhsTyped
          have constant := @matchLoopInvariantConstant_eval _ unknown around rhs type rhsTyped
            (same.symm.trans own) step stepped iteration
          exact eval_add ih constant
        · split at stepped
          · rename_i isArg
            obtain ⟨element, rfl⟩ := isInductionArg_argument isArg
            have own := counter element rhsTyped
            have constant := @matchLoopInvariantConstant_eval _ unknown around lhs type lhsTyped
              (same.trans own) step stepped iteration
            rw [Int.add_comm]
            exact eval_add constant ih
          · cases stepped
      · cases stepped

variable {comparison : InductionComparison}

section
variable (verified : whileOp.Verified) (matched : matchConditionRegion whileOp = some comparison)
  (known : whileOp.inits[comparison.inductionIndex]? = some init) (integer : init.element = .integer type)
  (started : matchScalarIntConstant init = some start)
  (stepped : matchInductionStep whileOp comparison.inductionIndex = some step)
include verified matched known integer started stepped

theorem condition_eval (iteration : Nat) :
    ∃ holds, whileOp.condition unknown around iteration = some holds ∧
      (holds = true ↔ ¬ Fails comparison.ascending comparison.inclusive
        (wrap type.low type.size comparison.limit.bits.toInt)
        (wrap type.low type.size (start.bits.toInt + iteration * step.bits.toInt))) := by
  have counter := @counter_eval _ unknown around _ _ _ _ _ verified known integer started stepped iteration
  have signature := signature_init known
  have typed := verified.condTyped
  have own : ∀ element, whileOp.signature[comparison.inductionIndex]? = some element → element = .integer type := by
    intro element found
    rw [signature] at found
    exact (Option.some.inj found).symm.trans integer
  unfold matchConditionRegion at matched
  unfold WhileOp.condition
  split at matched
  · rename_i kind lhs rhs yields
    rw [yields] at typed ⊢
    obtain ⟨lhsTyped, rhsTyped, same⟩ := typed
    split at matched
    · rename_i index isArg
      obtain ⟨limit, limitMatched, rfl⟩ := Option.map_eq_some_iff.mp matched
      obtain ⟨element, rfl⟩ := inductionArg_argument isArg
      have constant := @matchLoopInvariantConstant_eval _ unknown around rhs type rhsTyped
        (same.symm.trans (own element lhsTyped)) limit limitMatched iteration
      exact ⟨_, eval_compare kind counter constant, holds_fails kind _ _⟩
    · split at matched
      · rename_i index isArg
        obtain ⟨limit, limitMatched, rfl⟩ := Option.map_eq_some_iff.mp matched
        obtain ⟨element, rfl⟩ := inductionArg_argument isArg
        have constant := @matchLoopInvariantConstant_eval _ unknown around lhs type lhsTyped
          (same.trans (own element rhsTyped)) limit limitMatched iteration
        exact ⟨_, eval_compare kind constant counter, holds_fails_mirrored kind _ _⟩
      · cases matched
  · cases matched

theorem runsExactly_iff (count : Nat) :
    whileOp.RunsExactly unknown around count ↔
      FirstFailure (Fails comparison.ascending comparison.inclusive
        (wrap type.low type.size comparison.limit.bits.toInt))
        (fun iteration => wrap type.low type.size (start.bits.toInt + iteration * step.bits.toInt)) count := by
  have each := @condition_eval _ unknown around _ _ _ _ _ verified matched known integer started stepped
  unfold WhileOp.RunsExactly FirstFailure
  constructor
  · rintro ⟨before, last⟩
    constructor
    · intro iteration below
      obtain ⟨holds, value, meaning⟩ := each iteration
      rw [before iteration below] at value
      exact meaning.mp (Option.some.inj value).symm
    · obtain ⟨holds, value, meaning⟩ := each count
      rw [last] at value
      by_contra short
      have contradiction := meaning.mpr short
      rw [← Option.some.inj value] at contradiction
      cases contradiction
  · rintro ⟨before, last⟩
    constructor
    · intro iteration below
      obtain ⟨holds, value, meaning⟩ := each iteration
      rw [value, meaning.mpr (before iteration below)]
    · obtain ⟨holds, value, meaning⟩ := each count
      rw [value]
      cases holds with
      | true => exact absurd last (meaning.mp rfl)
      | false => rfl

end

/-- The limit as it is read is as far from the start as in the range of the type, and a step is
shorter than the range. -/
def ReadAlike (type : IntegerType) (start limit step : Int) : Prop :=
  wrap type.low type.size start - start = wrap type.low type.size limit - limit ∧ |step| < type.size

instance (type : IntegerType) (start limit step : Int) : Decidable (ReadAlike type start limit step) := by
  unfold ReadAlike
  infer_instance

/-- A number of unbounded steps from the start leads to a value of the type that fails the
comparison. -/
def CountsInRange (type : IntegerType) (comparison : InductionComparison) (start step : Int) : Prop :=
  let limit := comparison.limit.bits.toInt
  let fails := Fails comparison.ascending comparison.inclusive (wrap type.low type.size limit)
  (ReadAlike type start limit step → ∃ position : Nat,
    Wrapping.Within type.low type.size (wrap type.low type.size start + position * step) ∧
      fails (wrap type.low type.size start + position * step)) ∧
  (¬ ReadAlike type start limit step → ∃ position : Nat,
    FirstFailure (Fails comparison.ascending comparison.inclusive limit)
        (fun iteration => start + iteration * step) position ∧
      FirstFailure fails (fun iteration => wrap type.low type.size (start + iteration * step)) position)

theorem fails_shift (ascending inclusive : Bool) (limit value shift : Int) :
    Fails ascending inclusive (limit + shift) (value + shift) ↔ Fails ascending inclusive limit value := by
  unfold Fails
  cases ascending <;> cases inclusive <;> simp

/-- The counter that wraps fails first at the computed count exactly when it counts in range. -/
theorem firstFailure_iff (start step : Int) (count : Nat) (forward : Forward comparison.ascending step)
    (first : FirstFailure (Fails comparison.ascending comparison.inclusive comparison.limit.bits.toInt)
      (fun iteration => start + iteration * step) count) :
    FirstFailure (Fails comparison.ascending comparison.inclusive
        (wrap type.low type.size comparison.limit.bits.toInt))
        (fun iteration => wrap type.low type.size (start + iteration * step)) count ↔
      CountsInRange type comparison start step := by
  unfold CountsInRange
  dsimp only
  by_cases alike : ReadAlike type start comparison.limit.bits.toInt step
  · rw [and_iff_left fun other => absurd alike other, imp_iff_right alike]
    obtain ⟨same, short⟩ := alike
    have startWithin := @wrap_within type.low _ type.size_pos start
    have limitWithin := @wrap_within type.low _ type.size_pos comparison.limit.bits.toInt
    have shifted : FirstFailure (Fails comparison.ascending comparison.inclusive
        (wrap type.low type.size comparison.limit.bits.toInt))
        (fun iteration => wrap type.low type.size start + iteration * step) count := by
      have moved : ∀ iteration : Nat, wrap type.low type.size start + iteration * step =
          start + iteration * step + (wrap type.low type.size start - start) := fun iteration => by ring
      have limitMoved : wrap type.low type.size comparison.limit.bits.toInt =
          comparison.limit.bits.toInt + (wrap type.low type.size start - start) := by omega
      constructor
      · intro iteration below
        dsimp only
        rw [moved, limitMoved, fails_shift]
        exact first.1 iteration below
      · dsimp only
        rw [moved, limitMoved, fails_shift]
        exact first.2
    have wrapped : (fun iteration : Nat => wrap type.low type.size (start + iteration * step)) =
        fun iteration : Nat => wrap type.low type.size (wrap type.low type.size start + iteration * step) :=
      funext fun iteration => wrap_progression start _
    rw [wrapped, wrapped_first_failure startWithin limitWithin forward short shifted,
      within_of_failure startWithin forward shifted]
  · rw [and_iff_right fun other => absurd other alike, imp_iff_right alike]
    constructor
    · exact fun wrapped => ⟨count, first, wrapped⟩
    · rintro ⟨position, read, wrapped⟩
      rwa [first.unique read]

def wordLoop (isUnsigned : Bool) (start limit : BitVec 32) : WhileOp :=
  let type : IntegerType := ⟨32, isUnsigned, by decide, by decide⟩
  { inits := [.constant type (some start)]
    captures := [.constant type (some limit), .constant type (some 1)]
    condYield := .compare .lessThan (.argument (.integer type) 0) (.argument (.integer type) 1)
    bodyYield := [.add (.argument (.integer type) 0) (.argument (.integer type) 2)]
    tripCount := none }

theorem wordLoop_verified (isUnsigned : Bool) (start limit : BitVec 32) :
    (wordLoop isUnsigned start limit).Verified where
  condTyped := ⟨rfl, rfl, rfl⟩
  bodyTyped := by
    intro value member
    rw [List.mem_singleton.mp member]
    exact ⟨rfl, rfl, rfl⟩
  bodyTypes := rfl

end Loop

end TtMlir.Ttir.While
