import Mathlib.Tactic.Zify
import TtMlir.Dma.CompiledMap

/-!
The register machine on its 64-bit words: `+` and `*` wrap, `/` and `%` truncate, `>>` is
arithmetic. As long as no subexpression leaves the 64-bit range, the words are those of the machine
on mathematical integers.
-/

namespace TtMlir.Dma

abbrev Word := BitVec 64

abbrev WordRegisters := Nat → Word

def Word.of (value : Int) : Word := BitVec.ofInt 64 value

def FitsWord (value : Int) : Prop := -2 ^ 63 ≤ value ∧ value < 2 ^ 63

instance (value : Int) : Decidable (FitsWord value) := inferInstanceAs (Decidable (_ ∧ _))

def executeWord (inputs : List Word) (regs : WordRegisters) (inst : Instruction) : WordRegisters :=
  let a := regs inst.src1
  let b := regs inst.src2
  let q := a.sdiv b
  let rem := a.srem b
  let value := match inst.op with
    | .loadDim => inputs.getD inst.imm.toNat 0
    | .loadConst => Word.of inst.imm
    | .add => a + b
    | .mul => a * b
    | .floorDiv => if rem ≠ 0 ∧ (rem ^^^ b).slt 0 then q - 1 else q
    | .mod => if rem ≠ 0 ∧ (rem ^^^ b).slt 0 then rem + b else rem
    | .ceilDiv => if rem ≠ 0 ∧ (0#64).slt (rem ^^^ b) then q + 1 else q
    | .shrImm => a.sshiftRight inst.imm.toNat
    | .andImm => a &&& Word.of inst.imm
  Function.update regs inst.dst value

def runWords (inputs : List Word) (code : List Instruction) (regs : WordRegisters) : WordRegisters :=
  code.foldl (executeWord inputs) regs

def CompiledAffineMap.evaluateWords (compiled : CompiledAffineMap) (inputs : List Word) : List Word :=
  let regs := runWords inputs compiled.code fun _ => 0
  compiled.resultRegs.map regs

/-- No subexpression leaves the 64-bit range at these dims. -/
def NoOverflow (inputs : List Int) : AffineExpr → Prop
  | .dim position => FitsWord ((AffineExpr.dim position).eval inputs [])
  | .sym position => FitsWord ((AffineExpr.sym position).eval inputs [])
  | .const value => FitsWord value
  | .add lhs rhs =>
      NoOverflow inputs lhs ∧ NoOverflow inputs rhs ∧ FitsWord ((AffineExpr.add lhs rhs).eval inputs [])
  | .mul lhs rhs =>
      NoOverflow inputs lhs ∧ NoOverflow inputs rhs ∧ FitsWord ((AffineExpr.mul lhs rhs).eval inputs [])
  | .mod lhs rhs =>
      NoOverflow inputs lhs ∧ NoOverflow inputs rhs ∧ FitsWord ((AffineExpr.mod lhs rhs).eval inputs [])
  | .floorDiv lhs rhs =>
      NoOverflow inputs lhs ∧ NoOverflow inputs rhs ∧
        FitsWord ((AffineExpr.floorDiv lhs rhs).eval inputs [])
  | .ceilDiv lhs rhs =>
      NoOverflow inputs lhs ∧ NoOverflow inputs rhs ∧
        FitsWord ((AffineExpr.ceilDiv lhs rhs).eval inputs [])

theorem toInt_word (value : Int) (fits : FitsWord value) : (Word.of value).toInt = value :=
  BitVec.toInt_ofInt_eq_self (by decide) (by simpa using fits.1) (by simpa using fits.2)

theorem word_toInt (word : Word) : Word.of word.toInt = word := BitVec.ofInt_toInt

theorem word_add (a b : Int) : Word.of (a + b) = Word.of a + Word.of b := BitVec.ofInt_add a b

theorem word_sub (a b : Int) : Word.of (a - b) = Word.of a - Word.of b := by
  rw [Int.sub_eq_add_neg, word_add, Word.of, Word.of, Word.of, BitVec.ofInt_neg, BitVec.sub_eq_add_neg]

theorem word_mul (a b : Int) : Word.of (a * b) = Word.of a * Word.of b := BitVec.ofInt_mul a b

theorem word_zero_iff (value : Int) (fits : FitsWord value) : Word.of value = 0 ↔ value = 0 := by
  constructor
  · intro zero
    have := toInt_word value fits
    rw [zero] at this
    simpa using this.symm
  · intro zero
    simp [zero, Word.of]

theorem word_injective (first second : Int) (firstFits : FitsWord first) (secondFits : FitsWord second)
    (same : Word.of first = Word.of second) : first = second := by
  rw [← toInt_word first firstFits, same, toInt_word second secondFits]

theorem tmod_fits (a b : Int) (positive : 0 < b) (fits : FitsWord b) : FitsWord (a.tmod b) := by
  have high := Int.tmod_lt_of_pos a positive
  have low := Int.lt_tmod_of_pos a positive
  constructor
  · have := fits.2
    omega
  · exact high.trans fits.2

theorem srem_word (a b : Int) (aFits : FitsWord a) (bFits : FitsWord b) :
    (Word.of a).srem (Word.of b) = Word.of (a.tmod b) := by
  rw [← word_toInt ((Word.of a).srem (Word.of b)), BitVec.toInt_srem, toInt_word a aFits, toInt_word b bFits]

theorem sdiv_word (a b : Int) (positive : 0 < b) (aFits : FitsWord a) (bFits : FitsWord b) :
    (Word.of a).sdiv (Word.of b) = Word.of (a.tdiv b) := by
  have divisor : Word.of b ≠ -1#64 := by
    intro minusOne
    have value := toInt_word b bFits
    rw [minusOne] at value
    have : (-1#64 : Word).toInt = -1 := by decide
    omega
  rw [← word_toInt ((Word.of a).sdiv (Word.of b)), BitVec.toInt_sdiv_of_ne_or_ne _ _ (Or.inr divisor),
    toInt_word a aFits, toInt_word b bFits]

theorem xor_negative (x y : Int) (xFits : FitsWord x) (yFits : FitsWord y) :
    (Word.of x ^^^ Word.of y).slt 0 = signsDiffer x y := by
  change (Word.of x ^^^ Word.of y).slt 0#64 = _
  rw [BitVec.slt_zero_eq_msb, BitVec.msb_xor, BitVec.msb_eq_toInt, BitVec.msb_eq_toInt,
    toInt_word x xFits, toInt_word y yFits]
  rfl

theorem xor_positive (x y : Int) (xFits : FitsWord x) (yFits : FitsWord y) :
    (0#64).slt (Word.of x ^^^ Word.of y) = true ↔ ¬ signsDiffer x y = true ∧ x ≠ y := by
  have negative := xor_negative x y xFits yFits
  rw [← negative]
  have zero : (Word.of x ^^^ Word.of y).toInt = 0 ↔ x = y := by
    rw [← BitVec.toInt_zero (w := 64), BitVec.toInt_inj, BitVec.xor_eq_zero_iff]
    exact ⟨word_injective x y xFits yFits, congrArg Word.of⟩
  change _ ↔ ¬ (Word.of x ^^^ Word.of y).slt 0#64 = true ∧ _
  rw [BitVec.slt_iff_toInt_lt, BitVec.slt_iff_toInt_lt, BitVec.toInt_zero, ne_eq, ← zero]
  omega

theorem shift_word (a : Int) (count : Nat) (fits : FitsWord a) :
    (Word.of a).sshiftRight count = Word.of (a >>> count) := by
  rw [← word_toInt ((Word.of a).sshiftRight count), BitVec.toInt_sshiftRight, toInt_word a fits]

theorem mask_word (a : Int) (count : Nat) (below : count < 63) :
    Word.of a &&& Word.of (2 ^ count - 1) = Word.of (a % 2 ^ count) := by
  have maskNat : (Word.of (2 ^ count - 1)).toNat = 2 ^ count - 1 := by
    have room : 2 ^ count < 2 ^ 63 := Nat.pow_lt_pow_right (by decide) below
    have cast : (2 : Int) ^ count - 1 = ((2 ^ count - 1 : Nat) : Int) := by
      rw [Nat.cast_sub Nat.one_le_two_pow]
      norm_num
    rw [cast, Word.of, BitVec.ofInt_natCast, BitVec.toNat_ofNat, Nat.mod_eq_of_lt (by omega)]
  apply BitVec.eq_of_toNat_eq
  rw [BitVec.toNat_and, maskNat, Nat.and_two_pow_sub_one_eq_mod, Word.of, Word.of, BitVec.toNat_ofInt,
    BitVec.toNat_ofInt]
  have divides : (2 : Int) ^ count ∣ 2 ^ 64 := pow_dvd_pow 2 (by omega)
  have positive : (0 : Int) < 2 ^ count := by positivity
  have low : (0 : Int) ≤ a % 2 ^ count := Int.emod_nonneg _ positive.ne'
  have high : a % 2 ^ count < 2 ^ 64 :=
    (Int.emod_lt_of_pos a positive).trans_le (Int.le_of_dvd (by decide) divides)
  zify
  rw [Int.toNat_of_nonneg (Int.emod_nonneg _ (by decide)), Int.toNat_of_nonneg (Int.emod_nonneg _ (by decide)),
    Int.emod_emod_of_dvd _ divides, Int.emod_eq_of_lt low high]

def OperandsFit (regs : Registers) (inst : Instruction) : Prop :=
  match inst.op with
  | .floorDiv | .mod | .ceilDiv =>
      FitsWord (regs inst.src1) ∧ FitsWord (regs inst.src2) ∧ 0 < regs inst.src2
  | .shrImm => FitsWord (regs inst.src1)
  | .andImm => ∃ count < 63, inst.imm = 2 ^ count - 1
  | .loadDim | .loadConst | .add | .mul => True

theorem executeWord_agrees (inputs : List Int) (regs : Registers) (inst : Instruction)
    (fit : OperandsFit regs inst) :
    executeWord (inputs.map Word.of) (Word.of ∘ regs) inst = Word.of ∘ execute inputs regs inst := by
  obtain ⟨op, dst, src1, src2, imm⟩ := inst
  simp only [executeWord, execute, Function.comp_update, Function.comp_apply]
  congr 1
  cases op with
  | loadDim =>
      simp only [List.getD_eq_getElem?_getD, List.getElem?_map]
      cases inputs[imm.toNat]? <;> rfl
  | loadConst => rfl
  | add => exact (word_add _ _).symm
  | mul => exact (word_mul _ _).symm
  | floorDiv =>
      obtain ⟨aFits, bFits, positive⟩ := fit
      have remFits := tmod_fits (regs src1) (regs src2) positive bFits
      simp only [sdiv_word _ _ positive aFits bFits, srem_word _ _ aFits bFits, ne_eq,
        word_zero_iff _ remFits, xor_negative _ _ remFits bFits, apply_ite Word.of, word_sub]
      rfl
  | mod =>
      obtain ⟨aFits, bFits, positive⟩ := fit
      have remFits := tmod_fits (regs src1) (regs src2) positive bFits
      simp only [srem_word _ _ aFits bFits, ne_eq, word_zero_iff _ remFits, xor_negative _ _ remFits bFits,
        apply_ite Word.of, word_add]
  | ceilDiv =>
      obtain ⟨aFits, bFits, positive⟩ := fit
      have remFits := tmod_fits (regs src1) (regs src2) positive bFits
      simp only [sdiv_word _ _ positive aFits bFits, srem_word _ _ aFits bFits, ne_eq,
        word_zero_iff _ remFits, xor_positive _ _ remFits bFits, apply_ite Word.of, word_add]
      rfl
  | shrImm => exact shift_word _ _ fit
  | andImm =>
      obtain ⟨count, below, rfl⟩ := fit
      rw [mask_word _ _ below, land_two_pow]

/-! Compilation keeps the words and the integers together: the operands of every
instruction it emits are values of subexpressions. -/

section Agreement
variable (inputs : List Int)

def Agrees (state : CompileState) : Prop :=
  runWords (inputs.map Word.of) state.code (fun _ => 0) = Word.of ∘ registers inputs state

theorem noOverflow_fits (expr : AffineExpr) (calm : NoOverflow inputs expr) :
    FitsWord (expr.eval inputs []) := by
  cases expr with
  | dim _ | sym _ | const _ => exact calm
  | add _ _ | mul _ _ | mod _ _ | floorDiv _ _ | ceilDiv _ _ => exact calm.2.2

theorem emit_agrees (state next : CompileState) (expr : AffineExpr) (inst : Instruction) (reg : Nat)
    (agrees : Agrees inputs state)
    (fit : OperandsFit (registers inputs state) { inst with dst := state.code.length })
    (emitted : emitInstruction state expr inst = some (reg, next)) : Agrees inputs next := by
  by_cases room : state.code.length < kMaxRegs
  · simp only [emitInstruction, room, ↓reduceIte, Option.some.injEq, Prod.mk.injEq] at emitted
    obtain ⟨rfl, rfl⟩ := emitted
    have step := executeWord_agrees inputs (registers inputs state) _ fit
    rw [← agrees] at step
    simpa only [Agrees, registers, run, runWords, List.foldl_append, List.foldl_cons, List.foldl_nil] using step
  · simp [emitInstruction, room] at emitted

theorem memoized_agrees (state next : CompileState) (expr : AffineExpr)
    (compile : Option (Nat × CompileState)) (reg : Nat) (agrees : Agrees inputs state)
    (fresh : compile = some (reg, next) → Agrees inputs next)
    (compiled : memoized state expr compile = some (reg, next)) : Agrees inputs next := by
  unfold memoized at compiled
  cases found : state.exprToReg.lookup expr with
  | none =>
      rw [found] at compiled
      exact fresh compiled
  | some known =>
      rw [found] at compiled
      simp only [Option.some.injEq, Prod.mk.injEq] at compiled
      rw [← compiled.2]
      exact agrees

theorem powerOf2_fits (regs : Registers) (op : Op) (rhs : AffineExpr) (lhs dst : Nat) (inst : Instruction)
    (form : powerOf2Form op rhs lhs = some inst) (lhsFits : FitsWord (regs lhs))
    (rhsFits : FitsWord (rhs.eval inputs [])) : OperandsFit regs { inst with dst } := by
  obtain ⟨value, rfl, known, ⟨rfl, rfl⟩ | ⟨rfl, rfl⟩⟩ := powerOf2Form_cases form
  · exact lhsFits
  · obtain ⟨count, exponent, _⟩ := powerOf2_exponent value known
    have small : (2 : Int) ^ count < 2 ^ 63 := by
      rw [← exponent]
      exact rhsFits.2
    exact ⟨count, (pow_lt_pow_iff_right₀ (by decide)).mp small, by rw [exponent]⟩

/-- What the induction knows of an operand: it compiles from any state in which
words and integers agree to another such state. -/
def OperandAgrees (expr : AffineExpr) : Prop :=
  ∀ state next reg, Memo inputs state → Agrees inputs state → compileExpr expr state = some (reg, next) →
    Agrees inputs next

theorem compileBinary_agrees (op : Op) (expr lhs rhs : AffineExpr) (state next : CompileState) (reg : Nat)
    (binary : op.isBinary = true) (lhsPure : lhs.divisorsPositive = true)
    (rhsPure : rhs.divisorsPositive = true) (positive : op.divides = true → 0 < rhs.eval inputs [])
    (lhsFits : FitsWord (lhs.eval inputs [])) (rhsFits : FitsWord (rhs.eval inputs []))
    (left : OperandAgrees inputs lhs) (right : OperandAgrees inputs rhs)
    (memo : Memo inputs state) (agrees : Agrees inputs state)
    (compiled : compileBinary op expr rhs (compileExpr lhs) (compileExpr rhs) state = some (reg, next)) :
    Agrees inputs next := by
  refine memoized_agrees inputs state next expr _ reg agrees (fun fresh => ?_) compiled
  simp only [Option.bind_eq_bind, Option.bind_eq_some_iff, Prod.exists] at fresh
  obtain ⟨lhsReg, afterLhs, lhsRan, rest⟩ := fresh
  obtain ⟨lhsMemo, lhsHolds, _⟩ := compileExpr_compiles inputs lhs lhsPure state afterLhs lhsReg memo lhsRan
  have lhsAgrees := left state afterLhs lhsReg memo agrees lhsRan
  cases form : powerOf2Form op rhs lhsReg with
  | some inst =>
      rw [form] at rest
      apply emit_agrees inputs afterLhs next expr inst reg lhsAgrees _ rest
      exact powerOf2_fits inputs _ op rhs lhsReg _ inst form (by rw [lhsHolds.value]; exact lhsFits) rhsFits
  | none =>
      rw [form] at rest
      simp only [Option.bind_eq_some_iff, Prod.exists] at rest
      obtain ⟨rhsReg, afterRhs, rhsRan, rest⟩ := rest
      obtain ⟨_, rhsHolds, rhsExtends⟩ :=
        compileExpr_compiles inputs rhs rhsPure afterLhs afterRhs rhsReg lhsMemo rhsRan
      have rhsAgrees := right afterLhs afterRhs rhsReg lhsMemo lhsAgrees rhsRan
      have lhsStill := holds_extends inputs afterLhs afterRhs lhs lhsReg rhsExtends lhsHolds
      apply emit_agrees inputs afterRhs next expr { op, src1 := lhsReg, src2 := rhsReg } reg rhsAgrees _ rest
      cases op with
      | add | mul => exact trivial
      | floorDiv | mod | ceilDiv =>
          simp only [OperandsFit, lhsStill.value, rhsHolds.value]
          exact ⟨lhsFits, rhsFits, positive rfl⟩
      | loadDim | loadConst | shrImm | andImm => simp [Op.isBinary] at binary

theorem compileExpr_agrees (expr : AffineExpr) (pure : expr.divisorsPositive = true)
    (calm : NoOverflow inputs expr) : OperandAgrees inputs expr := by
  induction expr with
  | dim position =>
      intro state next reg memo agrees compiled
      refine memoized_agrees inputs state next _ _ reg agrees (fun fresh => ?_) compiled
      exact emit_agrees inputs state next _ { op := .loadDim, imm := position } reg agrees trivial fresh
  | sym position =>
      intro state next reg memo agrees compiled
      exact memoized_agrees inputs state next _ _ reg agrees (fun fresh => by cases fresh) compiled
  | const value =>
      intro state next reg memo agrees compiled
      refine memoized_agrees inputs state next _ _ reg agrees (fun fresh => ?_) compiled
      exact emit_agrees inputs state next _ { op := .loadConst, imm := value } reg agrees trivial fresh
  | add lhs rhs left right =>
      intro state next reg memo agrees compiled
      simp only [AffineExpr.divisorsPositive, Bool.and_eq_true] at pure
      exact compileBinary_agrees inputs .add _ lhs rhs state next reg rfl pure.1 pure.2 (by simp [Op.divides])
        (noOverflow_fits inputs lhs calm.1) (noOverflow_fits inputs rhs calm.2.1)
        (left pure.1 calm.1) (right pure.2 calm.2.1) memo agrees compiled
  | mul lhs rhs left right =>
      intro state next reg memo agrees compiled
      simp only [AffineExpr.divisorsPositive, Bool.and_eq_true] at pure
      exact compileBinary_agrees inputs .mul _ lhs rhs state next reg rfl pure.1 pure.2 (by simp [Op.divides])
        (noOverflow_fits inputs lhs calm.1) (noOverflow_fits inputs rhs calm.2.1)
        (left pure.1 calm.1) (right pure.2 calm.2.1) memo agrees compiled
  | mod lhs rhs left right =>
      intro state next reg memo agrees compiled
      obtain ⟨lhsPure, positive, rhsPure⟩ := divisor_positive inputs _ .mod lhs rhs (Or.inl rfl) rfl pure
      exact compileBinary_agrees inputs .mod _ lhs rhs state next reg rfl lhsPure rhsPure (fun _ => positive)
        (noOverflow_fits inputs lhs calm.1) (noOverflow_fits inputs rhs calm.2.1)
        (left lhsPure calm.1) (right rhsPure calm.2.1) memo agrees compiled
  | floorDiv lhs rhs left right =>
      intro state next reg memo agrees compiled
      obtain ⟨lhsPure, positive, rhsPure⟩ :=
        divisor_positive inputs _ .floorDiv lhs rhs (Or.inr (Or.inl rfl)) rfl pure
      exact compileBinary_agrees inputs .floorDiv _ lhs rhs state next reg rfl lhsPure rhsPure
        (fun _ => positive) (noOverflow_fits inputs lhs calm.1) (noOverflow_fits inputs rhs calm.2.1)
        (left lhsPure calm.1) (right rhsPure calm.2.1) memo agrees compiled
  | ceilDiv lhs rhs left right =>
      intro state next reg memo agrees compiled
      obtain ⟨lhsPure, positive, rhsPure⟩ :=
        divisor_positive inputs _ .ceilDiv lhs rhs (Or.inr (Or.inr rfl)) rfl pure
      exact compileBinary_agrees inputs .ceilDiv _ lhs rhs state next reg rfl lhsPure rhsPure
        (fun _ => positive) (noOverflow_fits inputs lhs calm.1) (noOverflow_fits inputs rhs calm.2.1)
        (left lhsPure calm.1) (right rhsPure calm.2.1) memo agrees compiled

theorem compileResults_agrees (exprs : List AffineExpr)
    (pure : ∀ expr ∈ exprs, expr.divisorsPositive = true) (calm : ∀ expr ∈ exprs, NoOverflow inputs expr)
    (state next : CompileState) (regs : List Nat) (memo : Memo inputs state) (agrees : Agrees inputs state)
    (compiled : compileResults exprs state = some (regs, next)) : Agrees inputs next := by
  induction exprs generalizing state regs with
  | nil =>
      cases compiled
      exact agrees
  | cons expr rest ih =>
      simp only [compileResults, Option.bind_eq_bind, Option.bind_eq_some_iff, Prod.exists,
        Option.some.injEq, Prod.mk.injEq] at compiled
      obtain ⟨reg, middle, first, others, last, later, rfl, rfl⟩ := compiled
      have middleCompiles := compileExpr_compiles inputs expr (pure expr List.mem_cons_self) state middle reg
        memo first
      have middleAgrees := compileExpr_agrees inputs expr (pure expr List.mem_cons_self)
        (calm expr List.mem_cons_self) state middle reg memo agrees first
      exact ih (fun other member => pure other (List.mem_cons_of_mem _ member))
        (fun other member => calm other (List.mem_cons_of_mem _ member)) middle others middleCompiles.memo
        middleAgrees later

end Agreement

/-- The words that come out are the values of the map. -/
theorem evaluateWords_exact (map : AffineMap) (compiled : CompiledAffineMap) (inputs : List Int)
    (divisors : ∀ expr ∈ map.results, expr.divisorsPositive = true)
    (noOverflow : ∀ expr ∈ map.results, NoOverflow inputs expr)
    (compiles : CompiledAffineMap.compile map = some compiled) :
    (compiled.evaluateWords (inputs.map Word.of)).map BitVec.toInt = map.evaluate inputs := by
  have values := compiled_evaluate inputs map compiled divisors compiles
  simp only [CompiledAffineMap.compile, Option.bind_eq_bind, Option.bind_eq_some_iff, Prod.exists,
    Option.some.injEq] at compiles
  obtain ⟨regs, state, ran, rfl⟩ := compiles
  have start : Agrees inputs {} := rfl
  have agrees := compileResults_agrees inputs map.results divisors noOverflow {} state regs
    (by simp [Memo]) start ran
  have words : CompiledAffineMap.evaluateWords { code := state.code, resultRegs := regs } (inputs.map Word.of) =
      (map.evaluate inputs).map Word.of := by
    rw [← values, CompiledAffineMap.evaluateWords, agrees, CompiledAffineMap.evaluate, List.map_map]
    rfl
  have same : ∀ value ∈ map.evaluate inputs, (BitVec.toInt ∘ Word.of) value = id value := by
    intro value member
    obtain ⟨expr, inside, rfl⟩ := List.mem_map.mp member
    exact toInt_word _ (noOverflow_fits inputs expr (noOverflow expr inside))
  rw [words, List.map_map, List.map_congr_left same, List.map_id]

/-- A shift, a mask, a shared register and a corrected division. -/
def mixedMap : AffineMap where
  numDims := 2
  results := [.add (.floorDiv (.dim 0) (.const 4)) (.mod (.dim 1) (.const 3)), .floorDiv (.dim 0) (.const 4),
    .ceilDiv (.mul (.dim 1) (.const (-5))) (.const 7), .mod (.dim 0) (.const 8)]

theorem evaluateWords_exact_mixed :
    (CompiledAffineMap.compile mixedMap).map
      (fun compiled => (compiled.evaluateWords ([-7, 5].map Word.of)).map BitVec.toInt) =
      some [0, -2, -3, 1] := by
  obtain ⟨compiled, compiles⟩ : ∃ compiled, CompiledAffineMap.compile mixedMap = some compiled := ⟨_, rfl⟩
  have calm : ∀ expr ∈ mixedMap.results, NoOverflow [-7, 5] expr := by
    simp [mixedMap, NoOverflow, AffineExpr.eval, FitsWord]
  rw [compiles, Option.map_some, evaluateWords_exact mixedMap compiled [-7, 5] (by decide) calm compiles]
  decide

end TtMlir.Dma
