import Mathlib
import TtMlir.Library.Affine

/-!
`CompiledAffineMap`: affine maps compiled to register bytecode with common
subexpressions shared, and the machine that runs it. Every instruction writes
the register numbered by its own position.
-/

namespace TtMlir.Dma

inductive Op where
  | loadDim
  | loadConst
  | add
  | mul
  | floorDiv
  | mod
  | ceilDiv
  | shrImm
  | andImm
  deriving DecidableEq, Repr

structure Instruction where
  op : Op
  dst : Nat := 0
  src1 : Nat := 0
  src2 : Nat := 0
  imm : Int := 0
  deriving DecidableEq, Repr

abbrev Registers := Nat → Int

def signsDiffer (x y : Int) : Bool := decide (x < 0) != decide (y < 0)

def execute (inputs : List Int) (regs : Registers) (inst : Instruction) : Registers :=
  let a := regs inst.src1
  let b := regs inst.src2
  let q := a.tdiv b
  let rem := a.tmod b
  let value := match inst.op with
    | .loadDim => inputs.getD inst.imm.toNat 0
    | .loadConst => inst.imm
    | .add => a + b
    | .mul => a * b
    | .floorDiv => if rem ≠ 0 ∧ signsDiffer rem b then q - 1 else q
    | .mod => if rem ≠ 0 ∧ signsDiffer rem b then rem + b else rem
    | .ceilDiv => if rem ≠ 0 ∧ ¬ signsDiffer rem b ∧ rem ≠ b then q + 1 else q
    | .shrImm => a >>> inst.imm.toNat
    | .andImm => Int.land a inst.imm
  Function.update regs inst.dst value

def run (inputs : List Int) (code : List Instruction) (regs : Registers) : Registers :=
  code.foldl (execute inputs) regs

structure CompiledAffineMap where
  code : List Instruction
  resultRegs : List Nat

def CompiledAffineMap.evaluate (compiled : CompiledAffineMap) (inputs : List Int) : List Int :=
  let regs := run inputs compiled.code fun _ => 0
  compiled.resultRegs.map regs

def kMaxRegs : Nat := 512

def isPowerOf2 (value : Int) : Bool := decide (value > 0) && decide (value.toNat &&& (value.toNat - 1) = 0)

def countrZero (value : Nat) : Nat :=
  if value = 0 ∨ value % 2 = 1 then 0 else countrZero (value / 2) + 1
termination_by value
decreasing_by omega

structure CompileState where
  code : List Instruction := []
  exprToReg : List (AffineExpr × Nat) := []

/-- Running out of registers fails an assertion. -/
def emitInstruction (state : CompileState) (expr : AffineExpr) (inst : Instruction) :
    Option (Nat × CompileState) :=
  let reg := state.code.length
  if reg < kMaxRegs then
    some (reg, { code := state.code ++ [{ inst with dst := reg }]
                 exprToReg := (expr, reg) :: state.exprToReg })
  else none

def powerOf2Form (op : Op) (rhs : AffineExpr) (lhsReg : Nat) : Option Instruction :=
  match op, rhs with
  | .floorDiv, .const value =>
      if isPowerOf2 value then some { op := .shrImm, src1 := lhsReg, imm := countrZero value.toNat } else none
  | .mod, .const value =>
      if isPowerOf2 value then some { op := .andImm, src1 := lhsReg, imm := value - 1 } else none
  | _, _ => none

def memoized (state : CompileState) (expr : AffineExpr) (compile : Option (Nat × CompileState)) :
    Option (Nat × CompileState) :=
  match state.exprToReg.lookup expr with
  | some reg => some (reg, state)
  | none => compile

def compileBinary (op : Op) (expr rhsExpr : AffineExpr)
    (compileLhs compileRhs : CompileState → Option (Nat × CompileState)) (state : CompileState) :
    Option (Nat × CompileState) :=
  memoized state expr do
    let (lhs, state) ← compileLhs state
    match powerOf2Form op rhsExpr lhs with
    | some inst => emitInstruction state expr inst
    | none =>
        let (rhs, state) ← compileRhs state
        emitInstruction state expr { op, src1 := lhs, src2 := rhs }

/-- Symbols are unsupported: the source is unreachable there. -/
def compileExpr : AffineExpr → CompileState → Option (Nat × CompileState)
  | .dim position, state =>
      memoized state (.dim position)
        (emitInstruction state (.dim position) { op := .loadDim, imm := position })
  | .sym position, state => memoized state (.sym position) none
  | .const value, state =>
      memoized state (.const value) (emitInstruction state (.const value) { op := .loadConst, imm := value })
  | .add lhs rhs, state =>
      compileBinary .add (.add lhs rhs) rhs (compileExpr lhs) (compileExpr rhs) state
  | .mul lhs rhs, state =>
      compileBinary .mul (.mul lhs rhs) rhs (compileExpr lhs) (compileExpr rhs) state
  | .mod lhs rhs, state =>
      compileBinary .mod (.mod lhs rhs) rhs (compileExpr lhs) (compileExpr rhs) state
  | .floorDiv lhs rhs, state =>
      compileBinary .floorDiv (.floorDiv lhs rhs) rhs (compileExpr lhs) (compileExpr rhs) state
  | .ceilDiv lhs rhs, state =>
      compileBinary .ceilDiv (.ceilDiv lhs rhs) rhs (compileExpr lhs) (compileExpr rhs) state

def compileResults : List AffineExpr → CompileState → Option (List Nat × CompileState)
  | [], state => some ([], state)
  | expr :: rest, state => do
      let (reg, state) ← compileExpr expr state
      let (regs, state) ← compileResults rest state
      some (reg :: regs, state)

def CompiledAffineMap.compile (map : AffineMap) : Option CompiledAffineMap := do
  let (resultRegs, state) ← compileResults map.results {}
  some { code := state.code, resultRegs }

theorem signsDiffer_of_pos (rem b : Int) (positive : 0 < b) :
    signsDiffer rem b = true ↔ rem < 0 := by
  have sign : ¬ b < 0 := by omega
  simp [signsDiffer, sign]

theorem floor_of_truncated (a b : Int) (positive : 0 < b) :
    (if a.tmod b ≠ 0 ∧ signsDiffer (a.tmod b) b then a.tdiv b - 1 else a.tdiv b) = a / b ∧
    (if a.tmod b ≠ 0 ∧ signsDiffer (a.tmod b) b then a.tmod b + b else a.tmod b) = a % b := by
  have split := Int.mul_tdiv_add_tmod a b
  have high := Int.tmod_lt_of_pos a positive
  have low := Int.lt_tmod_of_pos a positive
  simp only [signsDiffer_of_pos _ _ positive]
  by_cases below : a.tmod b < 0
  · rw [if_pos ⟨below.ne, below⟩, if_pos ⟨below.ne, below⟩, eq_comm, @eq_comm Int _ (a % b),
      Int.ediv_emod_unique positive, Int.mul_sub, Int.mul_one]
    omega
  · have unchanged : ¬ (a.tmod b ≠ 0 ∧ a.tmod b < 0) := fun both => below both.2
    rw [if_neg unchanged, if_neg unchanged, eq_comm, @eq_comm Int _ (a % b), Int.ediv_emod_unique positive]
    omega

theorem ceil_of_truncated (a b : Int) (positive : 0 < b) :
    (if a.tmod b ≠ 0 ∧ ¬ signsDiffer (a.tmod b) b ∧ a.tmod b ≠ b then a.tdiv b + 1 else a.tdiv b) =
      -(-a / b) := by
  have split := Int.mul_tdiv_add_tmod a b
  have high := Int.tmod_lt_of_pos a positive
  have low := Int.lt_tmod_of_pos a positive
  simp only [signsDiffer_of_pos _ _ positive]
  by_cases above : 0 < a.tmod b
  · have quotient : -a / b = -(a.tdiv b + 1) ∧ -a % b = b - a.tmod b := by
      rw [Int.ediv_emod_unique positive, Int.mul_neg, Int.mul_add, Int.mul_one]
      omega
    rw [if_pos ⟨above.ne', not_lt.mpr above.le, high.ne⟩, quotient.1, Int.neg_neg]
  · have quotient : -a / b = -a.tdiv b ∧ -a % b = -a.tmod b := by
      rw [Int.ediv_emod_unique positive, Int.mul_neg]
      omega
    have unchanged : ¬ (a.tmod b ≠ 0 ∧ ¬ a.tmod b < 0 ∧ a.tmod b ≠ b) := by omega
    rw [if_neg unchanged, quotient.1, Int.neg_neg]

theorem ldiff_two_pow (count value : Nat) :
    Nat.ldiff (2 ^ count - 1) value = 2 ^ count - (value % 2 ^ count + 1) := by
  apply Nat.eq_of_testBit_eq
  intro position
  have below : value % 2 ^ count < 2 ^ count := Nat.mod_lt _ (Nat.two_pow_pos count)
  rw [Nat.testBit_ldiff, Nat.testBit_two_pow_sub_one, Nat.testBit_two_pow_sub_succ below,
    Nat.testBit_mod_two_pow]
  by_cases inside : position < count <;> simp [inside]

theorem land_two_pow (a : Int) (count : Nat) : Int.land a (2 ^ count - 1) = a % 2 ^ count := by
  have mask : (2 : Int) ^ count - 1 = ((2 ^ count - 1 : Nat) : Int) := by
    rw [Nat.cast_sub (Nat.one_le_two_pow)]
    norm_num
  rw [mask]
  cases a with
  | ofNat value =>
      change ((value &&& (2 ^ count - 1) : Nat) : Int) = _
      rw [Nat.and_two_pow_sub_one_eq_mod]
      simp
  | negSucc value =>
      change ((Nat.ldiff (2 ^ count - 1) value : Nat) : Int) = _
      have below : value % 2 ^ count < 2 ^ count := Nat.mod_lt _ (Nat.two_pow_pos count)
      rw [ldiff_two_pow, Int.negSucc_emod _ (by positivity), Nat.cast_sub (by omega)]
      push_cast
      ring

theorem countrZero_two_pow (count : Nat) : countrZero (2 ^ count) = count := by
  induction count with
  | zero => simp [countrZero]
  | succ count ih =>
      have half : 2 ^ (count + 1) / 2 = 2 ^ count := by
        rw [Nat.pow_succ, Nat.mul_div_cancel _ (by decide)]
      have even : 2 ^ (count + 1) % 2 = 0 := by
        rw [Nat.pow_succ, Nat.mul_mod_left]
      rw [countrZero, half, ih]
      simp [even]

theorem powerOf2_exponent (value : Int) (power : isPowerOf2 value = true) :
    ∃ count : Nat, value = 2 ^ count ∧ value.toNat = 2 ^ count := by
  simp only [isPowerOf2, Bool.and_eq_true, decide_eq_true_eq, gt_iff_lt] at power
  obtain ⟨positive, bits⟩ := power
  obtain ⟨count, exponent⟩ :=
    (Nat.and_sub_one_eq_zero_iff_isPowerOfTwo (n := value.toNat) (by omega)).mp bits
  refine ⟨count, ?_, exponent⟩
  have same : ((value.toNat : Nat) : Int) = value := Int.toNat_of_nonneg (by omega)
  rw [← same, exponent]
  push_cast
  rfl

/-! Compilation invariant: every memoized register holds its expression's
value, and compiling more never touches a register already written. -/

section Correct
variable (inputs : List Int)

def registers (state : CompileState) : Registers := run inputs state.code fun _ => 0

structure Holds (state : CompileState) (expr : AffineExpr) (reg : Nat) : Prop where
  written : reg < state.code.length
  value : registers inputs state reg = expr.eval inputs []

def Memo (state : CompileState) : Prop :=
  ∀ entry ∈ state.exprToReg, Holds inputs state entry.1 entry.2

structure Extends (old new : CompileState) : Prop where
  longer : old.code.length ≤ new.code.length
  kept : ∀ reg < old.code.length, registers inputs new reg = registers inputs old reg

/-- What compiling `expr` from `state` guarantees. -/
structure Compiles (expr : AffineExpr) (state : CompileState) (reg : Nat) (next : CompileState) : Prop where
  memo : Memo inputs next
  holds : Holds inputs next expr reg
  extends_ : Extends inputs state next

theorem extends_trans (first second third : CompileState) (early : Extends inputs first second)
    (late : Extends inputs second third) : Extends inputs first third where
  longer := early.longer.trans late.longer
  kept reg below := (late.kept reg (below.trans_le early.longer)).trans (early.kept reg below)

theorem holds_extends (state next : CompileState) (expr : AffineExpr) (reg : Nat)
    (extension : Extends inputs state next) (holds : Holds inputs state expr reg) :
    Holds inputs next expr reg :=
  ⟨holds.written.trans_le extension.longer, (extension.kept reg holds.written).trans holds.value⟩

theorem emit_compiles (state next : CompileState) (expr : AffineExpr) (inst : Instruction) (reg : Nat)
    (memo : Memo inputs state)
    (value : execute inputs (registers inputs state) { inst with dst := state.code.length }
      state.code.length = expr.eval inputs [])
    (emitted : emitInstruction state expr inst = some (reg, next)) :
    Compiles inputs expr state reg next := by
  by_cases room : state.code.length < kMaxRegs
  · simp only [emitInstruction, room, ↓reduceIte, Option.some.injEq, Prod.mk.injEq] at emitted
    obtain ⟨rfl, rfl⟩ := emitted
    have last : registers inputs
        { code := state.code ++ [{ inst with dst := state.code.length }],
          exprToReg := (expr, state.code.length) :: state.exprToReg } =
        execute inputs (registers inputs state) { inst with dst := state.code.length } := by
      simp [registers, run, List.foldl_append]
    have extension : Extends inputs state
        { code := state.code ++ [{ inst with dst := state.code.length }],
          exprToReg := (expr, state.code.length) :: state.exprToReg } := by
      refine ⟨by simp, fun other below => ?_⟩
      rw [last]
      simp [execute, Function.update_of_ne below.ne]
    have here : Holds inputs
        { code := state.code ++ [{ inst with dst := state.code.length }],
          exprToReg := (expr, state.code.length) :: state.exprToReg } expr state.code.length :=
      ⟨by simp, by rw [last]; exact value⟩
    refine ⟨?_, here, extension⟩
    intro entry member
    rcases List.mem_cons.mp member with rfl | old
    · exact here
    · exact holds_extends inputs _ _ _ _ extension (memo entry old)
  · simp [emitInstruction, room] at emitted

theorem memoized_compiles (state next : CompileState) (expr : AffineExpr)
    (compile : Option (Nat × CompileState)) (reg : Nat) (memo : Memo inputs state)
    (fresh : compile = some (reg, next) → Compiles inputs expr state reg next)
    (compiled : memoized state expr compile = some (reg, next)) :
    Compiles inputs expr state reg next := by
  unfold memoized at compiled
  cases found : state.exprToReg.lookup expr with
  | none =>
      rw [found] at compiled
      exact fresh compiled
  | some known =>
      rw [found] at compiled
      simp only [Option.some.injEq, Prod.mk.injEq] at compiled
      obtain ⟨rfl, rfl⟩ := compiled
      have member : (expr, known) ∈ state.exprToReg := by
        obtain ⟨_, _, split, _⟩ := List.lookup_eq_some_iff.mp found
        simp [split]
      exact ⟨memo, memo _ member, le_rfl, fun _ _ => rfl⟩

def binaryValue (op : Op) (a b : Int) : Int :=
  match op with
  | .add => a + b
  | .mul => a * b
  | .floorDiv => a / b
  | .mod => a % b
  | .ceilDiv => -(-a / b)
  | _ => 0

def Op.isBinary : Op → Bool
  | .add | .mul | .floorDiv | .mod | .ceilDiv => true
  | _ => false

def Op.divides : Op → Bool
  | .floorDiv | .mod | .ceilDiv => true
  | _ => false

theorem execute_binary (regs : Registers) (op : Op) (binary : op.isBinary = true) (src1 src2 dst : Nat)
    (positive : op.divides = true → 0 < regs src2) :
    execute inputs regs { op, dst, src1, src2 } dst = binaryValue op (regs src1) (regs src2) := by
  cases op with
  | add => simp [execute, binaryValue]
  | mul => simp [execute, binaryValue]
  | floorDiv =>
      have floored := (floor_of_truncated (regs src1) (regs src2) (positive rfl)).1
      simpa only [execute, binaryValue, Function.update_self] using floored
  | mod =>
      have floored := (floor_of_truncated (regs src1) (regs src2) (positive rfl)).2
      simpa only [execute, binaryValue, Function.update_self] using floored
  | ceilDiv =>
      have ceiled := ceil_of_truncated (regs src1) (regs src2) (positive rfl)
      simpa only [execute, binaryValue, Function.update_self] using ceiled
  | loadDim => simp [Op.isBinary] at binary
  | loadConst => simp [Op.isBinary] at binary
  | shrImm => simp [Op.isBinary] at binary
  | andImm => simp [Op.isBinary] at binary

/-- Only quotients and remainders by a constant power of two have the form, a shift or a mask. -/
theorem powerOf2Form_cases {op : Op} {rhs : AffineExpr} {lhsReg : Nat} {inst : Instruction}
    (form : powerOf2Form op rhs lhsReg = some inst) :
    ∃ value, rhs = .const value ∧ isPowerOf2 value = true ∧
      (op = .floorDiv ∧ inst = { op := .shrImm, src1 := lhsReg, imm := countrZero value.toNat } ∨
        op = .mod ∧ inst = { op := .andImm, src1 := lhsReg, imm := value - 1 }) := by
  unfold powerOf2Form at form
  split at form
  · rename_i value
    obtain ⟨known, same⟩ := Option.ite_none_right_eq_some.mp form
    exact ⟨value, rfl, known, .inl ⟨rfl, (Option.some.inj same).symm⟩⟩
  · rename_i value
    obtain ⟨known, same⟩ := Option.ite_none_right_eq_some.mp form
    exact ⟨value, rfl, known, .inr ⟨rfl, (Option.some.inj same).symm⟩⟩
  · cases form

theorem execute_powerOf2 (regs : Registers) (op : Op) (rhs : AffineExpr) (src dst : Nat)
    (inst : Instruction) (form : powerOf2Form op rhs src = some inst) :
    execute inputs regs { inst with dst } dst = binaryValue op (regs src) (rhs.eval inputs []) := by
  have power (value : Int) (known : isPowerOf2 value = true) :
      regs src >>> (countrZero value.toNat : Int).toNat = regs src / value ∧
      Int.land (regs src) (value - 1) = regs src % value := by
    obtain ⟨count, exponent, natExponent⟩ := powerOf2_exponent value known
    rw [natExponent, countrZero_two_pow, exponent, Int.toNat_natCast, Int.shiftRight_eq_div_pow,
      land_two_pow]
    simp
  obtain ⟨value, rfl, known, ⟨rfl, rfl⟩ | ⟨rfl, rfl⟩⟩ := powerOf2Form_cases form
  · simpa [execute, binaryValue, AffineExpr.eval] using (power value known).1
  · simpa [execute, binaryValue, AffineExpr.eval] using (power value known).2

theorem compileBinary_compiles (op : Op) (expr lhsExpr rhsExpr : AffineExpr)
    (compileLhs compileRhs : CompileState → Option (Nat × CompileState)) (state next : CompileState)
    (reg : Nat) (binary : op.isBinary = true)
    (positive : op.divides = true → 0 < rhsExpr.eval inputs [])
    (value : expr.eval inputs [] =
      binaryValue op (lhsExpr.eval inputs []) (rhsExpr.eval inputs []))
    (lhsCompiles : ∀ state reg next, Memo inputs state → compileLhs state = some (reg, next) →
      Compiles inputs lhsExpr state reg next)
    (rhsCompiles : ∀ state reg next, Memo inputs state → compileRhs state = some (reg, next) →
      Compiles inputs rhsExpr state reg next)
    (memo : Memo inputs state)
    (compiled : compileBinary op expr rhsExpr compileLhs compileRhs state = some (reg, next)) :
    Compiles inputs expr state reg next := by
  refine memoized_compiles inputs state next expr _ reg memo (fun fresh => ?_) compiled
  simp only [Option.bind_eq_bind, Option.bind_eq_some_iff, Prod.exists] at fresh
  obtain ⟨lhs, afterLhs, left, rest⟩ := fresh
  obtain ⟨lhsMemo, lhsHolds, lhsExtends⟩ := lhsCompiles state lhs afterLhs memo left
  cases form : powerOf2Form op rhsExpr lhs with
  | some inst =>
      rw [form] at rest
      have emitted := emit_compiles inputs afterLhs next expr inst reg lhsMemo (by
        rw [execute_powerOf2 inputs _ op rhsExpr lhs _ inst form, lhsHolds.value, value]) rest
      exact ⟨emitted.memo, emitted.holds, extends_trans inputs _ _ _ lhsExtends emitted.extends_⟩
  | none =>
      rw [form] at rest
      simp only [Option.bind_eq_some_iff, Prod.exists] at rest
      obtain ⟨rhs, afterRhs, right, rest⟩ := rest
      obtain ⟨rhsMemo, rhsHolds, rhsExtends⟩ := rhsCompiles afterLhs rhs afterRhs lhsMemo right
      have lhsStill := holds_extends inputs afterLhs afterRhs lhsExpr lhs rhsExtends lhsHolds
      have emitted := emit_compiles inputs afterRhs next expr { op, src1 := lhs, src2 := rhs } reg rhsMemo
        (by
          rw [execute_binary inputs _ op binary lhs rhs _ fun divides => by
            rw [rhsHolds.value]
            exact positive divides]
          rw [lhsStill.value, rhsHolds.value, value]) rest
      exact ⟨emitted.memo, emitted.holds,
        extends_trans inputs _ _ _ (extends_trans inputs _ _ _ lhsExtends rhsExtends) emitted.extends_⟩

theorem divisor_positive (expr : AffineExpr) (op : AffineExpr → AffineExpr → AffineExpr)
    (lhs rhs : AffineExpr) (isOp : op = .mod ∨ op = .floorDiv ∨ op = .ceilDiv) (shape : expr = op lhs rhs)
    (positive : expr.divisorsPositive = true) :
    lhs.divisorsPositive = true ∧ 0 < rhs.eval inputs [] ∧ rhs.divisorsPositive = true := by
  subst shape
  rcases isOp with rfl | rfl | rfl <;> cases rhs <;>
    simp_all [AffineExpr.divisorsPositive, AffineExpr.eval]

theorem compileExpr_compiles (expr : AffineExpr) (pure : expr.divisorsPositive = true)
    (state next : CompileState) (reg : Nat) (memo : Memo inputs state)
    (compiled : compileExpr expr state = some (reg, next)) : Compiles inputs expr state reg next := by
  induction expr generalizing state next reg with
  | dim position =>
      refine memoized_compiles inputs state next _ _ reg memo (fun fresh => ?_) compiled
      exact emit_compiles inputs state next _ _ reg memo (by simp [execute, AffineExpr.eval]) fresh
  | sym position =>
      exact memoized_compiles inputs state next _ _ reg memo (fun fresh => by cases fresh) compiled
  | const value =>
      refine memoized_compiles inputs state next _ _ reg memo (fun fresh => ?_) compiled
      exact emit_compiles inputs state next _ _ reg memo (by simp [execute, AffineExpr.eval]) fresh
  | add lhs rhs left right =>
      simp only [AffineExpr.divisorsPositive, Bool.and_eq_true] at pure
      exact compileBinary_compiles inputs .add _ lhs rhs _ _ state next reg rfl (by simp [Op.divides]) rfl
        (fun state reg next => left pure.1 state next reg)
        (fun state reg next => right pure.2 state next reg) memo compiled
  | mul lhs rhs left right =>
      simp only [AffineExpr.divisorsPositive, Bool.and_eq_true] at pure
      exact compileBinary_compiles inputs .mul _ lhs rhs _ _ state next reg rfl (by simp [Op.divides]) rfl
        (fun state reg next => left pure.1 state next reg)
        (fun state reg next => right pure.2 state next reg) memo compiled
  | mod lhs rhs left right =>
      obtain ⟨lhsPure, positive, rhsPure⟩ := divisor_positive inputs _ .mod lhs rhs (Or.inl rfl) rfl pure
      exact compileBinary_compiles inputs .mod _ lhs rhs _ _ state next reg rfl (fun _ => positive) rfl
        (fun state reg next => left lhsPure state next reg)
        (fun state reg next => right rhsPure state next reg) memo compiled
  | floorDiv lhs rhs left right =>
      obtain ⟨lhsPure, positive, rhsPure⟩ :=
        divisor_positive inputs _ .floorDiv lhs rhs (Or.inr (Or.inl rfl)) rfl pure
      exact compileBinary_compiles inputs .floorDiv _ lhs rhs _ _ state next reg rfl (fun _ => positive) rfl
        (fun state reg next => left lhsPure state next reg)
        (fun state reg next => right rhsPure state next reg) memo compiled
  | ceilDiv lhs rhs left right =>
      obtain ⟨lhsPure, positive, rhsPure⟩ :=
        divisor_positive inputs _ .ceilDiv lhs rhs (Or.inr (Or.inr rfl)) rfl pure
      exact compileBinary_compiles inputs .ceilDiv _ lhs rhs _ _ state next reg rfl (fun _ => positive) rfl
        (fun state reg next => left lhsPure state next reg)
        (fun state reg next => right rhsPure state next reg) memo compiled

theorem compileResults_holds (exprs : List AffineExpr)
    (pure : ∀ expr ∈ exprs, expr.divisorsPositive = true) (state next : CompileState) (regs : List Nat)
    (memo : Memo inputs state) (compiled : compileResults exprs state = some (regs, next)) :
    Extends inputs state next ∧ Memo inputs next ∧
      regs.map (registers inputs next) = exprs.map (·.eval inputs []) := by
  induction exprs generalizing state regs with
  | nil =>
      cases compiled
      exact ⟨⟨le_rfl, fun _ _ => rfl⟩, memo, rfl⟩
  | cons expr rest ih =>
      simp only [compileResults, Option.bind_eq_bind, Option.bind_eq_some_iff, Prod.exists,
        Option.some.injEq, Prod.mk.injEq] at compiled
      obtain ⟨reg, middle, first, others, last, later, rfl, rfl⟩ := compiled
      obtain ⟨middleMemo, holds, extension⟩ := compileExpr_compiles inputs expr
        (pure expr List.mem_cons_self) state middle reg memo first
      obtain ⟨lastExtends, lastMemo, values⟩ := ih
        (fun other member => pure other (List.mem_cons_of_mem _ member)) middle others middleMemo later
      refine ⟨extends_trans inputs _ _ _ extension lastExtends, lastMemo, ?_⟩
      rw [List.map_cons, List.map_cons, values, (holds_extends inputs _ _ _ _ lastExtends holds).value]

theorem compiled_evaluate (map : AffineMap) (compiled : CompiledAffineMap)
    (pure : ∀ expr ∈ map.results, expr.divisorsPositive = true)
    (compiles : CompiledAffineMap.compile map = some compiled) :
    compiled.evaluate inputs = map.evaluate inputs := by
  simp only [CompiledAffineMap.compile, Option.bind_eq_bind, Option.bind_eq_some_iff, Prod.exists,
    Option.some.injEq] at compiles
  obtain ⟨regs, state, ran, rfl⟩ := compiles
  exact (compileResults_holds inputs map.results pure {} state regs (by simp [Memo]) ran).2.2

end Correct

end TtMlir.Dma
