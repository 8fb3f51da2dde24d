import Mathlib.Data.BitVec
import Mathlib.Tactic.Ring
import TtMlir.D2m.OptimizeMasks

/-!
The transfer function on integers of a fixed width. The infinities of the lattice stand for
the extreme signed values, but the tables are those of real infinities: an infinity absorbs what
is added to it, while integers wrap.
-/

namespace TtMlir.D2m.OptimizeMasks

variable {w : Nat}

def OOBVal.integer (w : Nat) : OOBVal → Option (BitVec w)
  | .zero => some 0
  | .one => some 1
  | .negInf => some (BitVec.intMin w)
  | .inf => some (BitVec.intMax w)
  | .undef => none

def OOBVal.DescribesInteger (state : OOBVal) (value : BitVec w) : Prop := ∀ known ∈ state.integer w, value = known

def IntegerOp.eval (op : IntegerOp) (lhs rhs : BitVec w) : BitVec w :=
  match op with
  | .addI => lhs + rhs
  | .subI => lhs - rhs
  | .mulI => lhs * rhs
  | .divSI => lhs.sdiv rhs
  | .divUI => lhs / rhs
  | .maxSI => if lhs.slt rhs then rhs else lhs
  | .maxUI => if lhs.ult rhs then rhs else lhs
  | .minSI => if lhs.slt rhs then lhs else rhs
  | .minUI => if lhs.ult rhs then lhs else rhs

def IntegerOp.Sound (w : Nat) (op : IntegerOp) (lhsState rhsState : OOBVal) : Prop :=
  ∀ lhs rhs : BitVec w, lhsState.DescribesInteger lhs → rhsState.DescribesInteger rhs →
    (binaryOOBVals (.integer op) lhsState rhsState).DescribesInteger (op.eval lhs rhs)

def IntegerOp.Wraps (w : Nat) (op : IntegerOp) (lhs rhs : OOBVal) : Prop :=
  match op with
  | .addI =>
      lhs = .zero ∨ rhs = .zero ∨ (lhs.isInfinite = rhs.isInfinite ∧ (lhs.isInfinite = true → lhs ≠ rhs))
  | .subI => rhs = .zero ∨ lhs = rhs ∨ (lhs.isInfinite = false ∧ rhs.isInfinite = false)
  | .mulI => ¬(lhs = .negInf ∧ rhs = .negInf) ∧ ¬(lhs = .inf ∧ rhs = .inf ∧ w ≠ 2)
  | .divSI | .divUI => ¬(lhs = .one ∧ rhs = .inf ∧ w = 2)
  | .maxSI | .minSI => True
  | .maxUI =>
      ¬(lhs = .inf ∧ (rhs = .undef ∨ rhs = .negInf)) ∧ ¬(rhs = .inf ∧ (lhs = .undef ∨ lhs = .negInf)) ∧
        ¬(lhs = .negInf ∧ (rhs = .zero ∨ rhs = .one)) ∧ ¬(rhs = .negInf ∧ (lhs = .zero ∨ lhs = .one))
  | .minUI => lhs = .negInf ↔ rhs = .negInf

section Extremes
variable (wide : 1 < w)
include wide

theorem quarter : ∃ q, 1 ≤ q ∧ 2 ^ w = 4 * q ∧ 2 ^ (w - 1) = 2 * q := by
  obtain ⟨n, rfl⟩ := Nat.exists_eq_add_of_le wide
  refine ⟨2 ^ n, Nat.one_le_two_pow, ?_, ?_⟩
  · rw [Nat.pow_add]
  · rw [Nat.add_comm, Nat.add_sub_assoc (by decide), Nat.pow_add, Nat.mul_comm]

theorem toNat_one : (1 : BitVec w).toNat = 1 := by
  obtain ⟨q, pos, range, _⟩ := quarter wide
  have value : (1 : BitVec w).toNat = 1 % 2 ^ w := BitVec.toNat_ofNat 1 w
  rw [value, range]
  exact Nat.mod_eq_of_lt (by omega)

theorem one_ne_zero : (1 : BitVec w) ≠ 0 := by
  intro same
  have := congrArg BitVec.toNat same
  rw [toNat_one wide] at this
  exact absurd this (by simp)

theorem two_ne_zero : (1 : BitVec w) + 1 ≠ 0 := by
  intro same
  have sum := congrArg BitVec.toNat same
  obtain ⟨q, pos, range, _⟩ := quarter wide
  rw [BitVec.toNat_add, toNat_one wide, range, Nat.mod_eq_of_lt (by omega)] at sum
  exact absurd sum (by simp)

theorem intMin_ne_zero : BitVec.intMin w ≠ 0 := fun same =>
  absurd (BitVec.intMin_eq_zero_iff.mp same) (by omega)

omit wide in
theorem intMax_eq : BitVec.intMax w = BitVec.intMin w - 1 := eq_sub_of_add_eq BitVec.intMax_add_one

omit wide in
theorem intMin_add_intMin : BitVec.intMin w + BitVec.intMin w = 0 := by
  have negated := BitVec.neg_intMin (w := w)
  nth_rewrite 1 [← negated]
  exact neg_add_cancel _

theorem intMin_mul_intMin : BitVec.intMin w * BitVec.intMin w = 0 := by
  obtain ⟨q, pos, range, half⟩ := quarter wide
  apply BitVec.eq_of_toNat_eq
  rw [BitVec.toNat_mul, BitVec.toNat_intMin_of_pos (by omega), half, range,
    show 2 * q * (2 * q) = 4 * q * q by ring, Nat.mul_mod_right]
  rfl

omit wide in
theorem intMin_add_intMax : BitVec.intMin w + BitVec.intMax w = -1 := by
  rw [intMax_eq, ← add_sub_assoc, intMin_add_intMin, zero_sub]

theorem intMax_ne_zero : BitVec.intMax w ≠ 0 := by
  intro same
  have value := congrArg BitVec.toNat same
  obtain ⟨q, pos, _, half⟩ := quarter wide
  rw [BitVec.toNat_intMax, half] at value
  simp at value
  omega

theorem intMax_eq_one_iff : BitVec.intMax w = 1 ↔ w = 2 := by
  constructor
  · intro same
    have value := congrArg BitVec.toNat same
    rw [BitVec.toNat_intMax, toNat_one wide] at value
    have power : 2 ^ (w - 1) = 2 ^ 1 := by
      have := Nat.one_le_two_pow (n := w - 1)
      omega
    have := Nat.pow_right_injective (le_refl 2) power
    omega
  · rintro rfl
    rfl

theorem intMax_mul_intMax : BitVec.intMax w * BitVec.intMax w = 1 := by
  have expanded : (BitVec.intMin w - 1) * (BitVec.intMin w - 1) =
      BitVec.intMin w * BitVec.intMin w - (BitVec.intMin w + BitVec.intMin w) + 1 := by ring
  rw [intMax_eq, expanded, intMin_mul_intMin wide, intMin_add_intMin, sub_zero, zero_add]

theorem intMax_mul_intMin : BitVec.intMax w * BitVec.intMin w = BitVec.intMin w := by
  rw [intMax_eq, sub_mul, intMin_mul_intMin wide, one_mul, zero_sub, BitVec.neg_intMin]

theorem one_udiv_intMin : (1 : BitVec w) / BitVec.intMin w = 0 := by
  obtain ⟨q, pos, _, half⟩ := quarter wide
  apply BitVec.eq_of_toNat_eq
  rw [BitVec.toNat_udiv, toNat_one wide, BitVec.toNat_intMin_of_pos (by omega), half, Nat.div_eq_of_lt (by omega)]
  rfl

theorem one_udiv_intMax : (1 : BitVec w) / BitVec.intMax w = if w = 2 then 1 else 0 := by
  split
  · rename_i narrow
    rw [(intMax_eq_one_iff wide).mpr narrow]
    exact BitVec.udiv_one
  · rename_i wider
    obtain ⟨q, pos, _, half⟩ := quarter wide
    have big : 1 < 2 ^ (w - 1) - 1 := by
      have : 2 ^ 2 ≤ 2 ^ (w - 1) := Nat.pow_le_pow_right (by decide) (by omega)
      omega
    apply BitVec.eq_of_toNat_eq
    rw [BitVec.toNat_udiv, toNat_one wide, BitVec.toNat_intMax, Nat.div_eq_of_lt big]
    rfl

theorem one_msb : (1 : BitVec w).msb = false := by
  obtain ⟨q, pos, _, half⟩ := quarter wide
  rw [BitVec.msb_eq_false_iff_two_mul_lt, toNat_one wide]
  calc 2 * 1 < 2 ^ 2 := by decide
    _ ≤ 2 ^ w := Nat.pow_le_pow_right (by decide) wide

theorem intMax_msb : (BitVec.intMax w).msb = false := by
  obtain ⟨q, pos, range, half⟩ := quarter wide
  rw [BitVec.msb_eq_false_iff_two_mul_lt, BitVec.toNat_intMax, half, range]
  omega

theorem one_sdiv_intMin : (1 : BitVec w).sdiv (BitVec.intMin w) = 0 := by
  have top : (BitVec.intMin w).msb = true := by
    rw [BitVec.msb_intMin]
    exact decide_eq_true (by omega)
  rw [BitVec.sdiv_eq, one_msb wide, top]
  have quotient := one_udiv_intMin wide
  simp only [BitVec.neg_intMin, BitVec.udiv_eq, quotient]
  simp

theorem one_sdiv_intMax : (1 : BitVec w).sdiv (BitVec.intMax w) = if w = 2 then 1 else 0 := by
  rw [BitVec.sdiv_eq, one_msb wide, intMax_msb wide]
  exact one_udiv_intMax wide

end Extremes

theorem maxUI_toNat (lhs rhs : BitVec w) : (IntegerOp.maxUI.eval lhs rhs).toNat = max lhs.toNat rhs.toNat := by
  simp only [IntegerOp.eval, BitVec.ult]
  split
  all_goals simp_all
  all_goals omega

theorem minUI_toNat (lhs rhs : BitVec w) : (IntegerOp.minUI.eval lhs rhs).toNat = min lhs.toNat rhs.toNat := by
  simp only [IntegerOp.eval, BitVec.ult]
  split
  all_goals simp_all
  all_goals omega

theorem maxSI_toInt (lhs rhs : BitVec w) : (IntegerOp.maxSI.eval lhs rhs).toInt = max lhs.toInt rhs.toInt := by
  simp only [IntegerOp.eval, BitVec.slt]
  split
  all_goals simp_all
  all_goals omega

theorem minSI_toInt (lhs rhs : BitVec w) : (IntegerOp.minSI.eval lhs rhs).toInt = min lhs.toInt rhs.toInt := by
  simp only [IntegerOp.eval, BitVec.slt]
  split
  all_goals simp_all
  all_goals omega

section Tables
variable (wide : 1 < w)

/-- A value of the state; an unknown one may be the least signed value, or one. -/
def OOBVal.sample (w : Nat) (unknown : BitVec w) (state : OOBVal) : BitVec w := (state.integer w).getD unknown

theorem sample_described (unknown : BitVec w) (state : OOBVal) : state.DescribesInteger (state.sample w unknown) := by
  cases state <;> simp [OOBVal.DescribesInteger, OOBVal.sample, OOBVal.integer]

theorem IntegerOp.Sound.sample {op : IntegerOp} {lhs rhs claimed : OOBVal} {known : BitVec w}
    (sound : op.Sound w lhs rhs)
    (unknown : BitVec w) (claims : binaryOOBVals (.integer op) lhs rhs = claimed)
    (value : claimed.integer w = some known) :
    op.eval (lhs.sample w unknown) (rhs.sample w unknown) = known := by
  subst claims
  exact sound _ _ (sample_described unknown lhs) (sample_described unknown rhs) known value

theorem infinite_value {state : OOBVal} (infinite : state.isInfinite = true) (unknown : BitVec w) :
    state.integer w = some (state.sample w unknown) := by
  cases state <;> simp_all [OOBVal.isInfinite, OOBVal.sample, OOBVal.integer]

def OOBVal.signed (half : Int) : OOBVal → Option Int
  | .zero => some 0
  | .one => some 1
  | .negInf => some (-half)
  | .inf => some (half - 1)
  | .undef => none

def OOBVal.unsigned (half : Nat) : OOBVal → Option Nat
  | .zero => some 0
  | .one => some 1
  | .negInf => some half
  | .inf => some (half - 1)
  | .undef => none

include wide

theorem sample_eq_zero {state : OOBVal} (zero : state.sample w 1 = 0) : state = .zero := by
  cases state with
  | zero => rfl
  | undef | one => exact absurd zero (one_ne_zero wide)
  | inf => exact absurd zero (intMax_ne_zero wide)
  | negInf => exact absurd zero (intMin_ne_zero wide)

theorem sample_eq_neg_one {state : OOBVal} (least : state.sample w 1 = -1) : state.isInfinite = true := by
  have wraps : state.sample w 1 + 1 = 0 := by rw [least]; exact neg_add_cancel 1
  cases state with
  | zero => exact absurd ((zero_add 1).symm.trans wraps) (one_ne_zero wide)
  | undef | one => exact absurd wraps (two_ne_zero wide)
  | inf | negInf => rfl

omit wide in
theorem add_absorbs {lhs rhs : OOBVal} (unwraps : ¬IntegerOp.addI.Wraps w lhs rhs) :
    (addOOBVals lhs rhs = lhs ∧ lhs.isInfinite = true ∧ rhs ≠ .zero) ∨
      (addOOBVals lhs rhs = rhs ∧ rhs.isInfinite = true ∧ lhs ≠ .zero) := by
  cases lhs <;> cases rhs <;> simp_all [IntegerOp.Wraps, OOBVal.isInfinite, addOOBVals]

theorem addI_sound_iff (lhs rhs : OOBVal) : IntegerOp.addI.Sound w lhs rhs ↔ IntegerOp.addI.Wraps w lhs rhs := by
  constructor
  · intro sound
    by_contra unwraps
    obtain ⟨claims, infinite, other⟩ | ⟨claims, infinite, other⟩ := add_absorbs unwraps
    · have absorbed := sound.sample 1 claims (infinite_value infinite 1)
      exact other (sample_eq_zero wide (add_eq_left.mp absorbed))
    · have absorbed := sound.sample 1 claims (infinite_value infinite 1)
      exact other (sample_eq_zero wide (add_eq_right.mp absorbed))
  · intro wraps x y left right
    cases lhs <;> cases rhs <;>
      simp_all [IntegerOp.Wraps, OOBVal.isInfinite, OOBVal.DescribesInteger, OOBVal.integer, binaryOOBVals,
        addOOBVals, IntegerOp.eval]

omit wide in
theorem sub_absorbs {lhs rhs : OOBVal} (unwraps : ¬IntegerOp.subI.Wraps w lhs rhs) :
    (subOOBVals lhs rhs = lhs ∧ lhs.isInfinite = true ∧ rhs ≠ .zero) ∨
      (lhs.isInfinite = false ∧ ((rhs = .inf ∧ subOOBVals lhs rhs = .negInf) ∨
        (rhs = .negInf ∧ subOOBVals lhs rhs = .inf))) := by
  cases lhs <;> cases rhs <;> simp_all [IntegerOp.Wraps, OOBVal.isInfinite, subOOBVals, negateOOBVal]

theorem subI_sound_iff (lhs rhs : OOBVal) : IntegerOp.subI.Sound w lhs rhs ↔ IntegerOp.subI.Wraps w lhs rhs := by
  constructor
  · intro sound
    by_contra unwraps
    obtain ⟨claims, infinite, other⟩ | ⟨finite, ⟨rfl, claims⟩ | ⟨rfl, claims⟩⟩ := sub_absorbs unwraps
    · have absorbed := sound.sample 1 claims (infinite_value infinite 1)
      exact other (sample_eq_zero wide (sub_eq_self.mp absorbed))
    · have absorbed : lhs.sample w 1 - BitVec.intMax w = BitVec.intMin w := sound.sample 1 claims rfl
      have value : lhs.sample w 1 = -1 := by rw [sub_eq_iff_eq_add.mp absorbed, intMin_add_intMax]
      simp [sample_eq_neg_one wide value] at finite
    · have absorbed : lhs.sample w 1 - BitVec.intMin w = BitVec.intMax w := sound.sample 1 claims rfl
      have value : lhs.sample w 1 = -1 := by rw [sub_eq_iff_eq_add.mp absorbed, add_comm, intMin_add_intMax]
      simp [sample_eq_neg_one wide value] at finite
  · intro wraps x y left right
    cases lhs <;> cases rhs <;>
      simp_all [IntegerOp.Wraps, OOBVal.isInfinite, OOBVal.DescribesInteger, OOBVal.integer, binaryOOBVals,
        subOOBVals, IntegerOp.eval, negateOOBVal]

theorem mulI_sound_iff (lhs rhs : OOBVal) : IntegerOp.mulI.Sound w lhs rhs ↔ IntegerOp.mulI.Wraps w lhs rhs := by
  constructor
  · intro sound
    constructor
    · rintro ⟨rfl, rfl⟩
      have squared : BitVec.intMin w * BitVec.intMin w = BitVec.intMax w := sound.sample 0 rfl rfl
      rw [intMin_mul_intMin wide] at squared
      exact intMax_ne_zero wide squared.symm
    · rintro ⟨rfl, rfl, wider⟩
      have squared : BitVec.intMax w * BitVec.intMax w = BitVec.intMax w := sound.sample 0 rfl rfl
      rw [intMax_mul_intMax wide] at squared
      exact wider ((intMax_eq_one_iff wide).mp squared.symm)
  · intro wraps x y left right
    have square := intMax_mul_intMax wide
    have narrow := (intMax_eq_one_iff wide).mpr
    have mixed := intMax_mul_intMin wide
    have swapped := mul_comm (BitVec.intMin w) (BitVec.intMax w)
    cases lhs <;> cases rhs <;>
      simp_all [IntegerOp.Wraps, OOBVal.DescribesInteger, OOBVal.integer, binaryOOBVals, mulOOBVals, IntegerOp.eval]

theorem divUI_sound_iff (lhs rhs : OOBVal) : IntegerOp.divUI.Sound w lhs rhs ↔ IntegerOp.divUI.Wraps w lhs rhs := by
  constructor
  · rintro sound ⟨rfl, rfl, narrow⟩
    have quotient : (1 : BitVec w) / BitVec.intMax w = 0 := sound.sample 0 rfl rfl
    rw [one_udiv_intMax wide, if_pos narrow] at quotient
    exact one_ne_zero wide quotient
  · intro wraps x y left right
    have least := one_udiv_intMin wide
    have most := one_udiv_intMax wide
    cases lhs <;> cases rhs <;>
      simp_all [IntegerOp.Wraps, OOBVal.DescribesInteger, OOBVal.integer, binaryOOBVals, divOOBVals, isConcreteOOBVal,
        IntegerOp.eval]

theorem divSI_sound_iff (lhs rhs : OOBVal) : IntegerOp.divSI.Sound w lhs rhs ↔ IntegerOp.divSI.Wraps w lhs rhs := by
  constructor
  · rintro sound ⟨rfl, rfl, narrow⟩
    have quotient : (1 : BitVec w).sdiv (BitVec.intMax w) = 0 := sound.sample 0 rfl rfl
    rw [one_sdiv_intMax wide, if_pos narrow] at quotient
    exact one_ne_zero wide quotient
  · intro wraps x y left right
    have least := one_sdiv_intMin wide
    have most := one_sdiv_intMax wide
    cases lhs <;> cases rhs <;>
      simp_all [IntegerOp.Wraps, OOBVal.DescribesInteger, OOBVal.integer, binaryOOBVals, divOOBVals, isConcreteOOBVal,
        IntegerOp.eval]

theorem signed_values (state : OOBVal) : (state.integer w).map BitVec.toInt = state.signed (2 ^ (w - 1) : Nat) := by
  obtain ⟨q, pos, range, half⟩ := quarter wide
  cases state with
  | undef => rfl
  | zero => exact congrArg some BitVec.toInt_zero
  | one => exact congrArg some ((BitVec.toInt_eq_toNat_of_msb (one_msb wide)).trans (by rw [toNat_one wide]; rfl))
  | negInf => exact congrArg some (BitVec.toInt_intMin_of_pos (by omega) |>.trans (by norm_cast))
  | inf =>
      have positive := BitVec.toInt_eq_toNat_of_msb (intMax_msb wide)
      rw [BitVec.toNat_intMax] at positive
      exact congrArg some (positive.trans (by omega))

theorem unsigned_values (state : OOBVal) : (state.integer w).map BitVec.toNat = state.unsigned (2 ^ (w - 1)) := by
  cases state with
  | undef => rfl
  | zero => rfl
  | one => exact congrArg some (toNat_one wide)
  | negInf => exact congrArg some (BitVec.toNat_intMin_of_pos (by omega))
  | inf => exact congrArg some BitVec.toNat_intMax

theorem sample_toNat (unknown : BitVec w) (state : OOBVal) :
    (state.sample w unknown).toNat = (state.unsigned (2 ^ (w - 1))).getD unknown.toNat := by
  rw [← unsigned_values wide, Option.getD_map]
  rfl

theorem describes_signed (state : OOBVal) (value : BitVec w) :
    state.DescribesInteger value ↔ ∀ known ∈ state.signed (2 ^ (w - 1) : Nat), value.toInt = known := by
  rw [← signed_values wide, OOBVal.DescribesInteger]
  cases state.integer w with
  | none => simp
  | some known => simp [BitVec.toInt_inj]

theorem describes_unsigned (state : OOBVal) (value : BitVec w) :
    state.DescribesInteger value ↔ ∀ known ∈ state.unsigned (2 ^ (w - 1)), value.toNat = known := by
  rw [← unsigned_values wide, OOBVal.DescribesInteger]
  cases state.integer w with
  | none => simp
  | some known => simp [BitVec.toNat_inj]

theorem two_le_half : 2 ≤ 2 ^ (w - 1) := by
  obtain ⟨q, pos, _, half⟩ := quarter wide
  omega

theorem maxSI_sound (lhs rhs : OOBVal) : IntegerOp.maxSI.Sound w lhs rhs := by
  intro x y left right
  have big := two_le_half wide
  have least := BitVec.le_toInt x
  have most := BitVec.toInt_lt (x := x)
  have least' := BitVec.le_toInt y
  have most' := BitVec.toInt_lt (x := y)
  rw [describes_signed wide] at *
  rw [maxSI_toInt]
  norm_cast at least most least' most'
  generalize 2 ^ (w - 1) = half at *
  cases lhs <;> cases rhs <;> simp_all [OOBVal.signed, binaryOOBVals, maxOOBVals] <;> omega

theorem minSI_sound (lhs rhs : OOBVal) : IntegerOp.minSI.Sound w lhs rhs := by
  intro x y left right
  have big := two_le_half wide
  have least := BitVec.le_toInt x
  have most := BitVec.toInt_lt (x := x)
  have least' := BitVec.le_toInt y
  have most' := BitVec.toInt_lt (x := y)
  rw [describes_signed wide] at *
  rw [minSI_toInt]
  norm_cast at least most least' most'
  generalize 2 ^ (w - 1) = half at *
  cases lhs <;> cases rhs <;> simp_all [OOBVal.signed, binaryOOBVals, minOOBVals] <;> omega

theorem maxUI_sound_iff (lhs rhs : OOBVal) : IntegerOp.maxUI.Sound w lhs rhs ↔ IntegerOp.maxUI.Wraps w lhs rhs := by
  have big := two_le_half wide
  have least := BitVec.toNat_intMin_of_pos (w := w) (by omega)
  constructor
  · intro sound
    have result := sound (lhs.sample w (BitVec.intMin w)) (rhs.sample w (BitVec.intMin w)) (sample_described _ _)
      (sample_described _ _)
    rw [describes_unsigned wide, maxUI_toNat, sample_toNat wide, sample_toNat wide, least] at result
    generalize 2 ^ (w - 1) = half at *
    cases lhs <;> cases rhs <;>
      simp_all [OOBVal.unsigned, binaryOOBVals, maxOOBVals, IntegerOp.Wraps] <;> omega
  · intro wraps x y left right
    rw [describes_unsigned wide] at *
    rw [maxUI_toNat]
    generalize 2 ^ (w - 1) = half at *
    cases lhs <;> cases rhs <;>
      simp_all [OOBVal.unsigned, binaryOOBVals, maxOOBVals, IntegerOp.Wraps] <;> omega

theorem minUI_sound_iff (lhs rhs : OOBVal) : IntegerOp.minUI.Sound w lhs rhs ↔ IntegerOp.minUI.Wraps w lhs rhs := by
  have big := two_le_half wide
  constructor
  · intro sound
    have result := sound (lhs.sample w 1) (rhs.sample w 1) (sample_described _ _) (sample_described _ _)
    rw [describes_unsigned wide, minUI_toNat, sample_toNat wide, sample_toNat wide, toNat_one wide] at result
    generalize 2 ^ (w - 1) = half at *
    cases lhs <;> cases rhs <;>
      simp_all [OOBVal.unsigned, binaryOOBVals, minOOBVals, IntegerOp.Wraps] <;> omega
  · intro wraps x y left right
    rw [describes_unsigned wide] at *
    rw [minUI_toNat]
    generalize 2 ^ (w - 1) = half at *
    cases lhs <;> cases rhs <;>
      simp_all [OOBVal.unsigned, binaryOOBVals, minOOBVals, IntegerOp.Wraps] <;> omega

end Tables

theorem getConstantOOBVal_describes (value : BitVec w) :
    (getConstantOOBVal (.integer w value)).DescribesInteger value := by
  simp only [getConstantOOBVal]
  split_ifs <;> simp_all [OOBVal.DescribesInteger, OOBVal.integer]

theorem sound_iff_wraps (wide : 1 < w) (op : IntegerOp) (lhs rhs : OOBVal) : op.Sound w lhs rhs ↔
    op.Wraps w lhs rhs := by
  cases op with
  | addI => exact addI_sound_iff wide lhs rhs
  | subI => exact subI_sound_iff wide lhs rhs
  | mulI => exact mulI_sound_iff wide lhs rhs
  | divSI => exact divSI_sound_iff wide lhs rhs
  | divUI => exact divUI_sound_iff wide lhs rhs
  | maxSI => exact iff_of_true (maxSI_sound wide lhs rhs) trivial
  | minSI => exact iff_of_true (minSI_sound wide lhs rhs) trivial
  | maxUI => exact maxUI_sound_iff wide lhs rhs
  | minUI => exact minUI_sound_iff wide lhs rhs

/-- The state inferred for the op describes its result, whatever the operands are that their states describe. -/
def IntegerOp.Transfers (w : Nat) (op : IntegerOp) (recorded : Option OOBVal) (lhs rhs : Expr) : Prop :=
  ∀ x y : BitVec w, (getStateOrUndef lhs).DescribesInteger x → (getStateOrUndef rhs).DescribesInteger y →
    (inferElementwiseOOBVal (.binary recorded (.integer op) lhs rhs)).DescribesInteger (op.eval x y)

/-- The tables of the reals hold of wrapping integers exactly where no infinity takes part in wrapping, and no
unsigned comparison in the sign. -/
theorem integer_transfers_iff (wide : 1 < w) (op : IntegerOp) (recorded : Option OOBVal) (lhs rhs : Expr) :
    op.Transfers w recorded lhs rhs ↔ op.Wraps w (getStateOrUndef lhs) (getStateOrUndef rhs) :=
  sound_iff_wraps wide op _ _

theorem comparison_transfers : IntegerOp.maxSI.Transfers 32 none (.leaf none 0) (.leaf (some .inf) 1) :=
  (integer_transfers_iff (by decide) .maxSI none _ _).mpr trivial

/-- The maximum and one are inferred to be the maximum; their sum is the minimum. -/
theorem maximum_wraps : ¬IntegerOp.addI.Transfers 32 none (.constant none (.integer 32 2147483647#32))
    (.constant none (.integer 32 1#32)) := by
  intro transfers
  have claimed := transfers 2147483647#32 1#32 (getConstantOOBVal_describes _) (getConstantOOBVal_describes _)
    (BitVec.intMax 32) (by decide)
  exact absurd claimed (by decide)

end TtMlir.D2m.OptimizeMasks
