import Mathlib.Algebra.Order.Ring.Nat
import Mathlib.Data.Nat.GCD.Basic

/-!
The maximal runs of a finite sequence that is cut before some of its positions,
and what divides all of their lengths.
-/

namespace TtMlir

/-- `gcd` is the greatest common divisor of a set of numbers, zero for none. -/
def IsGcd (numbers : Set Nat) (gcd : Nat) : Prop :=
  ∀ divisor, divisor ∣ gcd ↔ ∀ number ∈ numbers, divisor ∣ number

theorem IsGcd.unique {numbers : Set Nat} {first second : Nat} (isFirst : IsGcd numbers first)
    (isSecond : IsGcd numbers second) : first = second :=
  Nat.dvd_antisymm ((isSecond first).mpr ((isFirst first).mp dvd_rfl))
    ((isFirst second).mpr ((isSecond second).mp dvd_rfl))

/-- No cut falls between the positions `start, …, start + length - 1`, and cuts or the ends of the
sequence enclose them. -/
structure MaximalRun (count : Nat) (cut : Nat → Prop) (start length : Nat) : Prop where
  nonempty : 0 < length
  inside : start + length ≤ count
  starts : start = 0 ∨ cut start
  ends : start + length = count ∨ cut (start + length)
  unbroken : ∀ position, start < position → position < start + length → ¬ cut position

namespace MaximalRun

variable (count : Nat) (cut : Nat → Prop)

theorem last_start (position : Nat) (positive : 0 < position) :
    ∃ start < position, (start = 0 ∨ cut start) ∧
      ∀ between, start < between → between < position → ¬ cut between := by
  induction position with
  | zero => omega
  | succ position ih =>
      by_cases here : position = 0 ∨ cut position
      · exact ⟨position, by omega, here, fun between after before => by omega⟩
      · obtain ⟨start, below, starts, unbroken⟩ := ih (by omega)
        refine ⟨start, by omega, starts, fun between after before => ?_⟩
        rcases Nat.lt_succ_iff_lt_or_eq.mp before with earlier | rfl
        · exact unbroken between after earlier
        · exact fun isCut => here (Or.inr isCut)

theorem divides_cut (divisor : Nat)
    (runs : ∀ start length, MaximalRun count cut start length → divisor ∣ length)
    (position : Nat) (inside : position ≤ count) (ends : position = count ∨ position = 0 ∨ cut position) :
    divisor ∣ position := by
  induction position using Nat.strong_induction_on with
  | _ position ih =>
      by_cases first : position = 0
      · simp [first]
      · obtain ⟨start, below, starts, unbroken⟩ := last_start cut position (by omega)
        have whole : start + (position - start) = position := by omega
        have run : MaximalRun count cut start (position - start) := by
          refine ⟨by omega, by omega, starts, ?_, ?_⟩
          · rw [whole]
            rcases ends with last | zero | isCut
            · exact Or.inl last
            · exact absurd zero first
            · exact Or.inr isCut
          · rw [whole]
            exact unbroken
        have startDivides := ih start below (by omega) (Or.inr starts)
        rw [← whole]
        exact Nat.dvd_add startDivides (runs start _ run)

theorem divides_iff (divisor : Nat) :
    (∀ start length, MaximalRun count cut start length → divisor ∣ length) ↔
      divisor ∣ count ∧ ∀ position, 0 < position → position < count → cut position → divisor ∣ position := by
  constructor
  · intro runs
    have boundary := divides_cut count cut divisor runs
    exact ⟨boundary count le_rfl (Or.inl rfl),
      fun position _ before isCut => boundary position before.le (Or.inr (Or.inr isCut))⟩
  · rintro ⟨whole, cuts⟩ start length run
    have nonempty := run.nonempty
    have inside := run.inside
    have startDivides : divisor ∣ start := by
      rcases Nat.eq_zero_or_pos start with rfl | positive
      · exact dvd_zero divisor
      · exact cuts start positive (by omega) (run.starts.resolve_left positive.ne')
    have endDivides : divisor ∣ start + length := by
      rcases Nat.lt_or_eq_of_le inside with before | last
      · exact cuts _ (by omega) before (run.ends.resolve_left before.ne)
      · rwa [last]
    exact (Nat.dvd_add_right startDivides).mp endDivides

end MaximalRun

end TtMlir
