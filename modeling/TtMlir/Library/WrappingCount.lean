import Mathlib.Tactic.Ring
import Mathlib.Tactic.Linarith

/-!
A counter that steps through the integers and one that steps through a range of
them and wraps around. Where the two fail a comparison for the first time at the
same step.
-/

namespace TtMlir.Wrapping

def Within (low size value : Int) : Prop := low ≤ value ∧ value < low + size

def wrap (low size value : Int) : Int := (value - low) % size + low

def Fails (ascending inclusive : Bool) (limit value : Int) : Prop :=
  match ascending, inclusive with
  | true, false => limit ≤ value
  | true, true => limit < value
  | false, false => value ≤ limit
  | false, true => value < limit

instance (low size value : Int) : Decidable (Within low size value) := by
  unfold Within
  infer_instance

instance (ascending inclusive : Bool) (limit value : Int) : Decidable (Fails ascending inclusive limit value) :=
  match ascending, inclusive with
  | true, false => inferInstanceAs (Decidable (limit ≤ value))
  | true, true => inferInstanceAs (Decidable (limit < value))
  | false, false => inferInstanceAs (Decidable (value ≤ limit))
  | false, true => inferInstanceAs (Decidable (value < limit))

def Forward (ascending : Bool) (step : Int) : Prop := if ascending then 0 < step else step < 0

def FirstFailure (fails : Int → Prop) (values : Nat → Int) (count : Nat) : Prop :=
  (∀ position < count, ¬ fails (values position)) ∧ fails (values count)

section Wrap
variable {low size : Int}

theorem wrap_within (positive : 0 < size) (value : Int) : Within low size (wrap low size value) := by
  have lower := Int.emod_nonneg (value - low) (Int.ne_of_gt positive)
  have upper := Int.emod_lt_of_pos (value - low) positive
  unfold Within wrap
  omega

theorem wrap_of_within {value : Int} (within : Within low size value) : wrap low size value = value := by
  unfold Within at within
  unfold wrap
  rw [Int.emod_eq_of_lt (by omega) (by omega)]
  omega

theorem wrap_add_size (value blocks : Int) : wrap low size (value + size * blocks) = wrap low size value := by
  have moved : value + size * blocks - low = value - low + size * blocks := by ring
  unfold wrap
  rw [moved, Int.add_mul_emod_self_left]

theorem wrap_shift (value : Int) : ∃ blocks, wrap low size value = value + size * blocks := by
  refine ⟨-((value - low) / size), ?_⟩
  have division := Int.emod_add_mul_ediv (value - low) size
  unfold wrap
  rw [Int.mul_neg]
  linarith

theorem wrap_progression (start delta : Int) :
    wrap low size (start + delta) = wrap low size (wrap low size start + delta) := by
  obtain ⟨blocks, shifted⟩ := @wrap_shift low size start
  have moved : start + size * blocks + delta = start + delta + size * blocks := by ring
  rw [shifted, moved, wrap_add_size]

end Wrap

section First
variable {fails : Int → Prop} {values : Nat → Int}

theorem FirstFailure.unique {left right : Nat} (first : FirstFailure fails values left)
    (second : FirstFailure fails values right) : left = right := by
  rcases Nat.lt_trichotomy left right with less | same | more
  · exact absurd first.2 (second.1 left less)
  · exact same
  · exact absurd second.2 (first.1 right more)

theorem FirstFailure.le {count other : Nat} (first : FirstFailure fails values count) (failed : fails (values other)) :
    count ≤ other := by
  by_contra less
  exact first.1 other (Nat.lt_of_not_le less) failed

end First

section Progression
variable {ascending inclusive : Bool} {low size start step limit : Int} {count : Nat}

theorem term_mono (forward : Forward ascending step) {left right : Nat} (before : left ≤ right) :
    if ascending then start + left * step ≤ start + right * step else start + right * step ≤ start + left * step := by
  have least : (left : Int) ≤ right := by exact_mod_cast before
  unfold Forward at forward
  cases ascending with
  | true =>
      rw [if_pos rfl] at forward ⊢
      have scaled := Int.mul_le_mul_of_nonneg_right least (Int.le_of_lt forward)
      omega
  | false =>
      rw [if_neg Bool.false_ne_true] at forward ⊢
      have scaled := Int.mul_le_mul_of_nonpos_right least (Int.le_of_lt forward)
      omega

/-- The step before a failure is short of the limit, so the failing value is less than a step beyond it. -/
theorem beyond_less_than_step (values : Nat → Int)
    (stepping : ∀ position, values (position + 1) = values position + step)
    (first : FirstFailure (Fails ascending inclusive limit) values count) (positive : 0 < count) :
    ¬ Fails ascending inclusive limit (values count - step) := by
  obtain ⟨before, rfl⟩ : ∃ before, count = before + 1 := ⟨count - 1, by omega⟩
  have short := first.1 before (Nat.lt_succ_self before)
  rw [stepping]
  rwa [Int.add_sub_cancel]

theorem term_succ (position : Nat) : start + ((position + 1 : Nat) : Int) * step = start + position * step + step := by
  push_cast
  ring

/-- Values that count without wrapping fail first where the counter that wraps does, exactly when the
failing value is in the range. -/
theorem wrapped_first_failure (startWithin : Within low size start)
    (limitWithin : Within low size limit) (forward : Forward ascending step) (short : |step| < size)
    (first : FirstFailure (Fails ascending inclusive limit) (fun position => start + position * step) count) :
    FirstFailure (Fails ascending inclusive limit) (fun position => wrap low size (start + position * step)) count ↔
      Within low size (start + count * step) := by
  have bounds := abs_lt.mp short
  have zero : start + ((0 : Nat) : Int) * step = start := by simp
  -- between the start and the limit nothing wraps
  have inside : ∀ position < count, Within low size (start + position * step) := by
    intro position before
    have holds := first.1 position before
    have mono := @term_mono _ start _ forward _ _ (Nat.zero_le position)
    rw [zero] at mono
    unfold Within at startWithin limitWithin ⊢
    unfold Fails at holds
    cases ascending <;> cases inclusive <;> simp only [if_true, Bool.false_eq_true, if_false] at mono <;>
      dsimp only at holds <;> omega
  constructor
  · rintro ⟨_, failed⟩
    by_contra wrapped
    by_cases started : count = 0
    · rw [started, zero] at wrapped
      exact wrapped startWithin
    · have positive : 0 < count := Nat.pos_of_ne_zero started
      have previous := inside (count - 1) (by omega)
      have near := beyond_less_than_step (fun position => start + position * step) term_succ first positive
      have last : start + (count : Int) * step = start + ((count - 1 : Nat) : Int) * step + step := by
        have split := @term_succ start step (count - 1)
        rwa [Nat.sub_add_cancel positive] at split
      -- one size back it is in the range again, and short of the limit
      have back : wrap low size (start + count * step) =
          if ascending then start + count * step - size else start + count * step + size := by
        unfold Forward at forward
        unfold Within at previous wrapped
        cases ascending with
        | true =>
            rw [if_pos rfl] at forward ⊢
            have shifted := @wrap_add_size low size (start + count * step) (-1)
            rw [← shifted, wrap_of_within]
            · ring
            · unfold Within
              omega
        | false =>
            rw [if_neg Bool.false_ne_true] at forward ⊢
            have shifted := @wrap_add_size low size (start + count * step) 1
            rw [← shifted, wrap_of_within]
            · ring
            · unfold Within
              omega
      dsimp only at failed near
      rw [back] at failed
      unfold Fails at failed near
      cases ascending <;> cases inclusive <;> simp only [if_true, Bool.false_eq_true, if_false] at failed <;>
        dsimp only at near <;> omega
  · intro within
    constructor
    · intro position before
      dsimp only
      rw [wrap_of_within (inside position before)]
      exact first.1 position before
    · dsimp only
      rw [wrap_of_within within]
      exact first.2

theorem within_of_failure (startWithin : Within low size start) (forward : Forward ascending step)
    (first : FirstFailure (Fails ascending inclusive limit) (fun position => start + position * step) count) :
    Within low size (start + count * step) ↔
      ∃ position : Nat, Within low size (start + position * step) ∧
        Fails ascending inclusive limit (start + position * step) := by
  constructor
  · intro within
    exact ⟨count, within, first.2⟩
  · rintro ⟨position, within, failed⟩
    have before := first.le failed
    have upper := @term_mono _ start _ forward _ _ before
    have lower := @term_mono _ start _ forward _ _ (Nat.zero_le count)
    have zero : start + ((0 : Nat) : Int) * step = start := by simp
    rw [zero] at lower
    unfold Within at startWithin within ⊢
    cases ascending <;> simp only [if_true, Bool.false_eq_true, if_false] at upper lower <;> omega

end Progression

end TtMlir.Wrapping
