import Mathlib

/-!
Chains of divisors from a count down to one, every quotient at most a cap. There is one
exactly when no prime factor exceeds the cap, and the smallest next count keeps this.
-/

namespace TtMlir.DivisorChain

/-- Each entry is a smaller divisor of the one before, related to it by `step`, the last is one. -/
def Descends (step : Nat → Nat → Prop) : Nat → List Nat → Prop
  | count, [] => count = 1
  | count, next :: rest => next < count ∧ next ∣ count ∧ step count next ∧ Descends step next rest

def Smooth (cap count : Nat) : Prop := ∀ prime : Nat, prime.Prime → prime ∣ count → prime ≤ cap

variable {cap count next : Nat} {allowed : Nat → Prop}

theorem Smooth.of_dvd (smooth : Smooth cap count) (divides : next ∣ count) : Smooth cap next :=
  fun prime isPrime factor => smooth prime isPrime (factor.trans divides)

theorem Smooth.mul {left right : Nat} (leftSmooth : Smooth cap left) (rightSmooth : Smooth cap right) :
    Smooth cap (left * right) := by
  intro prime isPrime divides
  rcases isPrime.dvd_mul.mp divides with inLeft | inRight
  · exact leftSmooth prime isPrime inLeft
  · exact rightSmooth prime isPrime inRight

theorem smooth_pow (two : 2 ≤ cap) (exponent : Nat) : Smooth cap (2 ^ exponent) := by
  intro prime isPrime divides
  have isTwo := (Nat.prime_dvd_prime_iff_eq isPrime Nat.prime_two).mp (isPrime.dvd_of_dvd_pow divides)
  rwa [isTwo]

theorem Smooth.two_le (smooth : Smooth cap count) (several : 1 < count) : 2 ≤ cap := by
  obtain ⟨prime, isPrime, divides⟩ := Nat.exists_prime_and_dvd several.ne'
  exact isPrime.two_le.trans (smooth prime isPrime divides)

theorem Descends.positive {step : Nat → Nat → Prop} {chain : List Nat} (descends : Descends step count chain) :
    0 < count := by
  cases chain with
  | nil =>
      have one : count = 1 := descends
      omega
  | cons next rest => exact Nat.zero_lt_of_lt descends.1

theorem Descends.imp {step other : Nat → Nat → Prop} (weaker : ∀ count next, step count next → other count next)
    {chain : List Nat} (descends : Descends step count chain) : Descends other count chain := by
  induction chain generalizing count with
  | nil => exact descends
  | cons next rest ih =>
      obtain ⟨less, divides, here, later⟩ := descends
      exact ⟨less, divides, weaker _ _ here, ih later⟩

theorem Descends.smooth {chain : List Nat}
    (descends : Descends (fun count next => count / next ≤ cap ∧ allowed next) count chain) : Smooth cap count := by
  induction chain generalizing count with
  | nil =>
      have one : count = 1 := descends
      intro prime isPrime divides
      rw [one] at divides
      exact absurd (Nat.dvd_one.mp divides) isPrime.one_lt.ne'
  | cons next rest ih =>
      obtain ⟨less, divides, capped, later⟩ := descends
      obtain ⟨quotient, rfl⟩ := divides
      have positive : 0 < next := later.positive
      rw [Nat.mul_div_cancel_left _ positive] at capped
      have quotientPositive : 0 < quotient := Nat.pos_of_ne_zero fun zero => by simp [zero] at less
      refine (ih later).mul fun prime isPrime factor => ?_
      exact (Nat.le_of_dvd quotientPositive factor).trans capped.1

theorem Smooth.exists_next (smooth : Smooth cap count) (several : 1 < count) :
    ∃ next < count, next ∣ count ∧ 0 < next ∧ count / next ≤ cap := by
  obtain ⟨prime, isPrime, quotient, rfl⟩ := Nat.exists_prime_and_dvd several.ne'
  have positive : 0 < quotient := Nat.pos_of_ne_zero fun zero => by simp [zero] at several
  refine ⟨quotient, ?_, Dvd.intro_left _ rfl, positive, ?_⟩
  · exact (Nat.lt_mul_iff_one_lt_left positive).mpr isPrime.one_lt
  · rw [Nat.mul_div_cancel _ positive]
    exact smooth prime isPrime (Dvd.intro _ rfl)

def Holds (grid : Nat × Nat) (count : Nat) : Prop :=
  ∃ height width, 0 < height ∧ 0 < width ∧ height * width = count ∧ height ≤ grid.1 ∧ width ≤ grid.2

variable {grid : Nat × Nat}

theorem Holds.of_dvd (holds : Holds grid count) (divides : next ∣ count) : Holds grid next := by
  obtain ⟨height, width, heightPositive, widthPositive, rfl, fitsHeight, fitsWidth⟩ := holds
  have nextPositive : 0 < next := Nat.pos_of_dvd_of_pos divides (Nat.mul_pos heightPositive widthPositive)
  have common : Nat.gcd next height ∣ next := Nat.gcd_dvd_left next height
  have commonPositive : 0 < Nat.gcd next height := Nat.gcd_pos_of_pos_right _ heightPositive
  have rest : next / Nat.gcd next height ∣ width := by
    have coprime := Nat.coprime_div_gcd_div_gcd commonPositive
    refine coprime.dvd_of_dvd_mul_left ?_
    refine Nat.dvd_of_mul_dvd_mul_left commonPositive ?_
    rw [Nat.mul_div_cancel' common, ← Nat.mul_assoc, Nat.mul_div_cancel' (Nat.gcd_dvd_right next height)]
    exact divides
  refine ⟨Nat.gcd next height, next / Nat.gcd next height, commonPositive,
    Nat.div_pos (Nat.le_of_dvd nextPositive common) commonPositive, Nat.mul_div_cancel' common, ?_, ?_⟩
  · exact (Nat.le_of_dvd heightPositive (Nat.gcd_dvd_right next height)).trans fitsHeight
  · exact (Nat.le_of_dvd widthPositive rest).trans fitsWidth

theorem Holds.le (holds : Holds grid count) : count ≤ grid.1 * grid.2 := by
  obtain ⟨height, width, -, -, rfl, fitsHeight, fitsWidth⟩ := holds
  exact Nat.mul_le_mul fitsHeight fitsWidth

theorem exists_pow_below (several : 1 < count) : ∃ exponent, 2 ^ exponent < count ∧ count ≤ 2 * 2 ^ exponent := by
  refine ⟨Nat.log 2 (count - 1), ?_, ?_⟩
  · have below := Nat.pow_log_le_self 2 (x := count - 1) (by omega)
    omega
  · have above := Nat.lt_pow_succ_log_self Nat.one_lt_two (count - 1)
    rw [Nat.pow_succ, Nat.mul_comm] at above
    omega

theorem Holds.exists_half (holds : Holds grid count) (smooth : Smooth cap count) (several : 1 < count) :
    ∃ next < count, count ≤ 2 * next ∧ Holds grid next ∧ Smooth cap next := by
  have two := smooth.two_le several
  obtain ⟨height, width, heightPositive, widthPositive, rfl, fitsHeight, fitsWidth⟩ := holds
  by_cases tall : 1 < height
  · obtain ⟨exponent, below, above⟩ := exists_pow_below tall
    refine ⟨2 ^ exponent * width, Nat.mul_lt_mul_of_pos_right below widthPositive, ?_,
      ⟨2 ^ exponent, width, Nat.two_pow_pos _, widthPositive, rfl, below.le.trans fitsHeight, fitsWidth⟩,
      (smooth_pow two exponent).mul (smooth.of_dvd (Dvd.intro_left _ rfl))⟩
    rw [← Nat.mul_assoc]
    exact Nat.mul_le_mul_right _ above
  · have flat : height = 1 := by omega
    subst flat
    rw [Nat.one_mul] at several
    obtain ⟨exponent, below, above⟩ := exists_pow_below several
    refine ⟨1 * 2 ^ exponent, by omega, by omega,
      ⟨1, 2 ^ exponent, Nat.one_pos, Nat.two_pow_pos _, rfl, fitsHeight, below.le.trans fitsWidth⟩, ?_⟩
    rw [Nat.one_mul]
    exact smooth_pow two exponent

theorem Holds.exists_between (holds : Holds grid count) (smooth : Smooth cap count) (bound : Nat) (wide : 1 < bound)
    (above : bound ≤ count) : ∃ next < bound, bound ≤ 2 * next ∧ Holds grid next ∧ Smooth cap next := by
  induction count using Nat.strong_induction_on with
  | _ count ih =>
      obtain ⟨next, less, half, nextHolds, nextSmooth⟩ := holds.exists_half smooth (by omega)
      by_cases below : next < bound
      · exact ⟨next, below, by omega, nextHolds, nextSmooth⟩
      · exact ih next less nextHolds nextSmooth (by omega)

end TtMlir.DivisorChain
