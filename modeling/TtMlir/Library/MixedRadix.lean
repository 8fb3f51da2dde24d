import Mathlib

/-!
Mixed-radix positions, least significant digit first. A list of digits within
its radices and the number it encodes determine each other.
-/

namespace TtMlir

theorem drop_eq_cons (digits : List Int) (i : Nat) (inside : i < digits.length) :
    digits.drop i = digits.getD i 0 :: digits.drop (i + 1) := by
  rw [List.drop_eq_getElem_cons inside, List.getD_eq_getElem?_getD, List.getElem?_eq_getElem inside, Option.getD_some]

def Within (radices digits : List Int) : Prop :=
  List.Forall₂ (fun digit radix => 0 ≤ digit ∧ digit < radix) digits radices

namespace MixedRadix

def encode : List Int → List Int → Int
  | radix :: radices, digit :: digits => digit + radix * encode radices digits
  | _, _ => 0

def decode : List Int → Int → List Int
  | [], _ => []
  | radix :: radices, value => value % radix :: decode radices (value / radix)

theorem prod_pos (radices : List Int) (positive : ∀ radix ∈ radices, 0 < radix) :
    0 < radices.prod := by
  induction radices with
  | nil => simp
  | cons radix rest ih =>
      rw [List.prod_cons]
      exact Int.mul_pos (positive radix List.mem_cons_self)
        (ih fun other member => positive other (List.mem_cons_of_mem _ member))

theorem encode_bounds (radices digits : List Int) (within : Within radices digits) :
    0 ≤ encode radices digits ∧ encode radices digits < radices.prod := by
  induction within with
  | nil => simp [encode]
  | @cons digit radix digits radices here _ ih =>
      simp only [encode, List.prod_cons]
      constructor
      · have : 0 ≤ radix * encode radices digits := Int.mul_nonneg (by omega) ih.1
        omega
      · have : radix * (encode radices digits + 1) ≤ radix * radices.prod :=
          Int.mul_le_mul_of_nonneg_left (by omega) (by omega)
        rw [Int.mul_add, Int.mul_one] at this
        omega

theorem decode_encode (radices digits : List Int) (within : Within radices digits) :
    decode radices (encode radices digits) = digits := by
  induction within with
  | nil => rfl
  | @cons digit radix digits radices here _ ih =>
      have low : (digit + radix * encode radices digits) % radix = digit := by
        rw [Int.add_mul_emod_self_left, Int.emod_eq_of_lt here.1 here.2]
      have high : (digit + radix * encode radices digits) / radix = encode radices digits := by
        rw [Int.add_mul_ediv_left _ _ (by omega), Int.ediv_eq_zero_of_lt here.1 here.2, zero_add]
      simp only [encode, decode, low, high, ih]

theorem decode_within (radices : List Int) (positive : ∀ radix ∈ radices, 0 < radix) (value : Int) :
    Within radices (decode radices value) := by
  induction radices generalizing value with
  | nil => exact List.Forall₂.nil
  | cons radix rest ih =>
      have here := positive radix List.mem_cons_self
      exact List.Forall₂.cons ⟨Int.emod_nonneg _ (by omega), Int.emod_lt_of_pos _ here⟩
        (ih (fun other member => positive other (List.mem_cons_of_mem _ member)) _)

theorem encode_decode (radices : List Int) (positive : ∀ radix ∈ radices, 0 < radix) (value : Int)
    (nonneg : 0 ≤ value) (below : value < radices.prod) :
    encode radices (decode radices value) = value := by
  induction radices generalizing value with
  | nil =>
      simp only [List.prod_nil] at below
      simp only [encode]
      omega
  | cons radix rest ih =>
      have here := positive radix List.mem_cons_self
      rw [List.prod_cons] at below
      have high : value / radix < rest.prod := Int.ediv_lt_of_lt_mul here (by rwa [mul_comm])
      simp only [decode, encode]
      rw [ih (fun other member => positive other (List.mem_cons_of_mem _ member)) _
        (Int.ediv_nonneg nonneg here.le) high]
      exact Int.emod_add_mul_ediv value radix

theorem encode_injective (radices left right : List Int) (leftWithin : Within radices left)
    (rightWithin : Within radices right) (same : encode radices left = encode radices right) :
    left = right := by
  rw [← decode_encode radices left leftWithin, same, decode_encode radices right rightWithin]

theorem within_length (radices digits : List Int) (within : Within radices digits) :
    digits.length = radices.length := List.Forall₂.length_eq within

theorem within_iff (radices digits : List Int) : Within radices digits ↔
    digits.length = radices.length ∧
      ∀ position < radices.length,
        0 ≤ digits.getD position 0 ∧ digits.getD position 0 < radices.getD position 0 := by
  induction radices generalizing digits with
  | nil => cases digits <;> simp [Within]
  | cons radix rest ih =>
      cases digits with
      | nil => simp [Within]
      | cons digit digits =>
          have tail := ih digits
          simp only [Within] at tail
          simp only [Within, List.forall₂_cons, tail, List.length_cons, Nat.forall_lt_succ_left',
            List.getD_cons_zero, List.getD_cons_succ, Nat.add_right_cancel_iff]
          exact and_left_comm

def rowMajor : List Int → List Int → Int
  | _ :: shape, digit :: index => digit * shape.prod + rowMajor shape index
  | _, _ => 0

theorem encode_append (low high lowDigits highDigits : List Int)
    (length : lowDigits.length = low.length) :
    encode (low ++ high) (lowDigits ++ highDigits) =
      encode low lowDigits + low.prod * encode high highDigits := by
  induction low generalizing lowDigits with
  | nil =>
      have none : lowDigits = [] := List.length_eq_zero_iff.mp length
      simp [none, encode]
  | cons radix low ih =>
      cases lowDigits with
      | nil => simp at length
      | cons digit lowDigits =>
          simp only [List.cons_append, encode, ih lowDigits (by simpa using length), List.prod_cons]
          ring

theorem rowMajor_eq_encode (shape index : List Int) (length : index.length = shape.length) :
    rowMajor shape index = encode shape.reverse index.reverse := by
  induction shape generalizing index with
  | nil =>
      have none : index = [] := List.length_eq_zero_iff.mp length
      simp [none, rowMajor, encode]
  | cons extent shape ih =>
      cases index with
      | nil => simp at length
      | cons digit index =>
          have tail : index.length = shape.length := by simpa using length
          rw [rowMajor, ih index tail, List.reverse_cons, List.reverse_cons,
            encode_append _ _ _ _ (by simpa using tail), List.prod_reverse]
          simp only [encode]
          ring

theorem split_bounds (base count high low : Int) (lowNonneg : 0 ≤ low) (lowBelow : low < base)
    (highNonneg : 0 ≤ high) (highBelow : high < count) :
    0 ≤ high * base + low ∧ high * base + low < count * base := by
  have bounds := encode_bounds [base, count] [low, high]
    (List.Forall₂.cons ⟨lowNonneg, lowBelow⟩ (List.Forall₂.cons ⟨highNonneg, highBelow⟩ List.Forall₂.nil))
  simp only [encode, List.prod_cons, List.prod_nil] at bounds
  constructor
  · linarith
  · linarith

theorem split_ediv (base high low : Int) (lowNonneg : 0 ≤ low) (lowBelow : low < base) :
    (high * base + low) / base = high := by
  rw [Int.add_comm, Int.add_mul_ediv_right _ _ (by omega), Int.ediv_eq_zero_of_lt lowNonneg lowBelow,
    zero_add]

theorem split_emod (base high low : Int) (lowNonneg : 0 ≤ low) (lowBelow : low < base) :
    (high * base + low) % base = low := by
  rw [Int.add_comm, Int.add_mul_emod_self_right, Int.emod_eq_of_lt lowNonneg lowBelow]

end MixedRadix

end TtMlir
