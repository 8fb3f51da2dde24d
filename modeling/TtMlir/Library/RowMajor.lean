import Mathlib.Data.List.Nodup
import Mathlib.Data.List.Range
import TtMlir.Library.MixedRadix

/-!
Row-major traversal of a box three ways: by flat position, by an odometer that
carries from the last coordinate to the first, and by nested loops. All three
visit the same coordinates in the same order.
-/

namespace TtMlir.RowMajor

open MixedRadix

def delinearize : List Int → Int → List Int
  | [], _ => []
  | extent :: shape, flat => (flat / shape.prod) % extent :: delinearize shape flat

def advance : List Int → List Int → List Int × Bool
  | extent :: shape, digit :: index =>
      let (inner, carry) := advance shape index
      if carry then
        if digit + 1 < extent then ((digit + 1) :: inner, false) else (0 :: inner, true)
      else (digit :: inner, false)
  | _, _ => ([], true)

def loopNest : List Int → List (List Int)
  | [] => [[]]
  | extent :: shape =>
      (List.range extent.toNat).flatMap fun digit : Nat => (loopNest shape).map ((digit : Int) :: ·)

theorem delinearize_within (shape : List Int) (positive : ∀ extent ∈ shape, 0 < extent) (flat : Int) :
    Within shape (delinearize shape flat) := by
  induction shape with
  | nil => exact List.Forall₂.nil
  | cons extent shape ih =>
      have here := positive extent List.mem_cons_self
      exact List.Forall₂.cons ⟨Int.emod_nonneg _ here.ne', Int.emod_lt_of_pos _ here⟩
        (ih fun other member => positive other (List.mem_cons_of_mem _ member))

theorem delinearize_zero (shape : List Int) : delinearize shape 0 = List.replicate shape.length 0 := by
  induction shape with
  | nil => rfl
  | cons extent shape ih => simp [delinearize, ih, List.replicate_succ]

theorem emod_mul (value extent base : Int) (extentPos : 0 < extent) (basePos : 0 < base) :
    value % (extent * base) = value / base % extent * base + value % base := by
  have bounds := split_bounds base extent (value / base % extent) (value % base)
    (Int.emod_nonneg _ basePos.ne') (Int.emod_lt_of_pos _ basePos)
    (Int.emod_nonneg _ extentPos.ne') (Int.emod_lt_of_pos _ extentPos)
  have outer := Int.emod_add_mul_ediv value base
  have inner := Int.emod_add_mul_ediv (value / base) extent
  have whole : value = value / base % extent * base + value % base
      + extent * base * (value / base / extent) := by
    calc value = value % base + base * (value / base % extent + extent * (value / base / extent)) := by
          rw [inner, outer]
      _ = _ := by ring
  exact ((Int.ediv_emod_unique (Int.mul_pos extentPos basePos)).mpr ⟨whole.symm, bounds⟩).2

theorem rowMajor_delinearize (shape : List Int) (positive : ∀ extent ∈ shape, 0 < extent) (flat : Int) :
    rowMajor shape (delinearize shape flat) = flat % shape.prod := by
  induction shape with
  | nil => simp [rowMajor]
  | cons extent shape ih =>
      have rest : ∀ other ∈ shape, 0 < other := fun other member => positive other (List.mem_cons_of_mem _ member)
      rw [delinearize, rowMajor, ih rest, List.prod_cons,
        emod_mul flat extent _ (positive extent List.mem_cons_self) (prod_pos shape rest)]

theorem rowMajor_bounds (shape index : List Int) (within : Within shape index) :
    0 ≤ rowMajor shape index ∧ rowMajor shape index < shape.prod := by
  rw [rowMajor_eq_encode shape index (within_length shape index within), ← List.prod_reverse]
  exact encode_bounds _ _ (List.rel_reverse within)

theorem rowMajor_injective (shape left right : List Int) (leftWithin : Within shape left)
    (rightWithin : Within shape right) (same : rowMajor shape left = rowMajor shape right) : left = right := by
  rw [rowMajor_eq_encode shape left (within_length shape left leftWithin),
    rowMajor_eq_encode shape right (within_length shape right rightWithin)] at same
  exact List.reverse_injective
    (encode_injective _ _ _ (List.rel_reverse leftWithin) (List.rel_reverse rightWithin) same)

theorem delinearize_rowMajor (shape index : List Int) (within : Within shape index) :
    delinearize shape (rowMajor shape index) = index := by
  have positive : ∀ extent ∈ shape, 0 < extent := by
    intro extent member
    obtain ⟨position, inside, rfl⟩ := List.getElem_of_mem member
    have digit := ((within_iff shape index).mp within).2 position inside
    rw [List.getD_eq_getElem?_getD (l := shape), List.getElem?_eq_getElem inside, Option.getD_some] at digit
    omega
  have bounds := rowMajor_bounds shape index within
  apply rowMajor_injective shape _ _ (delinearize_within shape positive _) within
  rw [rowMajor_delinearize shape positive, Int.emod_eq_of_lt bounds.1 bounds.2]

def reshape (source target index : List Int) : List Int := delinearize target (rowMajor source index)

theorem reshape_within (source target : List Int) (positive : ∀ extent ∈ target, 0 < extent) (index : List Int) :
    Within target (reshape source target index) := delinearize_within target positive _

section Reshape
variable (source target : List Int) (positive : ∀ extent ∈ target, 0 < extent) (volume : source.prod = target.prod)
include positive volume

theorem rowMajor_reshape (index : List Int) (within : Within source index) :
    rowMajor target (reshape source target index) = rowMajor source index := by
  have bounds := rowMajor_bounds source index within
  rw [reshape, rowMajor_delinearize target positive, ← volume, Int.emod_eq_of_lt bounds.1 bounds.2]

theorem reshape_reshape (index : List Int) (within : Within source index) :
    reshape target source (reshape source target index) = index := by
  rw [reshape, rowMajor_reshape source target positive volume index within, delinearize_rowMajor source index within]

end Reshape

theorem reshape_bijOn (source target : List Int) (sourcePositive : ∀ extent ∈ source, 0 < extent)
    (targetPositive : ∀ extent ∈ target, 0 < extent) (volume : source.prod = target.prod) :
    Set.BijOn (reshape source target) {index | Within source index} {index | Within target index} := by
  refine Set.BijOn.mk ?_ ?_ ?_
  · intro index _
    exact reshape_within source target targetPositive index
  · intro left leftWithin right rightWithin same
    rw [← reshape_reshape source target targetPositive volume left leftWithin, same,
      reshape_reshape source target targetPositive volume right rightWithin]
  · intro index within
    exact ⟨reshape target source index, reshape_within target source sourcePositive index,
      reshape_reshape target source sourcePositive volume.symm index within⟩

theorem succ_split (value base : Int) (positive : 0 < base) :
    (value % base + 1 < base ∧ (value + 1) / base = value / base ∧ (value + 1) % base = value % base + 1) ∨
    (value % base + 1 = base ∧ (value + 1) / base = value / base + 1 ∧ (value + 1) % base = 0) := by
  have split := Int.emod_add_mul_ediv value base
  have low := Int.emod_nonneg value positive.ne'
  have below := Int.emod_lt_of_pos value positive
  by_cases room : value % base + 1 < base
  · refine Or.inl ⟨room, (Int.ediv_emod_unique positive).mpr ?_⟩
    omega
  · refine Or.inr ⟨by omega, (Int.ediv_emod_unique positive).mpr ?_⟩
    rw [Int.mul_add, Int.mul_one]
    omega

theorem advance_delinearize (shape : List Int) (positive : ∀ extent ∈ shape, 0 < extent) (flat : Int) :
    advance shape (delinearize shape flat) =
      (delinearize shape (flat + 1), decide ((flat + 1) % shape.prod = 0)) := by
  induction shape with
  | nil => simp [advance, delinearize]
  | cons extent shape ih =>
      have rest : ∀ other ∈ shape, 0 < other := fun other member => positive other (List.mem_cons_of_mem _ member)
      have extentPos := positive extent List.mem_cons_self
      have basePos := prod_pos shape rest
      have digitNonneg := Int.emod_nonneg (flat / shape.prod) extentPos.ne'
      have lowNonneg := Int.emod_nonneg flat basePos.ne'
      simp only [delinearize, advance, ih rest, List.prod_cons, emod_mul (flat + 1) extent _ extentPos basePos]
      rcases succ_split flat shape.prod basePos with ⟨_, sameQuotient, remainder⟩ | ⟨_, quotient, remainder⟩
      · have nonzero : flat % shape.prod + 1 ≠ 0 := by omega
        have highNonneg := Int.mul_nonneg digitNonneg basePos.le
        have noWrap : flat / shape.prod % extent * shape.prod + (flat % shape.prod + 1) ≠ 0 := by omega
        simp [sameQuotient, remainder, nonzero, noWrap]
      · rcases succ_split (flat / shape.prod) extent extentPos with ⟨room, _, digit⟩ | ⟨full, _, digit⟩
        · have nonzero : (flat / shape.prod % extent + 1) * shape.prod ≠ 0 :=
            Int.mul_ne_zero (by omega) basePos.ne'
          simp [quotient, remainder, digit, room, nonzero]
        · simp [quotient, remainder, digit, full]

theorem mem_loopNest (shape index : List Int) : index ∈ loopNest shape ↔ Within shape index := by
  induction shape generalizing index with
  | nil => simp [loopNest, Within]
  | cons extent shape ih =>
      simp only [loopNest, List.mem_flatMap, List.mem_range, List.mem_map, ih, Within,
        List.forall₂_cons_right_iff]
      constructor
      · rintro ⟨digit, below, inner, within, rfl⟩
        exact ⟨digit, inner, ⟨by omega, by omega⟩, within, rfl⟩
      · rintro ⟨digit, inner, bounds, within, rfl⟩
        exact ⟨digit.toNat, by omega, inner, within, by rw [Int.toNat_of_nonneg bounds.1]⟩

theorem range_mul (count size : Nat) :
    List.range (count * size) = (List.range count).flatMap fun block => (List.range size).map (block * size + ·) := by
  induction count with
  | zero => simp
  | succ count ih =>
      rw [Nat.succ_mul, List.range_add, ih, List.range_succ, List.flatMap_append]
      simp

theorem range_blocks (count size : Nat) (positive : 0 < size) :
    ((List.range (count * size)).flatMap fun flat =>
      if flat % size = 0 then (List.range size).map (flat + ·) else []) = List.range (count * size) := by
  obtain ⟨last, rfl⟩ : ∃ last, size = last + 1 := ⟨size - 1, by omega⟩
  conv_lhs => rw [range_mul, List.flatMap_assoc]
  rw [range_mul]
  congr 1
  funext block
  have others : ∀ digit ∈ List.range last, ¬ (block * (last + 1) + (digit + 1)) % (last + 1) = 0 := by
    intro digit member
    have below := List.mem_range.mp member
    rw [Nat.mul_add_mod_of_lt (by omega)]
    omega
  have first : (block * (last + 1) + 0) % (last + 1) = 0 := by simp
  conv_lhs => rw [List.range_succ_eq_map]
  simp only [List.map_cons, List.flatMap_cons, List.flatMap_map, first, ↓reduceIte]
  rw [List.flatMap_eq_nil_iff.mpr fun digit member => if_neg (others digit member), List.append_nil,
    Nat.add_zero, List.range_succ_eq_map, List.map_cons]
  rfl

theorem loopNest_rowMajor (shape : List Int) (positive : ∀ extent ∈ shape, 0 < extent) :
    (loopNest shape).map (rowMajor shape) = (List.range shape.prod.toNat).map (fun flat : Nat => (flat : Int)) := by
  induction shape with
  | nil => rfl
  | cons extent shape ih =>
      have rest : ∀ other ∈ shape, 0 < other := fun other member => positive other (List.mem_cons_of_mem _ member)
      have base := Int.toNat_of_nonneg (prod_pos shape rest).le
      rw [List.prod_cons, Int.toNat_mul (positive extent List.mem_cons_self).le (prod_pos shape rest).le, range_mul,
        loopNest, List.map_flatMap, List.map_flatMap]
      congr 1
      funext digit
      have inner := congrArg (List.map ((digit : Int) * shape.prod + ·)) (ih rest)
      simp only [List.map_map, Function.comp_def, rowMajor] at inner ⊢
      rw [inner]
      simp [base]

theorem loopNest_eq (shape : List Int) (positive : ∀ extent ∈ shape, 0 < extent) :
    loopNest shape = (List.range shape.prod.toNat).map fun flat : Nat => delinearize shape flat := by
  have same := congrArg (List.map (delinearize shape)) (loopNest_rowMajor shape positive)
  rw [List.map_map, List.map_map] at same
  rw [← Function.comp_def, ← same]
  symm
  rw [List.map_congr_left (g := id), List.map_id]
  intro index member
  exact delinearize_rowMajor shape index ((mem_loopNest shape index).mp member)

theorem loopNest_nodup (shape : List Int) (positive : ∀ extent ∈ shape, 0 < extent) : (loopNest shape).Nodup := by
  apply List.Nodup.of_map (rowMajor shape)
  rw [loopNest_rowMajor shape positive]
  exact List.nodup_range.map fun left right same => Int.ofNat.inj same

end TtMlir.RowMajor
