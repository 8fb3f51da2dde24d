import TtMlir.Library.MixedRadix

/-!
Strided buffers with padding. Strides are packed when distinct indices get
distinct offsets below a size; a dim put outside strides over that size.
-/

namespace TtMlir

namespace Strides

open MixedRadix

def offset (strides index : List Int) : Int := (List.zipWith (· * ·) index strides).sum

structure Packed (shape strides : List Int) (size : Int) : Prop where
  bounds : ∀ index, Within shape index → 0 ≤ offset strides index ∧ offset strides index < size
  injective : Set.InjOn (offset strides) {index | Within shape index}

theorem packed_nil (size : Int) (positive : 0 < size) : Packed [] [] size := by
  constructor
  · intro index within
    cases within
    exact ⟨le_refl _, positive⟩
  · intro left leftWithin right rightWithin _
    cases leftWithin
    cases rightWithin
    rfl

theorem Packed.mono {shape strides : List Int} {size total : Int} (packed : Packed shape strides size)
    (room : size ≤ total) : Packed shape strides total := by
  constructor
  · intro index within
    obtain ⟨low, below⟩ := packed.bounds index within
    exact ⟨low, lt_of_lt_of_le below room⟩
  · exact packed.injective

theorem Packed.cons {shape strides : List Int} {size : Int} (packed : Packed shape strides size) (extent total : Int)
    (room : extent * size ≤ total) : Packed (extent :: shape) (size :: strides) total := by
  constructor
  · rintro index (_ | ⟨bound, within⟩)
    rename_i digit rest
    obtain ⟨low, below⟩ := packed.bounds rest within
    have bounds := split_bounds size extent digit (offset strides rest) low below bound.1 bound.2
    simp only [offset, List.zipWith_cons_cons, List.sum_cons] at bounds ⊢
    omega
  · rintro left (_ | ⟨leftBound, leftWithin⟩) right (_ | ⟨rightBound, rightWithin⟩) same
    rename_i leftDigit leftRest rightDigit rightRest
    obtain ⟨leftLow, leftBelow⟩ := packed.bounds leftRest leftWithin
    obtain ⟨rightLow, rightBelow⟩ := packed.bounds rightRest rightWithin
    have equal : leftDigit * size + offset strides leftRest = rightDigit * size + offset strides rightRest := by
      simpa only [offset, List.zipWith_cons_cons, List.sum_cons] using same
    have digits : leftDigit = rightDigit := by
      rw [← split_ediv size leftDigit _ leftLow leftBelow, equal, split_ediv size rightDigit _ rightLow rightBelow]
    have rests : offset strides leftRest = offset strides rightRest := by
      rw [← split_emod size leftDigit _ leftLow leftBelow, equal, split_emod size rightDigit _ rightLow rightBelow]
    rw [digits, packed.injective leftWithin rightWithin rests]

end Strides

end TtMlir
