import Mathlib.Data.List.Basic
import Mathlib.Tactic.Linarith

/-!
The gaps that ranges of addresses leave free. Ranges are pairs of an offset and
a size, walked in the order of their offsets; each one closes the gap between
the highest end before it and its own offset.
-/

namespace TtMlir.Gaps

abbrev Range := Int × Int

def Range.stop (range : Range) : Int := range.1 + range.2

structure Gap where
  bottom : Int
  length : Int
  above : Int
  deriving DecidableEq, Repr

def highestEnd (start : Int) (ranges : List Range) : Int :=
  ranges.foldl (fun highest range => max highest range.stop) start

/-- Gaps of no length are listed too: they lie between ranges that touch. -/
def freeGaps (start : Int) : List Range → List Gap
  | [] => []
  | range :: rest =>
      let above := freeGaps (max start range.stop) rest
      if start ≤ range.1 then ⟨start, range.1 - start, range.2⟩ :: above else above

@[simp] theorem highestEnd_cons (start : Int) (range : Range) (rest : List Range) :
    highestEnd start (range :: rest) = highestEnd (max start range.stop) rest := rfl

theorem start_le_highestEnd (start : Int) (ranges : List Range) : start ≤ highestEnd start ranges := by
  induction ranges generalizing start with
  | nil => exact le_rfl
  | cons range rest ih => exact (le_max_left _ _).trans (ih _)

theorem mem_freeGaps_cons (start : Int) (range : Range) (rest : List Range) (gap : Gap) :
    gap ∈ freeGaps start (range :: rest) ↔
      (start ≤ range.1 ∧ gap = ⟨start, range.1 - start, range.2⟩) ∨
        gap ∈ freeGaps (max start range.stop) rest := by
  by_cases below : start ≤ range.1 <;> simp [freeGaps, below]

theorem freeGaps_bounds (start : Int) (ranges : List Range) (sizes : ∀ range ∈ ranges, 0 ≤ range.2)
    (gap : Gap) (member : gap ∈ freeGaps start ranges) :
    start ≤ gap.bottom ∧ 0 ≤ gap.length ∧ gap.bottom + gap.length + gap.above ≤ highestEnd start ranges := by
  induction ranges generalizing start with
  | nil => simp [freeGaps] at member
  | cons range rest ih =>
      rcases (mem_freeGaps_cons start range rest gap).mp member with ⟨below, rfl⟩ | later
      · have end_ := start_le_highestEnd (max start range.stop) rest
        have := le_max_right start range.stop
        simp only [Range.stop, highestEnd_cons] at *
        omega
      · have bounds := ih (max start range.stop)
          (fun other member => sizes other (List.mem_cons_of_mem _ member)) later
        have := le_max_left start range.stop
        exact ⟨this.trans bounds.1, bounds.2⟩

/-- Of two gaps with the same bottom one has no length and lies below an empty range,
unless they are the same. -/
theorem freeGaps_bottom (start : Int) (ranges : List Range) (sizes : ∀ range ∈ ranges, 0 ≤ range.2)
    (left right : Gap) (leftIn : left ∈ freeGaps start ranges) (rightIn : right ∈ freeGaps start ranges)
    (same : left.bottom = right.bottom) :
    left = right ∨ (left.length = 0 ∧ left.above = 0) ∨ (right.length = 0 ∧ right.above = 0) := by
  induction ranges generalizing start with
  | nil => simp [freeGaps] at leftIn
  | cons range rest ih =>
      have laterSizes : ∀ other ∈ rest, 0 ≤ other.2 := fun other member => sizes other (List.mem_cons_of_mem _ member)
      have size := sizes range List.mem_cons_self
      have raised := le_max_right start range.stop
      rcases (mem_freeGaps_cons start range rest left).mp leftIn with ⟨below, rfl⟩ | leftLater
      · rcases (mem_freeGaps_cons start range rest right).mp rightIn with ⟨_, rfl⟩ | rightLater
        · exact Or.inl rfl
        · have bounds := freeGaps_bounds _ rest laterSizes right rightLater
          simp only [Range.stop] at *
          omega
      · rcases (mem_freeGaps_cons start range rest right).mp rightIn with ⟨below, rfl⟩ | rightLater
        · have bounds := freeGaps_bounds _ rest laterSizes left leftLater
          simp only [Range.stop] at *
          omega
        · exact ih (max start range.stop) laterSizes leftLater rightLater

end TtMlir.Gaps
