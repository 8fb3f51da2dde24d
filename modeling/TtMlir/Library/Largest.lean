import Mathlib.Algebra.Order.Group.Multiset
import Mathlib.Tactic.Abel

/-!
The largest members of a collection by a key, and how the largest of two collections is found from
the largest of each.
-/

namespace TtMlir

section Largest
variable {α κ : Type} [LinearOrder κ] (key : α → κ)

def Above (front rest : Multiset α) : Prop :=
  ∀ x ∈ front, ∀ y ∈ rest, key y ≤ key x

/-- `front` is a choice of `count` members that no other member beats. -/
def Largest (count : Nat) (front all : Multiset α) : Prop :=
  front.card = count ∧ ∃ rest, front + rest = all ∧ Above key front rest

def InOrder (list : List α) : Prop :=
  list.Pairwise fun first second => key second ≤ key first

variable {key} {count : Nat}

theorem Largest.whole {all : Multiset α} (size : all.card = count) : Largest key count all all :=
  ⟨size, 0, add_zero all, fun _ _ _ none => absurd none (Multiset.notMem_zero _)⟩

theorem Largest.of_add {front rest : Multiset α} (size : front.card = count) (above : Above key front rest) :
    Largest key count front (front + rest) :=
  ⟨size, rest, rfl, above⟩

theorem Largest.above_rest {front rest : Multiset α} (largest : Largest key count front (front + rest)) :
    Above key front rest := by
  obtain ⟨-, others, split, above⟩ := largest
  exact add_left_cancel split ▸ above

/-- If `lost` beat a member of the new front, so would the `count` members of the old front: no room
for that member. -/
theorem Largest.above_lost {front lost : Multiset α} {best rest other : Multiset α}
    (size : front.card = count) (above : Above key front lost) (bestSize : best.card = count)
    (split : best + rest = front + other) (bestAbove : Above key best rest) : Above key best lost := by
  intro kept keptIn dropped droppedIn
  by_contra beaten
  have less : key kept < key dropped := not_le.mp beaten
  let beats : α → Prop := fun member => key kept < key member
  have frontBeats : ∀ member ∈ front, beats member := fun member member_in =>
    lt_of_lt_of_le less (above member member_in dropped droppedIn)
  have restLoses : rest.filter beats = 0 := by
    rw [Multiset.filter_eq_nil]
    exact fun member member_in beaten => absurd (bestAbove kept keptIn member member_in) (not_le.mpr beaten)
  have filtered : best.filter beats = front + other.filter beats := by
    have both := congrArg (Multiset.filter beats) split
    rw [Multiset.filter_add, Multiset.filter_add, restLoses, add_zero] at both
    rw [both, Multiset.filter_eq_self.mpr frontBeats]
  have full : best.card ≤ (best.filter beats).card := by
    rw [filtered, Multiset.card_add]
    omega
  have allBeat : best.filter beats = best :=
    Multiset.eq_of_le_of_card_le (Multiset.filter_le _ _) full
  -- so the member itself beats itself
  have selfBeats : beats kept := (Multiset.mem_filter.mp (allBeat ▸ keptIn)).2
  exact lt_irrefl _ selfBeats

theorem Largest.merge {front back left right best : Multiset α} (leftLargest : Largest key count front left)
    (rightLargest : Largest key count back right) (bestLargest : Largest key count best (front + back)) :
    Largest key count best (left + right) := by
  obtain ⟨frontSize, leftRest, rfl, leftAbove⟩ := leftLargest
  obtain ⟨backSize, rightRest, rfl, rightAbove⟩ := rightLargest
  obtain ⟨bestSize, rest, split, bestAbove⟩ := bestLargest
  refine ⟨bestSize, rest + (leftRest + rightRest), ?_, ?_⟩
  · rw [← add_assoc, split]
    abel
  · intro kept keptIn dropped droppedIn
    rcases Multiset.mem_add.mp droppedIn with inRest | lost
    · exact bestAbove kept keptIn dropped inRest
    rcases Multiset.mem_add.mp lost with inLeft | inRight
    · exact Largest.above_lost frontSize leftAbove bestSize split bestAbove kept keptIn dropped inLeft
    · rw [add_comm] at split
      exact Largest.above_lost backSize rightAbove bestSize (by rw [add_comm, split, add_comm]) bestAbove
        kept keptIn dropped inRight

theorem Largest.next {front second rest : Multiset α} {more : Nat} (size : front.card = count)
    (above : Above key front rest) (secondLargest : Largest key more second rest) :
    Largest key (count + more) (front + second) (front + rest) := by
  obtain ⟨secondSize, others, rfl, secondAbove⟩ := secondLargest
  refine ⟨by rw [Multiset.card_add, size, secondSize], others, add_assoc front second others, ?_⟩
  intro kept keptIn dropped droppedIn
  rcases Multiset.mem_add.mp keptIn with inFront | inSecond
  · exact above kept inFront dropped (Multiset.mem_add.mpr (.inr droppedIn))
  · exact secondAbove kept inSecond dropped droppedIn

theorem Largest.not_beaten {front all : Multiset α} (largest : Largest key count front all) (some : 0 < count)
    {member : α} (present : member ∈ all) : ∃ kept ∈ front, key member ≤ key kept := by
  obtain ⟨size, rest, rfl, above⟩ := largest
  obtain ⟨kept, keptIn⟩ := Multiset.card_pos_iff_exists_mem.mp (size ▸ some)
  rcases Multiset.mem_add.mp present with inFront | inRest
  · exact ⟨member, inFront, le_rfl⟩
  · exact ⟨kept, keptIn, above kept keptIn member inRest⟩

theorem InOrder.append {front back : List α} (frontOrder : InOrder key front) (backOrder : InOrder key back)
    (above : Above key front back) : InOrder key (front ++ back) :=
  List.pairwise_append.mpr ⟨frontOrder, backOrder, above⟩

end Largest

end TtMlir
