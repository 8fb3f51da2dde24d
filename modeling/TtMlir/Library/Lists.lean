import Mathlib.Data.List.GetD
import Mathlib.Order.MinMax

/-!
Lists read by position, with a default behind their end, and lists folded to one of their
entries.
-/

namespace TtMlir

section Entries
variable {α : Type} (default : α)

theorem ext_getD {left right : List α} (length : left.length = right.length)
    (entries : ∀ position < left.length, left.getD position default = right.getD position default) : left = right := by
  apply List.ext_getElem length
  intro position inLeft inRight
  have entry := entries position inLeft
  rwa [List.getD_eq_getElem _ _ inLeft, List.getD_eq_getElem _ _ inRight] at entry

theorem map_range_getD (list : List α) : (List.range list.length).map (list.getD · default) = list := by
  apply List.ext_getElem
  · rw [List.length_map, List.length_range]
  · intro position _ inside
    rw [List.getElem_map, List.getElem_range, List.getD_eq_getElem _ _ inside]

theorem map_range'_getD (front middle back : List α) :
    (List.range' front.length middle.length).map ((front ++ (middle ++ back)).getD · default) = middle := by
  apply List.ext_getElem
  · rw [List.length_map, List.length_range']
  · intro position _ inside
    rw [List.getElem_map, List.getElem_range', Nat.one_mul,
      List.getD_append_right _ _ _ _ (by omega), Nat.add_sub_cancel_left,
      List.getD_append _ _ _ _ inside, List.getD_eq_getElem _ _ inside]

theorem split_getD (list : List α) (position : Nat) (inside : position < list.length) :
    list = list.take position ++ list.getD position default :: list.drop (position + 1) := by
  rw [List.getD_eq_getElem _ _ inside, ← List.drop_eq_getElem_cons inside, List.take_append_drop]

end Entries

section Folds
variable {α : Type}

theorem foldl_choice {choose : α → α → α} (choice : ∀ a b, choose a b = a ∨ choose a b = b) (values : List α)
    (first : α) :
    values.foldl choose first ∈ first :: values := by
  induction values generalizing first with
  | nil => exact List.mem_cons_self
  | cons value rest ih =>
      rw [List.foldl_cons]
      rcases List.mem_cons.mp (ih (choose first value)) with same | later
      · rw [same]
        rcases choice first value with left | right
        · rw [left]
          exact List.mem_cons_self
        · rw [right]
          exact List.mem_cons_of_mem _ List.mem_cons_self
      · exact List.mem_cons_of_mem _ (List.mem_cons_of_mem _ later)

theorem le_foldl_max [LinearOrder α] (values : List α) (least : α) : least ≤ values.foldl max least := by
  induction values generalizing least with
  | nil => exact le_rfl
  | cons value rest ih => exact (le_max_left least value).trans (ih (max least value))

theorem foldl_max_spec [LinearOrder α] (values : List α) (least : α) :
    least ≤ values.foldl max least ∧ (∀ value ∈ values, value ≤ values.foldl max least) ∧
      (values.foldl max least = least ∨ values.foldl max least ∈ values) := by
  refine ⟨le_foldl_max values least, ?_, List.mem_cons.mp (foldl_choice max_choice values least)⟩
  induction values generalizing least with
  | nil => simp
  | cons value rest ih =>
      have above := (le_max_right least value).trans (le_foldl_max rest (max least value))
      exact List.forall_mem_cons.mpr ⟨above, ih (max least value)⟩

end Folds

end TtMlir
