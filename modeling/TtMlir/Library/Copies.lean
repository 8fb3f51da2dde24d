import Mathlib.Data.List.Nodup

/-!
Copies made one after the other in a memory. A copy can disturb a later one: it overwrites the
source of the later copy, or the later copy overwrites its target. When the disturbed cells hold
the same value anyway, every target ends with what its source held at the start.
-/

namespace TtMlir

variable {Cell Value : Type} [DecidableEq Cell]

def copies : List (Cell × Cell) → (Cell → Value) → Cell → Value
  | [], memory => memory
  | copy :: rest, memory => copies rest (Function.update memory copy.2 (memory copy.1))

def stores : List (Cell × Value) → (Cell → Value) → Cell → Value
  | [], memory => memory
  | store :: rest, memory => stores rest (Function.update memory store.1 store.2)

def Undisturbed (memory : Cell → Value) (pairs : List (Cell × Cell)) : Prop :=
  pairs.Pairwise fun early late => early.2 = late.2 ∨ early.2 = late.1 → memory late.1 = memory early.1

instance [DecidableEq Value] (memory : Cell → Value) (pairs : List (Cell × Cell)) :
    Decidable (Undisturbed memory pairs) := by
  unfold Undisturbed
  infer_instance

theorem copies_frame (pairs : List (Cell × Cell)) (memory : Cell → Value) (cell : Cell)
    (apart : ∀ copy ∈ pairs, copy.2 ≠ cell) : copies pairs memory cell = memory cell := by
  induction pairs generalizing memory with
  | nil => rfl
  | cons copy rest ih =>
      have later := ih (Function.update memory copy.2 (memory copy.1)) fun other member =>
        apart other (List.mem_cons_of_mem copy member)
      rw [copies, later, Function.update_of_ne (Ne.symm (apart copy List.mem_cons_self))]

theorem copies_origin (source : Cell → Prop) (pairs : List (Cell × Cell)) (memory : Cell → Value)
    (sources : ∀ copy ∈ pairs, source copy.1) (cell : Cell) :
    copies pairs memory cell = memory cell ∨
      ∃ origin, source origin ∧ copies pairs memory cell = memory origin := by
  induction pairs generalizing memory with
  | nil => exact Or.inl rfl
  | cons copy rest ih =>
      have first := sources copy List.mem_cons_self
      have updated : ∀ other, Function.update memory copy.2 (memory copy.1) other = memory other ∨
          Function.update memory copy.2 (memory copy.1) other = memory copy.1 := by
        intro other
        by_cases same : other = copy.2
        · rw [same, Function.update_self]
          exact Or.inr rfl
        · rw [Function.update_of_ne same]
          exact Or.inl rfl
      rcases ih (Function.update memory copy.2 (memory copy.1))
        (fun other member => sources other (List.mem_cons_of_mem copy member)) with kept | ⟨origin, isSource, held⟩
      · rcases updated cell with own | copied
        · exact Or.inl (kept.trans own)
        · exact Or.inr ⟨copy.1, first, kept.trans copied⟩
      · rcases updated origin with own | copied
        · exact Or.inr ⟨origin, isSource, held.trans own⟩
        · exact Or.inr ⟨copy.1, first, held.trans copied⟩

theorem copies_target (pairs : List (Cell × Cell)) (memory : Cell → Value) (undisturbed : Undisturbed memory pairs)
    (copy : Cell × Cell) (member : copy ∈ pairs) : copies pairs memory copy.2 = memory copy.1 := by
  induction pairs generalizing memory copy with
  | nil => cases member
  | cons head rest ih =>
      obtain ⟨headApart, restApart⟩ := List.pairwise_cons.mp undisturbed
      have sources : ∀ other ∈ rest,
          Function.update memory head.2 (memory head.1) other.1 = memory other.1 := by
        intro other later
        by_cases overwritten : other.1 = head.2
        · rw [overwritten, Function.update_self, ← overwritten]
          exact (headApart other later (Or.inr overwritten.symm)).symm
        · exact Function.update_of_ne overwritten _ _
      have calm : Undisturbed (Function.update memory head.2 (memory head.1)) rest := by
        refine restApart.imp_of_mem fun {early late} earlyIn lateIn unchanged touches => ?_
        rw [sources early earlyIn, sources late lateIn]
        exact unchanged touches
      rw [copies]
      by_cases again : ∃ other ∈ rest, other.2 = copy.2
      · obtain ⟨other, later, same⟩ := again
        rw [← same, ih _ calm other later, sources other later]
        rcases List.mem_cons.mp member with isHead | inRest
        · subst isHead
          exact headApart other later (Or.inl same.symm)
        · -- both copies are later ones; the two values agree by the same rule
          rw [← sources other later, ← sources copy inRest, ← ih _ calm other later, ← ih _ calm copy inRest, same]
      · have untouched : ∀ other ∈ rest, other.2 ≠ copy.2 := fun other later same => again ⟨other, later, same⟩
        rcases List.mem_cons.mp member with isHead | inRest
        · subst isHead
          rw [copies_frame rest _ _ untouched, Function.update_self]
        · exact absurd rfl (untouched copy inRest)

theorem copies_append (first second : List (Cell × Cell)) (memory : Cell → Value) :
    copies (first ++ second) memory = copies second (copies first memory) := by
  induction first generalizing memory with
  | nil => rfl
  | cons copy rest ih => exact ih (Function.update memory copy.2 (memory copy.1))

theorem comp_copies {Part : Type} (part : Value → Part) (pairs : List (Cell × Cell)) (memory : Cell → Value) :
    part ∘ copies pairs memory = copies pairs (part ∘ memory) := by
  induction pairs generalizing memory with
  | nil => rfl
  | cons copy rest ih =>
      rw [copies, copies, ih]
      congr 1
      exact Function.comp_update part memory copy.2 (memory copy.1)

theorem map_copies (sources targets : List Cell) (memory : Cell → Value) (lengths : sources.length = targets.length)
    (undisturbed : Undisturbed memory (sources.zip targets)) :
    targets.map (copies (sources.zip targets) memory) = sources.map memory := by
  apply List.ext_getElem
  · rw [List.length_map, List.length_map, lengths]
  · intro idx inTargets inSources
    rw [List.length_map] at inTargets inSources
    have member : (sources[idx], targets[idx]) ∈ sources.zip targets := by
      rw [← List.getElem_zip (h := by rw [List.length_zip]; omega)]
      exact List.getElem_mem _
    rw [List.getElem_map, List.getElem_map]
    exact copies_target _ memory undisturbed _ member

theorem stores_frame (pairs : List (Cell × Value)) (memory : Cell → Value) (cell : Cell)
    (apart : ∀ store ∈ pairs, store.1 ≠ cell) : stores pairs memory cell = memory cell := by
  induction pairs generalizing memory with
  | nil => rfl
  | cons store rest ih =>
      have later := ih (Function.update memory store.1 store.2) fun other member =>
        apart other (List.mem_cons_of_mem store member)
      rw [stores, later, Function.update_of_ne (Ne.symm (apart store List.mem_cons_self))]

theorem stores_zip (cells : List Cell) (values : List Value) (memory : Cell → Value) (distinct : cells.Nodup)
    (lengths : cells.length = values.length) : cells.map (stores (cells.zip values) memory) = values := by
  induction cells generalizing values memory with
  | nil => exact (List.eq_nil_of_length_eq_zero lengths.symm).symm
  | cons cell rest ih =>
      cases values with
      | nil => cases lengths
      | cons value others =>
          obtain ⟨apart, distinctRest⟩ := List.nodup_cons.mp distinct
          have kept : stores (rest.zip others) (Function.update memory cell value) cell = value := by
            rw [stores_frame, Function.update_self]
            rintro store member rfl
            exact apart (List.of_mem_zip member).1
          rw [List.zip_cons_cons, List.map_cons, stores, kept,
            ih others _ distinctRest (Nat.succ.inj lengths)]

end TtMlir
