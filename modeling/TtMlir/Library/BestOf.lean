import Mathlib

/-!
The best of a list of candidates, some of which do not count, kept by a strict comparison; and
the choices of one value for each of some positions of a list.
-/

namespace TtMlir

section BestOf
variable {α κ : Type} (better : α → α → Bool)

def keepBetter (best : Option α) : Option α → Option α
  | none => best
  | some candidate =>
      match best with
      | none => some candidate
      | some current => if better candidate current then some candidate else best

variable [LinearOrder κ] {better} {key : α → κ} {counts : α → Prop}

theorem keepBetter_spec (agrees : ∀ a b, counts a → counts b → (better a b = true ↔ key b < key a))
    {current candidate : α} (currentCounts : counts current) (candidateCounts : counts candidate) :
    ∃ best, keepBetter better (some current) (some candidate) = some best ∧ counts best ∧
      (best = current ∨ best = candidate) ∧ key current ≤ key best ∧ key candidate ≤ key best := by
  by_cases replaces : better candidate current = true
  · refine ⟨candidate, by simp [keepBetter, replaces], candidateCounts, .inr rfl, ?_, le_rfl⟩
    exact ((agrees _ _ candidateCounts currentCounts).mp replaces).le
  · refine ⟨current, by simp [keepBetter, replaces], currentCounts, .inl rfl, le_rfl, ?_⟩
    exact not_lt.mp fun less => replaces ((agrees _ _ candidateCounts currentCounts).mpr less)

section
variable (agrees : ∀ a b, counts a → counts b → (better a b = true ↔ key b < key a))
  (candidates : List (Option α)) (counting : ∀ candidate, some candidate ∈ candidates → counts candidate)
include agrees counting

theorem foldl_keepBetter_some {first : α} (firstCounts : counts first) :
    ∃ best, candidates.foldl (keepBetter better) (some first) = some best ∧
      (best = first ∨ some best ∈ candidates) ∧ key first ≤ key best ∧
      ∀ candidate, some candidate ∈ candidates → key candidate ≤ key best := by
  induction candidates generalizing first with
  | nil => exact ⟨first, rfl, .inl rfl, le_rfl, fun _ member => absurd member List.not_mem_nil⟩
  | cons head rest ih =>
      have later := fun candidate member => counting candidate (List.mem_cons_of_mem _ member)
      rw [List.foldl_cons]
      cases head with
      | none =>
          obtain ⟨best, run, source, above, all⟩ := ih later firstCounts
          refine ⟨best, run, source.imp_right (List.mem_cons_of_mem _), above, fun candidate member => ?_⟩
          exact all candidate (by simpa using member)
      | some here =>
          obtain ⟨next, step, nextCounts, choice, aboveFirst, aboveHere⟩ :=
            keepBetter_spec agrees firstCounts (counting here List.mem_cons_self)
          rw [step]
          obtain ⟨best, run, source, above, all⟩ := ih later nextCounts
          refine ⟨best, run, ?_, aboveFirst.trans above, fun candidate member => ?_⟩
          · rcases source with rfl | inRest
            · exact choice.imp_right fun same => by rw [same]; exact List.mem_cons_self
            · exact .inr (List.mem_cons_of_mem _ inRest)
          · rcases List.mem_cons.mp member with same | inRest
            · exact (Option.some.inj same) ▸ aboveHere.trans above
            · exact all candidate inRest

theorem foldl_keepBetter_none :
    (candidates.foldl (keepBetter better) none = none ∧ ∀ candidate ∈ candidates, candidate = none) ∨
    ∃ best, candidates.foldl (keepBetter better) none = some best ∧ some best ∈ candidates ∧
      ∀ candidate, some candidate ∈ candidates → key candidate ≤ key best := by
  induction candidates with
  | nil => exact .inl ⟨rfl, fun _ member => absurd member List.not_mem_nil⟩
  | cons head rest ih =>
      have later := fun candidate member => counting candidate (List.mem_cons_of_mem _ member)
      rw [List.foldl_cons]
      cases head with
      | none =>
          rcases ih later with ⟨run, nothing⟩ | ⟨best, run, source, all⟩
          · exact .inl ⟨run, List.forall_mem_cons.mpr ⟨rfl, nothing⟩⟩
          · exact .inr ⟨best, run, List.mem_cons_of_mem _ source, fun candidate member => all candidate (by simpa using member)⟩
      | some here =>
          obtain ⟨best, run, source, above, all⟩ :=
            foldl_keepBetter_some agrees rest later (counting here List.mem_cons_self)
          refine .inr ⟨best, run, ?_, fun candidate member => ?_⟩
          · rcases source with rfl | inRest
            · exact List.mem_cons_self
            · exact List.mem_cons_of_mem _ inRest
          · rcases List.mem_cons.mp member with same | inRest
            · exact (Option.some.inj same) ▸ above
            · exact all candidate inRest

end

end BestOf

section Choices
variable {α : Type}

def choicesOf : List (Nat × List α) → List α → List (List α)
  | [], current => [current]
  | slot :: rest, current => slot.2.flatMap fun value => choicesOf rest (current.set slot.1 value)

theorem mem_choicesOf (slots : List (Nat × List α)) (current choice : List α)
    (distinct : (slots.map Prod.fst).Nodup) (inside : ∀ slot ∈ slots, slot.1 < current.length) :
    choice ∈ choicesOf slots current ↔ choice.length = current.length ∧
      (∀ slot ∈ slots, ∃ value ∈ slot.2, choice[slot.1]? = some value) ∧
      ∀ position, position ∉ slots.map Prod.fst → choice[position]? = current[position]? := by
  induction slots generalizing current with
  | nil =>
      rw [choicesOf, List.mem_singleton]
      constructor
      · rintro rfl
        exact ⟨rfl, fun _ member => absurd member List.not_mem_nil, fun _ _ => rfl⟩
      · rintro ⟨-, -, same⟩
        exact List.ext_getElem? fun position => same position List.not_mem_nil
  | cons slot rest ih =>
      obtain ⟨fresh, distinct⟩ := List.nodup_cons.mp distinct
      have known : slot.1 < current.length := inside slot List.mem_cons_self
      have later : ∀ value, ∀ other ∈ rest, other.1 < (current.set slot.1 value).length := fun value other member =>
        (List.length_set ..).symm ▸ inside other (List.mem_cons_of_mem _ member)
      rw [choicesOf, List.mem_flatMap]
      constructor
      · rintro ⟨value, member, chosen⟩
        obtain ⟨length, values, same⟩ := (ih (current.set slot.1 value) distinct (later value)).mp chosen
        refine ⟨length.trans (List.length_set ..), List.forall_mem_cons.mpr ⟨⟨value, member, ?_⟩, values⟩, ?_⟩
        · rw [same slot.1 fresh, List.getElem?_set_self known]
        · intro position outside
          obtain ⟨other, outside⟩ := not_or.mp fun listed => outside (List.mem_cons.mpr listed)
          rw [same position outside, List.getElem?_set_ne (Ne.symm other)]
      · rintro ⟨length, values, same⟩
        obtain ⟨⟨value, member, here⟩, values⟩ := List.forall_mem_cons.mp values
        refine ⟨value, member, (ih (current.set slot.1 value) distinct (later value)).mpr ⟨?_, values, ?_⟩⟩
        · rw [length, List.length_set]
        · intro position outside
          by_cases other : position = slot.1
          · rw [other, here, List.getElem?_set_self known]
          · rw [same position (List.not_mem_cons_of_ne_of_not_mem other outside), List.getElem?_set_ne (Ne.symm other)]

end Choices

end TtMlir
