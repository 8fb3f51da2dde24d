import Mathlib.Data.List.Basic

/-!
Postconditions of computations that may break off: `Ends errors post outcome`
says that an outcome is either an error of the allowed kind or a value with the
postcondition. The rules follow the structure of the computation.
-/

namespace TtMlir

def Ends {ε α : Type} (errors : ε → Prop) (post : α → Prop) : Except ε α → Prop
  | .ok value => post value
  | .error failure => errors failure

section Rules
variable {ε α β : Type} {errors : ε → Prop}

theorem ends_bind {middle : α → Prop} {post : β → Prop} {first : Except ε α} {rest : α → Except ε β}
    (firstEnds : Ends errors middle first) (restEnds : ∀ value, middle value → Ends errors post (rest value)) :
    Ends errors post (first >>= rest) := by
  cases first with
  | ok value => exact restEnds value firstEnds
  | error failure => exact firstEnds

theorem ends_then {post : β → Prop} {first : Except ε α} {rest : α → Except ε β}
    (firstEnds : Ends errors (fun _ => True) first) (restEnds : ∀ value, Ends errors post (rest value)) :
    Ends errors post (first >>= rest) :=
  ends_bind firstEnds fun value _ => restEnds value

theorem ends_foldlM {invariant : β → Prop} (round : β → α → Except ε β) (values : List α)
    (keeps : ∀ state, invariant state → ∀ value ∈ values, Ends errors invariant (round state value))
    (state : β) (start : invariant state) : Ends errors invariant (values.foldlM round state) := by
  induction values generalizing state with
  | nil => exact start
  | cons value rest ih =>
      rw [List.foldlM_cons]
      refine ends_bind (keeps state start value List.mem_cons_self) fun next holds => ?_
      exact ih (fun state holds other member => keeps state holds other (List.mem_cons_of_mem _ member)) next holds

theorem ends_total {post : α → Prop} {outcome : Except ε α} (ends : Ends (fun _ => False) post outcome) :
    ∃ value, outcome = .ok value ∧ post value := by
  cases outcome with
  | ok value => exact ⟨value, rfl, ends⟩
  | error failure => exact False.elim ends

theorem ends_error {post : α → Prop} {outcome : Except ε α} {failure : ε} (ends : Ends errors post outcome)
    (ended : outcome = .error failure) : errors failure := by
  subst ended
  exact ends

theorem bind_ended {first : Except ε α} {rest : α → Except ε β} {value : β} (ended : (first >>= rest) = .ok value) :
    ∃ middle, first = .ok middle ∧ rest middle = .ok value := by
  cases first with
  | ok middle => exact ⟨middle, rfl, ended⟩
  | error failure => cases ended

end Rules

end TtMlir
