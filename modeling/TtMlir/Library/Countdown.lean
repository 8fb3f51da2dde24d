import Mathlib.Data.List.Basic

/-!
Counting loops. What a body at `i` keeps, from one bound to the next, holds
after the loop.
-/

namespace TtMlir

/-- `for (i = bound - 1; i >= 0; --i)`. -/
def countdown {State : Type} (body : Nat → State → State) : Nat → State → State
  | 0, state => state
  | bound + 1, state => countdown body bound (body bound state)

theorem countdown_invariant {State : Type} {body : Nat → State → State} {bound : Nat} {state : State}
    (invariant : Nat → State → Prop) (start : invariant bound state)
    (step : ∀ i < bound, ∀ before, invariant (i + 1) before → invariant i (body i before)) :
    invariant 0 (countdown body bound state) := by
  induction bound generalizing state with
  | zero => exact start
  | succ bound ih =>
      apply ih
      · exact step bound (Nat.lt_succ_self _) state start
      · intro i below before kept
        exact step i (Nat.lt_succ_of_lt below) before kept

theorem countdown_peel {State : Type} (body : Nat → State → State) (bound : Nat) (state : State) :
    countdown body (bound + 1) state = body 0 (countdown (fun i => body (i + 1)) bound state) := by
  induction bound generalizing state with
  | zero => rfl
  | succ bound ih => exact ih (body (bound + 1) state)

theorem countdown_congr {State : Type} (body other : Nat → State → State) (bound : Nat) (state : State)
    (same : ∀ i < bound, ∀ before, body i before = other i before) :
    countdown body bound state = countdown other bound state := by
  induction bound generalizing state with
  | zero => rfl
  | succ bound ih =>
      rw [countdown, countdown, same bound (Nat.lt_succ_self _)]
      exact ih _ fun i below => same i (Nat.lt_succ_of_lt below)

theorem foldlM_range_invariant {State : Type} {body : State → Nat → Option State} {bound : Nat} {state : State}
    (invariant : Nat → State → Prop) (start : invariant 0 state)
    (step : ∀ i < bound, ∀ before, invariant i before → ∃ after, body before i = some after ∧ invariant (i + 1) after) :
    ∃ after, (List.range bound).foldlM body state = some after ∧ invariant bound after := by
  induction bound with
  | zero => exact ⟨state, rfl, start⟩
  | succ bound ih =>
      obtain ⟨before, runs, kept⟩ := ih fun i below => step i (Nat.lt_succ_of_lt below)
      obtain ⟨after, last, holds⟩ := step bound (Nat.lt_succ_self _) before kept
      refine ⟨after, ?_, holds⟩
      simp only [List.range_succ, List.foldlM_append, runs, List.foldlM_cons, List.foldlM_nil, last, Option.bind_some,
        bind, pure]

end TtMlir
