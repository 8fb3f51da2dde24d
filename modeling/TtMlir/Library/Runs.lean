import TtMlir.Library.EventLog

/-!
Runs of a system whose steps are a partial function of the action and the
state, and the rule for what holds in every state that a run reaches.
-/

namespace TtMlir

variable {Action State : Type}

inductive Reaches (step : Action → State → Option State) (start : State) : State → Prop where
  | start : Reaches step start start
  | step {state next : State} (action : Action) : Reaches step start state → step action state = some next →
      Reaches step start next

namespace Reaches

variable {step : Action → State → Option State} {start state : State}

theorem invariant (holds : State → Prop) (initial : holds start)
    (kept : ∀ action state next, holds state → step action state = some next → holds next)
    (reached : Reaches step start state) : holds state := by
  induction reached with
  | start => exact initial
  | step action _ performed ih => exact kept action _ _ ih performed

theorem trans {middle : State} (first : Reaches step start middle) (second : Reaches step middle state) :
    Reaches step start state := by
  induction second with
  | start => exact first
  | step action _ performed ih => exact ih.step action performed

/-- While a goal is not met some step comes nearer to it: then some run meets it. -/
theorem of_nearer {Rank : Type} {less : Rank → Rank → Prop} (wellFounded : WellFounded less) (rank : State → Rank)
    (good goal : State → Prop) (nearer : ∀ state, good state → ¬ goal state → ∃ action next,
      step action state = some next ∧ good next ∧ less (rank next) (rank state)) (holds : good state) :
    ∃ final, Reaches step state final ∧ good final ∧ goal final := by
  induction state using (InvImage.wf rank wellFounded).induction with
  | _ state ih =>
      by_cases met : goal state
      · exact ⟨state, .start, holds, met⟩
      · obtain ⟨action, next, performed, kept, less⟩ := nearer state holds met
        obtain ⟨final, later, done⟩ := ih next less kept
        exact ⟨final, (Reaches.start.step action performed).trans later, done⟩

theorem of_replay (actions : List Action) (replayed : EventLog.replay step actions start = some state) :
    Reaches step start state := by
  induction actions generalizing start with
  | nil =>
      cases replayed
      exact .start
  | cons action rest ih =>
      simp only [EventLog.replay, Option.bind_eq_some_iff] at replayed
      obtain ⟨middle, performed, later⟩ := replayed
      have first : Reaches step start middle := Reaches.start.step action performed
      exact first.trans (ih later)

end Reaches

end TtMlir
