import TtMlir.Trace.Capture

/-!
Every run of a trace op computes on the inputs it is given, in every interleaving of captures
and replays of several ops, as long as the capture program leaves no slot with a version that
another live tensor has and no device-resident slot is an input of a later position.
-/

namespace TtMlir.Trace

variable {Key Value : Type} [DecidableEq Key] [Inhabited Value]

def KeepsVersions (ops : Key → TraceOp Value) (machine : Machine Key Value) (key : Key) (inputs : List Nat) : Prop :=
  match machine.cache key with
  | none => True
  | some traceData =>
      SlotsCalm (ops key) inputs traceData.inputTensors machine.wrappers ∧
        (traceData.generationId < machine.generationId →
          StagedTell (ops key) inputs traceData.inputTensors machine)

section Runs
variable {ops : Key → TraceOp Value} {machine : Machine Key Value}

theorem run_current (sound : Sound ops machine) (key : Key) (inputs : List Nat)
    (placed : Placed (ops key) inputs machine) (keeps : KeepsVersions ops machine key inputs) :
    ∃ outputs next, machine.run ops key inputs = .ok (outputs, next) ∧
      outputs.map (contents next.wrappers) = (ops key).traceFunc (inputs.map (contents machine.wrappers)) ∧
        Sound ops next := by
  unfold KeepsVersions at keeps
  unfold Machine.run
  cases cached : machine.cache key with
  | none => exact firstCapture_current sound placed
  | some traceData =>
      rw [cached] at keeps
      obtain ⟨calm, tell⟩ := keeps
      dsimp only
      by_cases stale : traceData.generationId < machine.generationId
      · rw [if_pos stale]
        obtain ⟨next, recaptured, results, soundNext⟩ :=
          staleRecapture_current sound cached placed calm (tell stale)
        exact ⟨_, next, recaptured, results, soundNext⟩
      · rw [if_neg stale]
        obtain ⟨next, replayed, results, soundNext⟩ := executeTrace_current sound cached placed calm
        exact ⟨_, next, replayed, results, soundNext⟩

theorem perform_sound (sound : Sound ops machine) (action : Action Key Value)
    (permitted : Permitted ops (KeepsVersions ops) machine action) (next : Machine Key Value)
    (performed : perform ops action machine = .ok next) : Sound ops next := by
  cases action with
  | create storageType content =>
      cases performed
      exact createTensor_sound sound storageType content
  | update tensor content =>
      cases performed
      exact updateTensor_sound sound tensor content permitted
  | drop tensor =>
      cases performed
      exact dropTensor_sound sound tensor
  | run key inputs =>
      obtain ⟨placed, keeps⟩ := permitted
      obtain ⟨outputs, after, ran, _, soundAfter⟩ := run_current sound key inputs placed keeps
      rw [perform, ran] at performed
      cases performed
      exact soundAfter

theorem reachable_sound (reachable : Reachable ops (KeepsVersions ops) machine) : Sound ops machine := by
  induction reachable with
  | start => exact start_sound
  | step action _ permitted performed ih => exact perform_sound ih action permitted _ performed

omit [DecidableEq Key] [Inhabited Value] in
theorem Sound.versionsTell (sound : Sound ops machine) : machine.VersionsTell := by
  rintro tensor (live | published) slot isSlot same
  · exact (sound.told.agree tensor live slot (Or.inr isSlot) same.symm).symm
  · exact absurd same.symm (sound.told.apart tensor published slot (Or.inr isSlot))

end Runs

/-- In every state that callers reach, every run publishes the traced function of
what its inputs hold, and a slot with the version of a live tensor holds what that
tensor holds. -/
theorem runs_on_current_inputs (ops : Key → TraceOp Value) (machine : Machine Key Value)
    (reachable : Reachable ops (KeepsVersions ops) machine) (key : Key) (inputs : List Nat)
    (placed : Placed (ops key) inputs machine) (keeps : KeepsVersions ops machine key inputs) :
    machine.VersionsTell ∧ ∃ outputs next, machine.run ops key inputs = .ok (outputs, next) ∧
      outputs.map (contents next.wrappers) = (ops key).traceFunc (inputs.map (contents machine.wrappers)) ∧
        next.VersionsTell := by
  have sound := reachable_sound reachable
  obtain ⟨outputs, next, ran, results, soundNext⟩ := run_current sound key inputs placed keeps
  exact ⟨sound.versionsTell, outputs, next, ran, results, soundNext.versionsTell⟩

section Relay

def relay : Bool → TraceOp Nat := fun _ =>
  { numDeviceResident := 0
    numTensorInputs := 1
    numOutputs := 1
    traceFunc := fun contents => [contents.headD 0]
    grouped := Nat.zero_le 1
    traceFunc_length := fun _ => rfl }

instance (ops : Key → TraceOp Nat) (machine : Machine Key Nat) (key : Key) (inputs : List Nat) :
    Decidable (KeepsVersions ops machine key inputs) := by
  unfold KeepsVersions
  cases machine.cache key with
  | none => exact instDecidableTrue
  | some traceData =>
      unfold SlotsCalm StagedTell
      infer_instance

def reached : Except String (Machine Bool Nat) → Machine Bool Nat
  | .ok machine => machine
  | .error _ => Machine.start

def freshSteps : List (Action Bool Nat) :=
  [.create .host 20, .create .host 30, .run true [0], .run true [1], .run false [0]]

theorem runs_on_current_inputs_relay :
    (reached (script relay (KeepsVersions relay) freshSteps Machine.start)).VersionsTell ∧
      ∃ outputs next, (reached (script relay (KeepsVersions relay) freshSteps Machine.start)).run relay true [1] =
        .ok (outputs, next) ∧
        outputs.map (contents next.wrappers) = (relay true).traceFunc
          ([1].map (contents (reached (script relay (KeepsVersions relay) freshSteps Machine.start)).wrappers)) ∧
          next.VersionsTell :=
  runs_on_current_inputs relay _ (reachable_script relay (KeepsVersions relay) freshSteps Machine.start _ .start rfl)
    true [1] (by decide) (by decide)

def Unrestricted (_ : Machine Bool Nat) (_ : Bool) (_ : List Nat) : Prop := True

instance (machine : Machine Bool Nat) (key : Bool) (inputs : List Nat) : Decidable (Unrestricted machine key inputs) :=
  instDecidableTrue

/-- A capture and a replay on one tensor, a capture of the other op and the
recapture of the first on another tensor. -/
def staleSteps : List (Action Bool Nat) :=
  [.create .host 20, .create .host 30, .run true [0], .run true [0], .run false [0], .run true [1]]

def staleMachine : Machine Bool Nat := reached (script relay Unrestricted staleSteps Machine.start)

/-- The recapture leaves the slot with the version of the first tensor and the
content of the second, so the next run on the first tensor skips the copy. -/
theorem recaptured_slot_skipped :
    Reachable relay Unrestricted staleMachine ∧ Placed (relay true) [0] staleMachine ∧
      ¬ staleMachine.VersionsTell ∧ ∃ outputs next, staleMachine.run relay true [0] = .ok (outputs, next) ∧
        outputs.map (contents next.wrappers) ≠ (relay true).traceFunc ([0].map (contents staleMachine.wrappers)) := by
  refine ⟨reachable_script relay Unrestricted staleSteps Machine.start _ .start rfl, by decide, ?_, ?_⟩
  · intro tell
    have same := tell 0 (Or.inl rfl) 2 ⟨true, _, rfl, by decide⟩ (by decide)
    exact absurd same (by decide)
  · exact ⟨_, _, rfl, by decide⟩

end Relay

end TtMlir.Trace
