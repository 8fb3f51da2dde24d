import TtMlir.Trace.Callers

/-!
The replay of a cached trace. A refresh copies the stamps of the inputs to the
slots one after the other; where no position disturbs a later one, the trace then
reads what the caller passed.
-/

namespace TtMlir.Trace

variable {Key Value : Type}

section Refresh
variable {machine : Machine Key Value} {op : TraceOp Value} {inputs inputSlots outputSlots : List Nat}

/-- A device-resident slot that a later position reads or fills again is to hold what that position
asks for. -/
def SlotsCalm (op : TraceOp Value) (inputs inputSlots : List Nat) (pool : Pool Value) : Prop :=
  Undisturbed (contents pool) ((inputs.zip inputSlots).take op.numDeviceResident)

/-- A live tensor with the version of a staged slot holds what the capture program writes into the
slot. -/
def StagedTell (op : TraceOp Value) (inputs inputSlots : List Nat) (machine : Machine Key Value) : Prop :=
  ∀ pair ∈ (inputs.zip inputSlots).drop op.numDeviceResident, ∀ tensor < machine.allocated,
    machine.live tensor = true → versions machine.wrappers tensor = versions machine.wrappers pair.2 →
      contents machine.wrappers tensor = contents machine.wrappers pair.1

theorem drop_pairs (count : Nat) (sources targets : List Nat) :
    (sources.zip targets).drop count = (sources.drop count).zip (targets.drop count) := List.drop_zipWith

theorem take_pairs (count : Nat) (sources targets : List Nat) :
    (sources.zip targets).take count = (sources.take count).zip (targets.take count) := List.take_zipWith

section
variable (slots : SlotsSound op machine inputSlots outputSlots) (placed : Placed op inputs machine)
include slots placed

theorem pair_placed (offset : Nat) (inside : offset < (inputs.zip inputSlots).length) :
    PairPlaced machine.wrappers (op.inDeviceMemory offset) (inputs.zip inputSlots)[offset] := by
  rw [List.length_zip] at inside
  rw [List.getElem_zip]
  constructor
  · exact placed.2.2 offset (by omega)
  · exact slots.buffers _ (List.mem_append_left _ (List.getElem_mem _))

theorem staged_placed (pair : Nat × Nat) (member : pair ∈ (inputs.zip inputSlots).drop op.numDeviceResident) :
    PairPlaced machine.wrappers false pair := by
  obtain ⟨offset, inside, rfl⟩ := List.mem_iff_getElem.mp member
  rw [List.getElem_drop]
  rw [List.length_drop] at inside
  have here := pair_placed slots placed (op.numDeviceResident + offset) (by omega)
  have onHost : op.inDeviceMemory (op.numDeviceResident + offset) = false :=
    decide_eq_false (by omega)
  rwa [onHost] at here

theorem staged_apart (slot : Nat) (staged : slot ∈ inputSlots.drop op.numDeviceResident) : slot ∉ inputs := by
  intro passed
  have notLive := (slots.separate slot staged).2
  rw [placed.2.1 slot passed] at notLive
  cases notLive

theorem undisturbed_zip (calm : SlotsCalm op inputs inputSlots machine.wrappers) :
    Undisturbed (contents machine.wrappers) (inputs.zip inputSlots) := by
  have splitPairs := List.take_append_drop op.numDeviceResident (inputs.zip inputSlots)
  have stagedSlot : ∀ pair ∈ (inputs.zip inputSlots).drop op.numDeviceResident,
      pair.2 ∈ inputSlots.drop op.numDeviceResident := by
    intro pair member
    rw [drop_pairs] at member
    exact (List.of_mem_zip member).2
  unfold Undisturbed
  rw [← splitPairs, List.pairwise_append]
  refine ⟨calm, ?_, ?_⟩
  · have different : (((inputs.zip inputSlots).drop op.numDeviceResident).map Prod.snd).Nodup := by
      have lengths : (inputSlots.drop op.numDeviceResident).length = (inputs.drop op.numDeviceResident).length := by
        rw [List.length_drop, List.length_drop, placed.1, slots.inputs_length]
      rw [drop_pairs, List.map_snd_zip (Nat.le_of_eq lengths)]
      exact slots.distinct
    refine (List.pairwise_map.mp different).imp_of_mem fun {early late} earlyIn lateIn differ touches => ?_
    rcases touches with same | reads
    · exact absurd same differ
    · have passed : late.1 ∈ inputs := (List.of_mem_zip (List.mem_of_mem_drop lateIn)).1
      exact absurd (reads ▸ passed) (staged_apart slots placed _ (stagedSlot early earlyIn))
  · intro early earlyIn late lateIn touches
    rcases touches with same | reads
    · have resident : early.2 ∈ inputSlots.take op.numDeviceResident := by
        rw [take_pairs] at earlyIn
        exact (List.of_mem_zip earlyIn).2
      exact absurd (same ▸ resident) (slots.separate _ (stagedSlot late lateIn)).1
    · -- a slot is on the device, a staged input on the host
      have onDevice : (machine.wrappers early.2).storageType = .device :=
        slots.buffers _ (List.mem_append_left _ (List.of_mem_zip (List.mem_of_mem_take earlyIn)).2)
      have onHost := (staged_placed slots placed late lateIn).1
      rw [← reads, onDevice] at onHost
      cases onHost

end

theorem refresh_copies {known : Nat → Prop} (slots : SlotsSound op machine inputSlots outputSlots)
    (placed : Placed op inputs machine) (deviceResidentOnly : Bool)
    (agree : Agree (fun tensor => machine.live tensor = true) known (stamps machine.wrappers))
    (lives : ∀ tensor, machine.live tensor = true → known tensor) (slotsKnown : ∀ slot ∈ inputSlots, known slot) :
    ∃ next, updateTraceInputSlots op inputs inputSlots deviceResidentOnly machine.wrappers = .ok next ∧
      SameStorage machine.wrappers next ∧
        stamps next = copies (refreshed op deviceResidentOnly 0 (inputs.zip inputSlots)) (stamps machine.wrappers) := by
  have lengths : ¬ inputs.length ≠ inputSlots.length := by
    rw [placed.1, slots.inputs_length]
    exact fun differ => differ rfl
  unfold updateTraceInputSlots
  rw [if_neg lengths]
  refine updateTraceInputSlotsFrom_copies op deviceResidentOnly lives 0 (inputs.zip inputSlots) machine.wrappers
    agree ?_ ?_
  · intro pair member
    obtain ⟨passed, slot⟩ := List.of_mem_zip member
    exact ⟨placed.2.1 pair.1 passed, slotsKnown pair.2 slot⟩
  · intro offset inside
    rw [Nat.zero_add]
    exact pair_placed slots placed offset inside

theorem execute_stamps (trace : MeshTrace Value) (pool : Pool Value) (tensor : Nat)
    (apart : tensor ∉ trace.outputSlots) : stamps (execute trace pool) tensor = stamps pool tensor :=
  Prod.ext (congrFun (execute_versions trace pool) tensor) (execute_frame trace pool tensor apart)

theorem Told.executed {live known published : Nat → Prop} {pool : Pool Value} (trace : MeshTrace Value)
    (told : Told live known published (stamps pool)) (lives : ∀ tensor, live tensor → known tensor)
    (outputs : ∀ slot ∈ trace.outputSlots, published slot) :
    Told live known published (stamps (execute trace pool)) := by
  refine told.congr lives ?_ ?_
  · intro tensor isKnown
    exact execute_stamps trace pool tensor fun output => told.separate (outputs tensor output) isKnown
  · intro tensor _
    exact congrFun (execute_versions trace pool) tensor

theorem slots_current (slots : SlotsSound op machine inputSlots outputSlots) (placed : Placed op inputs machine)
    (calm : SlotsCalm op inputs inputSlots machine.wrappers) (pool : Pool Value)
    (copied : contents pool = copies (inputs.zip inputSlots) (contents machine.wrappers)) :
    inputSlots.map (contents pool) = inputs.map (contents machine.wrappers) := by
  rw [copied]
  refine map_copies inputs inputSlots _ ?_ (undisturbed_zip slots placed calm)
  rw [placed.1, slots.inputs_length]

theorem execute_current (slots : SlotsSound op machine inputSlots outputSlots) (pool : Pool Value)
    (current : inputSlots.map (contents pool) = inputs.map (contents machine.wrappers)) :
    outputSlots.map (contents (execute ⟨op.traceFunc, inputSlots, outputSlots⟩ pool)) =
      op.traceFunc (inputs.map (contents machine.wrappers)) := by
  rw [← current]
  refine execute_outputs ⟨op.traceFunc, inputSlots, outputSlots⟩ pool slots.outputs_distinct ?_
  rw [slots.outputs_length]
  exact (op.traceFunc_length _).symm

theorem versions_copied {ops : Key → TraceOp Value} (sound : Sound ops machine) (pool : Pool Value)
    (pairs : List (Nat × Nat)) (copied : stamps pool = copies pairs (stamps machine.wrappers))
    (sources : ∀ pair ∈ pairs, machine.live pair.1 = true) (tensor : Nat) (inside : tensor < machine.allocated) :
    versions pool tensor < machine.latestVersion := by
  have version : versions pool tensor = (copies pairs (stamps machine.wrappers) tensor).1 := by
    rw [← copied]
    rfl
  rw [version]
  rcases copies_origin (fun tensor => machine.live tensor = true) pairs (stamps machine.wrappers) sources tensor with
    own | ⟨origin, live, held⟩
  · rw [own]
    exact sound.versions_used tensor inside
  · rw [held]
    exact sound.versions_used origin (sound.live_allocated origin live)

end Refresh

section Hits
variable {machine : Machine Key Value} {ops : Key → TraceOp Value} {key : Key} {inputs : List Nat}
  {traceData : TraceData}

theorem executeTrace_current (sound : Sound ops machine) (cached : machine.cache key = some traceData)
    (placed : Placed (ops key) inputs machine)
    (calm : SlotsCalm (ops key) inputs traceData.inputTensors machine.wrappers) :
    ∃ next, machine.executeTrace (ops key) inputs traceData = .ok (traceData.outputTensors, next) ∧
      traceData.outputTensors.map (contents next.wrappers) =
        (ops key).traceFunc (inputs.map (contents machine.wrappers)) ∧ Sound ops next := by
  have slots := sound.slots key traceData cached
  have slotsKnown : ∀ slot ∈ traceData.inputTensors, machine.Known slot :=
    fun slot member => Or.inr ⟨key, traceData, cached, member⟩
  obtain ⟨wrappers, refreshed, storage, copied⟩ :=
    refresh_copies slots placed false sound.told.agree (fun _ => Or.inl) slotsKnown
  rw [refreshed_all] at copied
  have sources : ∀ pair ∈ inputs.zip traceData.inputTensors, machine.live pair.1 = true :=
    fun pair member => placed.2.1 pair.1 (List.of_mem_zip member).1
  have targets : ∀ pair ∈ inputs.zip traceData.inputTensors, machine.Known pair.2 :=
    fun pair member => slotsKnown pair.2 (List.of_mem_zip member).2
  let trace : MeshTrace Value := ⟨(ops key).traceFunc, traceData.inputTensors, traceData.outputTensors⟩
  refine ⟨{ machine with wrappers := execute trace wrappers }, ?_, ?_, ?_⟩
  · unfold Machine.executeTrace publishTraceOutputs
    rw [refreshed, sound.captured key traceData cached, slots.outputs_length]
    rw [if_neg (fun differ => differ rfl)]
    rfl
  · refine execute_current slots wrappers (slots_current slots placed calm wrappers ?_)
    have parts := comp_copies Prod.snd (inputs.zip traceData.inputTensors) (stamps machine.wrappers)
    rw [← copied] at parts
    exact parts
  · refine sound.change _ _ _ _ (Nat.le_refl _) ?_ (fun _ _ live => live) sound.live_allocated ?_ ?_
    · intro tensor _
      exact (storage.trans (execute_storage trace wrappers)) tensor
    · intro tensor inside
      rw [execute_versions]
      exact versions_copied sound wrappers _ copied sources tensor inside
    · have told : Told (fun tensor => machine.live tensor = true) machine.Known machine.Published (stamps wrappers) := by
        rw [copied]
        exact sound.told.copied (fun _ => Or.inl) _ sources targets
      exact told.executed trace (fun _ => Or.inl) fun slot member => ⟨key, traceData, cached, member⟩

end Hits

end TtMlir.Trace
