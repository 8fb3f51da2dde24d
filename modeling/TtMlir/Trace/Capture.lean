import TtMlir.Trace.Replay

/-!
Both captures of a trace, the first one and that of a stale trace. They end the
same way: the device-resident slots are refreshed, the capture program writes the
host inputs into their slots itself, and the entry goes into the cache.
-/

namespace TtMlir.Trace

variable {Key Value : Type}

section Captures
variable [DecidableEq Key] {machine : Machine Key Value} {ops : Key → TraceOp Value} {key : Key}
  {inputs inputSlots outputSlots : List Nat}

/-- The tail that both captures share: refresh the device-resident slots, capture
and put the entry into the cache. -/
def capturedInto (op : TraceOp Value) (key : Key) (inputs inputSlots outputSlots : List Nat)
    (machine : Machine Key Value) : Except String (List Nat × Machine Key Value) := do
  let wrappers ← updateTraceInputSlots op inputs inputSlots true machine.wrappers
  let ((traceData, outputs), machine) ←
    { machine with wrappers }.captureTrace op inputs inputSlots outputSlots machine.generationId
  .ok (outputs, machine.insert key traceData)

omit [DecidableEq Key] in
theorem captureProgram_arguments (op : TraceOp Value) (machine : Machine Key Value)
    (staged inputSlots outputSlots : List Nat)
    (stagedLength : staged.length = op.numTensorInputs - op.numDeviceResident)
    (inputsLength : inputSlots.length = op.numTensorInputs) (outputsLength : outputSlots.length = op.numOutputs) :
    machine.captureProgram op (staged ++ inputSlots ++ outputSlots) = (do
      let written ← writeHostStaged (staged.zip (inputSlots.drop op.numDeviceResident)) machine.wrappers
      let trace : MeshTrace Value := ⟨op.traceFunc, inputSlots, outputSlots⟩
      .ok (machine.nextTraceId,
        { machine with
          wrappers := execute trace (execute trace written)
          meshTraces := Function.update machine.meshTraces machine.nextTraceId (some trace)
          nextTraceId := machine.nextTraceId + 1 })) := by
  have first : (staged ++ inputSlots ++ outputSlots).take (op.numTensorInputs - op.numDeviceResident) = staged := by
    rw [List.append_assoc, ← stagedLength, List.take_left]
  have second : ((staged ++ inputSlots ++ outputSlots).drop (op.numTensorInputs - op.numDeviceResident)).take
      op.numTensorInputs = inputSlots := by
    rw [List.append_assoc, ← stagedLength, List.drop_left, ← inputsLength, List.take_left]
  have third : ((staged ++ inputSlots ++ outputSlots).drop
      (op.numTensorInputs - op.numDeviceResident + op.numTensorInputs)).take op.numOutputs = outputSlots := by
    rw [← stagedLength, ← inputsLength, ← List.length_append, List.drop_left, ← outputsLength, List.take_length]
  unfold Machine.captureProgram
  dsimp only
  rw [first, second, third]

omit [DecidableEq Key] in
theorem told_staged {known published : Nat → Prop} (sound : Sound ops machine)
    (slots : SlotsSound (ops key) machine inputSlots outputSlots) (placed : Placed (ops key) inputs machine)
    (calm : SlotsCalm (ops key) inputs inputSlots machine.wrappers)
    (tell : StagedTell (ops key) inputs inputSlots machine) (refreshed written : Pool Value)
    (copied : stamps refreshed = copies ((inputs.zip inputSlots).take (ops key).numDeviceResident)
      (stamps machine.wrappers))
    (sameVersions : versions written = versions refreshed)
    (allCopied : contents written = copies (inputs.zip inputSlots) (contents machine.wrappers))
    (staged : contents written = copies ((inputs.zip inputSlots).drop (ops key).numDeviceResident) (contents refreshed))
    (told : Told (fun tensor => machine.live tensor = true) known published (stamps refreshed)) :
    Told (fun tensor => machine.live tensor = true) known published (stamps written) := by
  have stagedSlot : ∀ pair ∈ (inputs.zip inputSlots).drop (ops key).numDeviceResident,
      pair.2 ∈ inputSlots.drop (ops key).numDeviceResident := by
    intro pair member
    rw [drop_pairs] at member
    exact (List.of_mem_zip member).2
  have version : ∀ tensor, (stamps written tensor).1 = (stamps refreshed tensor).1 := congrFun sameVersions
  constructor
  · intro tensor live slot isKnown same
    rw [version, version] at same
    -- the staged slots are not live, so a live tensor keeps its content
    have liveKept : (stamps written tensor).2 = (stamps refreshed tensor).2 := by
      have kept := copies_frame ((inputs.zip inputSlots).drop (ops key).numDeviceResident) (contents refreshed) tensor
      rw [← staged] at kept
      refine kept fun pair member target => ?_
      have notLive := (slots.separate pair.2 (stagedSlot pair member)).2
      rw [target, live] at notLive
      cases notLive
    rw [liveKept]
    -- a slot written by the second copy, or one that kept its content
    by_cases target : ∃ pair ∈ (inputs.zip inputSlots).drop (ops key).numDeviceResident, pair.2 = slot
    · obtain ⟨pair, member, rfl⟩ := target
      have holds : (stamps written pair.2).2 = contents machine.wrappers pair.1 := by
        have reached := copies_target _ _ (undisturbed_zip slots placed calm) pair (List.mem_of_mem_drop member)
        rw [← allCopied] at reached
        exact reached
      have slotVersion : stamps refreshed pair.2 = stamps machine.wrappers pair.2 := by
        rw [copied]
        refine copies_frame _ _ _ fun other resident target => ?_
        rw [take_pairs] at resident
        exact (slots.separate _ (stagedSlot pair member)).1 (target ▸ (List.of_mem_zip resident).2)
      -- the tensor's stamp came from a live tensor, its own or a copied one
      obtain ⟨origin, originLive, originHolds⟩ : ∃ origin, machine.live origin = true ∧
          stamps refreshed tensor = stamps machine.wrappers origin := by
        rw [copied]
        rcases copies_origin (fun tensor => machine.live tensor = true) _ (stamps machine.wrappers)
          (fun other resident => placed.2.1 other.1 (List.of_mem_zip (List.mem_of_mem_take resident)).1) tensor with
          own | moved
        · exact ⟨tensor, live, own⟩
        · exact moved
      rw [holds, originHolds]
      rw [originHolds, slotVersion] at same
      exact tell pair member origin (sound.live_allocated origin originLive) originLive same
    · have slotKept : (stamps written slot).2 = (stamps refreshed slot).2 := by
        have kept := copies_frame ((inputs.zip inputSlots).drop (ops key).numDeviceResident) (contents refreshed) slot
        rw [← staged] at kept
        exact kept fun pair member same => target ⟨pair, member, same⟩
      rw [slotKept]
      exact told.agree tensor live slot isKnown same
  · intro output isPublished tensor isKnown
    rw [version, version]
    exact told.apart output isPublished tensor isKnown

theorem insert_sound (sound : Sound ops machine) (slots : SlotsSound (ops key) machine inputSlots outputSlots)
    (pool : Pool Value) (storage : SameStorage machine.wrappers pool)
    (used : ∀ tensor, tensor < machine.allocated → versions pool tensor < machine.latestVersion)
    (told : Told (fun tensor => machine.live tensor = true) (fun tensor => machine.Known tensor ∨ tensor ∈ inputSlots)
      (fun tensor => machine.Published tensor ∨ tensor ∈ outputSlots) (stamps pool)) :
    Sound ops (Machine.insert key ⟨machine.nextTraceId, inputSlots, outputSlots, machine.generationId⟩
      { machine with
        wrappers := pool
        meshTraces := Function.update machine.meshTraces machine.nextTraceId
          (some ⟨(ops key).traceFunc, inputSlots, outputSlots⟩)
        nextTraceId := machine.nextTraceId + 1 }) := by
  let entry : TraceData := ⟨machine.nextTraceId, inputSlots, outputSlots, machine.generationId⟩
  -- a cached trace is the new one under its key, or an old one
  have entries : ∀ other traceData, Function.update machine.cache key (some entry) other = some traceData →
      (other = key ∧ traceData = entry) ∨ machine.cache other = some traceData := by
    intro other traceData cached
    by_cases same : other = key
    · rw [same, Function.update_self] at cached
      cases cached
      exact Or.inl ⟨same, rfl⟩
    · rw [Function.update_of_ne same] at cached
      exact Or.inr cached
  -- trace ids grow, so the new id belongs to no old entry
  have older : ∀ other traceData, machine.cache other = some traceData → traceData.traceId ≠ machine.nextTraceId :=
    fun other traceData cached => Nat.ne_of_lt (sound.trace_ids other traceData cached)
  constructor
  · exact sound.live_allocated
  · exact used
  · intro other traceData cached
    rcases entries other traceData cached with ⟨rfl, rfl⟩ | old
    · exact slots.carry (Nat.le_refl _) (fun tensor _ => storage tensor) (fun _ _ live => live)
    · exact (sound.slots other traceData old).carry (Nat.le_refl _) (fun tensor _ => storage tensor)
        (fun _ _ live => live)
  · intro other traceData cached
    rcases entries other traceData cached with ⟨rfl, rfl⟩ | old
    · exact Function.update_self _ _ _
    · exact (Function.update_of_ne (older other traceData old) _ _).trans (sound.captured other traceData old)
  · intro other traceData cached
    rcases entries other traceData cached with ⟨rfl, rfl⟩ | old
    · exact Nat.lt_succ_self _
    · exact Nat.lt_succ_of_lt (sound.trace_ids other traceData old)
  · intro first firstData second secondData firstCached secondCached same
    rcases entries first firstData firstCached with ⟨rfl, rfl⟩ | firstOld
    · rcases entries second secondData secondCached with ⟨rfl, rfl⟩ | secondOld
      · rfl
      · exact absurd same.symm (older second secondData secondOld)
    · rcases entries second secondData secondCached with ⟨rfl, rfl⟩ | secondOld
      · exact absurd same (older first firstData firstOld)
      · exact sound.own_trace first firstData second secondData firstOld secondOld same
  · intro other traceData cached
    rcases entries other traceData cached with ⟨rfl, rfl⟩ | old
    · exact Nat.le_refl _
    · exact sound.generations other traceData old
  · refine told.mono (fun _ live => live) ?_ ?_
    · rintro tensor (live | ⟨other, traceData, cached, member⟩)
      · exact Or.inl (Or.inl live)
      · rcases entries other traceData cached with ⟨rfl, rfl⟩ | old
        · exact Or.inr member
        · exact Or.inl (Or.inr ⟨other, traceData, old, member⟩)
    · rintro tensor ⟨other, traceData, cached, member⟩
      rcases entries other traceData cached with ⟨rfl, rfl⟩ | old
      · exact Or.inr member
      · exact Or.inl ⟨other, traceData, old, member⟩

theorem capturedInto_current (sound : Sound ops machine)
    (slots : SlotsSound (ops key) machine inputSlots outputSlots) (placed : Placed (ops key) inputs machine)
    (calm : SlotsCalm (ops key) inputs inputSlots machine.wrappers)
    (tell : StagedTell (ops key) inputs inputSlots machine)
    (told : Told (fun tensor => machine.live tensor = true) (fun tensor => machine.Known tensor ∨ tensor ∈ inputSlots)
      (fun tensor => machine.Published tensor ∨ tensor ∈ outputSlots) (stamps machine.wrappers)) :
    ∃ next, capturedInto (ops key) key inputs inputSlots outputSlots machine = .ok (outputSlots, next) ∧
      outputSlots.map (contents next.wrappers) = (ops key).traceFunc (inputs.map (contents machine.wrappers)) ∧
        Sound ops next := by
  have lives : ∀ tensor, machine.live tensor = true → machine.Known tensor ∨ tensor ∈ inputSlots :=
    fun _ live => Or.inl (Or.inl live)
  obtain ⟨refreshed, updated, storage, copied⟩ :=
    refresh_copies slots placed true told.agree lives fun _ member => Or.inr member
  rw [refreshed_resident, Nat.sub_zero] at copied
  obtain ⟨written, staged, writtenStorage, sameVersions, stagedContents⟩ :=
    writeHostStaged_copies ((inputs.zip inputSlots).drop (ops key).numDeviceResident) refreshed
      fun pair member => (staged_placed slots placed pair member).carry storage
  -- the refresh and the writes together are the copies of all positions
  have allCopied : contents written = copies (inputs.zip inputSlots) (contents machine.wrappers) := by
    have parts := comp_copies Prod.snd ((inputs.zip inputSlots).take (ops key).numDeviceResident)
      (stamps machine.wrappers)
    rw [← copied] at parts
    have joined := copies_append ((inputs.zip inputSlots).take (ops key).numDeviceResident)
      ((inputs.zip inputSlots).drop (ops key).numDeviceResident) (contents machine.wrappers)
    rw [List.take_append_drop] at joined
    rw [stagedContents, joined]
    exact congrArg _ parts
  have sources : ∀ pair ∈ (inputs.zip inputSlots).take (ops key).numDeviceResident, machine.live pair.1 = true :=
    fun pair member => placed.2.1 pair.1 (List.of_mem_zip (List.mem_of_mem_take member)).1
  have targets : ∀ pair ∈ (inputs.zip inputSlots).take (ops key).numDeviceResident,
      machine.Known pair.2 ∨ pair.2 ∈ inputSlots :=
    fun pair member => Or.inr (List.of_mem_zip (List.mem_of_mem_take member)).2
  have toldRefreshed := told.copied lives _ sources targets
  rw [← copied] at toldRefreshed
  have toldWritten := told_staged sound slots placed calm tell refreshed written copied sameVersions allCopied
    stagedContents toldRefreshed
  let trace : MeshTrace Value := ⟨(ops key).traceFunc, inputSlots, outputSlots⟩
  have apart : ∀ slot ∈ inputSlots, slot ∉ outputSlots :=
    fun slot input output => told.separate (Or.inr output) (Or.inr input)
  have outputsPublished : ∀ slot ∈ trace.outputSlots, machine.Published slot ∨ slot ∈ outputSlots :=
    fun _ member => Or.inr member
  have toldReplayed := (toldWritten.executed trace lives outputsPublished).executed trace lives outputsPublished
  refine ⟨_, ?_, ?_, insert_sound sound slots (execute trace (execute trace written)) ?_ ?_ toldReplayed⟩
  · have stagedLength : (inputs.drop (ops key).numDeviceResident).length =
        (ops key).numTensorInputs - (ops key).numDeviceResident := by rw [List.length_drop, placed.1]
    have stagedPairs : (inputs.drop (ops key).numDeviceResident).zip (inputSlots.drop (ops key).numDeviceResident) =
        (inputs.zip inputSlots).drop (ops key).numDeviceResident := (drop_pairs _ _ _).symm
    unfold capturedInto Machine.captureTrace publishTraceOutputs
    rw [updated]
    dsimp only [bind, Except.bind]
    rw [captureProgram_arguments (ops key) _ _ inputSlots outputSlots stagedLength slots.inputs_length
      slots.outputs_length, stagedPairs]
    dsimp only
    rw [staged, if_neg fun differ => differ slots.outputs_length.symm]
    rfl
  · refine execute_current slots (execute trace written) ?_
    exact (execute_twice trace written apart).trans (slots_current slots placed calm written allCopied)
  · exact (storage.trans writtenStorage).trans
      ((execute_storage trace written).trans (execute_storage trace (execute trace written)))
  · intro tensor inside
    rw [execute_versions, execute_versions, sameVersions]
    exact versions_copied sound refreshed _ copied sources tensor inside

end Captures

section Recapture
variable [DecidableEq Key] {machine : Machine Key Value} {ops : Key → TraceOp Value} {key : Key}
  {inputs : List Nat} {traceData : TraceData}

def takenOut (key : Key) (traceId : Nat) (machine : Machine Key Value) : Machine Key Value :=
  { machine with
    meshTraces := Function.update machine.meshTraces traceId none
    cache := Function.update machine.cache key none }

theorem takenOut_cache (traceId : Nat) (other : Key) (otherData : TraceData)
    (kept : (takenOut key traceId machine).cache other = some otherData) :
    machine.cache other = some otherData ∧ other ≠ key := by
  dsimp only [takenOut] at kept
  by_cases same : other = key
  · rw [same, Function.update_self] at kept
    cases kept
  · rw [Function.update_of_ne same] at kept
    exact ⟨kept, same⟩

theorem takenOut_known (traceId tensor : Nat) (known : (takenOut key traceId machine).Known tensor) :
    machine.Known tensor := by
  rcases known with live | ⟨other, otherData, kept, member⟩
  · exact Or.inl live
  · exact Or.inr ⟨other, otherData, (takenOut_cache traceId other otherData kept).1, member⟩

theorem takenOut_published (traceId tensor : Nat) (published : (takenOut key traceId machine).Published tensor) :
    machine.Published tensor := by
  obtain ⟨other, otherData, kept, member⟩ := published
  exact ⟨other, otherData, (takenOut_cache traceId other otherData kept).1, member⟩

theorem takenOut_sound (sound : Sound ops machine) (cached : machine.cache key = some traceData) :
    Sound ops (takenOut key traceData.traceId machine) := by
  have older : ∀ other otherData, (takenOut key traceData.traceId machine).cache other = some otherData →
      machine.cache other = some otherData ∧ other ≠ key := takenOut_cache traceData.traceId
  constructor
  · exact sound.live_allocated
  · exact sound.versions_used
  · intro other otherData kept
    exact (sound.slots other otherData (older other otherData kept).1).carry (Nat.le_refl _) (fun _ _ => rfl)
      (fun _ _ live => live)
  · intro other otherData kept
    obtain ⟨old, differs⟩ := older other otherData kept
    have otherTrace : otherData.traceId ≠ traceData.traceId :=
      fun same => differs (sound.own_trace other otherData key traceData old cached same)
    exact (Function.update_of_ne otherTrace _ _).trans (sound.captured other otherData old)
  · exact fun other otherData kept => sound.trace_ids other otherData (older other otherData kept).1
  · intro first firstData second secondData firstKept secondKept
    exact sound.own_trace first firstData second secondData (older _ _ firstKept).1 (older _ _ secondKept).1
  · exact fun other otherData kept => sound.generations other otherData (older other otherData kept).1
  · exact sound.told.mono (fun _ live => live) (takenOut_known _) (takenOut_published _)

theorem staleRecapture_current (sound : Sound ops machine) (cached : machine.cache key = some traceData)
    (placed : Placed (ops key) inputs machine)
    (calm : SlotsCalm (ops key) inputs traceData.inputTensors machine.wrappers)
    (tell : StagedTell (ops key) inputs traceData.inputTensors machine) :
    ∃ next, machine.staleRecapture (ops key) key inputs = .ok (traceData.outputTensors, next) ∧
      traceData.outputTensors.map (contents next.wrappers) =
        (ops key).traceFunc (inputs.map (contents machine.wrappers)) ∧ Sound ops next := by
  have slots : SlotsSound (ops key) (takenOut key traceData.traceId machine) traceData.inputTensors
      traceData.outputTensors :=
    (sound.slots key traceData cached).carry (Nat.le_refl _) (fun _ _ => rfl) (fun _ _ live => live)
  have told : Told (fun tensor => machine.live tensor = true)
      (fun tensor => (takenOut key traceData.traceId machine).Known tensor ∨ tensor ∈ traceData.inputTensors)
      (fun tensor => (takenOut key traceData.traceId machine).Published tensor ∨ tensor ∈ traceData.outputTensors)
      (stamps machine.wrappers) := by
    refine sound.told.mono (fun _ live => live) ?_ ?_
    · rintro tensor (known | member)
      · exact takenOut_known _ tensor known
      · exact Or.inr ⟨key, traceData, cached, member⟩
    · rintro tensor (published | member)
      · exact takenOut_published _ tensor published
      · exact ⟨key, traceData, cached, member⟩
  obtain ⟨next, captured, results, soundNext⟩ :=
    capturedInto_current (takenOut_sound sound cached) slots placed calm tell told
  refine ⟨next, ?_, results, soundNext⟩
  unfold Machine.staleRecapture Machine.take
  rw [cached]
  exact captured

end Recapture

section FirstCapture
variable {machine : Machine Key Value} {ops : Key → TraceOp Value} {key : Key} {inputs : List Nat}

/-- The input slots of a first capture: the device-resident inputs, then new buffers. -/
def firstInputSlots (op : TraceOp Value) (inputs : List Nat) (allocated : Nat) : List Nat :=
  inputs.take op.numDeviceResident ++ List.range' allocated (op.numTensorInputs - op.numDeviceResident)

def firstOutputSlots (op : TraceOp Value) (allocated : Nat) : List Nat :=
  List.range' (allocated + (op.numTensorInputs - op.numDeviceResident)) op.numOutputs

def newSlotCount (op : TraceOp Value) : Nat := op.numTensorInputs - op.numDeviceResident + op.numOutputs

section
variable (op : TraceOp Value) (placed : Placed op inputs machine) (allocated : Nat)
include placed

theorem firstInputSlots_resident :
    (firstInputSlots op inputs allocated).take op.numDeviceResident = inputs.take op.numDeviceResident := by
  apply List.take_left'
  rw [List.length_take, placed.1, Nat.min_eq_left op.grouped]

theorem firstInputSlots_staged :
    (firstInputSlots op inputs allocated).drop op.numDeviceResident =
      List.range' allocated (op.numTensorInputs - op.numDeviceResident) := by
  apply List.drop_left'
  rw [List.length_take, placed.1, Nat.min_eq_left op.grouped]

theorem firstInputSlots_length :
    (firstInputSlots op inputs allocated).length = op.numTensorInputs := by
  rw [firstInputSlots, List.length_append, List.length_take, placed.1, Nat.min_eq_left op.grouped, List.length_range',
    Nat.add_sub_cancel' op.grouped]

end

theorem firstSlots_cases (op : TraceOp Value) (allocated slot : Nat)
    (member : slot ∈ firstInputSlots op inputs allocated ++ firstOutputSlots op allocated) :
    slot ∈ inputs.take op.numDeviceResident ∨ allocated ≤ slot ∧ slot < allocated + newSlotCount op := by
  unfold firstInputSlots firstOutputSlots at member
  unfold newSlotCount
  rcases List.mem_append.mp member with input | output
  · rcases List.mem_append.mp input with passed | new
    · exact Or.inl passed
    · have bounds := List.mem_range'_1.mp new
      exact Or.inr ⟨bounds.1, by omega⟩
  · have bounds := List.mem_range'_1.mp output
    exact Or.inr ⟨by omega, by omega⟩

theorem input_old (sound : Sound ops machine) (placed : Placed (ops key) inputs machine) (input : Nat)
    (member : input ∈ inputs) : input < machine.allocated := sound.live_allocated input (placed.2.1 input member)

variable [Inhabited Value]

theorem newSlots_spec (count : Nat) (machine : Machine Key Value) :
    Machine.newSlots count machine =
      { machine with
        wrappers := (Machine.newSlots count machine).wrappers
        allocated := machine.allocated + count
        latestVersion := machine.latestVersion + count } ∧
      (∀ tensor, tensor < machine.allocated →
        (Machine.newSlots count machine).wrappers tensor = machine.wrappers tensor) ∧
      ∀ slot, machine.allocated ≤ slot → slot < machine.allocated + count →
        (Machine.newSlots count machine).wrappers slot =
          ⟨.device, default, machine.latestVersion + (slot - machine.allocated)⟩ := by
  induction count generalizing machine with
  | zero => exact ⟨rfl, fun _ _ => rfl, fun slot beyond inside => absurd inside (Nat.not_lt.mpr beyond)⟩
  | succ count ih =>
      obtain ⟨shape, older, newer⟩ := ih (machine.newTensor .device default)
      refine ⟨?_, ?_, ?_⟩
      · rw [Machine.newSlots, shape]
        simp only [Machine.newTensor, Nat.add_right_comm _ 1 count, Nat.add_assoc]
      · intro tensor inside
        rw [Machine.newSlots, older tensor (Nat.lt_succ_of_lt inside), newTensor_wrappers,
          Function.update_of_ne (Nat.ne_of_lt inside)]
      · intro slot beyond inside
        rw [Machine.newSlots]
        by_cases first : slot = machine.allocated
        · rw [first, older machine.allocated (Nat.lt_succ_self _), newTensor_wrappers, Function.update_self,
            Nat.sub_self, Nat.add_zero]
        · have later : machine.allocated + 1 ≤ slot := by omega
          have version : machine.latestVersion + 1 + (slot - (machine.allocated + 1)) =
              machine.latestVersion + (slot - machine.allocated) := by omega
          have grown : (machine.newTensor .device default).allocated = machine.allocated + 1 := rfl
          rw [newer slot later (by rw [grown]; omega), ← version]
          rfl

theorem allocateTraceSlots_split (op : TraceOp Value) (inputs : List Nat) (machine : Machine Key Value) :
    machine.allocateTraceSlots op inputs =
      (firstInputSlots op inputs machine.allocated ++ firstOutputSlots op machine.allocated,
        Machine.newSlots (newSlotCount op) machine) := by
  unfold Machine.allocateTraceSlots firstInputSlots firstOutputSlots
  rw [List.append_assoc, List.range'_append_1]
  rfl

theorem newSlots_sound (count : Nat) (sound : Sound ops machine) : Sound ops (Machine.newSlots count machine) := by
  induction count generalizing machine with
  | zero => exact sound
  | succ count ih => exact ih (newTensor_sound sound .device default)

section
variable (sound : Sound ops machine) (placed : Placed (ops key) inputs machine)
include sound placed

theorem firstSlots_sound :
    SlotsSound (ops key) (Machine.newSlots (newSlotCount (ops key)) machine)
      (firstInputSlots (ops key) inputs machine.allocated) (firstOutputSlots (ops key) machine.allocated) := by
  obtain ⟨shape, older, newer⟩ := newSlots_spec (newSlotCount (ops key)) machine
  constructor
  · exact firstInputSlots_length (ops key) placed machine.allocated
  · exact List.length_range'
  · rw [firstInputSlots_staged (ops key) placed]
    exact List.nodup_range'
  · intro slot member
    rw [firstInputSlots_staged (ops key) placed] at member
    have beyond := (List.mem_range'_1.mp member).1
    rw [firstInputSlots_resident (ops key) placed]
    constructor
    · intro passed
      exact Nat.not_lt.mpr beyond (input_old sound placed slot (List.mem_of_mem_take passed))
    · rw [shape]
      exact Bool.eq_false_iff.mpr fun live => Nat.not_lt.mpr beyond (sound.live_allocated slot live)
  · exact List.nodup_range'
  · intro slot member
    rw [shape]
    rcases firstSlots_cases (ops key) machine.allocated slot member with passed | ⟨_, inside⟩
    · exact Nat.lt_add_right _ (input_old sound placed slot (List.mem_of_mem_take passed))
    · exact inside
  · intro slot member
    rcases firstSlots_cases (ops key) machine.allocated slot member with passed | ⟨beyond, inside⟩
    · obtain ⟨idx, inResident, rfl⟩ := List.mem_iff_getElem.mp passed
      rw [List.length_take] at inResident
      have onDevice := placed.2.2 idx (by omega)
      have resident : (ops key).inDeviceMemory idx = true := decide_eq_true (by omega)
      rw [resident] at onDevice
      rw [older _ (input_old sound placed _ (List.mem_of_mem_take passed)), List.getElem_take]
      exact onDevice
    · rw [newer slot beyond inside]

theorem firstSlots_told :
    Told (fun tensor => machine.live tensor = true)
      (fun tensor => machine.Known tensor ∨ tensor ∈ firstInputSlots (ops key) inputs machine.allocated)
      (fun tensor => machine.Published tensor ∨ tensor ∈ firstOutputSlots (ops key) machine.allocated)
      (stamps (Machine.newSlots (newSlotCount (ops key)) machine).wrappers) := by
  obtain ⟨_, older, newer⟩ := newSlots_spec (newSlotCount (ops key)) machine
  have fresh : ∀ slot, machine.allocated ≤ slot → slot < machine.allocated + newSlotCount (ops key) →
      (stamps (Machine.newSlots (newSlotCount (ops key)) machine).wrappers slot).1 =
        machine.latestVersion + (slot - machine.allocated) := by
    intro slot beyond inside
    rw [stamps, newer slot beyond inside]
  have kept : ∀ tensor, machine.Known tensor ∨ machine.Published tensor →
      stamps (Machine.newSlots (newSlotCount (ops key)) machine).wrappers tensor = stamps machine.wrappers tensor := by
    intro tensor used
    rw [stamps, older tensor (used.elim sound.known_allocated sound.published_allocated)]
    rfl
  have old : Told (fun tensor => machine.live tensor = true) machine.Known machine.Published
      (stamps (Machine.newSlots (newSlotCount (ops key)) machine).wrappers) := by
    refine sound.told.congr (fun _ => Or.inl) (fun tensor known => kept tensor (Or.inl known)) ?_
    intro tensor published
    rw [kept tensor (Or.inr published)]
  have extended := old.extend (fun _ => Or.inl)
    (· ∈ List.range' machine.allocated ((ops key).numTensorInputs - (ops key).numDeviceResident))
    (· ∈ firstOutputSlots (ops key) machine.allocated) ?_ ?_
  · refine extended.mono (fun _ live => live) ?_ fun _ published => published
    rintro tensor (known | slot)
    · exact Or.inl known
    · rcases List.mem_append.mp slot with passed | new
      · exact Or.inl (Or.inl (placed.2.1 tensor (List.mem_of_mem_take passed)))
      · exact Or.inr new
  · intro slot new tensor used
    have bounds : machine.allocated ≤ slot ∧ slot < machine.allocated + newSlotCount (ops key) := by
      unfold newSlotCount
      rcases new with input | output
      · have range := List.mem_range'_1.mp input
        omega
      · have range := List.mem_range'_1.mp output
        omega
    have usedBelow := sound.version_used used
    rw [kept tensor used, fresh slot bounds.1 bounds.2]
    omega
  · intro output isOutput slot isSlot
    have outputRange := List.mem_range'_1.mp isOutput
    have slotRange := List.mem_range'_1.mp isSlot
    rw [fresh output (by omega) (by unfold newSlotCount; omega), fresh slot slotRange.1 (by unfold newSlotCount; omega)]
    omega

theorem firstSlots_placed (count : Nat) :
    Placed (ops key) inputs (Machine.newSlots count machine) := by
  obtain ⟨shape, older, _⟩ := newSlots_spec count machine
  refine ⟨placed.1, ?_, ?_⟩
  · rw [shape]
    exact placed.2.1
  · intro idx inside
    rw [older _ (input_old sound placed _ (List.getElem_mem inside))]
    exact placed.2.2 idx inside

end

omit [Inhabited Value] in
theorem firstSlots_calm (placed : Placed (ops key) inputs machine) (allocated : Nat) (pool : Pool Value) :
    SlotsCalm (ops key) inputs (firstInputSlots (ops key) inputs allocated) pool := by
  unfold SlotsCalm
  rw [take_pairs, firstInputSlots_resident (ops key) placed]
  have itself : ∀ pair ∈ (inputs.take (ops key).numDeviceResident).zip (inputs.take (ops key).numDeviceResident),
      pair.2 = pair.1 := by
    intro pair member
    obtain ⟨idx, _, rfl⟩ := List.mem_iff_getElem.mp member
    rw [List.getElem_zip]
  refine List.pairwise_of_forall_mem_list fun early earlyIn late lateIn touches => ?_
  have same : early.1 = late.1 := by
    rw [itself early earlyIn, itself late lateIn] at touches
    exact touches.elim id id
  rw [same]

theorem firstSlots_tell (sound : Sound ops machine) (placed : Placed (ops key) inputs machine) :
    StagedTell (ops key) inputs (firstInputSlots (ops key) inputs machine.allocated)
      (Machine.newSlots (newSlotCount (ops key)) machine) := by
  obtain ⟨shape, older, newer⟩ := newSlots_spec (newSlotCount (ops key)) machine
  intro pair member tensor _ live same
  rw [drop_pairs, firstInputSlots_staged (ops key) placed] at member
  have range := List.mem_range'_1.mp (List.of_mem_zip member).2
  rw [shape] at live
  have old := sound.live_allocated tensor live
  have used := sound.versions_used tensor old
  unfold versions at same used
  rw [older tensor old, newer pair.2 range.1 (by unfold newSlotCount; omega)] at same
  dsimp only at same
  omega

omit [Inhabited Value] in
theorem incrementGeneration_sound (sound : Sound ops machine) : Sound ops machine.incrementGeneration where
  live_allocated := sound.live_allocated
  versions_used := sound.versions_used
  slots key traceData cached := (sound.slots key traceData cached).carry (Nat.le_refl _) (fun _ _ => rfl)
    (fun _ _ live => live)
  captured := sound.captured
  trace_ids := sound.trace_ids
  own_trace := sound.own_trace
  generations key traceData cached := Nat.le_succ_of_le (sound.generations key traceData cached)
  told := sound.told

variable [DecidableEq Key]

theorem firstCapture_current (sound : Sound ops machine) (placed : Placed (ops key) inputs machine) :
    ∃ outputs next, machine.firstCapture (ops key) key inputs = .ok (outputs, next) ∧
      outputs.map (contents next.wrappers) = (ops key).traceFunc (inputs.map (contents machine.wrappers)) ∧
        Sound ops next := by
  have raised := incrementGeneration_sound sound
  have placedRaised : Placed (ops key) inputs machine.incrementGeneration := placed
  obtain ⟨shape, older, _⟩ := newSlots_spec (newSlotCount (ops key)) machine.incrementGeneration
  have told := (firstSlots_told raised placedRaised).mono (fun _ live => live)
    (fun _ known => known) (fun _ published => published)
  obtain ⟨next, captured, results, soundNext⟩ := capturedInto_current (newSlots_sound (newSlotCount (ops key)) raised)
    (firstSlots_sound raised placedRaised) (firstSlots_placed raised placedRaised _)
    (firstSlots_calm placedRaised machine.allocated _) (firstSlots_tell raised placedRaised) (by
      rw [shape]
      exact told)
  have lengths := firstInputSlots_length (ops key) placedRaised machine.incrementGeneration.allocated
  have total : (firstInputSlots (ops key) inputs machine.incrementGeneration.allocated ++
      firstOutputSlots (ops key) machine.incrementGeneration.allocated).length =
        (ops key).numTensorInputs + (ops key).numOutputs := by
    rw [List.length_append, lengths, firstOutputSlots, List.length_range']
  refine ⟨firstOutputSlots (ops key) machine.allocated, next, ?_, ?_, soundNext⟩
  · simp only [Machine.firstCapture, allocateTraceSlots_split, ne_eq, total, not_true_eq_false, if_false,
      List.take_left' lengths, List.drop_left' lengths]
    exact captured
  · refine results.trans (congrArg _ ?_)
    refine List.map_congr_left fun input member => ?_
    unfold contents
    rw [older input (input_old raised placedRaised input member)]
    rfl

end FirstCapture

end TtMlir.Trace
