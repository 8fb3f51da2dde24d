import TtMlir.Library.Lists
import TtMlir.Trace.HoistMeaning

/-!
The runs of a hoisted trace, as `capture_or_execute_trace` makes them: the slots are allocated
for the inputs in device memory, the capture function gets the host inputs, all slots and the
semaphores, and a replay runs what it recorded.
-/

namespace TtMlir.Trace.Hoist

section Runtime
variable {α : Type} (meaning : Meaning α) (hoisted : Hoisted)

def inDeviceMemory (input : TraceInput) : Bool := input.type.isOnDevice

def pick (test : TraceInput → Bool) (inputs : List TraceInput) (cells : List Nat) : List Nat :=
  ((inputs.zip cells).filter fun pair => test pair.1).map Prod.snd

def allocateTraceSlots (inputs : List Nat) (next : Nat) : Option (List Nat × Nat) :=
  let deviceResidentInputs := pick inDeviceMemory hoisted.traceOp.inputs inputs
  if deviceResidentInputs.length ≠ hoisted.allocateSlots.argTypes.length then none
  else
    let slots := allocate deviceResidentInputs hoisted.allocateSlots.slots next
    if slots.1.length ≠ hoisted.traceOp.inputs.length + hoisted.traceOp.resultTypes.length then none else some slots

def captureTrace (inputs inputSlots outputSlots semaphores : List Nat) (memory : Nat → α) :
    Option ((Nat → α) × List (List Nat)) :=
  let hostStaged := pick (!inDeviceMemory ·) hoisted.traceOp.inputs inputs
  let captureInputs := hostStaged ++ (inputSlots ++ (outputSlots ++ semaphores))
  if captureInputs.length ≠ hoisted.capture.argTypes.length then none
  else do
    let state ← runCapture meaning hoisted.info.traceFunc captureInputs hoisted.capture.body ⟨memory, none, none⟩
    let trace ← state.trace
    return (state.memory, trace)

structure Captured (α : Type) where
  inputSlots : List Nat
  outputSlots : List Nat
  memory : Nat → α
  trace : List (List Nat)

def firstRun (inputs semaphores : List Nat) (memory : Nat → α) (next : Nat) : Option (Captured α) := do
  let slots ← allocateTraceSlots hoisted inputs next
  let inputSlots := slots.1.take hoisted.traceOp.inputs.length
  let outputSlots := slots.1.drop hoisted.traceOp.inputs.length
  let (memory, trace) ← captureTrace meaning hoisted inputs inputSlots outputSlots semaphores memory
  return ⟨inputSlots, outputSlots, memory, trace⟩

def replay (trace : List (List Nat)) (memory : Nat → α) : Option (Nat → α) :=
  (runCapture meaning hoisted.info.traceFunc [] hoisted.execute ⟨memory, none, some trace⟩).map (·.memory)

end Runtime

structure FunctionsAgree (func : Func) (hoisted : Hoisted) : Prop where
  allocateArguments : hoisted.allocateSlots.argTypes = (hoisted.traceOp.inputs.map (·.type)).filter (·.isOnDevice)
  slots : hoisted.allocateSlots.resultTypes.length = hoisted.traceOp.inputs.length + hoisted.traceOp.resultTypes.length
  outputSlots : hoisted.allocateSlots.resultTypes.drop hoisted.traceOp.inputs.length = hoisted.traceOp.resultTypes
  captureArguments : hoisted.capture.argTypes = (hoisted.traceOp.inputs.map (·.type)).filter (!·.isOnDevice) ++
    (hoisted.allocateSlots.resultTypes ++ hoisted.traceOp.semaphoreInputs.map func.typeOf)

section Allocate
variable {α : Type} {meaning : Meaning α} {traceFunc : TraceFunc} {arguments : List Nat} {next : Nat}

theorem allocate_empty (slots : List SlotSource) (fresh : ∀ slot ∈ slots, ∃ type, slot = .empty type) :
    allocate arguments slots next = (List.range' next slots.length, next + slots.length) := by
  induction slots generalizing next with
  | nil => rfl
  | cons slot slots ih =>
      obtain ⟨⟨type, rfl⟩, later⟩ := List.forall_mem_cons.mp fresh
      rw [allocate, ih later, List.length_cons, List.range'_succ, Nat.add_assoc, Nat.add_comm 1]

theorem allocate_arguments (numbers : List Nat) (slots : List SlotSource) :
    allocate arguments (numbers.map .argument ++ slots) next =
      (numbers.map (arguments.getD · 0) ++ (allocate arguments slots next).1, (allocate arguments slots next).2) := by
  induction numbers with
  | nil => rfl
  | cons number numbers ih => rw [List.map_cons, List.cons_append, allocate, ih, List.map_cons, List.cons_append]

theorem call_arguments (host inputs outputs semaphores : List Nat) :
    (List.range' host.length inputs.length ++ (List.range' (host.length + inputs.length) outputs.length ++
      List.range' (host.length + inputs.length + outputs.length) semaphores.length)).map
        ((host ++ (inputs ++ (outputs ++ semaphores))).getD · 0) = inputs ++ (outputs ++ semaphores) := by
  have first := map_range'_getD 0 host inputs (outputs ++ semaphores)
  have second := map_range'_getD 0 (host ++ inputs) outputs semaphores
  have third := map_range'_getD 0 (host ++ (inputs ++ outputs)) semaphores []
  rw [List.length_append, List.append_assoc] at second
  rw [List.append_nil, List.length_append, List.length_append, List.append_assoc, List.append_assoc, ← Nat.add_assoc]
    at third
  rw [List.map_append, List.map_append, first, second, third]

theorem write_arguments (host inputs rest : List Nat) (residents : Nat)
    (length : inputs.length = residents + host.length) :
    (List.range host.length).map (fun i => ((host ++ (inputs ++ rest)).getD i 0,
      (host ++ (inputs ++ rest)).getD ((List.range' host.length inputs.length).getD (residents + i) 0) 0)) =
        host.zip (inputs.drop residents) := by
  apply List.ext_getElem
  · rw [List.length_map, List.length_range, List.length_zip, List.length_drop]
    omega
  · intro i inside _
    rw [List.length_map, List.length_range] at inside
    have slot : residents + i < (List.range' host.length inputs.length).length := by
      rw [List.length_range']
      omega
    rw [List.getElem_map, List.getElem_range, List.getElem_zip, List.getElem_drop, List.getD_append _ _ _ _ inside,
      List.getD_eq_getElem _ _ inside, List.getD_eq_getElem _ _ slot, List.getElem_range', Nat.one_mul,
      List.getD_append_right _ _ _ _ (by omega), Nat.add_sub_cancel_left, List.getD_append _ _ _ _ (by omega),
      List.getD_eq_getElem _ _ (by omega)]

theorem createSlots_spec {types : List ValueType} {slots : List SlotSource}
    (created : types.mapM createSlot = .ok slots) :
    slots.length = types.length ∧ ∀ slot ∈ slots, ∃ type, slot = .empty type := by
  have each := (mapM_eq_ok _ _ _).mp created
  clear created
  induction each with
  | nil => simp
  | @cons type slot types slots first _ ih =>
      have empty : ∃ type, slot = .empty type := by
        unfold createSlot at first
        split at first
        · cases first
          exact ⟨type, rfl⟩
        · exact nomatch first
      exact ⟨by rw [List.length_cons, List.length_cons, ih.1], List.forall_mem_cons.mpr ⟨empty, ih.2⟩⟩

theorem runCapture_writes (pairs : List (Nat × Nat)) (ops : List CaptureOp) (memory : Nat → α) :
    runCapture meaning traceFunc arguments
      (pairs.map (fun pair => .writeTensor pair.1 pair.2) ++ ops) ⟨memory, none, none⟩ =
      runCapture meaning traceFunc arguments ops
        ⟨copies (pairs.map fun pair => (arguments.getD pair.1 0, arguments.getD pair.2 0)) memory, none, none⟩ := by
  induction pairs generalizing memory with
  | nil => rfl
  | cons pair pairs ih =>
      rw [List.map_cons, List.cons_append, runCapture, List.map_cons, copies, ← ih]
      rfl

/-- The calls of the capture: once to compile, once into the trace, and the replay of that. -/
theorem runCapture_calls (numbers : List Nat) (memory : Nat → α) :
    runCapture meaning traceFunc arguments [.call numbers, .beginTraceCapture, .call numbers, .endTraceCapture,
      .executeTrace]
      ⟨memory, none, none⟩ =
        some ⟨traceFunc.call meaning (traceFunc.call meaning memory (numbers.map (arguments.getD · 0)))
          (numbers.map (arguments.getD · 0)),
          none, some [numbers.map (arguments.getD · 0)]⟩ := rfl

end Allocate

section Pick
variable {test : TraceInput → Bool} {first second : List TraceInput} {cells : List Nat}

theorem zip_cut (length : cells.length = first.length + second.length) :
    (first ++ second).zip cells = first.zip (cells.take first.length) ++ second.zip (cells.drop first.length) := by
  have cut := List.take_append_drop first.length cells
  conv_lhs => rw [← cut]
  apply List.zip_append
  rw [List.length_take]
  omega

theorem pick_front (length : cells.length = first.length + second.length) (all : ∀ input ∈ first, test input)
    (none : ∀ input ∈ second, test input = false) : pick test (first ++ second) cells = cells.take first.length := by
  unfold pick
  rw [zip_cut length, List.filter_append, List.filter_eq_self.mpr, List.filter_eq_nil_iff.mpr, List.append_nil,
    List.map_snd_zip]
  · rw [List.length_take]
    omega
  · intro pair member
    rw [none pair.1 (List.of_mem_zip member).1]
    decide
  · intro pair member
    exact all pair.1 (List.of_mem_zip member).1

theorem pick_back (length : cells.length = first.length + second.length) (none : ∀ input ∈ first, test input = false)
    (all : ∀ input ∈ second, test input) : pick test (first ++ second) cells = cells.drop first.length := by
  unfold pick
  rw [zip_cut length, List.filter_append, List.filter_eq_nil_iff.mpr, List.nil_append, List.filter_eq_self.mpr,
    List.map_snd_zip]
  · rw [List.length_drop]
    omega
  · intro pair member
    exact all pair.1 (List.of_mem_zip member).1
  · intro pair member
    rw [none pair.1 (List.of_mem_zip member).1]
    decide

end Pick

section Build
variable {func : DeviceFunc} {region : Region} {hoisted : Hoisted}

theorem mergeArgument_same (uses : Value → Nat) (argument : Value) (type : ValueType)
    (traceOp : CaptureOrExecuteTraceOp) :
    (mergeArgument uses argument type traceOp).2.inputs.map (fun input => (input.source, input.type)) =
        traceOp.inputs.map (fun input => (input.source, input.type)) ∧
      (mergeArgument uses argument type traceOp).2.semaphoreInputs = traceOp.semaphoreInputs ∧
      (mergeArgument uses argument type traceOp).2.resultTypes = traceOp.resultTypes := by
  unfold mergeArgument
  split
  · exact ⟨rfl, rfl, rfl⟩
  · split
    · refine ⟨?_, rfl, rfl⟩
      rw [List.map_map]
      apply List.map_congr_left
      intro input _
      rw [Function.comp_apply]
      split <;> rfl
    · exact ⟨rfl, rfl, rfl⟩

theorem mergeToLayoutOps_same {uses : Value → Nat} {number : Nat} {types merged : List ValueType}
    {traceOp last : CaptureOrExecuteTraceOp}
    (found : mergeToLayoutOpsWithFuncArgs uses number types traceOp = .ok (merged, last)) :
    last.inputs.map (fun input => (input.source, input.type)) =
      traceOp.inputs.map (fun input => (input.source, input.type)) ∧
      last.semaphoreInputs = traceOp.semaphoreInputs ∧ last.resultTypes = traceOp.resultTypes := by
  induction types generalizing number traceOp merged with
  | nil =>
      cases found
      exact ⟨rfl, rfl, rfl⟩
  | cons type types ih =>
      unfold mergeToLayoutOpsWithFuncArgs at found
      split at found
      · obtain ⟨rest, inner, found⟩ := (bind_eq_ok _).mp found
        cases found
        obtain ⟨inputs, semaphores, results⟩ := ih inner
        obtain ⟨sameInputs, sameSemaphores, sameResults⟩ := mergeArgument_same uses (.arg number) type traceOp
        exact ⟨inputs.trans sameInputs, semaphores.trans sameSemaphores, results.trans sameResults⟩
      · exact nomatch found

theorem forwardInputs_spec {values : List Value} {inputs : List TraceInput}
    (tensors : ∀ value ∈ values, (func.typeOf value).isTensor)
    (forwarded : values.mapM (forwardInput func.toFunc) = .ok inputs) :
    inputs.map (fun input => (input.source, input.type)) = values.map (fun value => (value, func.typeOf value)) ∧
      ∀ input ∈ inputs, inDeviceMemory input := by
  have each := (mapM_eq_ok _ _ _).mp forwarded
  clear forwarded
  induction each with
  | nil => simp
  | @cons value input values inputs first _ ih =>
      obtain ⟨here, later⟩ := List.forall_mem_cons.mp tensors
      have resident : input = ⟨value, false, func.typeOf value⟩ ∧ (func.typeOf value).isOnDevice := by
        unfold forwardInput at first
        split at first
        · exact nomatch first
        · rename_i other
          cases first
          refine ⟨rfl, ?_⟩
          cases known : func.typeOf value with
          | tensor spec bufferType =>
              have notSystem : bufferType ≠ .systemMemory := fun same => other spec (same ▸ known)
              simp [ValueType.isOnDevice, notSystem]
          | semaphore => simp [known, ValueType.isTensor] at here
          | device => simp [known, ValueType.isTensor] at here
          | other => simp [known, ValueType.isTensor] at here
      obtain ⟨same, onDevice⟩ := resident
      subst same
      obtain ⟨sources, residents⟩ := ih later
      exact ⟨by rw [List.map_cons, List.map_cons, sources], List.forall_mem_cons.mpr ⟨onDevice, residents⟩⟩

theorem stageInput_spec {value : Value} (tensor : (func.typeOf value).isTensor) :
    (stageInput func.toFunc value).source = value ∧
    (stageInput func.toFunc value).type = (func.typeOf value).withBuffer .systemMemory ∧
      inDeviceMemory (stageInput func.toFunc value) = false := by
  unfold stageInput inDeviceMemory
  cases known : func.typeOf value with
  | tensor spec bufferType => cases bufferType <;> exact ⟨rfl, rfl, rfl⟩
  | semaphore => simp [known, ValueType.isTensor] at tensor
  | device => simp [known, ValueType.isTensor] at tensor
  | other => simp [known, ValueType.isTensor] at tensor

theorem insertCaptureOrExecuteTraceOp_spec {info : TraceMainFuncInfo} {traceOp : CaptureOrExecuteTraceOp}
    (described : Described func.toFunc region info)
    (inserted : insertCaptureOrExecuteTraceOp func.toFunc info = .ok traceOp) :
    ∃ forwarded, (groupsOf func.toFunc region).deviceResident.mapM (forwardInput func.toFunc) = .ok forwarded ∧
      traceOp.inputs = forwarded ++ (groupsOf func.toFunc region).hostStaged.map (stageInput func.toFunc) ∧
        traceOp.semaphoreInputs = (groupsOf func.toFunc region).semaphores ∧
          traceOp.resultTypes = info.outputSlotTypes := by
  unfold insertCaptureOrExecuteTraceOp at inserted
  rw [described.deviceResident, described.hostStaged, described.semaphores] at inserted
  obtain ⟨forwarded, residents, inserted⟩ := (bind_eq_ok _).mp inserted
  cases inserted
  exact ⟨forwarded, residents, rfl, rfl, rfl⟩

theorem inDeviceMemory_same {inputs others : List TraceInput} {place : Bool}
    (same : inputs.map (fun input => (input.source, input.type)) = others.map (fun input => (input.source, input.type)))
    (placed : ∀ other ∈ others, inDeviceMemory other = place) : ∀ input ∈ inputs, inDeviceMemory input = place := by
  intro input member
  obtain ⟨other, inside, pair⟩ := List.mem_map.mp (same ▸ List.mem_map_of_mem member)
  have type : other.type = input.type := (Prod.mk.inj pair).2
  have known := placed other inside
  unfold inDeviceMemory at known ⊢
  rwa [type] at known

structure Built (func : DeviceFunc) (region : Region) (hoisted : Hoisted) (resident staged : List TraceInput) :
    Prop where
  sameRegion : hoisted.region = region
  info : createTraceFunction func.toFunc region = .ok hoisted.info
  allocateSlots : createAllocateSlotsTraceFunction hoisted.info = .ok hoisted.allocateSlots
  capture : hoisted.capture = createRunAndCaptureTraceFunction func.toFunc hoisted.info
  execute : hoisted.execute = createExecuteTraceFunction
  inputs : hoisted.traceOp.inputs = resident ++ staged
  residents : resident.map (fun input => (input.source, input.type)) =
    (groupsOf func.toFunc region).deviceResident.map (fun value => (value, func.typeOf value))
  stageds : staged.map (fun input => (input.source, input.type)) =
    (groupsOf func.toFunc region).hostStaged.map (fun value => (value, (func.typeOf value).withBuffer .systemMemory))
  onDevice : ∀ input ∈ resident, inDeviceMemory input
  onHost : ∀ input ∈ staged, inDeviceMemory input = false
  semaphoreInputs : hoisted.traceOp.semaphoreInputs = (groupsOf func.toFunc region).semaphores
  resultTypes : hoisted.traceOp.resultTypes = hoisted.info.outputSlotTypes

theorem perform_built (found : performHoistTransform func.toFunc region = .ok hoisted) :
    ∃ resident staged, Built func region hoisted resident staged := by
  unfold performHoistTransform at found
  obtain ⟨info, created, found⟩ := (bind_eq_ok _).mp found
  obtain ⟨allocateSlots, allocated, found⟩ := (bind_eq_ok _).mp found
  obtain ⟨traceOp, inserted, found⟩ := (bind_eq_ok _).mp found
  obtain ⟨⟨argTypes, merged⟩, mergedOp, found⟩ := (bind_eq_ok _).mp found
  cases found
  obtain ⟨pairs, semaphores, results⟩ := mergeToLayoutOps_same mergedOp
  obtain ⟨described, -⟩ := createTraceFunction_spec created
  obtain ⟨-, -, tensors, -⟩ := partition_spec func.toFunc region
  obtain ⟨forwarded, residents, inputs, semaphoreInputs, resultTypes⟩ :=
    insertCaptureOrExecuteTraceOp_spec described inserted
  rw [inputs, List.map_append] at pairs
  obtain ⟨forwardPairs, onDevice⟩ :=
    forwardInputs_spec (fun value member => tensors value (List.mem_append_left _ member)) residents
  have staged (value : Value) (member : value ∈ (groupsOf func.toFunc region).hostStaged) :=
    stageInput_spec (tensors value (List.mem_append_right _ member))
  have stagedPairs : ((groupsOf func.toFunc region).hostStaged.map (stageInput func.toFunc)).map
      (fun input => (input.source, input.type)) =
        (groupsOf func.toFunc region).hostStaged.map
          (fun value => (value, (func.typeOf value).withBuffer .systemMemory)) := by
    rw [List.map_map]
    apply List.map_congr_left
    intro value member
    obtain ⟨source, type, -⟩ := staged value member
    rw [Function.comp_apply, source, type]
  have onHost : ∀ input ∈ (groupsOf func.toFunc region).hostStaged.map
      (stageInput func.toFunc), inDeviceMemory input = false := by
    intro input member
    obtain ⟨value, listed, rfl⟩ := List.mem_map.mp member
    exact (staged value listed).2.2
  -- The merged op has its groups where the inserted one has them.
  have residentPairs : (merged.inputs.take forwarded.length).map (fun input => (input.source, input.type)) =
      forwarded.map (fun input => (input.source, input.type)) := by
    rw [List.map_take, pairs]
    exact List.take_left' (List.length_map _)
  have hostPairs : (merged.inputs.drop forwarded.length).map (fun input => (input.source, input.type)) =
      ((groupsOf func.toFunc region).hostStaged.map (stageInput func.toFunc)).map
        (fun input => (input.source, input.type)) := by
    rw [List.map_drop, pairs]
    exact List.drop_left' (List.length_map _)
  exact ⟨merged.inputs.take forwarded.length, merged.inputs.drop forwarded.length,
    { sameRegion := rfl
      info := created
      allocateSlots := allocated
      capture := rfl
      execute := rfl
      inputs := (List.take_append_drop _ _).symm
      residents := residentPairs.trans forwardPairs
      stageds := hostPairs.trans stagedPairs
      onDevice := inDeviceMemory_same residentPairs onDevice
      onHost := inDeviceMemory_same hostPairs onHost
      semaphoreInputs := semaphores.trans semaphoreInputs
      resultTypes := results.trans resultTypes }⟩

end Build

section Before
variable {α : Type} {meaning : Meaning α} {func : DeviceFunc} {start : Value → α} {value : Value}

theorem region_members {op : Operation} (member : op ∈ (findRegion func.ops).opsToHoist) :
    op ∈ (findRegion func.ops).middle ∧ op ∈ func.ops := by
  have inside := (List.mem_filter.mp member).1
  refine ⟨inside, ?_⟩
  rw [findRegion_append func.ops]
  exact List.mem_append_right _ (List.mem_append_left _ inside)

theorem before_values (creations : ∀ op ∈ (findRegion func.ops).middle, shouldHoistOp op = false → op.isCreation)
    (enters : Enters func.toFunc (findRegion func.ops).opsToHoist value) :
    run meaning func.toFunc (findRegion func.ops).before start value = func.values meaning start value := by
  have split := findRegion_append func.ops
  obtain ⟨⟨op, member, operand⟩, -, outside⟩ := enters
  cases value with
  | arg number => rw [run_arg, Func.values, run_arg]
  | result name number =>
      -- The definition stands in front of the op, so it is not behind the region.
      have inRegion : op ∈ (findRegion func.ops).front ++ (findRegion func.ops).middle :=
        List.mem_append_right _ (region_members member).1
      obtain ⟨earlier, later, cut⟩ := List.append_of_mem inRegion
      have whole : func.ops = earlier ++ op :: (later ++ (findRegion func.ops).back) := by
        conv_lhs => rw [split, ← List.append_assoc, cut, List.append_assoc, List.cons_append]
      obtain ⟨definer, defines, rfl, below⟩ := func.dominates earlier op _ whole _ operand
      have place : definer ∈ (findRegion func.ops).front ++ (findRegion func.ops).middle := by
        rw [cut]
        exact List.mem_append_left _ defines
      have known : definer ∈ func.ops := by
        rw [split, ← List.append_assoc]
        exact List.mem_append_left _ place
      have names := func.names
      rw [split] at names
      have beforeNames : (((findRegion func.ops).front ++ (findRegion func.ops).creationOpsToSink).map
          (·.name)).Nodup := by
        refine names.sublist (List.Sublist.map _ ?_)
        exact List.Sublist.append_left (List.filter_sublist.trans (List.sublist_append_left _ _)) _
      rcases List.mem_append.mp place with inFront | inMiddle
      · have defined : Defined func.args.length (findRegion func.ops).front (.result definer.name number) :=
          ⟨definer, inFront, rfl, below⟩
        have own : func.values meaning start (.result definer.name number) =
            run meaning func.toFunc (findRegion func.ops).front start (.result definer.name number) := by
          unfold Func.values
          conv_lhs => rw [split]
          exact run_defined names defined
        rw [own]
        exact run_defined beforeNames defined
      · have notHoisted : shouldHoistOp definer = false := by
          by_contra hoists
          have hoisted : definer ∈ (findRegion func.ops).opsToHoist :=
            List.mem_filter.mpr ⟨inMiddle, by simpa using hoists⟩
          have listed : definedBy (findRegion func.ops).opsToHoist (.result definer.name number) = true := by
            unfold definedBy
            simpa using ⟨definer, hoisted, rfl⟩
          rw [outside] at listed
          exact nomatch listed
        have creation := creations definer inMiddle notHoisted
        -- A creation op reads the device only.
        have reads (values : Value → α) :
            definer.operands.map (content meaning func.toFunc values) = definer.operands.map fun _ =>
              meaning.device := by
          apply List.map_congr_left
          intro other inside
          exact if_pos (func.creations definer known creation other inside)
        have moved : definer ∈ (findRegion func.ops).before := by
          apply List.mem_append_right
          exact List.mem_filter.mpr ⟨inMiddle, by simp [notHoisted]⟩
        obtain ⟨front, back, placed⟩ := List.append_of_mem moved
        have placedNames := beforeNames
        change (((findRegion func.ops).before).map (·.name)).Nodup at placedNames
        rw [placed] at placedNames
        rw [placed, run_result placedNames, values_solve func.toFunc start known, reads, reads]

end Before

section Memory
variable {α : Type}

theorem stores_held {cells targets : List Nat} (values : List α) (memory : Nat → α)
    (apart : ∀ cell ∈ cells, cell ∉ targets) :
    cells.map (stores (targets.zip values) memory) = cells.map memory := by
  apply List.map_congr_left
  intro cell member
  apply stores_frame
  rintro store stored rfl
  exact apart _ member (List.of_mem_zip stored).1

theorem written_held (memory : Nat → α) (inputs : List Nat) {residents count : Nat} (next : Nat)
    (old : ∀ cell ∈ inputs, cell < next)
    (length : inputs.length = residents + count) :
    (inputs.take residents ++ List.range' next count).map
      (copies ((inputs.drop residents).zip ((inputs.take residents ++ List.range' next count).drop residents)) memory) =
        inputs.map memory ∧
      ∀ cell < next,
        copies ((inputs.drop residents).zip
          ((inputs.take residents ++ List.range' next count).drop residents)) memory cell = memory cell := by
  have taken : (inputs.take residents).length = residents := by
    rw [List.length_take]
    omega
  have slots : (inputs.take residents ++ List.range' next count).drop residents = List.range' next count :=
    List.drop_left' taken
  rw [slots]
  -- New slots are above all cells that were there before.
  have kept : ∀ cell < next, copies ((inputs.drop residents).zip (List.range' next count)) memory cell =
      memory cell := by
    intro cell below
    apply copies_frame
    intro copy member same
    have new := (List.of_mem_zip member).2
    rw [same, List.mem_range'_1] at new
    omega
  have undisturbed : Undisturbed memory ((inputs.drop residents).zip (List.range' next count)) := by
    have targets : ((inputs.drop residents).zip (List.range' next count)).Pairwise fun early late =>
        early.2 ≠ late.2 := by
      apply List.Pairwise.of_map Prod.snd (fun _ _ => id)
      rw [List.map_snd_zip]
      · exact List.nodup_range'
      · rw [List.length_range', List.length_drop]
        omega
    refine targets.imp_of_mem fun {early late} earlyIn lateIn apart touches => ?_
    rcases touches with same | read
    · exact absurd same apart
    · have new := (List.of_mem_zip earlyIn).2
      have known := old late.1 (List.drop_subset _ _ (List.of_mem_zip lateIn).1)
      rw [read, List.mem_range'_1] at new
      omega
  refine ⟨?_, kept⟩
  have copied := map_copies (inputs.drop residents) (List.range' next count) memory
    (by rw [List.length_drop, List.length_range']; omega) undisturbed
  have residentsKept : (inputs.take residents).map
      (copies ((inputs.drop residents).zip (List.range' next count)) memory) =
      (inputs.take residents).map memory :=
    List.map_congr_left fun cell member => kept cell (old cell (List.take_subset _ _ member))
  rw [List.map_append, copied, residentsKept, ← List.map_append, List.take_append_drop]

end Memory

section Runs
variable {α : Type} {meaning : Meaning α} {func : DeviceFunc} {region : Region} {hoisted : Hoisted}
  {resident staged : List TraceInput} {start : Value → α} {memory : Nat → α}

theorem call_held {info : TraceMainFuncInfo} (members : ∀ op ∈ region.opsToHoist, op ∈ func.ops)
    (found : createTraceFunction func.toFunc region = .ok info) {inputSlots outputSlots semaphores : List Nat}
    (inputsHeld : inputSlots.map memory = (info.boundaryInputs.take info.numTensorInputs).map
      (func.values meaning start))
    (semaphoresHeld : semaphores.map memory = (info.boundaryInputs.drop info.numTensorInputs).map
      (func.values meaning start))
    (length : outputSlots.length = info.boundaryOutputs.length) (slotsApart : ∀ cell ∈ inputSlots, cell ∉ outputSlots)
    (semaphoresApart : ∀ cell ∈ semaphores, cell ∉ outputSlots) (distinct : outputSlots.Nodup) :
    let after := info.traceFunc.call meaning memory (inputSlots ++ (outputSlots ++ semaphores))
    inputSlots.map after = (info.boundaryInputs.take info.numTensorInputs).map (func.values meaning start) ∧
      semaphores.map after = (info.boundaryInputs.drop info.numTensorInputs).map (func.values meaning start) ∧
        outputSlots.map after = info.boundaryOutputs.map (func.values meaning start) := by
  intro after
  have stored : after = stores (outputSlots.zip (info.boundaryOutputs.map (func.values meaning start))) memory :=
    call_stores members found inputsHeld semaphoresHeld length
  rw [stored]
  refine ⟨(stores_held _ _ slotsApart).trans inputsHeld, (stores_held _ _ semaphoresApart).trans semaphoresHeld, ?_⟩
  exact stores_zip _ _ _ distinct (by rw [length, List.length_map])

namespace Built

section
variable (built : Built func region hoisted resident staged)
include built

theorem described : Described func.toFunc region hoisted.info :=
  (createTraceFunction_spec built.info).1

theorem counts : resident.length = hoisted.info.numDeviceResident ∧
    resident.length + staged.length = hoisted.info.numTensorInputs ∧
      hoisted.info.inputSlotTypes.length = resident.length + staged.length ∧
        hoisted.info.outputSlotTypes.length = hoisted.info.boundaryOutputs.length ∧
          hoisted.info.semaphoreTypes.length = hoisted.traceOp.semaphoreInputs.length := by
  have described := built.described
  have residents := congrArg List.length built.residents
  have stageds := congrArg List.length built.stageds
  rw [List.length_map, List.length_map] at residents stageds
  have tensors : (groupsOf func.toFunc region).tensors.length = resident.length + staged.length := by
    unfold Partition.tensors
    rw [List.length_append, residents, stageds]
  refine ⟨residents.trans described.numDeviceResident.symm, tensors.symm.trans described.numTensorInputs.symm, ?_, ?_,
    ?_⟩
  · rw [described.inputSlotTypes, List.length_append, List.length_map, List.length_map, residents, stageds]
  · rw [described.outputSlotTypes, List.length_map]
  · rw [described.semaphoreTypes, built.semaphoreInputs, List.length_map]

theorem slots :
    ∃ fresh, hoisted.allocateSlots.slots = (List.range resident.length).map .argument ++ fresh ∧
    fresh.length = staged.length + hoisted.info.boundaryOutputs.length ∧ (∀ slot ∈ fresh, ∃ type, slot = .empty type) ∧
      hoisted.allocateSlots.argTypes = hoisted.info.inputSlotTypes.take resident.length ∧
        hoisted.allocateSlots.resultTypes = hoisted.info.inputSlotTypes ++ hoisted.info.outputSlotTypes := by
  obtain ⟨residentCount, _, slotCount, outputCount, _⟩ := built.counts
  have allocated := built.allocateSlots
  unfold createAllocateSlotsTraceFunction at allocated
  obtain ⟨stagedSlots, createdStaged, allocated⟩ := (bind_eq_ok _).mp allocated
  obtain ⟨outputSlots, createdOutputs, allocated⟩ := (bind_eq_ok _).mp allocated
  have same := (Except.ok.inj allocated).symm
  obtain ⟨stagedLength, stagedEmpty⟩ := createSlots_spec createdStaged
  obtain ⟨outputLength, outputEmpty⟩ := createSlots_spec createdOutputs
  refine ⟨stagedSlots ++ outputSlots, ?_, ?_, ?_, ?_, ?_⟩
  · rw [same, residentCount]
  · rw [List.length_append, stagedLength, outputLength, List.length_drop, slotCount, outputCount, residentCount]
    omega
  · intro slot member
    rcases List.mem_append.mp member with inStaged | inOutputs
    · exact stagedEmpty slot inStaged
    · exact outputEmpty slot inOutputs
  · rw [same, residentCount]
  · rw [same]

theorem captureTrace_eq {inputs inputSlots outputSlots semaphores : List Nat}
    (inputsLength : inputs.length = resident.length + staged.length)
    (slotsLength : inputSlots.length = resident.length + staged.length)
    (outputsLength : outputSlots.length = hoisted.info.boundaryOutputs.length)
    (semaphoresLength : semaphores.length = hoisted.traceOp.semaphoreInputs.length) :
    let arguments := inputSlots ++ (outputSlots ++ semaphores)
    let written := copies ((inputs.drop resident.length).zip (inputSlots.drop resident.length)) memory
    captureTrace meaning hoisted inputs inputSlots outputSlots semaphores memory =
      some (hoisted.info.traceFunc.call meaning (hoisted.info.traceFunc.call meaning written arguments) arguments,
        [arguments]) := by
  obtain ⟨residentCount, tensorCount, slotCount, outputCount, semaphoreCount⟩ := built.counts
  have host : pick (!inDeviceMemory ·) hoisted.traceOp.inputs inputs = inputs.drop resident.length := by
    rw [built.inputs]
    apply pick_back inputsLength
    · intro input member
      rw [built.onDevice input member]
      rfl
    · intro input member
      rw [built.onHost input member]
      rfl
  have hostLength : (inputs.drop resident.length).length = staged.length := by
    rw [List.length_drop]
    omega
  have boundary : hoisted.info.numTensorInputs ≤ hoisted.info.boundaryInputs.length := by
    rw [built.described.boundaryInputs, built.described.numTensorInputs]
    unfold Partition.inputs
    rw [List.length_append]
    exact Nat.le_add_right _ _
  -- The number of inputs is what the capture function asks for.
  have counted : (inputs.drop resident.length ++ (inputSlots ++ (outputSlots ++ semaphores))).length =
      hoisted.capture.argTypes.length := by
    rw [built.capture]
    unfold createRunAndCaptureTraceFunction
    simp only [List.length_append, List.length_map, List.length_drop, List.length_take]
    rw [slotCount, outputCount, semaphoreCount, outputsLength, semaphoresLength, slotsLength, ← residentCount,
      ← tensorCount,
      Nat.min_eq_left (tensorCount ▸ boundary)]
    omega
  -- The ops of the capture in terms of the cells that are passed.
  have body : hoisted.capture.body =
      ((List.range (inputs.drop resident.length).length).map fun i =>
        (i, (List.range' (inputs.drop resident.length).length inputSlots.length).getD (resident.length + i) 0)).map
          (fun pair => .writeTensor pair.1 pair.2) ++
        [.call (List.range' (inputs.drop resident.length).length inputSlots.length ++
            (List.range' ((inputs.drop resident.length).length + inputSlots.length) outputSlots.length ++
              List.range' ((inputs.drop resident.length).length + inputSlots.length + outputSlots.length)
                semaphores.length)),
          .beginTraceCapture,
          .call (List.range' (inputs.drop resident.length).length inputSlots.length ++
            (List.range' ((inputs.drop resident.length).length + inputSlots.length) outputSlots.length ++
              List.range' ((inputs.drop resident.length).length + inputSlots.length + outputSlots.length)
                semaphores.length)),
          .endTraceCapture, .executeTrace] := by
    have difference : hoisted.info.numTensorInputs - hoisted.info.numDeviceResident = staged.length := by omega
    rw [built.capture, hostLength, slotsLength, outputsLength, semaphoresLength, List.map_map]
    unfold createRunAndCaptureTraceFunction
    dsimp only
    rw [difference, outputCount, semaphoreCount, ← residentCount, ← tensorCount]
    rfl
  have cells := write_arguments (inputs.drop resident.length) inputSlots (outputSlots ++ semaphores) resident.length
      (by omega)
  intro arguments written
  unfold captureTrace
  rw [host]
  dsimp only
  rw [if_neg (not_not_intro counted), body, runCapture_writes, List.map_map, runCapture_calls, call_arguments]
  simp only [Function.comp_def]
  rw [cells]
  rfl

theorem sources :
    hoisted.traceOp.inputs.map (·.source) = (groupsOf func.toFunc region).tensors := by
  have residents := congrArg (List.map Prod.fst) built.residents
  have stageds := congrArg (List.map Prod.fst) built.stageds
  rw [List.map_map, List.map_map] at residents stageds
  rw [built.inputs, List.map_append]
  have joined := congrArg₂ (· ++ ·) residents stageds
  simpa [Function.comp_def, Partition.tensors] using joined

theorem functionsAgree : FunctionsAgree func.toFunc hoisted := by
  obtain ⟨residentCount, tensorCount, slotCount, outputCount, semaphoreCount⟩ := built.counts
  obtain ⟨-, -, -, -, argTypes, resultTypes⟩ := built.slots
  have described := built.described
  have residents := congrArg (List.map Prod.snd) built.residents
  have stageds := congrArg (List.map Prod.snd) built.stageds
  rw [List.map_map, List.map_map] at residents stageds
  have residentTypes : resident.map (·.type) = (groupsOf func.toFunc region).deviceResident.map func.typeOf := residents
  have stagedTypes : staged.map (·.type) =
      (groupsOf func.toFunc region).hostStaged.map fun value => (func.typeOf value).withBuffer .systemMemory := stageds
  have inputCount : hoisted.traceOp.inputs.length = hoisted.info.inputSlotTypes.length := by
    rw [built.inputs, List.length_append, slotCount]
  -- Device-resident inputs are in device memory, staged ones are not.
  have onDevice : ∀ type ∈ resident.map (·.type), type.isOnDevice = true := by
    intro type member
    obtain ⟨input, inside, rfl⟩ := List.mem_map.mp member
    exact built.onDevice input inside
  have onHost : ∀ type ∈ staged.map (·.type), type.isOnDevice = false := by
    intro type member
    obtain ⟨input, inside, rfl⟩ := List.mem_map.mp member
    exact built.onHost input inside
  constructor
  · rw [built.inputs, List.map_append, List.filter_append, List.filter_eq_self.mpr onDevice,
      List.filter_eq_nil_iff.mpr fun type member =>
        by simp [onHost type member], List.append_nil, argTypes, residentTypes, described.inputSlotTypes]
    apply List.take_left'
    rw [List.length_map]
    have same := congrArg List.length residentTypes
    rw [List.length_map, List.length_map] at same
    exact same.symm
  · rw [resultTypes, List.length_append, inputCount, built.resultTypes]
  · rw [resultTypes, built.resultTypes, inputCount]
    exact List.drop_left
  · rw [built.inputs, List.map_append, List.filter_append, List.filter_eq_nil_iff.mpr fun type member =>
    by simp [onDevice type member],
      List.filter_eq_self.mpr fun type member =>
        by simp [onHost type member], List.nil_append, stagedTypes, resultTypes, built.capture,
      built.semaphoreInputs]
    unfold createRunAndCaptureTraceFunction
    dsimp only
    rw [described.hostStaged, described.semaphoreTypes, List.append_assoc]

theorem allocateTraceSlots_eq {inputs : List Nat} (next : Nat)
    (inputsLength : inputs.length = resident.length + staged.length) :
    allocateTraceSlots hoisted inputs next =
      some ((inputs.take resident.length ++ List.range' next staged.length) ++
        List.range' (next + staged.length) hoisted.info.boundaryOutputs.length,
          next + (staged.length + hoisted.info.boundaryOutputs.length)) := by
  obtain ⟨residentCount, tensorCount, slotCount, outputCount, semaphoreCount⟩ := built.counts
  obtain ⟨fresh, slots, freshLength, empty, argTypes, -⟩ := built.slots
  have residentLength : (inputs.take resident.length).length = resident.length := by
    rw [List.length_take]
    omega
  have picked : pick inDeviceMemory hoisted.traceOp.inputs inputs = inputs.take resident.length := by
    rw [built.inputs]
    exact pick_front inputsLength built.onDevice built.onHost
  have arguments : (inputs.take resident.length).length = hoisted.allocateSlots.argTypes.length := by
    rw [argTypes, residentLength, List.length_take, slotCount]
    omega
  have own := map_range_getD 0 (inputs.take resident.length)
  rw [residentLength] at own
  unfold allocateTraceSlots
  rw [picked]
  dsimp only
  rw [if_neg (not_not_intro arguments), slots, allocate_arguments, allocate_empty fresh empty, own, freshLength,
    if_neg, List.append_assoc,
    List.range'_append_1]
  rw [not_not, List.length_append, List.length_range', residentLength, built.inputs, List.length_append,
    built.resultTypes, outputCount]
  omega

theorem firstRun_spec (members : ∀ op ∈ region.opsToHoist, op ∈ func.ops)
    {inputs semaphores : List Nat} {next : Nat}
    (inputsHeld : inputs.map memory = (groupsOf func.toFunc region).tensors.map (func.values meaning start))
    (semaphoresHeld : semaphores.map memory = (groupsOf func.toFunc region).semaphores.map (func.values meaning start))
    (old : ∀ cell ∈ inputs ++ semaphores, cell < next) :
    ∃ captured, firstRun meaning hoisted inputs semaphores memory next = some captured ∧
      captured.trace = [captured.inputSlots ++ (captured.outputSlots ++ semaphores)] ∧
        captured.inputSlots.map captured.memory = (groupsOf func.toFunc region).tensors.map
          (func.values meaning start) ∧
          semaphores.map captured.memory = (groupsOf func.toFunc region).semaphores.map (func.values meaning start) ∧
            captured.outputSlots.map captured.memory = hoisted.info.boundaryOutputs.map (func.values meaning start) ∧
              (∀ cell ∈ captured.inputSlots, cell ∉ captured.outputSlots) ∧
              (∀ cell ∈ semaphores, cell ∉ captured.outputSlots) ∧
                captured.outputSlots.Nodup ∧ captured.outputSlots.length = hoisted.info.boundaryOutputs.length := by
  have tensors := built.described.tensors
  have semaphoreInputs := built.described.semaphores
  have inputsLength : inputs.length = resident.length + staged.length := by
    have same := congrArg List.length inputsHeld
    rw [List.length_map, List.length_map, ← built.sources, List.length_map, built.inputs, List.length_append] at same
    exact same
  have semaphoresLength : semaphores.length = hoisted.traceOp.semaphoreInputs.length := by
    have same := congrArg List.length semaphoresHeld
    rw [List.length_map, List.length_map] at same
    rw [same, built.semaphoreInputs]
  have slotsLength : (inputs.take resident.length ++ List.range' next staged.length).length =
      resident.length + staged.length := by
    rw [List.length_append, List.length_take, List.length_range']
    omega
  have outputsLength : (List.range' (next + staged.length) hoisted.info.boundaryOutputs.length).length =
      hoisted.info.boundaryOutputs.length := List.length_range'
  have oldInputs : ∀ cell ∈ inputs, cell < next := fun cell member => old cell (List.mem_append_left _ member)
  have oldSemaphores : ∀ cell ∈ semaphores, cell < next := fun cell member => old cell (List.mem_append_right _ member)
  have written := written_held memory inputs next oldInputs inputsLength
  have captured := @captureTrace_eq α meaning func region hoisted resident staged memory built inputs _ _ semaphores
    inputsLength slotsLength outputsLength semaphoresLength
  generalize copies ((inputs.drop resident.length).zip
    ((inputs.take resident.length ++ List.range' next staged.length).drop resident.length))
    memory = first at written captured
  obtain ⟨slotsHeld, kept⟩ := written
  -- No slot of an input and no semaphore is a slot of an output.
  have slotsApart : ∀ cell ∈ inputs.take resident.length ++ List.range' next staged.length,
      cell ∉ List.range' (next + staged.length) hoisted.info.boundaryOutputs.length := by
    intro cell member
    rw [List.mem_range'_1]
    rcases List.mem_append.mp member with own | new
    · have below := oldInputs cell (List.take_subset _ _ own)
      omega
    · rw [List.mem_range'_1] at new
      omega
  have semaphoresApart : ∀ cell ∈ semaphores, cell ∉ List.range'
      (next + staged.length) hoisted.info.boundaryOutputs.length := by
    intro cell member
    have below := oldSemaphores cell member
    rw [List.mem_range'_1]
    omega
  rw [inputsHeld] at slotsHeld
  have semaphoresKept : semaphores.map first = (groupsOf func.toFunc region).semaphores.map
      (func.values meaning start) := by
    rw [← semaphoresHeld]
    exact List.map_congr_left fun cell member => kept cell (oldSemaphores cell member)
  rw [← tensors] at slotsHeld
  rw [← semaphoreInputs] at semaphoresKept
  have distinct : (List.range' (next + staged.length) hoisted.info.boundaryOutputs.length).Nodup := List.nodup_range'
  -- The call that compiles and the replay of the captured one give the same values.
  obtain ⟨slotsAgain, semaphoresAgain, _⟩ :=
    call_held members built.info slotsHeld semaphoresKept outputsLength slotsApart semaphoresApart distinct
  obtain ⟨slotsLast, semaphoresLast, outputsLast⟩ :=
    call_held members built.info slotsAgain semaphoresAgain outputsLength slotsApart semaphoresApart distinct
  rw [tensors] at slotsLast
  rw [semaphoreInputs] at semaphoresLast
  refine ⟨⟨inputs.take resident.length ++ List.range' next staged.length,
      List.range' (next + staged.length) hoisted.info.boundaryOutputs.length, _,
      [(inputs.take resident.length ++ List.range' next staged.length) ++
        (List.range' (next + staged.length) hoisted.info.boundaryOutputs.length ++ semaphores)]⟩, ?_, rfl, slotsLast,
          semaphoresLast, outputsLast, slotsApart, semaphoresApart, distinct, outputsLength⟩
  have count : hoisted.traceOp.inputs.length =
      (inputs.take resident.length ++ List.range' next staged.length).length := by
    rw [slotsLength, built.inputs, List.length_append]
  unfold firstRun
  rw [built.allocateTraceSlots_eq next inputsLength, Option.bind_eq_bind, Option.bind_some, count, List.take_left,
    List.drop_left]
  dsimp only at captured ⊢
  rw [captured]
  rfl

end

end Built

end Runs

section Pass
variable {func : DeviceFunc} {hoisted : Hoisted}

theorem processFuncOp_spec (found : processFuncOp func.toFunc = .ok (some hoisted)) :
    (∀ op ∈ (findRegion func.ops).middle, shouldHoistOp op = false → op.isCreation) ∧
      ∃ resident staged, Built func (findRegion func.ops) hoisted resident staged := by
  unfold processFuncOp at found
  dsimp only at found
  split at found
  · exact nomatch found
  · rename_i middle
    split at found
    · exact nomatch found
    · cases performed : performHoistTransform func.toFunc (findRegion func.ops) with
      | error failure =>
          rw [performed] at found
          exact nomatch found
      | ok built =>
          rw [performed] at found
          cases found
          refine ⟨?_, perform_built performed⟩
          intro op member stays
          rw [List.any_eq_true] at middle
          by_contra other
          exact middle ⟨op, member, by simp [stays, other]⟩

def parameterOf (info : TraceMainFuncInfo) (value : Value) : Option Nat :=
  match entryMap info.numTensorInputs info.boundaryOutputs.length info.boundaryInputs value with
  | some (.param number) => some number
  | _ => none

/-- The functions of a hoisted trace fit together. Run on memory that holds what the ops in front of the trace op
computed, the first run passes each value to its parameter and leaves in the output slots what the ops produce, and so
does every later replay on slots that hold other inputs. -/
theorem processFuncOp_traces (func : DeviceFunc) (hoisted : Hoisted)
    (found : processFuncOp func.toFunc = .ok (some hoisted)) :
    FunctionsAgree func.toFunc hoisted ∧
      ∀ (α : Type) (meaning : Meaning α) (start : Value → α) (inputs semaphores : List Nat) (memory : Nat → α)
        (next : Nat),
        let before := run meaning func.toFunc hoisted.region.before start
        inputs.map memory = hoisted.traceOp.inputs.map (fun input => before input.source) →
        semaphores.map memory = hoisted.traceOp.semaphoreInputs.map before →
        (∀ cell ∈ inputs ++ semaphores, cell < next) →
        ∃ captured, firstRun meaning hoisted inputs semaphores memory next = some captured ∧
          (∃ arguments, captured.trace = [arguments] ∧ ∀ value number, parameterOf hoisted.info value = some number →
            captured.memory (arguments.getD number 0) = func.values meaning start value) ∧
          captured.outputSlots.map captured.memory = hoisted.info.boundaryOutputs.map (func.values meaning start) ∧
          ∀ (start' : Value → α) (memory' : Nat → α),
            captured.inputSlots.map memory' =
              hoisted.traceOp.inputs.map (fun input => func.values meaning start' input.source) →
            semaphores.map memory' = hoisted.traceOp.semaphoreInputs.map (func.values meaning start') →
            ∃ replayed, replay meaning hoisted captured.trace memory' = some replayed ∧
              captured.outputSlots.map replayed = hoisted.info.boundaryOutputs.map (func.values meaning start') := by
  obtain ⟨creations, resident, staged, built⟩ := processFuncOp_spec found
  refine ⟨built.functionsAgree, ?_⟩
  intro α meaning start inputs semaphores memory next before inputsHeld semaphoresHeld old
  have members : ∀ op ∈ (findRegion func.ops).opsToHoist, op ∈ func.ops := fun op member => (region_members member).2
  obtain ⟨-, enters, -⟩ := partition_spec func.toFunc (findRegion func.ops)
  have described := built.described
  -- Each input is defined in front of the trace op or by a creation op that is moved there.
  have known : ∀ value ∈ (groupsOf func.toFunc (findRegion func.ops)).inputs, before value =
      func.values meaning start value := by
    intro value member
    change run meaning func.toFunc hoisted.region.before start value = _
    rw [built.sameRegion]
    exact before_values creations ((enters value).mp member)
  have splitSources (values : Value → α) : hoisted.traceOp.inputs.map (fun input => values input.source) =
      (groupsOf func.toFunc (findRegion func.ops)).tensors.map values := by
    rw [← built.sources, List.map_map]
    rfl
  rw [splitSources, List.map_congr_left fun value member => known value (List.mem_append_left _ member)] at inputsHeld
  rw [built.semaphoreInputs, List.map_congr_left fun value member => known value (List.mem_append_right _ member)]
    at semaphoresHeld
  obtain ⟨captured, first, trace, slotsHeld, semaphoresKept, outputsHeld, slotsApart, semaphoresApart, distinct,
    length⟩ :=
    built.firstRun_spec members inputsHeld semaphoresHeld old
  refine ⟨captured, first, ⟨_, trace, ?_⟩, outputsHeld, ?_⟩
  · intro value number parameter
    unfold parameterOf at parameter
    split at parameter
    · rename_i mapped known
      cases parameter
      rw [described.boundaryInputs, described.numTensorInputs, ← length] at known
      obtain ⟨_, same, held⟩ := entry_content slotsHeld semaphoresKept known
      cases same
      exact held
    · exact nomatch parameter
  · intro start' memory' refreshed semaphoresSame
    rw [splitSources, ← described.tensors] at refreshed
    rw [built.semaphoreInputs, ← described.semaphores] at semaphoresSame
    obtain ⟨_, _, outputs⟩ :=
      call_held members built.info refreshed semaphoresSame length slotsApart semaphoresApart distinct
    refine ⟨_, ?_, outputs⟩
    rw [replay, built.execute, trace]
    rfl

end Pass

def biasedForward : DeviceFunc where
  args := [(.tensor 0 .dram, ⟨some .input, false⟩), (.tensor 0 .dram, ⟨some .parameter, false⟩)]
  ops := [⟨0, .getDevice, [], [.device]⟩, ⟨1, .creation false, [.result 0 0], [.semaphore]⟩,
    ⟨2, .hoistable, [.arg 0, .arg 1], [.tensor 0 .dram]⟩, ⟨3, .creation false, [.result 0 0], [.tensor 0 .dram]⟩,
    ⟨4, .hoistable, [.result 2 0, .result 3 0, .result 1 0], [.tensor 0 .dram]⟩]
  returns := [.result 4 0]
  names := by decide
  dominates := dominates_of_places (by decide)
  creations := by decide
  devices := by decide

def sums : Meaning Nat := ⟨fun name operands _ => operands.sum + name, 0⟩

theorem biasedForward_traced : ∃ hoisted captured arguments, processFuncOp biasedForward.toFunc = .ok (some hoisted) ∧
    FunctionsAgree biasedForward.toFunc hoisted ∧
      firstRun sums hoisted [10, 11, 12] [13] (fun cell => [7, 5, 3, 1].getD (cell - 10) 0) 14 = some captured ∧
        captured.trace = [arguments] ∧ captured.memory (arguments.getD 4 0) = 1 ∧
          captured.outputSlots.map captured.memory = [22] ∧ ∃ replayed,
            replay sums hoisted captured.trace (fun cell => [7, 0, 0, 1, 6, 3].getD (cell - 10) 0) = some replayed ∧
              captured.outputSlots.map replayed = [23] := by
  have traced := processFuncOp_traces biasedForward _ rfl
  obtain ⟨agree, runs⟩ := traced
  obtain ⟨captured, first, ⟨arguments, trace, passed⟩, outputs, replays⟩ :=
    runs Nat sums (fun value => if value = .arg 0 then 5 else if value = .arg 1 then 7 else 0) [10, 11, 12] [13]
      (fun cell => [7, 5, 3, 1].getD (cell - 10) 0) 14 (by decide) (by decide) (by decide)
  have slots : captured.inputSlots = [10, 14, 15] :=
    Option.some.inj ((congrArg (Option.map Captured.inputSlots) first).symm.trans rfl)
  obtain ⟨replayed, again, later⟩ :=
    replays (fun value => if value = .arg 0 then 6 else if value = .arg 1 then 7 else 0)
    (fun cell => [7, 0, 0, 1, 6, 3].getD (cell - 10) 0) (by rw [slots]; decide) (by decide)
  exact ⟨_, captured, arguments, rfl, agree, first, trace, passed (.result 1 0) 4 rfl, outputs, replayed, again, later⟩

end TtMlir.Trace.Hoist
