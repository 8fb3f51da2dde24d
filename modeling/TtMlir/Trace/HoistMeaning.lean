import TtMlir.Library.Copies
import TtMlir.Library.MapM
import TtMlir.Trace.HoistFunctions

/-!
What the functions of a trace compute. Ops are pure, tensors and semaphores are addresses. A
call of the trace function reads its parameters, computes and stores into the output slots.
-/

namespace TtMlir.Trace.Hoist

structure Meaning (α : Type) where
  apply : Nat → List α → Nat → α
  device : α

section Block
variable {α : Type} (meaning : Meaning α) (func : Func)

def content (values : Value → α) (operand : Value) : α :=
  if func.typeOf operand = .device then meaning.device else values operand

def execute (values : Value → α) (op : Operation) : Value → α
  | .arg number => values (.arg number)
  | .result name number =>
      if name = op.name then meaning.apply name (op.operands.map (content meaning func values)) number else values (.result name number)

def run (ops : List Operation) (values : Value → α) : Value → α := ops.foldl (execute meaning func) values

def Func.values (start : Value → α) : Value → α := run meaning func func.ops start

end Block

section Functions
variable {α : Type} (meaning : Meaning α)

def TraceValue.content (memory : Nat → α) (arguments : List Nat) (results : Nat → Nat → α) : TraceValue → α
  | .param number => memory (arguments.getD number 0)
  | .result name number => results name number
  | .device => meaning.device

def runBody (memory : Nat → α) (arguments : List Nat) (body : List ClonedOp) (results : Nat → Nat → α) : Nat → Nat → α :=
  body.foldl (fun results op name number =>
    if name = op.name then meaning.apply name (op.operands.map (TraceValue.content meaning memory arguments results)) number
    else results name number) results

def runCopies (arguments : List Nat) (results : Nat → Nat → α) (copies : List (TraceValue × Nat)) (memory : Nat → α) : Nat → α :=
  copies.foldl (fun memory copy =>
    Function.update memory (arguments.getD copy.2 0) (TraceValue.content meaning memory arguments results copy.1)) memory

def TraceFunc.call (traceFunc : TraceFunc) (memory : Nat → α) (arguments : List Nat) : Nat → α :=
  runCopies meaning arguments (runBody meaning memory arguments traceFunc.body fun _ _ => meaning.device) traceFunc.copies memory

/-- The slots of the allocation function: an argument is its own slot, and new buffers take the next addresses. -/
def allocate (arguments : List Nat) : List SlotSource → Nat → List Nat × Nat
  | [], next => ([], next)
  | .argument number :: slots, next =>
      let rest := allocate arguments slots next
      (arguments.getD number 0 :: rest.1, rest.2)
  | .empty _ :: slots, next =>
      let rest := allocate arguments slots (next + 1)
      (next :: rest.1, rest.2)

/-- Memory, the calls recorded in an open capture window, and the calls of the trace. -/
structure CaptureState (α : Type) where
  memory : Nat → α
  recording : Option (List (List Nat))
  trace : Option (List (List Nat))

/-- One op of a capture or an execute function. In a capture window calls are recorded and do not run. -/
def captureStep (traceFunc : TraceFunc) (arguments : List Nat) (state : CaptureState α) : CaptureOp → Option (CaptureState α)
  | .writeTensor host slot =>
      if state.recording.isSome then none
      else some { state with memory := Function.update state.memory (arguments.getD slot 0) (state.memory (arguments.getD host 0)) }
  | .call numbers =>
      let called := numbers.map (arguments.getD · 0)
      match state.recording with
      | none => some { state with memory := traceFunc.call meaning state.memory called }
      | some calls => some { state with recording := some (calls ++ [called]) }
  | .beginTraceCapture => if state.recording.isSome then none else some { state with recording := some [] }
  | .endTraceCapture => state.recording.map fun calls => { state with recording := none, trace := some calls }
  | .executeTrace =>
      if state.recording.isSome then none
      else state.trace.map fun calls => { state with memory := calls.foldl (traceFunc.call meaning) state.memory }

def runCapture (traceFunc : TraceFunc) (arguments : List Nat) : List CaptureOp → CaptureState α → Option (CaptureState α)
  | [], state => some state
  | op :: ops, state => (captureStep meaning traceFunc arguments state op).bind (runCapture traceFunc arguments ops)

end Functions

section Values
variable {α : Type} {meaning : Meaning α} {func : Func} {values start : Value → α} {ops front back : List Operation} {op : Operation}

theorem run_append : run meaning func (front ++ back) start = run meaning func back (run meaning func front start) :=
  List.foldl_append

theorem run_arg (ops : List Operation) (number : Nat) : run meaning func ops start (.arg number) =
    start (.arg number) := by
  induction ops generalizing start with
  | nil => rfl
  | cons op ops ih => exact ih

theorem run_other {name : Nat} (number : Nat) (other : name ∉ ops.map (·.name)) :
    run meaning func ops start (.result name number) = start (.result name number) := by
  induction ops generalizing start with
  | nil => rfl
  | cons op ops ih =>
      rw [List.map_cons, List.mem_cons, not_or] at other
      have later := @ih (execute meaning func start op) other.2
      have here : execute meaning func start op (.result name number) = start (.result name number) := if_neg other.1
      exact later.trans here

theorem run_defined {argCount : Nat} (names : ((front ++ back).map (·.name)).Nodup) {value : Value}
    (defined : Defined argCount front value) :
    run meaning func (front ++ back) start value = run meaning func front start value := by
  rw [run_append]
  cases value with
  | arg number => exact run_arg back number
  | result name number =>
      obtain ⟨op, member, rfl, _⟩ := defined
      apply run_other
      intro again
      rw [List.map_append] at names
      exact (List.nodup_append.mp names).2.2 op.name (List.mem_map_of_mem member) op.name again rfl

theorem run_result (names : ((front ++ op :: back).map (·.name)).Nodup) (number : Nat) :
    run meaning func (front ++ op :: back) start (.result op.name number) =
      meaning.apply op.name (op.operands.map (content meaning func (run meaning func front start))) number := by
  rw [List.map_append, List.map_cons] at names
  have fresh : op.name ∉ back.map (·.name) := (List.nodup_cons.mp (List.nodup_append.mp names).2.1).1
  rw [run_append, ← List.singleton_append, run_append, run_other number fresh]
  exact if_pos rfl

theorem values_solve (func : Func) (start : Value → α) (member : op ∈ func.ops) (number : Nat) :
    func.values meaning start (.result op.name number) =
      meaning.apply op.name (op.operands.map (content meaning func (func.values meaning start))) number := by
  obtain ⟨front, back, split⟩ := List.append_of_mem member
  have names := func.names
  unfold Func.values
  rw [split] at names ⊢
  rw [run_result names]
  congr 1
  apply List.map_congr_left
  intro operand inside
  unfold content
  rw [run_defined names (func.dominates front op back split operand inside)]

theorem typeOf_result (func : Func) (member : op ∈ func.ops) (number : Nat) :
    func.typeOf (.result op.name number) = op.resultTypes.getD number .other := by
  have found : func.ops.find? (·.name = op.name) = some op := by
    obtain ⟨front, back, split⟩ := List.append_of_mem member
    have names := func.names
    rw [split, List.map_append, List.map_cons] at names
    have fresh : ∀ other ∈ front, other.name ≠ op.name := fun other inside same =>
      (List.nodup_append.mp names).2.2 other.name (List.mem_map_of_mem inside) op.name List.mem_cons_self same
    rw [split, List.find?_append, List.find?_eq_none.mpr fun other inside => by simpa using fresh other inside]
    simp
  simp [Func.typeOf, Func.resultTypes, found]

end Values

section Call
variable {α : Type} {meaning : Meaning α} {func : DeviceFunc} {region : Region} {start : Value → α} {memory : Nat → α}
  {arguments : List Nat} {valueMap last : ValueMap} {ops : List Operation} {body : List ClonedOp} {results : Nat → Nat → α}

structure Agrees (meaning : Meaning α) (func : Func) (values : Value → α) (memory : Nat → α) (arguments : List Nat) (valueMap : ValueMap)
    (results : Nat → Nat → α) : Prop where
  content : ∀ value mapped, valueMap value = some mapped →
    TraceValue.content meaning memory arguments results mapped = values value
  own : ∀ value name number, valueMap value = some (.result name number) → value = .result name number
  plain : ∀ value mapped, valueMap value = some mapped → func.typeOf value ≠ .device

theorem mapOperand_content {operand : Value} {mapped : TraceValue}
    (agrees : Agrees meaning func.toFunc (func.values meaning start) memory arguments valueMap results)
    (found : mapOperand func.toFunc valueMap operand = .ok mapped) :
    TraceValue.content meaning memory arguments results mapped =
      content meaning func.toFunc (func.values meaning start) operand := by
  unfold mapOperand at found
  unfold content
  cases known : valueMap operand with
  | some other =>
      rw [known] at found
      cases found
      rw [if_neg (agrees.plain operand mapped known)]
      exact agrees.content operand mapped known
  | none =>
      rw [known] at found
      dsimp only at found
      split at found
      · rename_i device
        cases found
        rw [if_pos device]
        rfl
      · exact nomatch found

theorem define_cases {op : Operation} {value : Value} {mapped : TraceValue}
    (known : valueMap.define op value = some mapped) :
    (∃ number < op.resultTypes.length, value = .result op.name number ∧ mapped = .result op.name number) ∨
      valueMap value = some mapped := by
  cases value with
  | arg number => exact .inr known
  | result name number =>
      simp only [ValueMap.define] at known
      split at known
      · rename_i here
        cases known
        exact .inl ⟨number, here.2, by rw [here.1], by rw [here.1]⟩
      · exact .inr known

theorem clone_agrees {op : Operation} {operands : List TraceValue} (member : op ∈ func.ops)
    (hoistable : op.kind = .hoistable)
    (agrees : Agrees meaning func.toFunc (func.values meaning start) memory arguments valueMap results)
    (mapped : op.operands.mapM (mapOperand func.toFunc valueMap) = .ok operands) :
    Agrees meaning func.toFunc (func.values meaning start) memory arguments (valueMap.define op) fun name number =>
      if name = op.name then meaning.apply name
        (operands.map (TraceValue.content meaning memory arguments results)) number
      else results name number := by
  -- The clone reads what the op reads, operand by operand.
  have read : operands.map (TraceValue.content meaning memory arguments results) =
      op.operands.map (content meaning func.toFunc (func.values meaning start)) := by
    have each := (mapM_eq_ok _ _ _).mp mapped
    clear mapped
    generalize op.operands = originals at each
    induction each with
    | nil => rfl
    | cons first _ ih => rw [List.map_cons, List.map_cons, mapOperand_content agrees first, ih]
  have solved (number : Nat) := @values_solve α meaning _ func.toFunc start member number
  rw [← read] at solved
  -- A result is only ever mapped to that of its own clone.
  have own : ∀ value name number, valueMap.define op value = some (.result name number) →
      value = .result name number := by
    intro value name number known
    rcases define_cases known with ⟨_, _, same, mapped⟩ | before
    · cases mapped
      exact same
    · exact agrees.own value name number before
  refine ⟨?_, own, ?_⟩
  · intro value target known
    cases target with
    | device =>
        rcases define_cases known with ⟨_, _, _, other⟩ | before
        · exact nomatch other
        · exact agrees.content value .device before
    | param parameter =>
        rcases define_cases known with ⟨_, _, _, other⟩ | before
        · exact nomatch other
        · exact agrees.content value _ before
    | result name number =>
        have same := own value name number known
        subst same
        change (if name = op.name then _ else _) = _
        by_cases here : name = op.name
        · subst here
          rw [if_pos rfl, solved number]
        · rw [if_neg here]
          rcases define_cases known with ⟨_, _, value, _⟩ | before
          · cases value
            exact absurd rfl here
          · exact agrees.content _ _ before
  · intro value target known
    rcases define_cases known with ⟨number, inside, same, _⟩ | before
    · rw [same, typeOf_result func.toFunc member, List.getD_eq_getElem _ _ inside]
      intro device
      have getsDevice := func.devices op member (device ▸ List.getElem_mem _)
      rw [hoistable] at getsDevice
      exact nomatch getsDevice
    · exact agrees.plain value target before

theorem cloneOps_cons {op : Operation} (cloned : cloneOps func.toFunc valueMap (op :: ops) = .ok (body, last)) :
    ∃ operands rest, op.operands.mapM (mapOperand func.toFunc valueMap) = .ok operands ∧
      cloneOps func.toFunc (valueMap.define op) ops = .ok (rest, last) ∧ body = ⟨op.name, operands⟩ :: rest := by
  rw [cloneOps] at cloned
  obtain ⟨operands, mapped, cloned⟩ := (bind_eq_ok _).mp cloned
  obtain ⟨clones, rest, cloned⟩ := (bind_eq_ok _).mp cloned
  cases cloned
  exact ⟨operands, clones.1, mapped, rest, rfl⟩

theorem cloneOps_agrees (members : ∀ op ∈ ops, op ∈ func.ops ∧ op.kind = .hoistable)
    (agrees : Agrees meaning func.toFunc (func.values meaning start) memory arguments valueMap results)
    (cloned : cloneOps func.toFunc valueMap ops = .ok (body, last)) :
    Agrees meaning func.toFunc (func.values meaning start) memory arguments last
      (runBody meaning memory arguments body results) := by
  induction ops generalizing valueMap body results with
  | nil =>
      cases cloned
      exact agrees
  | cons op ops ih =>
      obtain ⟨here, later⟩ := List.forall_mem_cons.mp members
      obtain ⟨operands, rest, mapped, inner, rfl⟩ := cloneOps_cons cloned
      -- The invariant of the map is carried through the ops, one clone at a time.
      have step := ih later (clone_agrees here.1 here.2 agrees mapped) inner
      exact step

theorem cloneOps_result (cloned : cloneOps func.toFunc valueMap ops = .ok (body, last)) (name number : Nat)
    (known : valueMap (.result name number) = some (.result name number) ∨ ∃ op ∈ ops, op.name = name ∧
      number < op.resultTypes.length) :
    last (.result name number) = some (.result name number) := by
  induction ops generalizing valueMap body with
  | nil =>
      cases cloned
      rcases known with same | ⟨op, member, _⟩
      · exact same
      · exact nomatch member
  | cons op ops ih =>
      obtain ⟨operands, rest, _, inner, rfl⟩ := cloneOps_cons cloned
      apply ih inner
      by_cases here : name = op.name ∧ number < op.resultTypes.length
      · exact .inl (if_pos here)
      · rcases known with same | ⟨other, member, named, inside⟩
        · exact .inl ((if_neg here).trans same)
        · rcases List.mem_cons.mp member with rfl | later
          · exact absurd ⟨named.symm, inside⟩ here
          · exact .inr ⟨other, later, named, inside⟩

theorem held_content {cells : List Nat} {inputs : List Value} {values : Value → α}
    (held : cells.map memory = inputs.map values)
    {value : Value} (member : value ∈ inputs) : memory (cells.getD (inputs.idxOf value) 0) = values value := by
  have inside := List.idxOf_lt_length_of_mem member
  have length := congrArg List.length held
  rw [List.length_map, List.length_map] at length
  have entry : (cells.map memory)[inputs.idxOf value]? = (inputs.map values)[inputs.idxOf value]? := by rw [held]
  rw [List.getElem?_map, List.getElem?_map, List.getElem?_eq_getElem (length ▸ inside), List.getElem?_eq_getElem inside,
    List.getElem_idxOf] at entry
  rw [List.getD_eq_getElem _ _ (length ▸ inside)]
  exact Option.some.inj entry

theorem entry_content {tensors semaphores : List Value} {inputSlots outputSlots semaphoreCells : List Nat}
    {values : Value → α}
    (tensorsHeld : inputSlots.map memory = tensors.map values)
    (semaphoresHeld : semaphoreCells.map memory = semaphores.map values)
    {value : Value} {mapped : TraceValue}
    (known : entryMap tensors.length outputSlots.length (tensors ++ semaphores) value = some mapped) :
    ∃ number, mapped = .param number ∧ memory ((inputSlots ++ (outputSlots ++ semaphoreCells)).getD number 0) =
      values value := by
  have tensorLength := congrArg List.length tensorsHeld
  rw [List.length_map, List.length_map] at tensorLength
  unfold entryMap at known
  split at known
  · rename_i member
    cases known
    refine ⟨_, rfl, ?_⟩
    -- Tensors are numbered from the front, semaphores from behind the output slots.
    by_cases tensor : value ∈ tensors
    · have inside := List.idxOf_lt_length_of_mem tensor
      rw [List.idxOf_append_of_mem tensor, if_pos inside, List.getD_append _ _ _ _ (tensorLength ▸ inside)]
      exact held_content tensorsHeld tensor
    · have semaphore := (List.mem_append.mp member).resolve_left tensor
      rw [List.idxOf_append_of_notMem tensor, if_neg (by omega), List.getD_append_right _ _ _ _ (by omega),
        List.getD_append_right _ _ _ _ (by omega), tensorLength,
        show outputSlots.length + (tensors.length + semaphores.idxOf value) - tensors.length - outputSlots.length =
          semaphores.idxOf value by omega]
      exact held_content semaphoresHeld semaphore
  · exact nomatch known

theorem runCopies_stores {outputs : List Value} {slots : List Nat} {values : Value → α}
    {copies : List (TraceValue × Nat)} {base : Nat}
    (first : Nat) (stored : (outputs.zipIdx first).mapM (storeOutput valueMap base) = .ok copies)
    (owned : ∀ output ∈ outputs, ∃ name number, output = .result name number ∧
      valueMap output = some (.result name number) ∧
      results name number = values output)
    (length : slots.length = outputs.length)
    (placed : ∀ i < slots.length, arguments.getD (base + (first + i)) 0 = slots.getD i 0) :
    runCopies meaning arguments results copies memory = stores (slots.zip (outputs.map values)) memory := by
  induction outputs generalizing slots first copies memory with
  | nil =>
      cases stored
      rw [List.length_eq_zero_iff.mp length]
      rfl
  | cons output outputs ih =>
      cases slots with
      | nil => exact nomatch length
      | cons slot slots =>
          rw [List.zipIdx_cons, mapM_cons_ok] at stored
          obtain ⟨copy, others, here, later, rfl⟩ := stored
          obtain ⟨⟨name, number, same, mapped, result⟩, rest⟩ := List.forall_mem_cons.mp owned
          unfold storeOutput at here
          rw [mapped] at here
          cases here
          -- Each copy goes into the slot of its output, and the later ones see the memory after it.
          have address := placed 0 (Nat.succ_pos _)
          have inner := @ih (Function.update memory slot (values output)) slots others (first + 1) later rest
              (Nat.succ.inj length) fun i below => by
            have entry := placed (i + 1) (Nat.succ_lt_succ below)
            rwa [show first + (i + 1) = first + 1 + i by omega] at entry
          rw [List.map_cons, List.zip_cons_cons, stores, ← inner]
          change runCopies meaning arguments results others
            (Function.update memory (arguments.getD (base + first) 0) (results name number)) = _
          rw [result, show base + first = base + (first + 0) by rfl, address]
          rfl

structure Described (func : Func) (region : Region) (info : TraceMainFuncInfo) : Prop where
  boundaryInputs : info.boundaryInputs = (groupsOf func region).inputs
  boundaryOutputs : info.boundaryOutputs = (collectFunctionBoundary func region).2
  numTensorInputs : info.numTensorInputs = (groupsOf func region).tensors.length
  numDeviceResident : info.numDeviceResident = (groupsOf func region).deviceResident.length
  inputSlotTypes : info.inputSlotTypes = (groupsOf func region).deviceResident.map func.typeOf ++
    (groupsOf func region).hostStaged.map fun input => (func.typeOf input).withBuffer .dram
  outputSlotTypes : info.outputSlotTypes = info.boundaryOutputs.map func.typeOf
  semaphoreTypes : info.semaphoreTypes = (groupsOf func region).semaphores.map func.typeOf

namespace Described
variable {info : TraceMainFuncInfo}

section
variable (described : Described func.toFunc region info)
include described

theorem tensors :
    info.boundaryInputs.take info.numTensorInputs = (groupsOf func.toFunc region).tensors := by
  rw [described.boundaryInputs, described.numTensorInputs]
  exact List.take_left

theorem semaphores :
    info.boundaryInputs.drop info.numTensorInputs = (groupsOf func.toFunc region).semaphores := by
  rw [described.boundaryInputs, described.numTensorInputs]
  exact List.drop_left

theorem deviceResident :
    info.boundaryInputs.take info.numDeviceResident = (groupsOf func.toFunc region).deviceResident := by
  rw [described.boundaryInputs, described.numDeviceResident]
  unfold Partition.inputs Partition.tensors
  rw [List.append_assoc]
  exact List.take_left

theorem hostStaged :
    (info.boundaryInputs.take info.numTensorInputs).drop info.numDeviceResident =
    (groupsOf func.toFunc region).hostStaged := by
  rw [described.tensors, described.numDeviceResident]
  exact List.drop_left

end

end Described

theorem createTraceFunction_spec {info : TraceMainFuncInfo}
    (found : createTraceFunction func.toFunc region = .ok info) :
    Described func.toFunc region info ∧ ∃ last,
      cloneOps func.toFunc (entryMap info.numTensorInputs info.boundaryOutputs.length info.boundaryInputs) region.opsToHoist =
          .ok (info.traceFunc.body, last) ∧
        info.boundaryOutputs.zipIdx.mapM (storeOutput last info.numTensorInputs) = .ok info.traceFunc.copies := by
  unfold createTraceFunction at found
  obtain ⟨⟨body, last⟩, cloned, found⟩ := (bind_eq_ok _).mp found
  obtain ⟨copies, stored, found⟩ := (bind_eq_ok _).mp found
  cases found
  exact ⟨⟨rfl, rfl, rfl, rfl, rfl, rfl, rfl⟩, last, cloned, stored⟩

theorem call_stores {info : TraceMainFuncInfo} (members : ∀ op ∈ region.opsToHoist, op ∈ func.ops)
    (found : createTraceFunction func.toFunc region = .ok info) {inputSlots outputSlots semaphoreCells : List Nat}
    (inputsHeld : inputSlots.map memory = (info.boundaryInputs.take info.numTensorInputs).map
      (func.values meaning start))
    (semaphoresHeld : semaphoreCells.map memory = (info.boundaryInputs.drop info.numTensorInputs).map
      (func.values meaning start))
    (length : outputSlots.length = info.boundaryOutputs.length) :
    info.traceFunc.call meaning memory (inputSlots ++ (outputSlots ++ semaphoreCells)) =
      stores (outputSlots.zip (info.boundaryOutputs.map (func.values meaning start))) memory := by
  obtain ⟨described, last, cloned, stored⟩ := createTraceFunction_spec found
  obtain ⟨-, enters, -⟩ := partition_spec func.toFunc region
  have inputsLength := congrArg List.length inputsHeld
  rw [List.length_map, List.length_map, described.tensors, ← described.numTensorInputs] at inputsLength
  rw [described.tensors] at inputsHeld
  rw [described.semaphores] at semaphoresHeld
  -- The arguments hold the inputs at the entry of the function.
  have entry : Agrees meaning func.toFunc (func.values meaning start) memory
      (inputSlots ++ (outputSlots ++ semaphoreCells))
      (entryMap info.numTensorInputs info.boundaryOutputs.length info.boundaryInputs) fun _ _ => meaning.device := by
    rw [← length, described.numTensorInputs, described.boundaryInputs]
    constructor
    · intro value mapped known
      obtain ⟨number, rfl, same⟩ := entry_content inputsHeld semaphoresHeld known
      exact same
    · intro value name number known
      obtain ⟨_, other, _⟩ := entry_content inputsHeld semaphoresHeld known
      exact nomatch other
    · intro value mapped known device
      unfold entryMap at known
      split at known
      · rename_i member
        have kind := ((enters value).mp member).2.1
        simp [isSemaphoreValue, device, ValueType.isTensor] at kind
      · exact nomatch known
  have hoistable : ∀ op ∈ region.opsToHoist, op ∈ func.ops ∧ op.kind = .hoistable := fun op member =>
    ⟨members op member, by simpa [shouldHoistOp] using (List.mem_filter.mp member).2⟩
  have agrees := cloneOps_agrees hoistable entry cloned
  unfold TraceFunc.call
  apply runCopies_stores 0 stored
  · intro output member
    rw [described.boundaryOutputs] at member
    obtain ⟨op, inside, listed⟩ := List.mem_flatMap.mp member
    obtain ⟨number, below, rfl⟩ := List.mem_map.mp (List.mem_filter.mp listed).1
    have mapped := cloneOps_result cloned op.name number (.inr ⟨op, inside, rfl, List.mem_range.mp below⟩)
    exact ⟨op.name, number, rfl, mapped, agrees.content _ _ mapped⟩
  · exact length
  · intro i below
    rw [List.getD_append_right _ _ _ _ (by omega), List.getD_append _ _ _ _ (by omega)]
    congr 1
    omega

end Call

end TtMlir.Trace.Hoist
