import Mathlib
import TtMlir.Trace.HoistBoundary

/-!
The functions made for a trace in TTNNTraceHoistTransform.cpp. Each of them orders the
device-resident tensors, the host-staged tensors, the output slots and the semaphores in its own way.
-/

namespace TtMlir.Trace.Hoist

inductive TraceValue where
  | param (number : Nat)
  | result (op number : Nat)
  /-- The result of the `get_device` that is inserted in the trace function. -/
  | device
  deriving DecidableEq

structure ClonedOp where
  name : Nat
  operands : List TraceValue
  deriving DecidableEq

/-- The trace function. A copy stores a value into the slot of a parameter. -/
structure TraceFunc where
  paramTypes : List ValueType
  paramAttrs : List ArgAttrs
  body : List ClonedOp
  copies : List (TraceValue × Nat)
  deriving DecidableEq

structure TraceMainFuncInfo where
  traceFunc : TraceFunc
  boundaryInputs : List Value
  boundaryOutputs : List Value
  numTensorInputs : Nat
  numDeviceResident : Nat
  inputSlotTypes : List ValueType
  inputArgAttrs : List ArgAttrs
  outputSlotTypes : List ValueType
  semaphoreTypes : List ValueType
  deriving DecidableEq

abbrev ValueMap := Value → Option TraceValue

/-- The parameter of each input: the semaphores come behind the output slots. -/
def entryMap (numTensorInputs numOutputs : Nat) (inputs : List Value) : ValueMap := fun value =>
  if value ∈ inputs then
    let i := inputs.idxOf value
    some (.param (if i < numTensorInputs then i else numOutputs + i))
  else none

def mapOperand (func : Func) (valueMap : ValueMap) (operand : Value) : Except String TraceValue :=
  match valueMap operand with
  | some mapped => .ok mapped
  | none =>
      if func.typeOf operand = .device then .ok .device else .error "Could not map operand in hoisted function"

def ValueMap.define (valueMap : ValueMap) (op : Operation) : ValueMap
  | .arg number => valueMap (.arg number)
  | .result name number =>
      if name = op.name ∧ number < op.resultTypes.length then some (.result name number) else valueMap (.result name number)

def cloneOps (func : Func) : ValueMap → List Operation → Except String (List ClonedOp × ValueMap)
  | valueMap, [] => .ok ([], valueMap)
  | valueMap, op :: ops => do
      let operands ← op.operands.mapM (mapOperand func valueMap)
      let (body, last) ← cloneOps func (valueMap.define op) ops
      .ok (⟨op.name, operands⟩ :: body, last)

def storeOutput (valueMap : ValueMap) (numTensorInputs : Nat) (output : Value × Nat) : Except String (TraceValue × Nat) :=
  match valueMap output.1 with
  | some mapped => .ok (mapped, numTensorInputs + output.2)
  | none => .error "Could not map output value in hoisted function"

def createTraceFunction (func : Func) (region : Region) : Except String TraceMainFuncInfo := do
  let boundary := collectFunctionBoundary func region
  let groups := partitionInputs func boundary.1
  let numTensorInputs := groups.tensors.length
  let outputTypes := boundary.2.map func.typeOf
  let (body, valueMap) ← cloneOps func (entryMap numTensorInputs boundary.2.length groups.inputs) region.opsToHoist
  let copies ← boundary.2.zipIdx.mapM (storeOutput valueMap numTensorInputs)
  .ok {
    traceFunc := {
      paramTypes := groups.tensors.map func.typeOf ++ outputTypes ++ groups.semaphores.map func.typeOf
      paramAttrs := groups.tensors.map (inputAttrs func) ++ boundary.2.map (fun _ => ⟨none, false⟩) ++
        groups.semaphores.map (inputAttrs func)
      body, copies }
    boundaryInputs := groups.inputs
    boundaryOutputs := boundary.2
    numTensorInputs
    numDeviceResident := groups.deviceResident.length
    inputSlotTypes := groups.deviceResident.map func.typeOf ++ groups.hostStaged.map fun input => (func.typeOf input).withBuffer .dram
    inputArgAttrs := groups.tensors.map (inputAttrs func)
    outputSlotTypes := outputTypes
    semaphoreTypes := groups.semaphores.map func.typeOf }

inductive SlotSource where
  | argument (number : Nat)
  | empty (type : ValueType)
  deriving DecidableEq

structure AllocateSlotsFunc where
  argTypes : List ValueType
  argAttrs : List ArgAttrs
  slots : List SlotSource
  resultTypes : List ValueType
  deriving DecidableEq

def createSlot (slotType : ValueType) : Except String SlotSource :=
  if slotType.isTensor then .ok (.empty slotType) else .error "cast<Ty>() argument of incompatible type!"

def createAllocateSlotsTraceFunction (info : TraceMainFuncInfo) : Except String AllocateSlotsFunc := do
  let staged ← (info.inputSlotTypes.drop info.numDeviceResident).mapM createSlot
  let outputs ← info.outputSlotTypes.mapM createSlot
  .ok {
    argTypes := info.inputSlotTypes.take info.numDeviceResident
    argAttrs := info.inputArgAttrs.take info.numDeviceResident
    slots := (List.range info.numDeviceResident).map .argument ++ (staged ++ outputs)
    resultTypes := info.inputSlotTypes ++ info.outputSlotTypes }

/-- The ops of the capture function, on the numbers of its arguments. -/
inductive CaptureOp where
  | writeTensor (host slot : Nat)
  | call (arguments : List Nat)
  | beginTraceCapture
  | endTraceCapture
  | executeTrace
  deriving DecidableEq

structure CaptureFunc where
  argTypes : List ValueType
  argAttrs : List ArgAttrs
  body : List CaptureOp
  deriving DecidableEq

def createRunAndCaptureTraceFunction (func : Func) (info : TraceMainFuncInfo) : CaptureFunc :=
  let numHostStaged := info.numTensorInputs - info.numDeviceResident
  let numOutputs := info.outputSlotTypes.length
  let numSemaphores := info.semaphoreTypes.length
  let inputSlotBase := numHostStaged
  let outputSlotBase := inputSlotBase + info.numTensorInputs
  let semaphoreBase := outputSlotBase + numOutputs
  let inputSlots := List.range' inputSlotBase info.numTensorInputs
  let traceOutputSlots := List.range' outputSlotBase numOutputs
  let traceCallArgs := inputSlots ++ (traceOutputSlots ++ List.range' semaphoreBase numSemaphores)
  let hostStaged := (info.boundaryInputs.take info.numTensorInputs).drop info.numDeviceResident
  { argTypes := hostStaged.map (fun input => (func.typeOf input).withBuffer .systemMemory) ++
      (info.inputSlotTypes ++ (info.outputSlotTypes ++ info.semaphoreTypes))
    argAttrs := info.inputArgAttrs.drop info.numDeviceResident ++ (info.inputArgAttrs.take info.numDeviceResident ++
      List.replicate (numHostStaged + numOutputs + numSemaphores) ⟨none, false⟩)
    body := (List.range numHostStaged).map (fun h => .writeTensor h (inputSlots.getD (info.numDeviceResident + h) 0)) ++
      [.call traceCallArgs, .beginTraceCapture, .call traceCallArgs, .endTraceCapture, .executeTrace] }

def createExecuteTraceFunction : List CaptureOp := [.executeTrace]

/-- An input of the trace op; a converted one is the result of a `to_tensor_spec` of its source. -/
structure TraceInput where
  source : Value
  converted : Bool
  type : ValueType
  deriving DecidableEq

structure CaptureOrExecuteTraceOp where
  inputs : List TraceInput
  semaphoreInputs : List Value
  resultTypes : List ValueType
  deriving DecidableEq

def forwardInput (func : Func) (input : Value) : Except String TraceInput :=
  match func.typeOf input with
  | .tensor _ .systemMemory => .error "Device-resident input must be on device, but found on system memory"
  | type => .ok ⟨input, false, type⟩

def stageInput (func : Func) (input : Value) : TraceInput :=
  match func.typeOf input with
  | .tensor spec .systemMemory => ⟨input, false, .tensor spec .systemMemory⟩
  | type => ⟨input, true, type.withBuffer .systemMemory⟩

def insertCaptureOrExecuteTraceOp (func : Func) (info : TraceMainFuncInfo) : Except String CaptureOrExecuteTraceOp := do
  let resident ← (info.boundaryInputs.take info.numDeviceResident).mapM (forwardInput func)
  let staged := ((info.boundaryInputs.take info.numTensorInputs).drop info.numDeviceResident).map (stageInput func)
  .ok ⟨resident ++ staged, info.boundaryInputs.drop info.numTensorInputs, info.outputSlotTypes⟩

def usesOf (func : Func) (region : Region) (traceOp : CaptureOrExecuteTraceOp) (value : Value) : Nat :=
  ((region.before ++ region.back).map fun op => op.operands.count value).sum + func.returns.count value +
    (traceOp.inputs.map TraceInput.source).count value + traceOp.semaphoreInputs.count value

def mergeArgument (uses : Value → Nat) (argument : Value) (type : ValueType) (traceOp : CaptureOrExecuteTraceOp) :
    ValueType × CaptureOrExecuteTraceOp :=
  match traceOp.inputs.find? fun input => input.source = argument && input.converted with
  | none => (type, traceOp)
  | some input =>
      if uses argument = 1 then
        (input.type, { traceOp with
          inputs := traceOp.inputs.map fun other => if other.source = argument then { other with converted := false } else other })
      else (type, traceOp)

def mergeToLayoutOpsWithFuncArgs (uses : Value → Nat) :
    Nat → List ValueType → CaptureOrExecuteTraceOp → Except String (List ValueType × CaptureOrExecuteTraceOp)
  | _, [], traceOp => .ok ([], traceOp)
  | number, type :: types, traceOp =>
      if type.isTensor then do
        let merged := mergeArgument uses (.arg number) type traceOp
        let (rest, last) ← mergeToLayoutOpsWithFuncArgs uses (number + 1) types merged.2
        .ok (merged.1 :: rest, last)
      else .error "cast<Ty>() argument of incompatible type!"

structure Hoisted where
  region : Region
  info : TraceMainFuncInfo
  allocateSlots : AllocateSlotsFunc
  capture : CaptureFunc
  execute : List CaptureOp
  traceOp : CaptureOrExecuteTraceOp
  argTypes : List ValueType
  deriving DecidableEq

def performHoistTransform (func : Func) (region : Region) : Except String Hoisted := do
  let info ← createTraceFunction func region
  let allocateSlots ← createAllocateSlotsTraceFunction info
  let traceOp ← insertCaptureOrExecuteTraceOp func info
  let (argTypes, merged) ← mergeToLayoutOpsWithFuncArgs (usesOf func region traceOp) 0 (func.args.map Prod.fst) traceOp
  .ok ⟨region, info, allocateSlots, createRunAndCaptureTraceFunction func info, createExecuteTraceFunction, merged, argTypes⟩

def processFuncOp (func : Func) : Except String (Option Hoisted) :=
  let region := findRegion func.ops
  if region.middle.any fun op => !shouldHoistOp op && !op.isCreation then
    .error "Non-hoistable op found in the middle of hoistable ops"
  else if region.opsToHoist = [] then .ok none
  else (performHoistTransform func region).map some

end TtMlir.Trace.Hoist
