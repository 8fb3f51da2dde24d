import Mathlib.Data.List.Basic

/-!
The runtime of trace ops. All trace ops share a cache of traced programs: the first run
allocates slots and captures the program against them, later runs refresh the input slots and
replay, and a trace older than the cache's generation is captured again. Tensors are wrapper
objects with a version, so a device-resident input is its own slot.
-/

namespace TtMlir.Trace

inductive StorageType where
  | host
  | device
  deriving DecidableEq

/-- A runtime tensor: its storage, what it holds and the version of that. -/
structure TensorWrapper (Value : Type) where
  storageType : StorageType
  content : Value
  version : Nat

abbrev Pool (Value : Type) := Nat → TensorWrapper Value

/-- A trace op. Its inputs are grouped: the device-resident ones come first, then
the ones staged from the host. -/
structure TraceOp (Value : Type) where
  numDeviceResident : Nat
  numTensorInputs : Nat
  numOutputs : Nat
  traceFunc : List Value → List Value
  grouped : numDeviceResident ≤ numTensorInputs
  traceFunc_length : ∀ contents, (traceFunc contents).length = numOutputs

/-- A captured trace on the device: its commands with the slots baked in. -/
structure MeshTrace (Value : Type) where
  commands : List Value → List Value
  inputSlots : List Nat
  outputSlots : List Nat

structure TraceData where
  traceId : Nat
  inputTensors : List Nat
  outputTensors : List Nat
  generationId : Nat

section Pools
variable {Value : Type}

def TraceOp.inDeviceMemory (op : TraceOp Value) (idx : Nat) : Bool := decide (idx < op.numDeviceResident)

def setContent (pool : Pool Value) (tensor : Nat) (content : Value) : Pool Value :=
  Function.update pool tensor { pool tensor with content }

def syncVersion (pool : Pool Value) (tensor other : Nat) : Pool Value :=
  Function.update pool tensor { pool tensor with version := (pool other).version }

def copyTensorFromHostToDevice (srcTensor dstTensor : Nat) (pool : Pool Value) : Except String (Pool Value) :=
  if (pool srcTensor).storageType = .host ∧ (pool dstTensor).storageType = .device then
    .ok (setContent pool dstTensor (pool srcTensor).content)
  else .error "srcTensor must be on host and dstTensor must be on device"

def copyTensorFromDeviceToDevice (srcTensor dstTensor : Nat) (pool : Pool Value) : Except String (Pool Value) :=
  if (pool srcTensor).storageType = .device ∧ (pool dstTensor).storageType = .device then
    .ok (setContent pool dstTensor (pool srcTensor).content)
  else .error "srcTensor must be on device and dstTensor must be on device"

/-- The op `write_tensor` of the capture program. -/
def writeTensor (hostTensor deviceTensor : Nat) (pool : Pool Value) : Except String (Pool Value) :=
  if (pool hostTensor).storageType ≠ .host then .error "Host tensor must be in system memory"
  else if (pool deviceTensor).storageType ≠ .device then .error "Device tensor must be in device memory"
  else .ok (setContent pool deviceTensor (pool hostTensor).content)

def updateTraceInputSlot (deviceResident : Bool) (input slot : Nat) (pool : Pool Value) :
    Except String (Pool Value) :=
  if (pool input).version = (pool slot).version then .ok pool
  else do
    let copied ←
      (if deviceResident then copyTensorFromDeviceToDevice input slot pool
        else copyTensorFromHostToDevice input slot pool)
    .ok (syncVersion copied slot input)

def updateTraceInputSlotsFrom (op : TraceOp Value) (deviceResidentOnly : Bool) :
    Nat → List (Nat × Nat) → Pool Value → Except String (Pool Value)
  | _, [], pool => .ok pool
  | idx, (input, slot) :: rest, pool =>
      if deviceResidentOnly && !op.inDeviceMemory idx then
        updateTraceInputSlotsFrom op deviceResidentOnly (idx + 1) rest pool
      else do
        let pool ← updateTraceInputSlot (op.inDeviceMemory idx) input slot pool
        updateTraceInputSlotsFrom op deviceResidentOnly (idx + 1) rest pool

def updateTraceInputSlots (op : TraceOp Value) (inputs inputSlots : List Nat) (deviceResidentOnly : Bool)
    (pool : Pool Value) : Except String (Pool Value) :=
  if inputs.length ≠ inputSlots.length then .error "Mismatched number of inputs"
  else updateTraceInputSlotsFrom op deviceResidentOnly 0 (inputs.zip inputSlots) pool

/-- The traced computation: it reads the input slots and stores its results into
the output slots. -/
def execute (trace : MeshTrace Value) (pool : Pool Value) : Pool Value :=
  (trace.outputSlots.zip (trace.commands (trace.inputSlots.map fun slot => (pool slot).content))).foldl
    (fun pool store => setContent pool store.1 store.2) pool

/-- The writes of the host-staged inputs into their slots, before the capture
window opens. -/
def writeHostStaged : List (Nat × Nat) → Pool Value → Except String (Pool Value)
  | [], pool => .ok pool
  | (input, slot) :: rest, pool => do
      let pool ← writeTensor input slot pool
      writeHostStaged rest pool

def publishTraceOutputs (op : TraceOp Value) (outputSlots : List Nat) : Except String (List Nat) :=
  if op.numOutputs ≠ outputSlots.length then .error "Mismatched number of outputs" else .ok outputSlots

end Pools

/-- The device, the callers' tensors and the trace cache. -/
structure Machine (Key Value : Type) where
  wrappers : Pool Value
  /-- The number of wrappers made so far. -/
  allocated : Nat
  latestVersion : Nat
  /-- The tensors that callers made and still hold. -/
  live : Nat → Bool
  meshTraces : Nat → Option (MeshTrace Value)
  nextTraceId : Nat
  cache : Key → Option TraceData
  generationId : Nat

namespace Machine

variable {Key Value : Type}

def start [Inhabited Value] : Machine Key Value where
  wrappers _ := ⟨.host, default, 0⟩
  allocated := 0
  latestVersion := 0
  live _ := false
  meshTraces _ := none
  nextTraceId := 0
  cache _ := none
  generationId := 0

def newTensor (machine : Machine Key Value) (storageType : StorageType) (content : Value) : Machine Key Value :=
  { machine with
    wrappers := Function.update machine.wrappers machine.allocated ⟨storageType, content, machine.latestVersion⟩
    allocated := machine.allocated + 1
    latestVersion := machine.latestVersion + 1 }

/-- The op `empty`, once for each slot. -/
def newSlots [Inhabited Value] : Nat → Machine Key Value → Machine Key Value
  | 0, machine => machine
  | count + 1, machine => newSlots count (machine.newTensor .device default)

/-- Device-resident inputs are their own slots; host-staged inputs and outputs get new buffers. -/
def allocateTraceSlots [Inhabited Value] (op : TraceOp Value) (inputs : List Nat) (machine : Machine Key Value) :
    List Nat × Machine Key Value :=
  let newSlotCount := op.numTensorInputs - op.numDeviceResident + op.numOutputs
  (inputs.take op.numDeviceResident ++ List.range' machine.allocated newSlotCount, newSlots newSlotCount machine)

variable [DecidableEq Key]

/-- The capture program, called with the host-staged inputs and the slots: it runs the trace function
uncaptured, captures it, replays it once and returns the new trace id. -/
def captureProgram (op : TraceOp Value) (arguments : List Nat) (machine : Machine Key Value) :
    Except String (Nat × Machine Key Value) := do
  let inputSlotBase := op.numTensorInputs - op.numDeviceResident
  let outputSlotBase := inputSlotBase + op.numTensorInputs
  let inputSlots := (arguments.drop inputSlotBase).take op.numTensorInputs
  let outputSlots := (arguments.drop outputSlotBase).take op.numOutputs
  let staged := (arguments.take inputSlotBase).zip (inputSlots.drop op.numDeviceResident)
  let written ← writeHostStaged staged machine.wrappers
  let trace : MeshTrace Value := ⟨op.traceFunc, inputSlots, outputSlots⟩
  let uncaptured := execute trace written
  .ok (machine.nextTraceId,
    { machine with
      wrappers := execute trace uncaptured
      meshTraces := Function.update machine.meshTraces machine.nextTraceId (some trace)
      nextTraceId := machine.nextTraceId + 1 })

def captureTrace (op : TraceOp Value) (inputs inputSlots outputSlots : List Nat) (generationId : Nat)
    (machine : Machine Key Value) : Except String ((TraceData × List Nat) × Machine Key Value) := do
  let captureInputs := inputs.drop op.numDeviceResident ++ inputSlots ++ outputSlots
  let (traceId, machine) ← machine.captureProgram op captureInputs
  let outputs ← publishTraceOutputs op outputSlots
  .ok (({ traceId, inputTensors := inputSlots, outputTensors := outputSlots, generationId }, outputs), machine)

def executeTrace (op : TraceOp Value) (inputs : List Nat) (traceData : TraceData) (machine : Machine Key Value) :
    Except String (List Nat × Machine Key Value) := do
  let wrappers ← updateTraceInputSlots op inputs traceData.inputTensors false machine.wrappers
  match machine.meshTraces traceData.traceId with
  | some trace => do
      let outputs ← publishTraceOutputs op traceData.outputTensors
      .ok (outputs, { machine with wrappers := execute trace wrappers })
  | none => .error "Trace not found on the device"

def releaseTrace (traceId : Nat) (machine : Machine Key Value) : Machine Key Value :=
  { machine with meshTraces := Function.update machine.meshTraces traceId none }

def insert (key : Key) (traceData : TraceData) (machine : Machine Key Value) : Machine Key Value :=
  { machine with cache := Function.update machine.cache key (some traceData) }

def take (key : Key) (machine : Machine Key Value) : Except String (TraceData × Machine Key Value) :=
  match machine.cache key with
  | some traceData => .ok (traceData, { machine with cache := Function.update machine.cache key none })
  | none => .error "Trace entry must be in the cache"

def incrementGeneration (machine : Machine Key Value) : Machine Key Value :=
  { machine with generationId := machine.generationId + 1 }

variable [Inhabited Value]

/-- The branch of a cache miss. -/
def firstCapture (op : TraceOp Value) (key : Key) (inputs : List Nat) (machine : Machine Key Value) :
    Except String (List Nat × Machine Key Value) := do
  let machine := machine.incrementGeneration
  let (slots, machine) := machine.allocateTraceSlots op inputs
  if slots.length ≠ op.numTensorInputs + op.numOutputs then .error "Mismatched number of trace slots"
  else
    let inputSlots := slots.take op.numTensorInputs
    let outputSlots := slots.drop op.numTensorInputs
    let wrappers ← updateTraceInputSlots op inputs inputSlots true machine.wrappers
    let ((traceData, outputs), machine) ←
      { machine with wrappers }.captureTrace op inputs inputSlots outputSlots machine.generationId
    .ok (outputs, machine.insert key traceData)

/-- The branch of a stale trace. -/
def staleRecapture (op : TraceOp Value) (key : Key) (inputs : List Nat) (machine : Machine Key Value) :
    Except String (List Nat × Machine Key Value) := do
  let (staleTrace, machine) ← machine.take key
  let machine := machine.releaseTrace staleTrace.traceId
  let wrappers ← updateTraceInputSlots op inputs staleTrace.inputTensors true machine.wrappers
  let ((traceData, outputs), machine) ←
    { machine with wrappers }.captureTrace op inputs staleTrace.inputTensors staleTrace.outputTensors
      machine.generationId
  .ok (outputs, machine.insert key traceData)

def run (ops : Key → TraceOp Value) (key : Key) (inputs : List Nat) (machine : Machine Key Value) :
    Except String (List Nat × Machine Key Value) :=
  match machine.cache key with
  | none => machine.firstCapture (ops key) key inputs
  | some traceData =>
      if traceData.generationId < machine.generationId then machine.staleRecapture (ops key) key inputs
      else machine.executeTrace (ops key) inputs traceData

end Machine

end TtMlir.Trace
