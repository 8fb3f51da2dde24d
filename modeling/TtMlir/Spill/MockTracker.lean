import TtMlir.Spill.SumTracker

/-!
`MockAllocatorL1Tracker`: the records of the buffers live in L1, keyed by the
value that owns them. A view adds no record: it counts as one more user of its
source's. The allocator's answers come from the backend, to which every live
record is passed.
-/

namespace TtMlir.Spill

structure AllocationRecord where
  bufferType : BufferType
  sizePerBank : Nat
  address : Nat := 0
  deriving DecidableEq, Repr

inductive ValidationStatus where
  | success
  | notImplemented
  | metalBackendError
  | unmatchedReferenceConfig
  | outOfMemoryError
  deriving DecidableEq, Repr

structure ValidationResult where
  status : ValidationStatus
  actualOutputLayouts : List TTNNLayout := []
  outputL1Usage : Nat := 0
  cbPeakUsage : Nat := 0
  outputAllocations : List AllocationRecord := []
  deriving DecidableEq, Repr

namespace ValidationResult

def isSuccess (result : ValidationResult) : Bool := decide (result.status = .success)

def isNotImplemented (result : ValidationResult) : Bool := decide (result.status = .notImplemented)

def isMetalBackendError (result : ValidationResult) : Bool := decide (result.status = .metalBackendError)

end ValidationResult

/-- What a backend query carries. A stateful query has the live records. -/
structure Query where
  op : OpId
  inputLayouts : List (Option TTNNLayout)
  outputLayout : Option TTNNLayout
  liveRecords : Option (List AllocationRecord) := none
  additionalL1Usage : Nat := 0

structure MockAllocatorL1Tracker where
  liveRecords : DenseMap Value (List AllocationRecord) := ∅
  pendingRecords : DenseMap OpId (List AllocationRecord) := ∅
  aliasOf : DenseMap Value Value := ∅
  aliasRefcount : DenseMap Value Nat := ∅
  l1Budget : Nat

namespace MockAllocatorL1Tracker

def init (l1BudgetPerCore : Nat) : MockAllocatorL1Tracker := { l1Budget := l1BudgetPerCore }

def l1Bytes (records : List AllocationRecord) : Nat :=
  ((records.filter fun record => record.bufferType = .l1).map (·.sizePerBank)).sum

def getOccupiedL1 (tracker : MockAllocatorL1Tracker) : Nat :=
  (tracker.liveRecords.entries.map fun entry => l1Bytes entry.2).sum

def getTensorSize (tracker : MockAllocatorL1Tracker) (result : Value) : Nat :=
  ((tracker.liveRecords.lookup ((tracker.aliasOf.lookup result).getD result)).map l1Bytes).getD 0

def hasTensor (tracker : MockAllocatorL1Tracker) (result : Value) : Bool :=
  (tracker.aliasOf.lookup result).isSome

def flat (tracker : MockAllocatorL1Tracker) : List AllocationRecord :=
  tracker.liveRecords.entries.flatMap (·.2)

/-- The byte ceiling of the optimizer's budget, and the output records kept for `addTensor`. -/
def accept (tracker : MockAllocatorL1Tracker) (op : OpId) (result : ValidationResult) :
    ValidationResult × MockAllocatorL1Tracker :=
  if result.isSuccess then
    if tracker.l1Budget > 0 ∧ tracker.getOccupiedL1 + result.outputL1Usage > tracker.l1Budget then
      ({ status := .outOfMemoryError }, tracker)
    else if result.outputAllocations.isEmpty then (result, tracker)
    else (result, { tracker with pendingRecords := tracker.pendingRecords.insert op result.outputAllocations })
  else (result, tracker)

/-- The `i`-th result takes the `i`-th pending record of its op; the pending
records go with the last tensor result. -/
def addTensor (tracker : MockAllocatorL1Tracker) (func : Func) (result : Value) : MockAllocatorL1Tracker :=
  match result with
  | .argument _ => tracker
  | .result op idx =>
      match tracker.pendingRecords.lookup op with
      | none => tracker
      | some records =>
          let tracker := match records[idx]? with
            | some record =>
                { tracker with
                  liveRecords := tracker.liveRecords.insert result [record]
                  aliasOf := tracker.aliasOf.insert result result
                  aliasRefcount := tracker.aliasRefcount.insert result 1 }
            | none => tracker
          let isLastTensorResult := !(func.getOp op).tensorResults.any fun number => decide (number > idx)
          if isLastTensorResult then { tracker with pendingRecords := tracker.pendingRecords.erase op } else tracker

def addTensorAlias (tracker : MockAllocatorL1Tracker) (out src : Value) : MockAllocatorL1Tracker :=
  let owner := (tracker.aliasOf.lookup src).getD src
  { tracker with
    aliasOf := tracker.aliasOf.insert out owner
    aliasRefcount := tracker.aliasRefcount.insert owner ((tracker.aliasRefcount.lookup owner).getD 0 + 1) }

def removeTensor (tracker : MockAllocatorL1Tracker) (result : Value) : MockAllocatorL1Tracker :=
  match tracker.aliasOf.lookup result with
  | none => { tracker with liveRecords := tracker.liveRecords.erase result }
  | some owner =>
      let detached := { tracker with aliasOf := tracker.aliasOf.erase result }
      match tracker.aliasRefcount.lookup owner with
      | none => detached
      | some count =>
          if count - 1 = 0 then
            { detached with
              aliasRefcount := tracker.aliasRefcount.erase owner
              liveRecords := tracker.liveRecords.erase owner }
          else { detached with aliasRefcount := tracker.aliasRefcount.insert owner (count - 1) }

structure Snapshot where
  liveRecords : DenseMap Value (List AllocationRecord)
  aliasOf : DenseMap Value Value
  aliasRefcount : DenseMap Value Nat

def takeSnapshot (tracker : MockAllocatorL1Tracker) : Snapshot :=
  { liveRecords := tracker.liveRecords, aliasOf := tracker.aliasOf, aliasRefcount := tracker.aliasRefcount }

def restoreSnapshot (tracker : MockAllocatorL1Tracker) (snapshot : Snapshot) : MockAllocatorL1Tracker :=
  { tracker with
    liveRecords := snapshot.liveRecords
    aliasOf := snapshot.aliasOf
    aliasRefcount := snapshot.aliasRefcount }

end MockAllocatorL1Tracker

end TtMlir.Spill
