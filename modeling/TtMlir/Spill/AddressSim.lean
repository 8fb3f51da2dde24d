import TtMlir.Spill.Manager

/-!
The address-simulating spill manager: the hooks over `SumL1MemoryTracker`. The tracker is
rebuilt after an eviction; an output is placed after checking that it has a contiguous fit and that
the circular buffers of its op stay below every tensor.
-/

namespace TtMlir.Spill

abbrev SumManager := Manager SumL1MemoryTracker

namespace AddressSim

def replayEvent (func : Func) (l1Budget : Nat) (event : L1Event) (state : AddressState) : Option AddressState :=
  if event.skipped then some state
  else match event.kind with
    | .kDealloc => some (state.freeAddress event.tensor)
    | .kAlloc =>
        match (func.aliasSource event.tensor).filter state.hasTensorAddress with
        | some src => some (state.allocateAddressAt event.tensor src)
        | none => state.allocateAddress l1Budget event.tensor event.sizePerCore

/-- Replay a suffix of the log, renewing the snapshot before every alloc event. -/
def replayEvents (func : Func) (l1Budget : Nat) :
    List L1Event → Nat → AddressState → (Nat → Option AddressState) →
      AddressState × (Nat → Option AddressState) × Bool
  | [], _, state, snapshots => (state, snapshots, true)
  | event :: rest, idx, state, snapshots =>
      let snapshots :=
        if event.skipped = false ∧ event.kind = .kAlloc then Function.update snapshots idx (some state) else snapshots
      match replayEvent func l1Budget event state with
      | some state => replayEvents func l1Budget rest (idx + 1) state snapshots
      -- the partial state is never trusted
      | none => (state, snapshots, false)

def replayFrom (m : SumManager) (startIdx : Nat) : Except Failure (SumManager × Bool) :=
  match m.addressSnapshots startIdx with
  | none => .error .assertion
  | some snapshot =>
      let (addresses, addressSnapshots, placedAll) := replayEvents m.func m.memoryTracker.l1Budget
        (m.l1EventLog.drop startIdx) startIdx snapshot m.addressSnapshots
      .ok ({ m with memoryTracker := { m.memoryTracker with addresses }, addressSnapshots }, placedAll)

def rebuildHooks : RebuildHooks SumL1MemoryTracker where
  usesRewindEviction := false
  replayFrom := replayFrom

/-- Source whose slot the value shares, if that is still placed. -/
def aliasedSource (m : SumManager) (value : Value) : Option Value :=
  (m.func.aliasSource value).filter m.memoryTracker.addresses.hasTensorAddress

def willAliasSourceInL1 (m : SumManager) (op : OpId) : Bool := (aliasedSource m (.result op 0)).isSome

/-- The tracker with the value added: on its source's slot, or on one of its own. -/
def placeResult (m : SumManager) (val : Value) (perResultL1 : Nat) : Option SumL1MemoryTracker :=
  match aliasedSource m val with
  | some src => some (m.memoryTracker.addTensorAtAddress val perResultL1 src)
  | none => m.memoryTracker.addTensor val perResultL1

def recordCommit (m : SumManager) (val : Value) (perResultL1 : Nat) (memoryTracker : SumL1MemoryTracker) :
    SumManager :=
  { m with
    memoryTracker
    allocEventIndex := Function.update m.allocEventIndex val (some m.l1EventLog.length)
    addressSnapshots := Function.update m.addressSnapshots m.l1EventLog.length (some m.memoryTracker.addresses)
    l1EventLog := m.l1EventLog ++ [{ kind := .kAlloc, tensor := val, sizePerCore := perResultL1 }]
    liveValues := m.liveValues.insert val
    liveSet := ((m.data.lastUsePositions val).getD 0, val) :: m.liveSet }

/-- The source asserts that `val` has a last-use position. -/
def commitAllocation (m : SumManager) (val : Value) (perResultL1 : Nat) : Except Failure SumManager :=
  match placeResult m val perResultL1 with
  | none => .error .noContiguousBlock
  | some memoryTracker => .ok (recordCommit m val perResultL1 memoryTracker)

section Placement
variable (setting : Setting)

def wouldCBsOverlapTensors (m : SumManager) (cbPeakUsage speculativeOutputAddr : Nat) : Bool :=
  decide (cbPeakUsage + setting.cbFragCushion >
    min speculativeOutputAddr m.memoryTracker.getLowestOccupiedAddress)

def evictUntilTracker (m : SumManager) (pos : Nat) (shouldStop : SumL1MemoryTracker → Bool) :
    Except Failure (SumManager × Option Bool) :=
  m.evictUntil setting rebuildHooks pos (fun m => (shouldStop m.memoryTracker, m)) id

def evictForCBOverlap (m : SumManager) (pos cushionedCBUsage : Nat) : Except Failure (SumManager × Option Bool) :=
  evictUntilTracker setting m pos fun tracker => decide (cushionedCBUsage ≤ tracker.getLowestOccupiedAddress)

/-- After a demotion to DRAM: clear the circular-buffer region of live tensors. -/
def evictForDramCBGrowth (m : SumManager) (op : OpId) (pos : Nat) : Except Failure SumManager := do
  let (result, m) := m.validateBackendDirect setting op
  if result.isSuccess = false ∨ result.cbPeakUsage = 0 then .ok m
  else
    let dramCBCushioned := result.cbPeakUsage + setting.cbFragCushion
    let (m, _) ← evictForCBOverlap setting m pos dramCBCushioned
    if m.liveValues ≠ [] ∧ dramCBCushioned > m.memoryTracker.getLowestOccupiedAddress then
      .ok { m with compilationFailed := true }
    else .ok m

/-- Give up on L1 for the output of `op`. -/
def demoteSelf (m : SumManager) (op : OpId) (pos : Nat) : Except Failure (SumManager × Nat) := do
  let m ← evictForDramCBGrowth setting (m.demote op) op pos
  .ok (m, 0)

/-- Validate again after an eviction; the size handed back must still fit. -/
def revalidateFit (m : SumManager) (op : OpId) : ValidationResult × Bool × SumManager :=
  let (freshResult, m) := m.validate setting op
  let fits := freshResult.isSuccess && (decide (freshResult.outputL1Usage = 0) ||
    (m.memoryTracker.wouldAllocateAt freshResult.outputL1Usage).isSome)
  (freshResult, fits, m)

def applyFit (m : SumManager) (op : OpId) (freshResult : ValidationResult) : SumManager × Nat :=
  ({ m with func := m.func.applyOutputConfig op freshResult.actualOutputLayouts }, freshResult.outputL1Usage)

def handleNoFit (m : SumManager) (op : OpId) (pos outputL1Size : Nat) : Except Failure (SumManager × Nat) := do
  let (m, fitsAfterEviction) ← evictUntilTracker setting m pos fun tracker =>
    (tracker.wouldAllocateAt outputL1Size).isSome
  if m.compilationFailed then .ok (m, 0)
  else if fitsAfterEviction ≠ some true then demoteSelf setting m op pos
  else
    let (freshResult, fits, m) := revalidateFit setting m op
    if fits then .ok (applyFit m op freshResult)
    else demoteSelf setting m op pos

/-- Spill the op's live operands so that all of its inputs are in DRAM. -/
def spillSiblings (op : OpId) (pos : Nat) :
    List Value → SumManager → Option Nat → Bool → Except Failure (SumManager × Bool)
  | [], m, _, fitsAfterSiblingSpill => .ok (m, fitsAfterSiblingSpill)
  | victim :: rest, m, campaignMin, _ => do
      let (m, campaignMin, placedAll) ← m.evictValue setting rebuildHooks victim pos campaignMin (some op)
      spillSiblings op pos rest m campaignMin placedAll

def handleFragmentation (m : SumManager) (op : OpId) (pos cbPeakUsage outputL1Size : Nat) :
    Except Failure (SumManager × Nat) := do
  let cushionedCBUsage := cbPeakUsage + setting.cbFragCushion
  let (m, fitsAfterEviction) ← evictUntilTracker setting m pos fun tracker =>
    (tracker.wouldAllocateAt outputL1Size).any fun specAddr =>
      decide (cushionedCBUsage ≤ min specAddr tracker.getLowestOccupiedAddress)
  let isDRAMShardedMatmul := (m.func.getOp op).isDRAMShardedMatmul
  if m.compilationFailed then .ok (m, 0)
  else if fitsAfterEviction ≠ some true then
    if isDRAMShardedMatmul then
      match m.memoryTracker.wouldAllocateAt outputL1Size with
      | none => .ok ({ m with compilationFailed := true }, 0)
      -- the output stays sharded and is spilled right after the op
      | some _ => .ok ({ m with func := m.func.spillToDram (.result op 0) }, 0)
    else demoteSelf setting m op pos
  else
    let (freshResult, fits, m) := revalidateFit setting m op
    if fits then .ok (applyFit m op freshResult)
    else if isDRAMShardedMatmul then .ok (m, outputL1Size)
    else if freshResult.status ≠ .outOfMemoryError then do
      let toEvict := (m.func.getOp op).operands.filter fun operand => operand ∈ m.liveValues
      let (m, fitsAfterSiblingSpill) ← spillSiblings setting op pos toEvict m none true
      if fitsAfterSiblingSpill then demoteSelf setting m op pos
      else .ok ({ m with compilationFailed := true }, 0)
    else demoteSelf setting m op pos

def makeRoom (m : SumManager) (op : OpId) (pos l1Size : Nat) : Except Failure (SumManager × Nat) :=
  if (m.memoryTracker.wouldAllocateAt l1Size).isSome then .ok (m, l1Size)
  else handleNoFit setting m op pos l1Size

/-- L1 size to place for the op's output, `0` when it goes to DRAM. -/
def ensureFitsL1 (m : SumManager) (op : OpId) (pos cbPeakUsage l1Size : Nat) : Except Failure (SumManager × Nat) :=
  if willAliasSourceInL1 m op then .ok (m, l1Size)
  else do
    let (m, l1Size) ← makeRoom setting m op pos l1Size
    -- without a placement only the tensors already there matter
    let speculativeAddr := (m.memoryTracker.wouldAllocateAt l1Size).getD (2 ^ 64 - 1)
    if cbPeakUsage > 0 ∧ wouldCBsOverlapTensors setting m cbPeakUsage speculativeAddr = true then
      handleFragmentation setting m op pos cbPeakUsage l1Size
    else .ok (m, l1Size)

end Placement

end AddressSim

end TtMlir.Spill
