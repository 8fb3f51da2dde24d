import TtMlir.Spill.AddressSim

/-!
`run`: the forward sweep as a machine that takes one step at a time. A step
handles the op at a position, places an output, or restores a checkpoint.
-/

namespace TtMlir.Spill

inductive Recovery where
  | nothing
  | place (l1Size : Nat)
  | rewindTo (pos : Nat)
  deriving DecidableEq, Repr

structure SpillHooks (τ : Type) [MemoryTracker τ] extends RebuildHooks τ where
  placeValidatedOutput : Manager τ → OpId → Nat → ValidationResult → Except Failure (Manager τ × Nat)
  recoverFromOOM : Manager τ → OpId → Nat → Except Failure (Manager τ × Recovery)
  commitAllocation : Manager τ → Value → Nat → Except Failure (Manager τ)
  handleUnvalidatedL1Output : Manager τ → OpId → Nat → Nat → Except Failure (Manager τ)

namespace AddressSim
variable (setting : Setting)

/-- After the evictions: room for an L1 output, or for the circular buffers of a DRAM one. -/
def makeRoomAfterOOM (m : SumManager) (op : OpId) (pos : Nat) (result : ValidationResult) :
    Except Failure (SumManager × Nat) :=
  if result.outputL1Usage > 0 then ensureFitsL1 setting m op pos result.cbPeakUsage result.outputL1Usage
  else do
    let m ← evictForDramCBGrowth setting m op pos
    .ok (m, 0)

def handleOOM (m : SumManager) (op : OpId) (pos : Nat) : Except Failure (SumManager × Recovery) := do
  let (m, answer) ← m.evictUntil setting rebuildHooks pos (fun m => m.validate setting op) (·.isSuccess)
  if m.compilationFailed then .ok (m, .nothing)
  else
    match answer.filter (·.isSuccess) with
    | none => .ok (m.demote op, .nothing)
    | some result => do
        let (m, l1Size) ← makeRoomAfterOOM setting m op pos result
        if m.data.schedule[pos]? ≠ some op ∨ l1Size = 0 then .ok (m, .nothing)
        else .ok (m, .place l1Size)

def hooks : SpillHooks SumL1MemoryTracker where
  toRebuildHooks := rebuildHooks
  placeValidatedOutput m op pos result := ensureFitsL1 setting m op pos result.cbPeakUsage result.outputL1Usage
  recoverFromOOM := handleOOM setting
  commitAllocation := commitAllocation
  handleUnvalidatedL1Output m op pos derivedL1 := do
    let (m, _) ← ensureFitsL1 setting m op pos 0 derivedL1
    .ok m

end AddressSim

abbrev MockManager := Manager MockAllocatorL1Tracker

namespace Stateful
variable (setting : Setting)

def commitAllocation (m : MockManager) (val : Value) : MockManager :=
  { m with
    memoryTracker := match (m.func.aliasSource val).filter m.memoryTracker.hasTensor with
      | some src => m.memoryTracker.addTensorAlias val src
      | none => m.memoryTracker.addTensor m.func val
    liveValues := m.liveValues.insert val
    liveSet := ((m.data.lastUsePositions val).getD 0, val) :: m.liveSet }

def rebuildHooks : RebuildHooks MockAllocatorL1Tracker where
  usesRewindEviction := true
  replayFrom _ _ := .error .assertion

/-- Evict one victim and rewind to its own position. -/
def recoverFromOOM (m : MockManager) (op : OpId) (pos : Nat) : Except Failure (MockManager × Recovery) :=
  match m.evictFarthestUse setting with
  | (none, m) =>
      if (m.func.getOp op).isDRAMShardedMatmul then .ok ({ m with compilationFailed := true }, .nothing)
      else .ok (m.demote op, .nothing)
  | (some victim, m) => do
      let (m, _) ← m.evictValue setting rebuildHooks victim pos none
      .ok (m, .rewindTo ((victim.getDefiningOp.bind m.data.positionMap).getD 0))

def hooks : SpillHooks MockAllocatorL1Tracker where
  toRebuildHooks := rebuildHooks
  placeValidatedOutput m _ _ result := .ok (m, result.outputL1Usage)
  recoverFromOOM := recoverFromOOM setting
  commitAllocation m val _ := .ok (commitAllocation m val)
  handleUnvalidatedL1Output m _ _ _ := .ok m

end Stateful

inductive Control where
  | sweep (pos : Nat)
  | place (pos : Nat) (op : OpId) (l1Size : Nat)
  /-- `pendingRewindTo`, set at `pos`. -/
  | rewind (pos target : Nat)
  | finished
  deriving DecidableEq, Repr

structure Sweep (τ : Type) [MemoryTracker τ] where
  m : Manager τ
  control : Control := .sweep 0
  rewindCount : Nat := 0
  kMaxRewinds : Nat

namespace Sweep
variable {τ : Type} [MemoryTracker τ] (setting : Setting) (hooks : SpillHooks τ)

def rewindIfScheduleShifted (m : Manager τ) (op : OpId) (pos : Nat) (unshifted : Control) : Control :=
  if m.data.schedule[pos]? = some op then unshifted else .sweep pos

def processOp (m : Manager τ) (op : OpId) (pos : Nat) : Except Failure (Manager τ × Control) := do
  let (result, m) := m.validate setting op
  match result.status with
  | .notImplemented => do
      let m ← m.evictAllFromL1 setting pos op
      .ok (m, .sweep (pos + 1))
  | .success => do
      let (m, l1Size) ← hooks.placeValidatedOutput m op pos result
      .ok (m, rewindIfScheduleShifted m op pos (if l1Size = 0 then .sweep (pos + 1) else .place pos op l1Size))
  | .metalBackendError => .ok (m.demote op, .sweep (pos + 1))
  | .unmatchedReferenceConfig | .outOfMemoryError => do
      let (m, recovery) ← hooks.recoverFromOOM m op pos
      match recovery with
      | .rewindTo target => .ok (m, .rewind pos target)
      | .place l1Size => .ok (m, .place pos op l1Size)
      | .nothing => .ok (m, rewindIfScheduleShifted m op pos (.sweep (pos + 1)))

def visit (m : Manager τ) (op : OpId) (pos : Nat) : Except Failure (Manager τ × Control) :=
  let operation := m.func.getOp op
  if operation.isSinkOp then .ok (m, .sweep (pos + 1))
  else if operation.isToTensorSpec then
    match operation.results.head?.join with
    | some layout =>
        if layout.hasL1BufferType then do
          let m ← hooks.handleUnvalidatedL1Output m op pos layout.perCoreL1Usage
          .ok (m, .sweep (pos + 1))
        else .ok (m, .sweep (pos + 1))
    | none => .ok (m, .sweep (pos + 1))
  else if operation.hasL1Output = false ∧ m.liveValues = [] then .ok (m, .sweep (pos + 1))
  else processOp setting hooks m op pos

def addResultsToLiveSet (m : Manager τ) (op : OpId) (totalL1 : Nat) : Except Failure (Manager τ) :=
  let tensorResults := m.func.tensorResults op
  let perResultL1 := totalL1 / tensorResults.length
  tensorResults.foldlM (fun m result => hooks.commitAllocation m result perResultL1) m

def step (s : Sweep τ) : Except Failure (Sweep τ) :=
  match s.control with
  | .finished => .ok s
  | .sweep pos =>
      match s.m.data.schedule[pos]? with
      | none => .ok { s with control := .finished }
      | some op =>
          if s.m.compilationFailed then .ok { s with control := .finished }
          else do
            let m := if hooks.usesRewindEviction then s.m.captureCheckpoint pos else s.m
            let (m, control) ← visit setting hooks (m.processDeadTensors pos) op pos
            .ok { s with m, control }
  | .place pos op l1Size => do
      let m ← addResultsToLiveSet hooks s.m op l1Size
      .ok { s with m, control := .sweep (pos + 1) }
  | .rewind _ target => do
      let m ← s.m.restoreCheckpoint target
      if s.rewindCount + 1 > s.kMaxRewinds then .error .rewindBudget
      else .ok { s with m, control := .sweep target, rewindCount := s.rewindCount + 1 }

def start (func : Func) : Sweep τ :=
  let data := buildScheduleData func
  { m := { func, memoryTracker := MemoryTracker.init setting.l1BudgetPerCore, data }
    kMaxRewinds := 4 * data.schedule.length + 64 }

def run (func : Func) : Nat → Except Failure (Sweep τ)
  | 0 => .ok (start setting func)
  | steps + 1 => do
      let s ← run func steps
      step setting hooks s

end Sweep

end TtMlir.Spill
