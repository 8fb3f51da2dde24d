import TtMlir.Library.TieBreak
import TtMlir.Spill.MockTracker

/-!
`L1SpillManagementBase`: the state both spill managers share and the operations
on it, over the memory tracker and the two hooks that rebuild the tracker after
an eviction.
-/

namespace TtMlir.Spill

/-- What the base class asks of a tracker; `query` and `accept` are the two halves of `validate`.
`addTensor` is `none` where the contract is broken. -/
class MemoryTracker (τ : Type) where
  Snapshot : Type
  init : Nat → τ
  takeSnapshot : τ → Snapshot
  restoreSnapshot : τ → Snapshot → τ
  addTensor : τ → Func → Value → Nat → Option τ
  removeTensor : τ → Value → τ
  removeTensorFromSizes : τ → Value → τ
  hasTensor : τ → Value → Bool
  query : τ → Query → List Value → Query
  accept : τ → OpId → ValidationResult → ValidationResult × τ

instance : MemoryTracker SumL1MemoryTracker where
  Snapshot := AddressState
  init := SumL1MemoryTracker.init
  takeSnapshot tracker := tracker.addresses
  restoreSnapshot tracker snapshot := { tracker with addresses := snapshot }
  addTensor tracker _ := tracker.addTensor
  removeTensor := SumL1MemoryTracker.removeTensor
  removeTensorFromSizes := SumL1MemoryTracker.removeTensorFromSizes
  hasTensor := SumL1MemoryTracker.hasTensor
  query tracker query operands := { query with additionalL1Usage := tracker.additionalL1Usage operands }
  accept tracker _ result := (result, tracker)

instance : MemoryTracker MockAllocatorL1Tracker where
  Snapshot := MockAllocatorL1Tracker.Snapshot
  init := MockAllocatorL1Tracker.init
  takeSnapshot := MockAllocatorL1Tracker.takeSnapshot
  restoreSnapshot := MockAllocatorL1Tracker.restoreSnapshot
  addTensor tracker func result _ := some (tracker.addTensor func result)
  removeTensor := MockAllocatorL1Tracker.removeTensor
  removeTensorFromSizes := MockAllocatorL1Tracker.removeTensor
  hasTensor := MockAllocatorL1Tracker.hasTensor
  query tracker query _ := { query with liveRecords := some tracker.flat }
  accept := MockAllocatorL1Tracker.accept

abbrev LiveEntry := Nat × Value

inductive EventKind where
  | kAlloc
  | kDealloc
  deriving DecidableEq, Repr

structure L1Event where
  kind : EventKind
  tensor : Value
  sizePerCore : Nat := 0
  skipped : Bool := false
  deriving DecidableEq, Repr

structure ScheduleData where
  schedule : List OpId
  lastUsePositions : Value → Option Nat
  deathSchedule : Nat → List Value
  positionMap : OpId → Option Nat

structure SweepCheckpoint (τ : Type) [MemoryTracker τ] where
  tracker : MemoryTracker.Snapshot τ
  liveValues : List Value
  liveSet : List LiveEntry

/-- Ways a run can break off. -/
inductive Failure where
  /-- `allocateAddress: no contiguous free block`. -/
  | noContiguousBlock
  /-- `rewind budget exceeded`. -/
  | rewindBudget
  | assertion
  deriving DecidableEq, Repr

/-- Budget, backend and what the standard library leaves open. The backend may answer every query
anew. -/
structure Setting where
  l1BudgetPerCore : Nat
  cbFragCushion : Nat
  backend : Nat → Query → ValidationResult
  popOrder : TieBreak LiveEntry
  insertionOrder : TieBreak (Nat × L1Event)

structure Manager (τ : Type) [MemoryTracker τ] where
  func : Func
  memoryTracker : τ
  data : ScheduleData
  liveSet : List LiveEntry := []
  liveValues : List Value := []
  sweepCheckpoints : Nat → Option (SweepCheckpoint τ) := fun _ => none
  l1EventLog : List L1Event := []
  addressSnapshots : Nat → Option (MemoryTracker.Snapshot τ) := fun _ => none
  allocEventIndex : Value → Option Nat := fun _ => none
  insertedReshardValues : List Value := []
  compilationFailed : Bool := false
  /-- Victims reported to the observer by `evictValue`, latest first. -/
  evictions : List Value := []
  /-- Backend queries so far. -/
  asked : Nat := 0

structure RebuildHooks (τ : Type) [MemoryTracker τ] where
  usesRewindEviction : Bool
  replayFrom : Manager τ → Nat → Except Failure (Manager τ × Bool)

def LiveEntryCompare (a b : LiveEntry) : Prop := a.1 < b.1

instance : DecidableRel LiveEntryCompare := fun a b => inferInstanceAs (Decidable (a.1 < b.1))

instance : IsStrictWeakOrder LiveEntry LiveEntryCompare where
  irrefl _ := by simp [LiveEntryCompare]
  trans _ _ _ := by simp only [LiveEntryCompare]; omega
  incomp_trans _ _ _ := by simp only [LiveEntryCompare]; omega

def insertsLater (a b : Nat × L1Event) : Prop := a.1 > b.1

instance : DecidableRel insertsLater := fun a b => inferInstanceAs (Decidable (a.1 > b.1))

instance : IsStrictWeakOrder (Nat × L1Event) insertsLater where
  irrefl _ := by simp [insertsLater]
  trans _ _ _ := by simp only [insertsLater]; omega
  incomp_trans _ _ _ := by simp only [insertsLater]; omega

def eraseValue (values : List Value) (value : Value) : List Value := values.filter fun other => other ≠ value

namespace Manager
variable {τ : Type} [MemoryTracker τ] (setting : Setting)

/-- `extractInputLayouts` and the output layout of `extractOpConfigFromIR`. -/
def baseQuery (m : Manager τ) (op : OpId) : Query :=
  let operation := m.func.getOp op
  { op
    inputLayouts := operation.operands.map m.func.getLayout
    -- the hint is dropped for ops with several tensor results
    outputLayout := if operation.tensorResults.length > 1 then none else operation.results.head?.join }

def validateBackendDirect (m : Manager τ) (op : OpId) : ValidationResult × Manager τ :=
  (setting.backend m.asked (m.baseQuery op), { m with asked := m.asked + 1 })

def validate (m : Manager τ) (op : OpId) : ValidationResult × Manager τ :=
  let query := MemoryTracker.query m.memoryTracker (m.baseQuery op) (m.func.getOp op).operands
  let accepted := MemoryTracker.accept m.memoryTracker op (setting.backend m.asked query)
  (accepted.1, { m with memoryTracker := accepted.2, asked := m.asked + 1 })

/-- Pop stale entries and inserted reshards until a value can be evicted. -/
def evictFarthestUse (m : Manager τ) : Option Value × Manager τ :=
  let order := setting.popOrder.drain LiveEntryCompare m.liveSet
  match order.dropWhile fun entry => entry.2 ∉ m.liveValues ∨ entry.2 ∈ m.insertedReshardValues with
  | [] => (none, { m with liveSet := [] })
  | (_, victim) :: rest => (some victim, { m with liveSet := rest, liveValues := eraseValue m.liveValues victim })

def freeDead (m : Manager τ) (deadVal : Value) : Manager τ :=
  if deadVal ∈ m.liveValues then
    { m with
      liveValues := eraseValue m.liveValues deadVal
      l1EventLog := m.l1EventLog ++ [{ kind := .kDealloc, tensor := deadVal }]
      memoryTracker := MemoryTracker.removeTensor m.memoryTracker deadVal }
  else m

/-- Free what was used last at the position before. -/
def processDeadTensors (m : Manager τ) : Nat → Manager τ
  | 0 => m
  | pos + 1 => (m.data.deathSchedule pos).foldl freeDead m

def insertReshardIntoSchedule (m : Manager τ) (reshardOp : OpId) (reshardResult : Value) (consumerPos : Nat) :
    Manager τ :=
  let shift (pos : Nat) : Nat := if consumerPos ≤ pos then pos + 1 else pos
  { m with
    insertedReshardValues := reshardResult :: m.insertedReshardValues
    data :=
      { schedule := m.data.schedule.take consumerPos ++ reshardOp :: m.data.schedule.drop consumerPos
        positionMap := Function.update (fun op => (m.data.positionMap op).map shift) reshardOp (some consumerPos)
        lastUsePositions := Function.update m.data.lastUsePositions reshardResult (some consumerPos)
        deathSchedule := fun pos =>
          if pos < consumerPos then m.data.deathSchedule pos
          else if pos = consumerPos then []
          else if pos = consumerPos + 1 then m.data.deathSchedule consumerPos ++ [reshardResult]
          else m.data.deathSchedule (pos - 1) }
    sweepCheckpoints := fun pos =>
      if pos < consumerPos then m.sweepCheckpoints pos
      else if pos = consumerPos then none
      else m.sweepCheckpoints (pos - 1) }

def insertEventIntoLog (m : Manager τ) (pos : Nat) (event : L1Event) : Manager τ :=
  { m with
    l1EventLog := m.l1EventLog.take pos ++ event :: m.l1EventLog.drop pos
    allocEventIndex := fun value => (m.allocEventIndex value).map fun idx => if pos ≤ idx then idx + 1 else idx
    addressSnapshots := fun idx =>
      if idx < pos then m.addressSnapshots idx
      else if idx = pos then none
      else m.addressSnapshots (idx - 1) }

/-- First dealloc event of `tensor` after `idx`. -/
def deallocAfter (log : List L1Event) (tensor : Value) (idx : Nat) : Option Nat :=
  (List.range log.length).find? fun i =>
    decide (i > idx) && (log[i]?).any fun event => decide (event.tensor = tensor ∧ event.kind = .kDealloc)

def skipEvent (log : List L1Event) (idx : Nat) : List L1Event :=
  log.modify idx fun event => { event with skipped := true }

/-- `campaignMin` is `none` before the first eviction of a campaign. -/
def markEvictedAndRebuild (hooks : RebuildHooks τ) (m : Manager τ) (victim : Value)
    (campaignMin : Option Nat) : Except Failure (Manager τ × Option Nat × Bool) :=
  match m.allocEventIndex victim with
  | none => .error .assertion
  | some allocIdx => do
      let log := skipEvent m.l1EventLog allocIdx
      let log := match deallocAfter log victim allocIdx with
        | some idx => skipEvent log idx
        | none => log
      let start := match campaignMin with
        | some least => min least allocIdx
        | none => allocIdx
      let (m, placedAll) ← hooks.replayFrom { m with l1EventLog := log } start
      .ok (m, some start, placedAll)

def shortenLifetime (m : Manager τ) (victim : Value) (victimOp : OpId) : Manager τ :=
  let victimPos := (m.data.positionMap victimOp).getD 0
  let deathSchedule := match m.data.lastUsePositions victim with
    | some lastUse =>
        if lastUse ≠ victimPos then
          Function.update m.data.deathSchedule lastUse (eraseValue (m.data.deathSchedule lastUse) victim)
        else m.data.deathSchedule
    | none => m.data.deathSchedule
  { m with
    data := { m.data with
      lastUsePositions := Function.update m.data.lastUsePositions victim (some victimPos)
      deathSchedule := Function.update deathSchedule victimPos (deathSchedule victimPos ++ [victim]) } }

/-- Operands of the consumer that read the victim through a `to_memory_config`. -/
def spilledOperandIdx (func : Func) (consumer : OpId) (victim : Value) : List Nat :=
  (List.range (func.getOp consumer).operands.length).filter fun number =>
    match (func.getOp consumer).operands[number]? with
    | some (.result defOp _) =>
        (func.getOp defOp).isToMemoryConfig && decide ((func.getOp defOp).operands.head? = some victim)
    | _ => false

def allocBracket (m : Manager τ) (op : OpId) : Option (Nat × Nat) :=
  let indices := (List.range (m.func.getOp op).results.length).filterMap fun number =>
    m.allocEventIndex (.result op number)
  match indices with
  | [] => none
  | first :: rest => some (rest.foldl min first, rest.foldl max first)

structure Restoring (τ : Type) [MemoryTracker τ] where
  m : Manager τ
  consumerPos : Nat
  transientInsertions : List (Nat × L1Event)

/-- Put one operand of a consumer back into L1. The reshard of a past consumer is bracketed in the
log. -/
def reshardOperand (hooks : RebuildHooks τ) (consumer : OpId) (originalL1Layout : TTNNLayout)
    (isPastConsumer : Bool) (state : Restoring τ) (operandIdx : Nat) : Restoring τ :=
  let func := state.m.func.insertReshardForConsumer consumer operandIdx originalL1Layout
  match (func.getOp consumer).operands[operandIdx]? with
  | some (.result reshardOp number) =>
      let reshardResult := Value.result reshardOp number
      let (validation, m) := validateBackendDirect setting { state.m with func } reshardOp
      let sizePerCore := if validation.isSuccess then validation.outputL1Usage else originalL1Layout.perCoreL1Usage
      if isPastConsumer && !hooks.usesRewindEviction then
        match m.allocBracket consumer with
        -- a consumer without L1 results leaves no events to bracket
        | none => { state with m }
        | some (firstAllocIdx, lastAllocIdx) =>
            { state with
              m
              transientInsertions := state.transientInsertions ++
                [(lastAllocIdx + 1, { kind := .kDealloc, tensor := reshardResult }),
                  (firstAllocIdx, { kind := .kAlloc, tensor := reshardResult, sizePerCore })] }
      else
        { state with
          m := m.insertReshardIntoSchedule reshardOp reshardResult state.consumerPos
          consumerPos := state.consumerPos + 1 }
  | _ => { state with m := { state.m with func } }

def restoreConsumer (hooks : RebuildHooks τ) (victim : Value) (pos : Nat) (originalL1Layout : TTNNLayout)
    (skipReshardConsumer : Option OpId) (state : Manager τ × List (Nat × L1Event)) (consumer : OpId) :
    Manager τ × List (Nat × L1Event) :=
  let (m, transientInsertions) := state
  let operation := m.func.getOp consumer
  match m.data.positionMap consumer with
  | none => state
  | some consumerPos =>
      if skipReshardConsumer = some consumer ∨ operation.hasOpModel = false ∨ operation.isToTensorSpec = true then
        state
      else
        match spilledOperandIdx m.func consumer victim with
        | [] => state
        | operands =>
            let isPastConsumer := decide (consumerPos < pos)
            let (needsReshard, m) :=
              if isPastConsumer || operation.isDRAMShardedMatmul then (true, m)
              else
                let (result, m) := validateBackendDirect setting m consumer
                (result.isMetalBackendError, m)
            if needsReshard then
              let restored := operands.foldl (reshardOperand setting hooks consumer originalL1Layout isPastConsumer)
                { m, consumerPos, transientInsertions }
              (restored.m, restored.transientInsertions)
            else (m, transientInsertions)

/-- `evictValue` up to the rebuild: the manager and the pending log insertions. -/
def spillValue (hooks : RebuildHooks τ) (m : Manager τ) (victim : Value) (pos : Nat)
    (skipReshardConsumer : Option OpId) : Manager τ × List (Nat × L1Event) :=
  let originalL1Layout := m.func.getLayout victim
  let m :=
    { m with
      liveValues := eraseValue m.liveValues victim
      evictions := victim :: m.evictions
      func := m.func.spillToDram victim
      memoryTracker := MemoryTracker.removeTensorFromSizes m.memoryTracker victim }
  match victim.getDefiningOp, originalL1Layout with
  | some victimOp, some layout =>
      let m := if hooks.usesRewindEviction then m.shortenLifetime victim victimOp else m
      if layout.hasL1BufferType then
        (m.func.collectDownstreamConsumers victimOp).foldl
          (restoreConsumer setting hooks victim pos layout skipReshardConsumer) (m, [])
      else (m, [])
  | _, _ => (m, [])

def evictValue (hooks : RebuildHooks τ) (m : Manager τ) (victim : Value) (pos : Nat) (campaignMin : Option Nat)
    (skipReshardConsumer : Option OpId := none) : Except Failure (Manager τ × Option Nat × Bool) :=
  let (m, transientInsertions) := spillValue setting hooks m victim pos skipReshardConsumer
  -- the rewind rebuilds the tracker by running the sweep again
  if hooks.usesRewindEviction then .ok (m, campaignMin, true)
  else
    let m := (setting.insertionOrder.sort insertsLater transientInsertions).foldl
      (fun m insertion => m.insertEventIntoLog insertion.1 insertion.2) m
    markEvictedAndRebuild hooks m victim campaignMin

def onlyReshardsRemain (m : Manager τ) : Bool := m.liveValues.all fun value => value ∈ m.insertedReshardValues

/-- The probe only counts after a rebuild that placed every live tensor. -/
def probeStop {α : Type} (probe : Manager τ → α × Manager τ) (shouldStop : α → Bool) (m : Manager τ)
    (rebuildPlacedAll : Bool) : Bool × Manager τ :=
  if rebuildPlacedAll then
    let (answer, m) := probe m
    (shouldStop answer, m)
  else (false, m)

/-- Loop of `evictUntil`; the flag says whether the last rebuild placed every tensor. -/
def evictLoop (hooks : RebuildHooks τ) (pos : Nat) {α : Type} (probe : Manager τ → α × Manager τ)
    (shouldStop : α → Bool) :
    Nat → Manager τ → Option Nat → Bool → Except Failure (Manager τ × Bool)
  | 0, m, _, rebuildPlacedAll => .ok (m, rebuildPlacedAll)
  | fuel + 1, m, campaignMin, rebuildPlacedAll =>
      let (stop, m) := probeStop probe shouldStop m rebuildPlacedAll
      if stop = true ∨ m.onlyReshardsRemain = true then .ok (m, rebuildPlacedAll)
      else
        match evictFarthestUse setting m with
        | (none, m) => .ok (m, rebuildPlacedAll)
        | (some victim, m) => do
            let (m, campaignMin, placedAll) ← evictValue setting hooks m victim pos campaignMin
            evictLoop hooks pos probe shouldStop fuel m campaignMin placedAll

/-- Evict until the probe says to stop or nothing is left; `none` when a live tensor is left without
a placement. Every round pops an entry of the heap, so its size bounds the rounds. -/
def evictUntil (hooks : RebuildHooks τ) (m : Manager τ) (pos : Nat) {α : Type} (probe : Manager τ → α × Manager τ)
    (shouldStop : α → Bool) : Except Failure (Manager τ × Option α) := do
  let (m, rebuildPlacedAll) ← evictLoop setting hooks pos probe shouldStop (m.liveSet.length + 1) m none true
  if rebuildPlacedAll then
    let (answer, m) := probe m
    .ok (m, some answer)
  else .ok ({ m with compilationFailed := true }, none)

def replaceResult (func : Func) (perResultL1 : Nat) (tracker : τ) (result : Value) : Option τ :=
  if MemoryTracker.hasTensor tracker result then
    MemoryTracker.addTensor (MemoryTracker.removeTensor tracker result) func result perResultL1
  else some tracker

def revalidateConsumer (m : Manager τ) (currentPos : Nat) (consumer : OpId) :
    Except Failure (Manager τ × Bool) :=
  let operation := m.func.getOp consumer
  match m.data.positionMap consumer with
  | none => .ok (m, false)
  | some consumerPos =>
      if currentPos ≤ consumerPos ∨ operation.hasOpModel = false ∨ operation.isToTensorSpec = true then .ok (m, false)
      else
        let outputLayout := (m.baseQuery consumer).outputLayout
        let (result, m) := validate setting m consumer
        if result.isSuccess = true ∧ result.actualOutputLayouts.head? ≠ outputLayout then
          let func := m.func.applyOutputConfig consumer result.actualOutputLayouts
          let numTensorResults := (func.getOp consumer).tensorResults.length
          let perResultL1 := if numTensorResults > 0 then result.outputL1Usage / numTensorResults else 0
          let results := (List.range (func.getOp consumer).results.length).map (Value.result consumer)
          match results.foldlM (replaceResult func perResultL1) m.memoryTracker with
          | some memoryTracker => .ok ({ m with func, memoryTracker }, true)
          | none => .error .noContiguousBlock
        else .ok (m, false)

def revalidateList (currentPos : Nat) : List OpId → Manager τ → List OpId → Except Failure (Manager τ × List OpId)
  | [], m, worklist => .ok (m, worklist)
  | consumer :: rest, m, worklist => do
      let (m, outputChanged) ← revalidateConsumer setting m currentPos consumer
      revalidateList currentPos rest m (if outputChanged then consumer :: worklist else worklist)

/-- Every round visits one more op, so the number of ops bounds the rounds. -/
def revalidateWorklist (currentPos : Nat) :
    Nat → Manager τ → List OpId → List OpId → Except Failure (Manager τ)
  | 0, m, _, _ => .ok m
  | fuel + 1, m, worklist, visited =>
      match worklist.dropWhile fun changed => changed ∈ visited with
      | [] => .ok m
      | changed :: rest => do
          let (m, worklist) ← revalidateList setting currentPos (m.func.collectDownstreamConsumers changed) m rest
          revalidateWorklist currentPos fuel m worklist (changed :: visited)

def revalidateConsumers (m : Manager τ) (changedOp : OpId) (currentPos : Nat) : Except Failure (Manager τ) :=
  revalidateWorklist setting currentPos (m.func.ops.length + 1) m [changedOp] []

def flushValue (trigger : OpId) (m : Manager τ) (victim : Value) : Manager τ :=
  { m with
    func := m.func.spillToDramBeforeTrigger victim trigger
    memoryTracker := MemoryTracker.removeTensor m.memoryTracker victim }

def evictAllFromL1 (m : Manager τ) (pos : Nat) (trigger : OpId) : Except Failure (Manager τ) :=
  let victims := m.liveValues
  let m := victims.foldl (flushValue trigger) m
  let m :=
    { m with
      liveValues := []
      l1EventLog := m.l1EventLog.map fun event => { event with skipped := true }
      memoryTracker := MemoryTracker.init setting.l1BudgetPerCore }
  (victims.filterMap Value.getDefiningOp).foldlM (fun m victimOp => revalidateConsumers setting m victimOp pos) m

def demote (m : Manager τ) (op : OpId) : Manager τ := { m with func := m.func.demoteToDram op }

def captureCheckpoint (m : Manager τ) (pos : Nat) : Manager τ :=
  { m with
    sweepCheckpoints := Function.update m.sweepCheckpoints pos
      (some { tracker := MemoryTracker.takeSnapshot m.memoryTracker
              liveValues := m.liveValues
              liveSet := m.liveSet }) }

def restoreCheckpoint (m : Manager τ) (pos : Nat) : Except Failure (Manager τ) :=
  match m.sweepCheckpoints pos with
  | none => .error .assertion
  | some checkpoint => .ok
      { m with
        memoryTracker := MemoryTracker.restoreSnapshot m.memoryTracker checkpoint.tracker
        liveValues := checkpoint.liveValues
        liveSet := checkpoint.liveSet
        sweepCheckpoints := fun key => if pos < key then none else m.sweepCheckpoints key }

end Manager

def lastUse (func : Func) (schedule : List OpId) (value : Value) (producerPos : Nat) : Nat :=
  ((func.uses value).filterMap fun use => if use.1 ∈ schedule then some (schedule.idxOf use.1) else none).foldl
    max producerPos

def computeLastUsePositions (func : Func) (schedule : List OpId) (value : Value) : Option Nat :=
  match value with
  | .argument _ => none
  | .result op _ =>
      if op ∈ schedule ∧ value ∈ func.tensorResults op then
        some (lastUse func schedule value (schedule.idxOf op))
      else none

def buildScheduleData (func : Func) : ScheduleData :=
  let schedule := func.body.filter fun op => (func.getOp op).isBeamSearchTarget
  let lastUsePositions := computeLastUsePositions func schedule
  { schedule
    lastUsePositions
    deathSchedule := fun pos =>
      (schedule.flatMap func.tensorResults).filter fun value => lastUsePositions value = some pos
    positionMap := fun op => if op ∈ schedule then some (schedule.idxOf op) else none }

end TtMlir.Spill
