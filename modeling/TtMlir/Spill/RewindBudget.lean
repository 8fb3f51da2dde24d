import TtMlir.Spill.Progress

/-!
The rewind budget counts ops, evictions count results. One op with more results
than the budget of its function has rewinds exhausts it.
-/

namespace TtMlir.Spill

/-- No reshard is inserted while the backend takes DRAM operands everywhere and nobody reads the
victim before `pos`. -/
theorem spillValue_unresharded {τ : Type} [MemoryTracker τ] (setting : Setting) (hooks : RebuildHooks τ)
    (accepts : ∀ count query, (setting.backend count query).isMetalBackendError = false) (m : Manager τ)
    (victim : Value) (pos : Nat) (skipReshardConsumer : Option OpId)
    (future : ∀ consumer consumerPos, (m.afterSpill hooks victim).data.positionMap consumer = some consumerPos →
      Manager.spilledOperandIdx (m.afterSpill hooks victim).func consumer victim ≠ [] →
      pos ≤ consumerPos ∧ ((m.afterSpill hooks victim).func.getOp consumer).isDRAMShardedMatmul = false) :
    ∃ asked, m.spillValue setting hooks victim pos skipReshardConsumer =
      ({ m.afterSpill hooks victim with asked }, []) := by
  have consumed (asked : Nat) (layout : TTNNLayout) (consumer : OpId) :
      ∃ later, Manager.restoreConsumer setting hooks victim pos layout skipReshardConsumer
        ({ m.afterSpill hooks victim with asked }, []) consumer =
          ({ m.afterSpill hooks victim with asked := later }, []) := by
    simp only [Manager.restoreConsumer]
    cases found : (m.afterSpill hooks victim).data.positionMap consumer with
    | none => exact ⟨asked, rfl⟩
    | some consumerPos =>
        simp only
        split
        · exact ⟨asked, rfl⟩
        cases waiting : Manager.spilledOperandIdx (m.afterSpill hooks victim).func consumer victim with
        | nil => exact ⟨asked, rfl⟩
        | cons first rest =>
            obtain ⟨ahead, unsharded⟩ := future consumer consumerPos found (by rw [waiting]; exact List.cons_ne_nil _ _)
            have notPast : decide (consumerPos < pos) = false := decide_eq_false (Nat.not_lt.mpr ahead)
            simp only [notPast, unsharded, Bool.or_self, Bool.false_eq_true, ↓reduceIte, Manager.validateBackendDirect,
              accepts]
            exact ⟨asked + 1, rfl⟩
  have loop (layout : TTNNLayout) (consumers : List OpId) (asked : Nat) :
      ∃ later, consumers.foldl (Manager.restoreConsumer setting hooks victim pos layout skipReshardConsumer)
        ({ m.afterSpill hooks victim with asked }, []) = ({ m.afterSpill hooks victim with asked := later }, []) := by
    induction consumers generalizing asked with
    | nil => exact ⟨asked, rfl⟩
    | cons consumer rest ih =>
        obtain ⟨between, first⟩ := consumed asked layout consumer
        rw [List.foldl_cons, first]
        exact ih between
  cases victim with
  | argument index => exact ⟨m.asked, rfl⟩
  | result producer number =>
      cases typed : m.func.getLayout (.result producer number) with
      | none =>
          refine ⟨m.asked, ?_⟩
          simp only [Manager.spillValue, Manager.afterSpill, Value.getDefiningOp, typed]
      | some layout =>
          cases inL1 : layout.hasL1BufferType with
          | false =>
              refine ⟨(m.afterSpill hooks (.result producer number)).asked, ?_⟩
              simp only [Manager.spillValue, Manager.afterSpill, Value.getDefiningOp, typed, inL1, Bool.false_eq_true,
                ↓reduceIte]
          | true =>
              obtain ⟨later, folds⟩ := loop layout
                ((m.afterSpill hooks (.result producer number)).func.collectDownstreamConsumers producer)
                (m.afterSpill hooks (.result producer number)).asked
              refine ⟨later, Eq.trans ?_ folds⟩
              simp only [Manager.spillValue, Manager.afterSpill, Value.getDefiningOp, typed, inL1, ↓reduceIte]

def manyResults : Func :=
  let sharded : Option TTNNLayout := some { bufferType := .l1, memLayout := .heightSharded, perCoreL1Usage := 1024 }
  { ops := [{ kind := .other true, operands := [], results := List.replicate 73 sharded },
      { kind := .other true, operands := (List.range 73).map (.result 0), results := [sharded] }]
    body := [0, 1] }

def crowdedSetting : Setting where
  l1BudgetPerCore := 1048576
  cbFragCushion := 104857
  backend _ query :=
    if query.op = 0 then { status := .success, outputL1Usage := 74752 } else { status := .outOfMemoryError }
  popOrder := TieBreak.insertion _
  insertionOrder := TieBreak.insertion _

namespace Crowded

def idle : MockAllocatorL1Tracker := MockAllocatorL1Tracker.init 1048576

theorem removeTensor_idle (value : Value) : MemoryTracker.removeTensor idle value = idle := rfl

theorem processDeadTensors_idle (m : MockManager) (pos : Nat) (tracker : m.memoryTracker = idle) :
    (m.processDeadTensors pos).memoryTracker = idle ∧
      (m.processDeadTensors pos).compilationFailed = m.compilationFailed := by
  have frees (dead : List Value) (state : MockManager) (tracker : state.memoryTracker = idle) :
      (dead.foldl Manager.freeDead state).memoryTracker = idle ∧
        (dead.foldl Manager.freeDead state).compilationFailed = state.compilationFailed := by
    induction dead generalizing state with
    | nil => exact ⟨tracker, rfl⟩
    | cons first rest ih =>
        rw [List.foldl_cons, Manager.freeDead]
        split
        · refine ih _ ?_
          rw [tracker]
          exact removeTensor_idle first
        · exact ih state tracker
  cases pos with
  | zero => exact ⟨tracker, rfl⟩
  | succ pos => exact frees _ m tracker

structure Frame (m : MockManager) : Prop where
  source : m.func.getOp 0 = manyResults.getOp 0
  reader : (m.func.getOp 1).kind = .other true
  schedule : m.data.schedule = [0, 1]
  unresharded : m.insertedReshardValues = []
  tracker : m.memoryTracker = idle
  checkpoints : ∀ key checkpoint, m.sweepCheckpoints key = some checkpoint →
    checkpoint.tracker = MockAllocatorL1Tracker.takeSnapshot idle
  compiles : m.compilationFailed = false
  dying : ∀ number, DiesAtOnce m (.result 0 number) → .result 0 number ∈ m.evictions

def Exhausted (m : MockManager) : Prop := ∀ number < 73, .result 0 number ∈ m.evictions

def Standing (m : MockManager) : Control → Prop
  | .sweep 0 => True
  | .sweep 1 => ∀ number < 73, .result 0 number ∈ m.evictions ∨
      .result 0 number ∈ m.liveValues ∧ ∃ lastUse, (lastUse, .result 0 number) ∈ m.liveSet
  | .place pos op _ => pos = 0 ∧ op = 0
  | .rewind _ target => target = 0
  | _ => Exhausted m

theorem Frame.kept {m next : MockManager} (frame : Frame m) (func : next.func = m.func) (data : next.data = m.data)
    (inserted : next.insertedReshardValues = m.insertedReshardValues) (tracker : next.memoryTracker = idle)
    (checkpoints : ∀ key checkpoint, next.sweepCheckpoints key = some checkpoint →
      checkpoint.tracker = MockAllocatorL1Tracker.takeSnapshot idle)
    (compiles : next.compilationFailed = m.compilationFailed) (evictions : next.evictions = m.evictions) :
    Frame next := by
  constructor
  · rw [func]
    exact frame.source
  · rw [func]
    exact frame.reader
  · rw [data]
    exact frame.schedule
  · rw [inserted]
    exact frame.unresharded
  · exact tracker
  · exact checkpoints
  · rw [compiles]
    exact frame.compiles
  · intro number dies
    simp only [DiesAtOnce, data] at dies
    rw [evictions]
    exact frame.dying number dies

theorem place_standing (m : MockManager) (frame : Frame m) (l1Size : Nat) :
    ∃ next, Sweep.addResultsToLiveSet (Stateful.hooks crowdedSetting) m 0 l1Size = .ok next ∧ Frame next ∧
      Standing next (.sweep 1) := by
  have commit (state : MockManager) (kept : Frame state) (number : Nat) :
      Frame (Stateful.commitAllocation state (.result 0 number)) := by
    refine kept.kept rfl rfl rfl ?_ kept.checkpoints rfl rfl
    have unaliased : state.func.aliasSource (.result 0 number) = none := by
      have notView : state.func.isAliasingViewOp 0 = false := by
        simp only [Func.isAliasingViewOp, kept.source]
        rfl
      simp only [Func.aliasSource, Value.getDefiningOp, notView, Bool.false_eq_true, ↓reduceIte]
    simp only [Stateful.commitAllocation, unaliased, Option.filter_none, kept.tracker]
    rfl
  have loop (numbers : List Nat) (perResultL1 : Nat) (state : MockManager) (kept : Frame state) :
      ∃ next, (numbers.map (Value.result 0)).foldlM
          (fun m result => (Stateful.hooks crowdedSetting).commitAllocation m result perResultL1) state = .ok next ∧
        Frame next ∧ (∀ value ∈ state.liveValues, value ∈ next.liveValues) ∧
        (∀ entry ∈ state.liveSet, entry ∈ next.liveSet) ∧
        ∀ number ∈ numbers, .result 0 number ∈ next.liveValues ∧
          ∃ lastUse, (lastUse, .result 0 number) ∈ next.liveSet := by
    induction numbers generalizing state with
    | nil => exact ⟨state, rfl, kept, fun _ member => member, fun _ member => member, fun _ member => by cases member⟩
    | cons first rest ih =>
        obtain ⟨next, commits, frame, live, heap, placed⟩ := ih _ (commit state kept first)
        refine ⟨next, commits, frame, fun value member => live value (List.mem_insert_of_mem member),
          fun entry member => heap entry (List.mem_cons_of_mem _ member), fun number member => ?_⟩
        rcases List.mem_cons.mp member with here | later
        · rw [here]
          exact ⟨live _ List.mem_insert_self, _, heap _ List.mem_cons_self⟩
        · exact placed number later
  have results : m.func.tensorResults 0 = (List.range 73).map (Value.result 0) := by
    rw [Func.tensorResults, frame.source]
    rfl
  obtain ⟨next, commits, kept, _, _, placed⟩ := loop (List.range 73) (l1Size / (m.func.tensorResults 0).length) m frame
  refine ⟨next, ?_, kept, fun number inside => Or.inr (placed number (List.mem_range.mpr inside))⟩
  simp only [Sweep.addResultsToLiveSet]
  rw [← commits, ← results]

theorem accepts_dram (count : Nat) (query : Query) :
    (crowdedSetting.backend count query).isMetalBackendError = false := by
  simp only [crowdedSetting]
  split <;> rfl

theorem spillValue_frame (m : MockManager) (frame : Frame m) (timetable : Timetable m.func m.data) (number : Nat)
    (typed : number ∈ (m.func.getOp 0).tensorResults) :
    Frame (m.spillValue crowdedSetting Stateful.rebuildHooks (.result 0 number) 1 none).1 ∧
      (m.spillValue crowdedSetting Stateful.rebuildHooks (.result 0 number) 1 none).1.data.positionMap 0 = some 0 := by
  have located : m.data.schedule[0]? = some 0 := by
    rw [frame.schedule]
    rfl
  have readerKnown : 1 < m.func.ops.length := timetable.known 1 (by rw [frame.schedule]; decide)
  have spilled := Evicting.spilled Stateful.rebuildHooks rfl m timetable 0 number 0 located typed
  obtain ⟨func, schedule, positionMap⟩ := afterSpill_fields Stateful.rebuildHooks m (.result 0 number)
  obtain ⟨_, checkpoints, inserted, compiles, tracker⟩ := afterSpill_kept Stateful.rebuildHooks m (.result 0 number)
  have rewrites : m.func.Rewrites (m.func.spillToDram (.result 0 number)) := m.func.spillToDramImpl_rewrites _ none
  have source : (m.func.spillToDram (.result 0 number)).getOp 0 = m.func.getOp 0 := by
    rcases m.func.spillToDramImpl_cases (.result 0 number) none with same | ⟨_, _, _, _, _, effect⟩
    · rw [Func.spillToDram, same]
    · refine effect.untouched 0 (Nat.lt_trans Nat.zero_lt_one readerKnown) ?_
      rw [frame.source]
      exact List.not_mem_nil
  have reader : ((m.func.spillToDram (.result 0 number)).getOp 1).kind = .other true :=
    (rewrites.kind 1 readerKnown).trans frame.reader
  -- the spill inserts a DRAM copy behind the source and leaves both ops in place
  have kept : Frame (m.afterSpill Stateful.rebuildHooks (.result 0 number)) := by
    constructor
    · rw [func, source]
      exact frame.source
    · rw [func]
      exact reader
    · rw [schedule]
      exact frame.schedule
    · rw [inserted]
      exact frame.unresharded
    · rw [tracker, frame.tracker]
      rfl
    · rw [checkpoints]
      exact frame.checkpoints
    · rw [compiles]
      exact frame.compiles
    · intro digit dies
      rw [spilled.evictions]
      by_cases same : digit = number
      · rw [same]
        exact List.mem_cons_self
      · refine List.mem_cons_of_mem _ (frame.dying digit ?_)
        exact (spilled.dies 0 digit (Nat.lt_trans Nat.zero_lt_one readerKnown) (by simp [same])).mp dies
  -- no consumer needs a reshard, so nothing else changes
  obtain ⟨asked, spills⟩ := spillValue_unresharded crowdedSetting Stateful.rebuildHooks accepts_dram m
    (.result 0 number)
    1 none (by
      intro consumer consumerPos position waiting
      rw [positionMap] at position
      have consumerAt := (timetable.positions consumer consumerPos).mp position
      rw [frame.schedule] at consumerAt
      have inside := (List.getElem?_eq_some_iff.mp consumerAt).1
      rw [List.length_cons, List.length_singleton] at inside
      interval_cases consumerPos
      · cases consumerAt
        refine absurd ?_ waiting
        rw [Manager.spilledOperandIdx, kept.source]
        rfl
      · cases consumerAt
        refine ⟨Nat.le_refl _, ?_⟩
        rw [Operation.isDRAMShardedMatmul, kept.reader])
  rw [spills]
  refine ⟨kept.kept rfl rfl rfl kept.tracker kept.checkpoints rfl rfl, ?_⟩
  change (m.afterSpill Stateful.rebuildHooks (.result 0 number)).data.positionMap 0 = some 0
  rw [positionMap]
  exact (timetable.positions 0 0).mpr located

theorem recover_standing (m : MockManager) (frame : Frame m) (ready : Progress.Ready manyResults m 1 1)
    (waiting : Standing m (.sweep 1)) :
    ∃ next recovery, Stateful.recoverFromOOM crowdedSetting m 1 1 = .ok (next, recovery) ∧ Frame next ∧
      (recovery = .rewindTo 0 ∨ recovery = .nothing ∧ Exhausted next) := by
  have unsharded : (m.func.getOp 1).isDRAMShardedMatmul = false := by
    rw [Operation.isDRAMShardedMatmul, frame.reader]
  rcases Progress.evictFarthestUse_cases crowdedSetting m with ⟨nothing, stale⟩ | ⟨victim, rest, chosen, isLive, _⟩
  · refine ⟨Manager.demote { m with liveSet := [] } 1, .nothing, ?_, ?_, Or.inr ⟨rfl, fun number inside => ?_⟩⟩
    · simp only [Stateful.recoverFromOOM, nothing, unsharded, Bool.false_eq_true, ↓reduceIte]
    · have demoted : (m.func.demoteToDram 1).getOp 0 = m.func.getOp 0 := by
        rw [Func.demoteToDram, Func.getOp_setResults]
        rfl
      have rewrites := m.func.demoteToDram_rewrites 1
      constructor
      · exact demoted.trans frame.source
      · exact (rewrites.kind 1 (ready.known.timetable.known 1 (List.mem_of_getElem? ready.located))).trans frame.reader
      · exact frame.schedule
      · exact frame.unresharded
      · exact frame.tracker
      · exact frame.checkpoints
      · exact frame.compiles
      · exact frame.dying
    · rcases waiting number inside with evicted | ⟨live, lastUse, listed⟩
      · exact evicted
      · have inserted := stale _ listed live
        rw [frame.unresharded] at inserted
        cases inserted
  · obtain ⟨producer, number, place, isResult, located, before, typed, _⟩ := ready.live victim isLive
    have first : place = 0 := by omega
    rw [first, frame.schedule] at located
    cases located
    subst isResult
    have popped : Frame { m with liveSet := rest, liveValues := eraseValue m.liveValues (.result 0 number) } :=
      frame.kept rfl rfl rfl frame.tracker frame.checkpoints rfl rfl
    obtain ⟨kept, position⟩ := spillValue_frame _ popped ready.known.timetable number typed
    refine ⟨_, .rewindTo 0, ?_, kept, Or.inl rfl⟩
    simp only [Stateful.recoverFromOOM, chosen]
    refine congrArg (fun target => Except.ok (_, Recovery.rewindTo target)) ?_
    exact congrArg (fun found : Option Nat => found.getD 0) position

theorem Frame.captured {m : MockManager} (frame : Frame m) (pos : Nat) :
    Frame ((m.captureCheckpoint pos).processDeadTensors pos) := by
  obtain ⟨func, data, checkpoints, inserted, evictions, _, _⟩ := processDeadTensors_fields (m.captureCheckpoint pos) pos
  obtain ⟨tracker, compiles⟩ := processDeadTensors_idle (m.captureCheckpoint pos) pos frame.tracker
  refine frame.kept func data inserted tracker ?_ compiles evictions
  rw [checkpoints]
  intro key checkpoint stored
  by_cases here : key = pos
  · subst here
    have same := (Function.update_self _ _ _).symm.trans stored
    cases same
    exact congrArg MockAllocatorL1Tracker.takeSnapshot frame.tracker
  · exact frame.checkpoints key checkpoint ((Function.update_of_ne here _ _).symm.trans stored)

theorem visit_source (m : MockManager) (frame : Frame m) :
    ∃ next, Sweep.visit crowdedSetting (Stateful.hooks crowdedSetting) m 0 0 = .ok (next, .place 0 0 74752) ∧
      Frame next := by
  have answer : (m.validate crowdedSetting 0).1 = { status := .success, outputL1Usage := 74752 } := by
    simp only [Manager.validate, frame.tracker]
    rfl
  have tracker : (m.validate crowdedSetting 0).2.memoryTracker = idle := by
    simp only [Manager.validate, frame.tracker]
    rfl
  have kept : Frame (m.validate crowdedSetting 0).2 := frame.kept rfl rfl rfl tracker frame.checkpoints rfl rfl
  refine ⟨_, ?_, kept⟩
  simp only [Sweep.visit, frame.source]
  change Sweep.processOp crowdedSetting (Stateful.hooks crowdedSetting) m 0 0 = _
  simp only [Sweep.processOp, answer]
  refine congrArg (fun control => Except.ok (_, control)) ?_
  have located : (m.validate crowdedSetting 0).2.data.schedule[0]? = some 0 := by
    rw [kept.schedule]
    rfl
  exact if_pos located

theorem visit_reader (m : MockManager) (frame : Frame m) (ready : Progress.Ready manyResults m 1 1)
    (waiting : Standing m (.sweep 1)) :
    ∃ next control, Sweep.visit crowdedSetting (Stateful.hooks crowdedSetting) m 1 1 = .ok (next, control) ∧
      Frame next ∧ Standing next control := by
  have notSink : (m.func.getOp 1).isSinkOp = false := by
    rw [Operation.isSinkOp, frame.reader]
  have notSpec : (m.func.getOp 1).isToTensorSpec = false := by
    rw [Operation.isToTensorSpec, frame.reader]
  simp only [Sweep.visit, notSink, notSpec, Bool.false_eq_true, ↓reduceIte]
  split
  · rename_i skipped
    refine ⟨m, .sweep 2, rfl, frame, fun number inside => ?_⟩
    rcases waiting number inside with evicted | ⟨live, _⟩
    · exact evicted
    · rw [skipped.2] at live
      cases live
  · have answer : (m.validate crowdedSetting 1).1 = { status := .outOfMemoryError } := rfl
    have kept : Frame (m.validate crowdedSetting 1).2 := frame.kept rfl rfl rfl frame.tracker frame.checkpoints rfl rfl
    obtain ⟨next, recovery, recovers, after, outcome⟩ :=
      recover_standing _ kept (ready.validated crowdedSetting) waiting
    simp only [Sweep.processOp, answer, Stateful.hooks, recovers]
    rcases outcome with rewinds | ⟨nothing, exhausted⟩
    · rw [rewinds]
      exact ⟨next, .rewind 1 0, rfl, after, rfl⟩
    · rw [nothing]
      refine ⟨next, .sweep 2, ?_, after, exhausted⟩
      have located : next.data.schedule[1]? = some 1 := by
        rw [after.schedule]
        rfl
      exact congrArg (fun control => Except.ok (next, control)) (if_pos located)

theorem step_standing (s next : StatefulSweep) (invariant : Progress.Invariant manyResults s) (frame : Frame s.m)
    (standing : Standing s.m s.control)
    (stepped : s.step crowdedSetting (Stateful.hooks crowdedSetting) = .ok next) :
    Frame next.m ∧ Standing next.m next.control := by
  obtain ⟨m, control, rewindCount, kMaxRewinds⟩ := s
  obtain ⟨known, stands, _, _⟩ := invariant
  change Progress.Known manyResults m at known
  change Progress.Standing m rewindCount control at stands
  change Frame m at frame
  change Standing m control at standing
  cases control with
  | finished =>
      cases stepped
      exact ⟨frame, standing⟩
  | place pos op l1Size =>
      obtain ⟨rfl, rfl⟩ := standing
      obtain ⟨placed, places, kept, waiting⟩ := place_standing m frame l1Size
      simp only [Sweep.step, places] at stepped
      cases stepped
      exact ⟨kept, waiting⟩
  | rewind pos target =>
      -- the only eviction target is the source op, at position 0
      have back : target = 0 := standing
      subst back
      obtain ⟨_, checkpointed, _⟩ := stands
      obtain ⟨checkpoint, stored, _⟩ := checkpointed 0 (Nat.lt_succ_self _)
      simp only [Sweep.step, Manager.restoreCheckpoint, stored] at stepped
      change (if rewindCount + 1 > kMaxRewinds then Except.error Failure.rewindBudget else Except.ok _) = _ at stepped
      split at stepped
      · cases stepped
      · cases stepped
        refine ⟨frame.kept rfl rfl rfl ?_ ?_ rfl rfl, trivial⟩
        · rw [frame.tracker, frame.checkpoints 0 checkpoint stored]
          rfl
        · intro key earlier kept
          simp only at kept
          split at kept
          · cases kept
          · exact frame.checkpoints key earlier kept
  | sweep pos =>
      obtain ⟨alive, checkpointed, _⟩ := stands
      simp only [Sweep.step, frame.schedule, frame.compiles, Bool.false_eq_true, ↓reduceIte] at stepped
      -- position 0 produces the results, position 1 reads them, and the schedule ends there
      obtain rfl | rfl | beyond : pos = 0 ∨ pos = 1 ∨ 2 ≤ pos := by omega
      · obtain ⟨visited, visits, kept⟩ := visit_source _ (frame.captured 0)
        simp only [List.getElem?_cons_zero, Stateful.hooks, Stateful.rebuildHooks, ↓reduceIte] at stepped visits
        rw [visits] at stepped
        cases stepped
        exact ⟨kept, rfl, rfl⟩
      · have located : m.data.schedule[1]? = some 1 := by
          rw [frame.schedule]
          rfl
        have ready := known.ready located alive checkpointed
        -- a result that dies on the way has been evicted before
        have waiting : Standing ((m.captureCheckpoint 1).processDeadTensors 1) (.sweep 1) := by
          obtain ⟨_, _, _, _, evictions, liveSet, live⟩ := processDeadTensors_fields (m.captureCheckpoint 1) 1
          intro number inside
          rw [evictions, liveSet]
          rcases standing number inside with evicted | ⟨isLive, listed⟩
          · exact Or.inl evicted
          · by_cases dead : .result 0 number ∈ m.data.deathSchedule 0
            · exact Or.inl (frame.dying number ⟨0, number, 0, rfl, by rw [frame.schedule]; rfl, dead⟩)
            · exact Or.inr ⟨(live _).mpr ⟨isLive, fun _ => dead⟩, listed⟩
        obtain ⟨visited, control, visits, kept, after⟩ := visit_reader _ (frame.captured 1) ready waiting
        simp only [List.getElem?_cons_succ, List.getElem?_cons_zero, Stateful.hooks, Stateful.rebuildHooks,
          ↓reduceIte] at stepped visits
        rw [visits] at stepped
        cases stepped
        exact ⟨kept, after⟩
      · obtain ⟨rest, rfl⟩ := Nat.exists_eq_add_of_le' beyond
        cases stepped
        exact ⟨frame, standing⟩

theorem manyResults_inOrder : manyResults.InOrder := by
  constructor
  · decide
  · decide
  · decide
  · exact manyResults.defined_of_ops (by decide)

theorem manyResults_lives : (buildScheduleData manyResults).deathSchedule 0 = [] := by decide

theorem run_standing (steps : Nat) (s : StatefulSweep)
    (runs : Sweep.run crowdedSetting (Stateful.hooks crowdedSetting) manyResults steps = .ok s) :
    Progress.Invariant manyResults s ∧ Frame s.m ∧ Standing s.m s.control := by
  induction steps generalizing s with
  | zero =>
      cases runs
      refine ⟨Progress.start_invariant crowdedSetting manyResults manyResults_inOrder, ?_, trivial⟩
      constructor
      · rfl
      · rfl
      · rfl
      · rfl
      · rfl
      · intro key checkpoint stored
        cases stored
      · rfl
      · rintro number ⟨op, digit, place, isResult, located, dies⟩
        cases isResult
        have first : place = 0 := by
          match place, located with
          | 0, _ => rfl
          | 1, located => cases located
        subst first
        change Value.result 0 number ∈ (buildScheduleData manyResults).deathSchedule 0 at dies
        rw [manyResults_lives] at dies
        cases dies
  | succ steps ih =>
      simp only [Sweep.run] at runs
      cases before : Sweep.run crowdedSetting (Stateful.hooks crowdedSetting) manyResults steps with
      | error failure =>
          rw [before] at runs
          cases runs
      | ok previous =>
          rw [before] at runs
          change previous.step crowdedSetting (Stateful.hooks crowdedSetting) = .ok s at runs
          obtain ⟨invariant, frame, standing⟩ := ih previous before
          refine ⟨?_, step_standing previous s invariant frame standing runs⟩
          by_cases ended : previous.control = .finished
          · simp only [Sweep.step, ended] at runs
            cases runs
            exact invariant
          · rcases Progress.step_progress crowdedSetting manyResults manyResults_inOrder previous invariant ended with
              ⟨_, exceeded⟩ | ⟨next, steps, kept, _⟩
            · rw [exceeded] at runs
              cases runs
            · rw [steps] at runs
              cases runs
              exact kept

end Crowded

/-- 73 evictions in a function of two ops: the sweep stops on its budget. -/
theorem rewindBudget_exceeded : manyResults.InOrder ∧
    ∃ steps, Sweep.run crowdedSetting (Stateful.hooks crowdedSetting) manyResults steps = .error .rewindBudget := by
  refine ⟨Crowded.manyResults_inOrder, ?_⟩
  obtain ⟨steps, ends⟩ := Progress.run_ends crowdedSetting manyResults Crowded.manyResults_inOrder 0 _ rfl
    (Progress.start_invariant crowdedSetting manyResults Crowded.manyResults_inOrder)
  rcases ends with exceeded | ⟨ending, runs, invariant, finished⟩
  · exact ⟨steps, exceeded⟩
  · obtain ⟨_, _, exhausted⟩ := Crowded.run_standing steps ending runs
    have count := invariant.standing
    rw [finished] at exhausted count
    have subset : (List.range 73).map (Value.result 0) ⊆ ending.m.evictions := by
      intro value member
      obtain ⟨number, inside, same⟩ := List.mem_map.mp member
      exact same ▸ exhausted number (List.mem_range.mp inside)
    have distinct : ((List.range 73).map (Value.result 0)).Nodup :=
      List.nodup_range.map fun one two same => by cases same; rfl
    have all := (List.subperm_of_subset distinct subset).length_le
    have budget : ending.kMaxRewinds = 72 := invariant.limit
    have within := invariant.within
    change ending.rewindCount = ending.m.evictions.length at count
    simp only [List.length_map, List.length_range] at all
    omega

end TtMlir.Spill
