import TtMlir.Spill.Lifetimes

/-!
Progress of the rewind-based sweep. Every rewind is paid for by a value that was
never evicted before, so the sweep ends unless the values that can be evicted
outnumber the rewind budget.
-/

namespace TtMlir.Spill

def scheduledResults (func : Func) : List Value := (buildScheduleData func).schedule.flatMap func.tensorResults

def usedLater (func : Func) : List Value :=
  (scheduledResults func).filter fun value =>
    (buildScheduleData func).lastUsePositions value ≠ value.getDefiningOp.bind (buildScheduleData func).positionMap

abbrev StatefulSweep := Sweep MockAllocatorL1Tracker

namespace Progress

structure Known (func : Func) (m : MockManager) : Prop where
  timetable : Timetable m.func m.data
  grows : func.ops.length ≤ m.func.ops.length
  tensorResults : ∀ op < func.ops.length, (m.func.getOp op).tensorResults = (func.getOp op).tensorResults
  scheduled : ∀ op ∈ m.data.schedule, op ∈ (buildScheduleData func).schedule ∨
    func.ops.length ≤ op ∧ .result op 0 ∈ m.insertedReshardValues ∧ (m.func.getOp op).tensorResults = [0]
  inserted : ∀ value ∈ m.insertedReshardValues,
    ∃ op, value = .result op 0 ∧ func.ops.length ≤ op ∧ op < m.func.ops.length
  doomed : ∀ value ∈ scheduledResults func, value ∉ usedLater func → DiesAtOnce m value
  evicted : ∀ value ∈ m.evictions, DiesAtOnce m value ∧ value ∈ usedLater func
  distinct : m.evictions.Nodup

namespace Known
variable {func : Func} {m : MockManager}

theorem rewritten (known : Known func m) (next : MockManager) (rewrites : m.func.Rewrites next.func)
    (data : next.data = m.data) (inserted : next.insertedReshardValues = m.insertedReshardValues)
    (evictions : next.evictions = m.evictions) : Known func next := by
  constructor
  · rw [data]
    exact known.timetable.rewritten rewrites
  · exact Nat.le_trans known.grows rewrites.grows
  · intro op inside
    exact (rewrites.tensorResults op (Nat.lt_of_lt_of_le inside known.grows)).trans (known.tensorResults op inside)
  · intro op member
    rw [data] at member
    rw [inserted, rewrites.tensorResults op (known.timetable.known op member)]
    exact known.scheduled op member
  · intro value member
    rw [inserted] at member
    obtain ⟨op, isResult, new, inside⟩ := known.inserted value member
    exact ⟨op, isResult, new, Nat.lt_of_lt_of_le inside rewrites.grows⟩
  · intro value member unused
    simp only [DiesAtOnce, data]
    exact known.doomed value member unused
  · intro value member
    rw [evictions] at member
    simp only [DiesAtOnce, data]
    exact known.evicted value member
  · rw [evictions]
    exact known.distinct

theorem evictable (known : Known func m) (inOrder : func.InOrder) (op number place : Nat)
    (located : m.data.schedule[place]? = some op) (typed : number ∈ (m.func.getOp op).tensorResults)
    (lives : ¬ DiesAtOnce m (.result op number)) (notInserted : .result op number ∉ m.insertedReshardValues) :
    .result op number ∈ usedLater func ∧ .result op number ∉ m.evictions := by
  have scheduled : op ∈ (buildScheduleData func).schedule := by
    rcases known.scheduled op (List.mem_of_getElem? located) with old | ⟨_, isInserted, single⟩
    · exact old
    · rw [single] at typed
      rw [List.mem_singleton.mp typed] at notInserted
      exact absurd isInserted notInserted
  have inside := (buildScheduleData_timetable func inOrder).known op scheduled
  have isScheduled : .result op number ∈ scheduledResults func := by
    refine List.mem_flatMap.mpr ⟨op, scheduled, List.mem_map.mpr ⟨number, ?_, rfl⟩⟩
    rw [← known.tensorResults op inside]
    exact typed
  constructor
  · by_contra unused
    exact lives (known.doomed _ isScheduled unused)
  · exact fun again => lives (known.evicted _ again).1

theorem evictions_le (known : Known func m) : m.evictions.length ≤ (usedLater func).length :=
  (List.subperm_of_subset known.distinct fun value member => (known.evicted value member).2).length_le

end Known

theorem evict (setting : Setting) {func : Func} {m : MockManager} (known : Known func m) (inOrder : func.InOrder)
    (op number place pos : Nat) (located : m.data.schedule[place]? = some op)
    (typed : number ∈ (m.func.getOp op).tensorResults) (lives : ¬ DiesAtOnce m (.result op number))
    (notInserted : .result op number ∉ m.insertedReshardValues) (skipReshardConsumer : Option OpId) :
    let next := (m.spillValue setting Stateful.rebuildHooks (.result op number) pos skipReshardConsumer).1
    Known func next ∧ next.evictions = .result op number :: m.evictions ∧
      next.data.positionMap op = some place ∧
      (Checkpointed m (place + 1) → Checkpointed next (place + 1)) := by
  obtain ⟨evicting, evicted⟩ := spillValue_rule setting
    (Evicting.rule Stateful.rebuildHooks rfl m known.timetable op number place located pos) known.timetable
    skipReshardConsumer (Evicting.spilled Stateful.rebuildHooks rfl m known.timetable op number place located typed)
  generalize m.spillValue setting Stateful.rebuildHooks (.result op number) pos skipReshardConsumer = result
    at evicting evicted
  obtain ⟨next, events⟩ := result
  simp only at evicting evicted ⊢
  obtain ⟨fresh, unevicted⟩ := known.evictable inOrder op number place located typed lives notInserted
  have knownResult (value : Value) (member : value ∈ scheduledResults func) :
      ∃ producer digit, value = .result producer digit ∧ producer < m.func.ops.length := by
    obtain ⟨producer, scheduled, isResult⟩ := List.mem_flatMap.mp member
    obtain ⟨digit, _, same⟩ := List.mem_map.mp isResult
    have inside := (buildScheduleData_timetable func inOrder).known producer scheduled
    exact ⟨producer, digit, same.symm, Nat.lt_of_lt_of_le inside known.grows⟩
  -- a value dying at its producer still does: the rewriting adds uses to the victim alone
  have stays (value : Value) (member : value ∈ scheduledResults func) (dies : DiesAtOnce m value) :
      DiesAtOnce next value := by
    obtain ⟨producer, digit, isResult, inside⟩ := knownResult value member
    subst isResult
    by_cases same : Value.result producer digit = .result op number
    · rw [same] at dies
      exact absurd dies lives
    · exact (evicting.dies producer digit inside same).mpr dies
  -- positions up to the victim are not shifted, so the earlier checkpoints stay alive
  have keepsAlive (key : Nat) (early : key ≤ place) (live : List Value) (alive : LiveAt m key live) :
      LiveAt next key live := by
    intro value member
    obtain ⟨producer, digit, spot, isResult, foundAt, before, isTyped, dying⟩ := alive value member
    obtain ⟨after, nowAt, _, same⟩ := evicting.shifted producer spot foundAt
    have producerKnown := known.timetable.known producer (List.mem_of_getElem? foundAt)
    refine ⟨producer, digit, spot, isResult, by rw [← same (by omega)]; exact nowAt, before, ?_, fun dies => dying ?_⟩
    · rw [evicted.rewrites.tensorResults producer producerKnown]
      exact isTyped
    · rw [isResult] at dies ⊢
      refine (evicting.dies producer digit producerKnown fun equal => ?_).mp dies
      cases equal
      have unique := known.timetable.position_unique _ _ _ foundAt located
      omega
  refine ⟨?_, evicting.evictions, ?_, ?_⟩
  · constructor
    · exact evicted.timetable
    · exact Nat.le_trans known.grows evicted.rewrites.grows
    · intro other inside
      rw [evicted.rewrites.tensorResults other (Nat.lt_of_lt_of_le inside known.grows)]
      exact known.tensorResults other inside
    · intro other member
      -- a scheduled op is an original one or a reshard with a single result
      rcases evicting.scheduled other member with old | ⟨new, isInserted, single⟩
      · rcases known.scheduled other old with original | ⟨new, isInserted, single⟩
        · exact Or.inl original
        · refine Or.inr ⟨new, evicting.kept _ isInserted, ?_⟩
          rw [evicted.rewrites.tensorResults other (known.timetable.known other old)]
          exact single
      · exact Or.inr ⟨Nat.le_trans known.grows new, isInserted, single⟩
    · intro value member
      rcases evicting.inserted value member with old | ⟨reshard, isResult, new, inside⟩
      · obtain ⟨reshard, isResult, new, inside⟩ := known.inserted value old
        exact ⟨reshard, isResult, new, Nat.lt_of_lt_of_le inside evicted.rewrites.grows⟩
      · exact ⟨reshard, isResult, Nat.le_trans known.grows new, inside⟩
    · intro value member unused
      exact stays value member (known.doomed value member unused)
    · intro value member
      rw [evicting.evictions] at member
      rcases List.mem_cons.mp member with new | old
      · rw [new]
        exact ⟨evicting.victim, fresh⟩
      · obtain ⟨dies, isUsed⟩ := known.evicted value old
        exact ⟨stays value (List.mem_of_mem_filter isUsed) dies, isUsed⟩
    · rw [evicting.evictions]
      exact List.nodup_cons.mpr ⟨unevicted, known.distinct⟩
  · obtain ⟨after, nowAt, _, same⟩ := evicting.shifted op place located
    rw [same (Nat.le_refl _)] at nowAt
    exact (evicted.timetable.positions op place).mpr nowAt
  · intro checkpointed key before
    obtain ⟨checkpoint, stored, alive⟩ := checkpointed key before
    refine ⟨checkpoint, ?_, keepsAlive key (by omega) _ alive⟩
    rw [evicting.checkpoints key (by omega)]
    exact stored

def Standing (m : MockManager) (rewindCount : Nat) : Control → Prop
  | .sweep pos => LiveAt m pos m.liveValues ∧ Checkpointed m pos ∧ rewindCount = m.evictions.length
  | .place pos op _ => m.data.schedule[pos]? = some op ∧ LiveAt m (pos + 1) m.liveValues ∧
      Checkpointed m (pos + 1) ∧ rewindCount = m.evictions.length
  | .rewind pos target => target < pos ∧ Checkpointed m (target + 1) ∧ rewindCount + 1 = m.evictions.length
  | .finished => rewindCount = m.evictions.length

/-- Steps left before the sweep ends or evicts. -/
def rank (m : MockManager) : Control → Nat
  | .sweep pos => 2 * (m.data.schedule.length - pos) + 1
  | .place pos _ _ => 2 * (m.data.schedule.length - pos)
  | .rewind _ _ => 2 * m.data.schedule.length + 2
  | .finished => 0

structure Ready (func : Func) (m : MockManager) (op pos : Nat) : Prop where
  known : Known func m
  located : m.data.schedule[pos]? = some op
  live : ∀ value ∈ m.liveValues, ∃ producer number place, value = .result producer number ∧
    m.data.schedule[place]? = some producer ∧ place < pos ∧ number ∈ (m.func.getOp producer).tensorResults ∧
    ¬ DiesAtOnce m value
  checkpointed : Checkpointed m (pos + 1)

theorem Known.ready {func : Func} {m : MockManager} {op pos : Nat} (known : Known func m)
    (located : m.data.schedule[pos]? = some op) (alive : LiveAt m pos m.liveValues)
    (checkpointed : Checkpointed m pos) :
    Ready func ((m.captureCheckpoint pos).processDeadTensors pos) op pos := by
  obtain ⟨sameFunc, data, checkpoints, inserted, evictions, _, live⟩ :=
    processDeadTensors_fields (m.captureCheckpoint pos) pos
  have rewrites : (m.captureCheckpoint pos).func.Rewrites ((m.captureCheckpoint pos).processDeadTensors pos).func := by
    rw [sameFunc]
    exact Func.Rewrites.refl _
  have table : Timetable (m.captureCheckpoint pos).func (m.captureCheckpoint pos).data := known.timetable
  refine ⟨known.rewritten _ rewrites data inserted evictions, by rw [data]; exact located, ?_, ?_⟩
  · intro value member
    have aliveThen : LiveAt (m.captureCheckpoint pos) pos (m.captureCheckpoint pos).liveValues := alive
    obtain ⟨producer, number, place, isResult, foundAt, before, typed, lives⟩ := aliveThen.freed table value member
    refine ⟨producer, number, place, isResult, by rw [data]; exact foundAt, before, ?_, ?_⟩
    · rw [sameFunc]
      exact typed
    · simp only [DiesAtOnce, data]
      exact lives
  · have now : Checkpointed (m.captureCheckpoint pos) (pos + 1) := by
      intro key below
      by_cases here : key = pos
      · subst here
        exact ⟨_, Function.update_self _ _ _, alive⟩
      · obtain ⟨checkpoint, stored, aliveThere⟩ := checkpointed key (by omega)
        exact ⟨checkpoint, (Function.update_of_ne here _ _).trans stored, aliveThere⟩
    exact now.rewritten table rewrites data checkpoints

theorem Ready.validated (setting : Setting) {func : Func} {m : MockManager} {op pos : Nat}
    (ready : Ready func m op pos) :
    Ready func (m.validate setting op).2 op pos := by
  refine ⟨ready.known.rewritten _ (Func.Rewrites.refl _) rfl rfl rfl, ready.located, ready.live, ?_⟩
  exact ready.checkpointed.rewritten ready.known.timetable (Func.Rewrites.refl _) rfl rfl

structure Visited (func : Func) (m : MockManager) (op pos : Nat) (next : MockManager) (control : Control) : Prop where
  known : Known func next
  standing : Standing next m.evictions.length control
  progress : (next.data = m.data ∧ next.evictions = m.evictions ∧
      (control = .sweep (pos + 1) ∨ ∃ l1Size, control = .place pos op l1Size)) ∨
    m.evictions.length < next.evictions.length

theorem Ready.passes {func : Func} {m : MockManager} {op pos : Nat} (ready : Ready func m op pos) (next : MockManager)
    (rewrites : m.func.Rewrites next.func) (data : next.data = m.data)
    (checkpoints : next.sweepCheckpoints = m.sweepCheckpoints)
    (inserted : next.insertedReshardValues = m.insertedReshardValues) (evictions : next.evictions = m.evictions)
    (live : ∀ value ∈ next.liveValues, value ∈ m.liveValues) :
    Visited func m op pos next (.sweep (pos + 1)) ∧ ∀ l1Size, Visited func m op pos next (.place pos op l1Size) := by
  have known := ready.known.rewritten next rewrites data inserted evictions
  have alive : LiveAt next (pos + 1) next.liveValues := by
    intro value member
    obtain ⟨producer, number, place, isResult, located, before, typed, lives⟩ := ready.live value (live value member)
    refine ⟨producer, number, place, isResult, by rw [data]; exact located, by omega, ?_, fun dies => ?_⟩
    · rw [rewrites.tensorResults producer (ready.known.timetable.known producer (List.mem_of_getElem? located))]
      exact typed
    · simp only [DiesAtOnce, data] at dies
      exact absurd dies lives
  have checkpointed := ready.checkpointed.rewritten ready.known.timetable rewrites data checkpoints
  have count : m.evictions.length = next.evictions.length := by rw [evictions]
  constructor
  · exact ⟨known, ⟨alive, checkpointed, count⟩, Or.inl ⟨data, evictions, Or.inl rfl⟩⟩
  · intro l1Size
    exact ⟨known, ⟨by rw [data]; exact ready.located, alive, checkpointed, count⟩,
      Or.inl ⟨data, evictions, Or.inr ⟨l1Size, rfl⟩⟩⟩

theorem evictFarthestUse_cases (setting : Setting) (m : MockManager) :
    (m.evictFarthestUse setting = (none, { m with liveSet := [] }) ∧
      ∀ entry ∈ m.liveSet, entry.2 ∈ m.liveValues → entry.2 ∈ m.insertedReshardValues) ∨
    ∃ victim rest, m.evictFarthestUse setting =
        (some victim, { m with liveSet := rest, liveValues := eraseValue m.liveValues victim }) ∧
      victim ∈ m.liveValues ∧ victim ∉ m.insertedReshardValues := by
  unfold Manager.evictFarthestUse
  simp only
  split
  · rename_i stale
    refine Or.inl ⟨rfl, fun entry listed live => ?_⟩
    have popped := List.dropWhile_eq_nil_iff.mp stale entry ((setting.popOrder.mem_drain _ _ _).mpr listed)
    exact (of_decide_eq_true popped).resolve_left (not_not_intro live)
  · rename_i pos victim rest found
    right
    have kept := List.head_dropWhile_not (fun entry : LiveEntry =>
      decide (entry.2 ∉ m.liveValues ∨ entry.2 ∈ m.insertedReshardValues))
      (show (setting.popOrder.drain LiveEntryCompare m.liveSet).dropWhile _ ≠ [] by
        rw [found]
        exact List.cons_ne_nil _ _)
    simp only [found, List.head_cons, decide_eq_false_iff_not, not_or, not_not] at kept
    exact ⟨victim, rest, rfl, kept⟩

section Visit
variable (setting : Setting) {func : Func} {m : MockManager} {op pos : Nat}

theorem rewindIfScheduleShifted_unshifted (next : MockManager) (unshifted : Control)
    (located : next.data.schedule[pos]? = some op) :
    Sweep.rewindIfScheduleShifted next op pos unshifted = unshifted := if_pos located

theorem recoverFromOOM_visited (inOrder : func.InOrder) (ready : Ready func m op pos) :
    ∃ next control, (do
      let (m, recovery) ← (Stateful.hooks setting).recoverFromOOM m op pos
      match recovery with
      | .rewindTo target => .ok (m, .rewind pos target)
      | .place l1Size => .ok (m, .place pos op l1Size)
      | .nothing => .ok (m, Sweep.rewindIfScheduleShifted m op pos (.sweep (pos + 1)))) =
        (Except.ok (next, control) : Except Failure (MockManager × Control)) ∧ Visited func m op pos next control := by
  rcases evictFarthestUse_cases setting m with ⟨nothing, _⟩ | ⟨victim, rest, chosen, isLive, notInserted⟩
  · by_cases sharded : (m.func.getOp op).isDRAMShardedMatmul = true
    · refine ⟨_, _, ?_, (ready.passes { m with liveSet := [], compilationFailed := true } (Func.Rewrites.refl _) rfl rfl
        rfl rfl fun value member => member).1⟩
      simp only [Stateful.hooks, Stateful.recoverFromOOM, nothing, sharded, ↓reduceIte]
      exact congrArg (fun control => Except.ok (_, control)) (rewindIfScheduleShifted_unshifted _ _ ready.located)
    · refine ⟨_, _, ?_, (ready.passes (Manager.demote { m with liveSet := [] } op) (m.func.demoteToDram_rewrites op) rfl
        rfl rfl rfl fun value member => member).1⟩
      simp only [Stateful.hooks, Stateful.recoverFromOOM, nothing, sharded, Bool.false_eq_true, ↓reduceIte]
      exact congrArg (fun control => Except.ok (_, control)) (rewindIfScheduleShifted_unshifted _ _ ready.located)
  · obtain ⟨producer, number, place, isResult, located, before, typed, lives⟩ := ready.live victim isLive
    subst isResult
    have popped := ready.known.rewritten
      { m with liveSet := rest, liveValues := eraseValue m.liveValues (.result producer number) } (Func.Rewrites.refl _)
      rfl rfl rfl
    obtain ⟨known, evictions, position, checkpointed⟩ := evict setting popped inOrder producer number place pos located
      typed lives notInserted none
    have earlier : Checkpointed { m with liveSet := rest, liveValues := eraseValue m.liveValues (.result producer number) }
        (place + 1) := fun key below => ready.checkpointed key (by omega)
    have recovered : Stateful.recoverFromOOM setting m op pos = .ok
        ((Manager.spillValue setting Stateful.rebuildHooks
          { m with liveSet := rest, liveValues := eraseValue m.liveValues (.result producer number) }
          (.result producer number) pos none).1, .rewindTo place) := by
      simp only [Stateful.recoverFromOOM, chosen]
      refine congrArg (fun target => Except.ok (_, Recovery.rewindTo target)) ?_
      exact (congrArg (fun found : Option Nat => found.getD 0) position)
    refine ⟨_, .rewind pos place, ?_, known, ⟨before, checkpointed earlier, ?_⟩, Or.inr ?_⟩
    · simp only [Stateful.hooks, recovered]
      rfl
    · rw [evictions]
      rfl
    · rw [evictions]
      exact Nat.lt_succ_self _

theorem processOp_visited (inOrder : func.InOrder) (ready : Ready func m op pos) :
    ∃ next control, Sweep.processOp setting (Stateful.hooks setting) m op pos = .ok (next, control) ∧
      Visited func m op pos next control := by
  have validated := ready.validated setting
  have sameData : (m.validate setting op).2.data = m.data := rfl
  have sameEvictions : (m.validate setting op).2.evictions = m.evictions := rfl
  have back (next : MockManager) (control : Control)
      (visited : Visited func (m.validate setting op).2 op pos next control) : Visited func m op pos next control :=
    ⟨visited.known, visited.standing, visited.progress⟩
  unfold Sweep.processOp
  generalize m.validate setting op = answer at validated back
  obtain ⟨result, asked⟩ := answer
  simp only at validated back ⊢
  cases result.status with
  | notImplemented =>
      obtain ⟨next, flushes, flushed⟩ := evictAllFromL1_flushed (mock_emptied setting) asked pos op
      rw [flushes]
      have passes := validated.passes next flushed.rewrites flushed.data flushed.checkpoints flushed.inserted
        flushed.evictions fun value member => by
          rw [flushed.live] at member
          cases member
      exact ⟨next, _, rfl, back _ _ passes.1⟩
  | success =>
      have passes := validated.passes asked (Func.Rewrites.refl _) rfl rfl rfl rfl fun value member => member
      by_cases zero : result.outputL1Usage = 0
      · refine ⟨asked, .sweep (pos + 1), ?_, back _ _ passes.1⟩
        refine congrArg (fun control => Except.ok (asked, control)) ?_
        rw [rewindIfScheduleShifted_unshifted _ _ validated.located, if_pos zero]
      · refine ⟨asked, .place pos op result.outputL1Usage, ?_, back _ _ (passes.2 _)⟩
        refine congrArg (fun control => Except.ok (asked, control)) ?_
        rw [rewindIfScheduleShifted_unshifted _ _ validated.located, if_neg zero]
  | metalBackendError =>
      have passes := validated.passes (asked.demote op) (asked.func.demoteToDram_rewrites op) rfl rfl rfl rfl
        fun value member => member
      exact ⟨asked.demote op, _, rfl, back _ _ passes.1⟩
  | unmatchedReferenceConfig =>
      obtain ⟨next, control, recovers, visited⟩ := recoverFromOOM_visited setting inOrder validated
      exact ⟨next, control, recovers, back _ _ visited⟩
  | outOfMemoryError =>
      obtain ⟨next, control, recovers, visited⟩ := recoverFromOOM_visited setting inOrder validated
      exact ⟨next, control, recovers, back _ _ visited⟩

theorem visit_visited (inOrder : func.InOrder) (ready : Ready func m op pos) :
    ∃ next control, Sweep.visit setting (Stateful.hooks setting) m op pos = .ok (next, control) ∧
      Visited func m op pos next control := by
  have passes := ready.passes m (Func.Rewrites.refl _) rfl rfl rfl rfl fun value member => member
  unfold Sweep.visit
  simp only
  split
  · exact ⟨m, _, rfl, passes.1⟩
  · split
    · split
      · split
        · exact ⟨m, _, rfl, passes.1⟩
        · exact ⟨m, _, rfl, passes.1⟩
      · exact ⟨m, _, rfl, passes.1⟩
    · split
      · exact ⟨m, _, rfl, passes.1⟩
      · exact processOp_visited setting inOrder ready

end Visit

structure Invariant (func : Func) (s : StatefulSweep) : Prop where
  known : Known func s.m
  standing : Standing s.m s.rewindCount s.control
  within : s.rewindCount ≤ s.kMaxRewinds
  limit : s.kMaxRewinds = 4 * (buildScheduleData func).schedule.length + 64

theorem addResultsToLiveSet_fields (setting : Setting) (m : MockManager) (op totalL1 : Nat) :
    ∃ next, Sweep.addResultsToLiveSet (Stateful.hooks setting) m op totalL1 = .ok next ∧ next.func = m.func ∧
      next.data = m.data ∧ next.sweepCheckpoints = m.sweepCheckpoints ∧
      next.insertedReshardValues = m.insertedReshardValues ∧ next.evictions = m.evictions ∧
      ∀ value ∈ next.liveValues, value ∈ m.liveValues ∨ value ∈ m.func.tensorResults op := by
  have loop (results : List Value) (perResultL1 : Nat) (state : MockManager) :
      ∃ next, results.foldlM (fun m result => (Stateful.hooks setting).commitAllocation m result perResultL1) state =
          .ok next ∧ next.func = state.func ∧ next.data = state.data ∧
        next.sweepCheckpoints = state.sweepCheckpoints ∧
        next.insertedReshardValues = state.insertedReshardValues ∧ next.evictions = state.evictions ∧
        ∀ value ∈ next.liveValues, value ∈ state.liveValues ∨ value ∈ results := by
    induction results generalizing state with
    | nil => exact ⟨state, rfl, rfl, rfl, rfl, rfl, rfl, fun value member => Or.inl member⟩
    | cons result rest ih =>
        obtain ⟨next, commits, func, data, checkpoints, inserted, evictions, live⟩ :=
          ih (Stateful.commitAllocation state result)
        refine ⟨next, commits, func, data, checkpoints, inserted, evictions, fun value member => ?_⟩
        rcases live value member with before | later
        · rcases List.mem_insert_iff.mp before with new | old
          · exact Or.inr (new ▸ List.mem_cons_self)
          · exact Or.inl old
        · exact Or.inr (List.mem_cons_of_mem _ later)
  exact loop (m.func.tensorResults op) _ m

theorem restoreCheckpoint_fields (m : MockManager) (pos : Nat) (checkpoint : SweepCheckpoint MockAllocatorL1Tracker)
    (stored : m.sweepCheckpoints pos = some checkpoint) :
    ∃ next, m.restoreCheckpoint pos = .ok next ∧ next.func = m.func ∧ next.data = m.data ∧
      next.insertedReshardValues = m.insertedReshardValues ∧ next.evictions = m.evictions ∧
      next.liveValues = checkpoint.liveValues ∧ ∀ key ≤ pos, next.sweepCheckpoints key = m.sweepCheckpoints key := by
  simp only [Manager.restoreCheckpoint, stored]
  exact ⟨_, rfl, rfl, rfl, rfl, rfl, rfl, fun key early => if_neg (by omega)⟩

theorem step_progress (setting : Setting) (func : Func) (inOrder : func.InOrder) (s : StatefulSweep)
    (invariant : Invariant func s) (running : s.control ≠ .finished) :
    (s.kMaxRewinds < s.m.evictions.length ∧ s.step setting (Stateful.hooks setting) = .error .rewindBudget) ∨
    ∃ next, s.step setting (Stateful.hooks setting) = .ok next ∧ Invariant func next ∧
      (s.m.evictions.length < next.m.evictions.length ∨
        next.m.evictions = s.m.evictions ∧ rank next.m next.control < rank s.m s.control) := by
  obtain ⟨m, control, rewindCount, kMaxRewinds⟩ := s
  obtain ⟨known, standing, within, limit⟩ := invariant
  change Known func m at known
  change Standing m rewindCount control at standing
  change rewindCount ≤ kMaxRewinds at within
  change kMaxRewinds = _ at limit
  have table : Timetable m.func m.data := known.timetable
  cases control with
  | finished => exact absurd rfl running
  -- a visit keeps the evictions and moves on, or it evicts
  | sweep pos =>
      obtain ⟨alive, checkpointed, count⟩ := standing
      have ends : Invariant func ⟨m, .finished, rewindCount, kMaxRewinds⟩ := ⟨known, count, within, limit⟩
      simp only [Sweep.step]
      right
      cases located : m.data.schedule[pos]? with
      | none => exact ⟨_, rfl, ends, Or.inr ⟨rfl, Nat.succ_pos _⟩⟩
      | some op =>
          cases failed : m.compilationFailed with
          | true =>
              simp only [↓reduceIte]
              exact ⟨_, rfl, ends, Or.inr ⟨rfl, Nat.succ_pos _⟩⟩
          | false =>
              have captured := known.ready located alive checkpointed
              obtain ⟨next, control, visits, visited⟩ := visit_visited setting inOrder captured
              obtain ⟨_, data, _, _, evictions, _, _⟩ := processDeadTensors_fields (m.captureCheckpoint pos) pos
              have sameEvictions : ((m.captureCheckpoint pos).processDeadTensors pos).evictions = m.evictions :=
                evictions
              have sameData : ((m.captureCheckpoint pos).processDeadTensors pos).data = m.data := data
              refine ⟨⟨next, control, rewindCount, kMaxRewinds⟩, ?_, ⟨visited.known, ?_, within, limit⟩, ?_⟩
              · simp only [Bool.false_eq_true, ↓reduceIte, Stateful.hooks, Stateful.rebuildHooks] at visits ⊢
                rw [visits]
                rfl
              · have stands := visited.standing
                rw [sameEvictions, ← count] at stands
                exact stands
              · have inside := (List.getElem?_eq_some_iff.mp located).1
                rcases visited.progress with ⟨movedData, movedEvictions, moves⟩ | evicts
                · right
                  refine ⟨movedEvictions.trans sameEvictions, ?_⟩
                  have length : next.data.schedule.length = m.data.schedule.length := by rw [movedData, sameData]
                  rcases moves with moved | ⟨l1Size, placing⟩
                  · simp only [moved, rank, length]
                    omega
                  · simp only [placing, rank, length]
                    omega
                · left
                  rw [sameEvictions] at evicts
                  exact evicts
  -- the only move is to the next position
  | place pos op l1Size =>
      obtain ⟨located, alive, checkpointed, count⟩ := standing
      obtain ⟨next, places, sameFunc, data, checkpoints, inserted, evictions, live⟩ :=
        addResultsToLiveSet_fields setting m op l1Size
      have rewrites : m.func.Rewrites next.func := by
        rw [sameFunc]
        exact Func.Rewrites.refl _
      right
      refine ⟨⟨next, .sweep (pos + 1), rewindCount, kMaxRewinds⟩, ?_,
        ⟨known.rewritten next rewrites data inserted evictions, ⟨?_, ?_, ?_⟩, within, limit⟩, Or.inr ⟨evictions, ?_⟩⟩
      · simp only [Sweep.step, places]
        rfl
      · intro value member
        rcases live value member with old | new
        · exact alive.rewritten table rewrites data value old
        · obtain ⟨number, typed, isResult⟩ := List.mem_map.mp new
          refine ⟨op, number, pos, isResult.symm, by rw [data]; exact located, Nat.lt_succ_self _, ?_, fun _ => rfl⟩
          rw [sameFunc]
          exact typed
      · exact checkpointed.rewritten table rewrites data checkpoints
      · rw [evictions]
        exact count
      · have inside : pos < m.data.schedule.length := (List.getElem?_eq_some_iff.mp located).1
        change rank next (.sweep (pos + 1)) < rank m (.place pos op l1Size)
        simp only [rank, data]
        omega
  -- going back costs one rewind, and a pending rewind outranks the sweep it leads to
  | rewind pos target =>
      obtain ⟨before, checkpointed, count⟩ := standing
      obtain ⟨checkpoint, stored, alive⟩ := checkpointed target (Nat.lt_succ_self _)
      obtain ⟨next, restores, sameFunc, data, inserted, evictions, live, checkpoints⟩ :=
        restoreCheckpoint_fields m target checkpoint stored
      have rewrites : m.func.Rewrites next.func := by
        rw [sameFunc]
        exact Func.Rewrites.refl _
      -- the budget is passed exactly when the evictions pass it, since both counts agree
      by_cases exceeded : rewindCount + 1 > kMaxRewinds
      · refine Or.inl ⟨?_, ?_⟩
        · rw [← count]
          exact exceeded
        · simp only [Sweep.step, restores]
          exact if_pos exceeded
      right
      refine ⟨⟨next, .sweep target, rewindCount + 1, kMaxRewinds⟩, ?_,
        ⟨known.rewritten next rewrites data inserted evictions, ⟨?_, ?_, ?_⟩, Nat.le_of_not_lt exceeded, limit⟩,
        Or.inr ⟨evictions, ?_⟩⟩
      · simp only [Sweep.step, restores]
        exact if_neg exceeded
      · rw [live]
        exact alive.rewritten table rewrites data
      · intro key below
        obtain ⟨earlier, storedThere, aliveThere⟩ := checkpointed key (by omega)
        exact ⟨earlier, (checkpoints key (by omega)).trans storedThere, aliveThere.rewritten table rewrites data⟩
      · rw [evictions]
        exact count
      · change rank next (.sweep target) < rank m (.rewind pos target)
        simp only [rank, data]
        omega

theorem start_invariant (setting : Setting) (func : Func) (inOrder : func.InOrder) :
    Invariant func (Sweep.start setting func) := by
  have table := buildScheduleData_timetable func inOrder
  constructor
  · constructor
    · exact table
    · exact Nat.le_refl _
    · intro op _
      rfl
    · exact fun op scheduled => Or.inl scheduled
    · intro value member
      cases member
    · intro value member unused
      obtain ⟨op, scheduled, isResult⟩ := List.mem_flatMap.mp member
      obtain ⟨number, _, same⟩ := List.mem_map.mp isResult
      subst same
      obtain ⟨place, located⟩ := List.mem_iff_getElem?.mp scheduled
      refine ⟨op, number, place, rfl, located, List.mem_filter.mpr ⟨member, decide_eq_true ?_⟩⟩
      -- the last use of a value that no later op uses is the position of its producer
      have dies : (buildScheduleData func).lastUsePositions (.result op number) =
          (buildScheduleData func).positionMap op := by
        by_contra later
        exact unused (List.mem_filter.mpr ⟨member, decide_eq_true later⟩)
      exact dies.trans ((table.positions op place).mpr located)
    · intro value member
      cases member
    · exact List.nodup_nil
  · refine ⟨fun value member => ?_, fun place before => ?_, rfl⟩
    · cases member
    · cases before
  · exact Nat.zero_le _
  · rfl

section Run
variable (setting : Setting) (func : Func) (inOrder : func.InOrder)
include inOrder

theorem run_ends (steps : Nat) (s : StatefulSweep)
    (runs : Sweep.run setting (Stateful.hooks setting) func steps = .ok s) (invariant : Invariant func s) :
    ∃ later, Sweep.run setting (Stateful.hooks setting) func later = .error .rewindBudget ∨
      ∃ ending, Sweep.run setting (Stateful.hooks setting) func later = .ok ending ∧ Invariant func ending ∧
        ending.control = .finished := by
  by_cases ended : s.control = .finished
  · exact ⟨steps, Or.inr ⟨s, runs, invariant, ended⟩⟩
  have runsOn : Sweep.run setting (Stateful.hooks setting) func (steps + 1) =
      s.step setting (Stateful.hooks setting) := by
    simp only [Sweep.run, runs]
    rfl
  rcases step_progress setting func inOrder s invariant ended with ⟨_, exceeded⟩ | ⟨next, stepped, kept, progress⟩
  · exact ⟨steps + 1, Or.inl (runsOn.trans exceeded)⟩
  · exact run_ends (steps + 1) next (runsOn.trans stepped) kept
termination_by ((usedLater func).length - s.m.evictions.length, rank s.m s.control)
decreasing_by
  have bound := kept.known.evictions_le
  rcases progress with evicts | ⟨same, closer⟩
  · exact Prod.Lex.left _ _ (by omega)
  · rw [same]
    exact Prod.Lex.right _ closer

variable (few : (usedLater func).length ≤ 4 * (buildScheduleData func).schedule.length + 64)
include few

theorem run_invariant (steps : Nat) :
    ∃ s, Sweep.run setting (Stateful.hooks setting) func steps = .ok s ∧ Invariant func s := by
  induction steps with
  | zero => exact ⟨_, rfl, start_invariant setting func inOrder⟩
  | succ steps ih =>
      obtain ⟨s, runs, invariant⟩ := ih
      simp only [Sweep.run, runs]
      by_cases ended : s.control = .finished
      · refine ⟨s, ?_, invariant⟩
        change s.step setting (Stateful.hooks setting) = .ok s
        simp only [Sweep.step, ended]
      · rcases step_progress setting func inOrder s invariant ended with ⟨exceeded, _⟩ | ⟨next, steps, kept, _⟩
        · have bound := invariant.known.evictions_le
          have limit := invariant.limit
          omega
        · exact ⟨next, steps, kept⟩

end Run

theorem Invariant.sound {func : Func} {s : StatefulSweep} (invariant : Invariant func s) (inOrder : func.InOrder) :
    s.m.evictions.Nodup ∧ (∀ value ∈ s.m.evictions, value ∉ s.m.insertedReshardValues) ∧
      ∀ pos target, s.control = .rewind pos target →
        target < pos ∧ (s.m.sweepCheckpoints target).isSome = true := by
  refine ⟨invariant.known.distinct, fun value evicted inserted => ?_, fun pos target rewinds => ?_⟩
  · obtain ⟨reshard, isResult, new, _⟩ := invariant.known.inserted value inserted
    obtain ⟨op, scheduled, isTyped⟩ :=
      List.mem_flatMap.mp (List.mem_of_mem_filter (invariant.known.evicted value evicted).2)
    obtain ⟨number, _, same⟩ := List.mem_map.mp isTyped
    have old := (buildScheduleData_timetable func inOrder).known op scheduled
    rw [isResult] at same
    cases same
    exact absurd old (Nat.not_lt.mpr new)
  · have standing := invariant.standing
    rw [rewinds] at standing
    obtain ⟨before, checkpointed, _⟩ := standing
    obtain ⟨checkpoint, stored, _⟩ := checkpointed target (Nat.lt_succ_self _)
    exact ⟨before, by rw [stored]; rfl⟩

end Progress

/-- The rewind-based sweep makes progress when the budget covers the results
that later ops use. -/
theorem stateful_progress (setting : Setting) (func : Func) (inOrder : func.InOrder)
    (few : (usedLater func).length ≤ 4 * (buildScheduleData func).schedule.length + 64) :
    (∃ steps ending, Sweep.run setting (Stateful.hooks setting) func steps = .ok ending ∧
      ending.control = .finished) ∧
    ∀ steps, ∃ s, Sweep.run setting (Stateful.hooks setting) func steps = .ok s ∧ s.m.evictions.Nodup ∧
      (∀ value ∈ s.m.evictions, value ∉ s.m.insertedReshardValues) ∧
      ∀ pos target, s.control = .rewind pos target →
        target < pos ∧ (s.m.sweepCheckpoints target).isSome = true := by
  constructor
  · obtain ⟨steps, ends⟩ := Progress.run_ends setting func inOrder 0 _ rfl (Progress.start_invariant setting func inOrder)
    rcases ends with exceeded | ⟨ending, runs, _, finished⟩
    · obtain ⟨s, runs, _⟩ := Progress.run_invariant setting func inOrder few steps
      rw [runs] at exceeded
      cases exceeded
    · exact ⟨steps, ending, runs, finished⟩
  · intro steps
    obtain ⟨s, runs, invariant⟩ := Progress.run_invariant setting func inOrder few steps
    exact ⟨s, runs, invariant.sound inOrder⟩

/-- A backend that takes the reader only once its operand is in DRAM. -/
def tightSetting : Setting where
  l1BudgetPerCore := 8192
  cbFragCushion := 819
  backend _ query :=
    if query.inputLayouts.any fun layout => layout.any (·.hasL1BufferType) then { status := .outOfMemoryError }
    else { status := .success, outputL1Usage := 1024 }
  popOrder := TieBreak.insertion _
  insertionOrder := TieBreak.insertion _

/-- The reader evicts its operand and rewinds to the producer. -/
theorem stateful_progress_readerChain :
    (∃ s, Sweep.run tightSetting (Stateful.hooks tightSetting) readerChain 3 = .ok s ∧ s.control = .rewind 1 0) ∧
    (∃ steps ending, Sweep.run tightSetting (Stateful.hooks tightSetting) readerChain steps = .ok ending ∧
      ending.control = .finished) ∧
    ∀ steps, ∃ s, Sweep.run tightSetting (Stateful.hooks tightSetting) readerChain steps = .ok s ∧ s.m.evictions.Nodup ∧
      (∀ value ∈ s.m.evictions, value ∉ s.m.insertedReshardValues) ∧
      ∀ pos target, s.control = .rewind pos target →
        target < pos ∧ (s.m.sweepCheckpoints target).isSome = true :=
  ⟨⟨_, rfl, rfl⟩, stateful_progress tightSetting readerChain readerChain_inOrder (by decide)⟩

end TtMlir.Spill
