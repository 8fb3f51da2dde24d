import TtMlir.Spill.Timetable

/-!
One eviction seen from the function and the schedule. Spilling the victim moves its uses to a
spill op; a consumer that has to read it from L1 gets a reshard of its own.
-/

namespace TtMlir.Spill

structure Restoration (base : Func) (victim : Value) (func : Func) : Prop where
  rewrites : base.Rewrites func
  grown : base.ops.length < func.ops.length
  results : ∀ op < base.ops.length, (func.getOp op).results = (base.getOp op).results
  untouched : ∀ op < base.ops.length, victim ∉ (base.getOp op).operands → func.getOp op = base.getOp op
  readers : ∀ op, victim ∈ (func.getOp op).operands → op = base.ops.length
  takers : ∀ op number, .result base.ops.length number ∈ (func.getOp op).operands → op < base.ops.length →
    victim ∈ (base.getOp op).operands
  inDram : ∀ number, (func.getLayout (.result base.ops.length number)).any (·.hasL1BufferType) = false

namespace Restoration

theorem spilled (func : Func) (defined : func.Defined) (producer number : Nat) (layout : TTNNLayout)
    (typed : func.getLayout (.result producer number) = some layout) (inL1 : layout.hasL1BufferType = true) :
    Restoration func (.result producer number) (func.spillToDram (.result producer number)) := by
  have effect := func.spillToDramImpl_spilled producer number none layout typed inL1
  constructor
  · exact func.spillToDramImpl_rewrites (.result producer number) none
  · rw [Func.spillToDram, effect.length]
    exact Nat.lt_succ_self _
  · exact effect.results
  · exact effect.untouched
  · exact func.spillToDram_readers producer number layout typed inL1
  · intro op place member old
    rcases effect.mem_operands op old _ member with kept | ⟨reads, _⟩
    · exact absurd (defined op _ ⟨place, kept⟩) (Nat.lt_irrefl _)
    · exact reads
  · intro place
    rw [Func.spillToDram, Func.getLayout, effect.spill]
    cases place <;> rfl

theorem resharded {base func : Func} {victim : Value} (restoration : Restoration base victim func)
    (produced : ∀ producer number, victim = .result producer number → producer < base.ops.length)
    (consumer operandIdx number : Nat) (layout : TTNNLayout)
    (operand : (func.getOp consumer).operands[operandIdx]? = some (.result base.ops.length number)) :
    Restoration base victim (func.insertReshardForConsumer consumer operandIdx layout) := by
  have inDram := restoration.inDram number
  have getOp := func.insertReshard_getOp consumer operandIdx layout _ operand inDram
  have length := func.insertReshard_length consumer operandIdx layout _ operand inDram
  have reading := List.mem_iff_getElem?.mpr ⟨operandIdx, operand⟩
  have isOld (op : OpId) (old : op < base.ops.length) : op ≠ func.ops.length :=
    Nat.ne_of_lt (Nat.lt_trans old restoration.grown)
  constructor
  · exact restoration.rewrites.trans (func.insertReshard_rewrites consumer operandIdx layout _ operand inDram)
  · rw [length]
    exact Nat.lt_succ_of_lt restoration.grown
  · intro op old
    rw [getOp, if_neg (isOld op old)]
    split <;> exact restoration.results op old
  · intro op old noUse
    have other : op ≠ consumer := by
      intro same
      subst same
      exact noUse (restoration.takers op number reading old)
    rw [getOp, if_neg other, if_neg (isOld op old)]
    exact restoration.untouched op old noUse
  · intro op member
    rw [getOp] at member
    split at member
    · rcases List.mem_or_eq_of_mem_set member with kept | new
      · exact restoration.readers op kept
      · exact absurd (produced _ _ new) (Nat.not_lt.mpr (Nat.le_of_lt restoration.grown))
    · split at member
      · exact absurd (produced _ _ (List.mem_singleton.mp member)) (Nat.lt_irrefl _)
      · exact restoration.readers op member
  · intro op place member old
    rw [getOp, if_neg (isOld op old)] at member
    split at member
    · rcases List.mem_or_eq_of_mem_set member with kept | new
      · exact restoration.takers op place kept old
      · exact absurd (Value.result.inj new).1 (Nat.ne_of_lt restoration.grown)
    · exact restoration.takers op place member old
  · intro place
    have spillOp : base.ops.length ≠ func.ops.length := Nat.ne_of_lt restoration.grown
    have kept := restoration.inDram place
    simp only [Func.getLayout, getOp, if_neg spillOp] at kept ⊢
    split <;> exact kept

end Restoration

section Rule
variable {τ : Type} [MemoryTracker τ]

structure Restored (start : Manager τ) (victim : Value) (m : Manager τ) : Prop where
  restoration : Restoration start.func victim m.func
  timetable : Timetable m.func m.data
  scheduled : ∀ op ∈ m.data.schedule, op ∈ start.data.schedule ∨ start.func.ops.length < op

/-- A scheduled reader of the victim, at a place of the schedule, still reads
one of its operands through the spill op. -/
structure Awaiting (start : Manager τ) (victim : Value) (m : Manager τ) (consumer operandIdx place : Nat) :
    Prop where
  restored : Restored start victim m
  scheduled : consumer ∈ start.data.schedule
  reader : victim ∈ (start.func.getOp consumer).operands
  located : m.data.schedule[place]? = some consumer
  operand : ∃ number, (m.func.getOp consumer).operands[operandIdx]? = some (.result start.func.ops.length number)

/-- The events that keep a reshard in L1 while its past consumer allocates. -/
def bracketEvents (reshardOp firstAllocIdx lastAllocIdx sizePerCore : Nat) : List (Nat × L1Event) :=
  [(lastAllocIdx + 1, { kind := .kDealloc, tensor := .result reshardOp 0 }),
    (firstAllocIdx, { kind := .kAlloc, tensor := .result reshardOp 0, sizePerCore })]

/-- A property of the manager and the pending log insertions that every reshard
of an eviction keeps. -/
structure EvictionRule (hooks : RebuildHooks τ) (start : Manager τ) (victim : Value) (pos : Nat)
    (motive : Manager τ → List (Nat × L1Event) → Prop) : Prop where
  ask : ∀ m events, motive m events → motive { m with asked := m.asked + 1 } events
  unbracketed : ∀ m events consumer operandIdx place layout, hooks.usesRewindEviction = false → place < pos →
    Awaiting start victim m consumer operandIdx place → motive m events →
    motive (m.resharded consumer operandIdx layout) events
  bracketed : ∀ m events consumer operandIdx place layout firstAllocIdx lastAllocIdx sizePerCore,
    hooks.usesRewindEviction = false → place < pos → Awaiting start victim m consumer operandIdx place →
    (m.resharded consumer operandIdx layout).allocBracket consumer = some (firstAllocIdx, lastAllocIdx) →
    motive m events →
    motive (m.resharded consumer operandIdx layout)
      (events ++ bracketEvents m.func.ops.length firstAllocIdx lastAllocIdx sizePerCore)
  scheduled : ∀ m events consumer operandIdx place layout, hooks.usesRewindEviction = true ∨ pos ≤ place →
    Awaiting start victim m consumer operandIdx place → motive m events →
    motive ((m.resharded consumer operandIdx layout).insertReshardIntoSchedule m.func.ops.length
      (.result m.func.ops.length 0) place) events

section
variable {start : Manager τ} {victim : Value} {m : Manager τ} {consumer operandIdx place : Nat}
  (awaiting : Awaiting start victim m consumer operandIdx place)
include start victim place awaiting

theorem Awaiting.resharded (produced : ∀ producer number, victim = .result producer number → producer < start.func.ops.length)
    (layout : TTNNLayout) :
    Restored start victim (m.resharded consumer operandIdx layout) ∧
    Restored start victim ((m.resharded consumer operandIdx layout).insertReshardIntoSchedule m.func.ops.length
      (.result m.func.ops.length 0) place) := by
  obtain ⟨number, operand⟩ := awaiting.operand
  have restoration := awaiting.restored.restoration
  have inDram := restoration.inDram number
  have next := restoration.resharded produced consumer operandIdx number layout operand
  have rewrites := m.func.insertReshard_rewrites consumer operandIdx layout _ operand inDram
  refine ⟨⟨next, awaiting.restored.timetable.rewritten rewrites, awaiting.restored.scheduled⟩, next, ?_, ?_⟩
  · exact awaiting.restored.timetable.inserted m consumer operandIdx place layout _ operand inDram awaiting.located
  · intro op member
    rcases List.mem_append.mp member with front | back
    · exact awaiting.restored.scheduled op (List.mem_of_mem_take front)
    · rcases List.mem_cons.mp back with new | old
      · rw [new]
        exact Or.inr restoration.grown
      · exact awaiting.restored.scheduled op (List.mem_of_mem_drop old)

theorem Awaiting.length (layout : TTNNLayout) :
    (m.resharded consumer operandIdx layout).func.ops.length = m.func.ops.length + 1 := by
  obtain ⟨number, operand⟩ := awaiting.operand
  exact m.func.insertReshard_length consumer operandIdx layout _ operand (awaiting.restored.restoration.inDram number)

end

theorem mem_spilledOperandIdx {base func : Func} {victim : Value} (restoration : Restoration base victim func)
    (consumer operandIdx : Nat) (member : operandIdx ∈ Manager.spilledOperandIdx func consumer victim) :
    ∃ number, (func.getOp consumer).operands[operandIdx]? = some (.result base.ops.length number) := by
  simp only [Manager.spilledOperandIdx, List.mem_filter] at member
  obtain ⟨_, config⟩ := member
  cases operand : (func.getOp consumer).operands[operandIdx]? with
  | none => simp [operand] at config
  | some value =>
      cases value with
      | argument index => simp [operand] at config
      | result defOp number =>
          simp only [operand, Bool.and_eq_true, decide_eq_true_eq] at config
          have spillOp := restoration.readers defOp (List.mem_of_head? config.2)
          subst spillOp
          exact ⟨number, rfl⟩

structure Resharding (hooks : RebuildHooks τ) (start : Manager τ) (victim : Value) (pos : Nat)
    (motive : Manager τ → List (Nat × L1Event) → Prop) (consumer : OpId) (isPastConsumer : Bool)
    (operands : List Nat) (state : Manager.Restoring τ) : Prop where
  holds : motive state.m state.transientInsertions
  restored : Restored start victim state.m
  scheduled : consumer ∈ start.data.schedule
  reader : victim ∈ (start.func.getOp consumer).operands
  located : state.m.data.schedule[state.consumerPos]? = some consumer
  side : if isPastConsumer && !hooks.usesRewindEviction then state.consumerPos < pos
    else hooks.usesRewindEviction = true ∨ pos ≤ state.consumerPos
  waiting : ∀ operandIdx ∈ operands, ∃ number,
    (state.m.func.getOp consumer).operands[operandIdx]? = some (.result start.func.ops.length number)

variable {hooks : RebuildHooks τ} {start : Manager τ} {victim : Value} {pos : Nat}
  {motive : Manager τ → List (Nat × L1Event) → Prop}

theorem reshardOperand_eq (setting : Setting) (consumer operandIdx : Nat) (layout : TTNNLayout)
    (isPastConsumer : Bool) (state : Manager.Restoring τ) (spillOutput : Value)
    (operand : (state.m.func.getOp consumer).operands[operandIdx]? = some spillOutput)
    (inDram : (state.m.func.getLayout spillOutput).any (·.hasL1BufferType) = false) :
    ∃ sizePerCore, Manager.reshardOperand setting hooks consumer layout isPastConsumer state operandIdx =
      let m := state.m.resharded consumer operandIdx layout
      if isPastConsumer && !hooks.usesRewindEviction then
        match m.allocBracket consumer with
        | none => { state with m }
        | some (firstAllocIdx, lastAllocIdx) =>
            { state with
              m
              transientInsertions := state.transientInsertions ++
                bracketEvents state.m.func.ops.length firstAllocIdx lastAllocIdx sizePerCore }
      else
        { state with
          m := m.insertReshardIntoSchedule state.m.func.ops.length (.result state.m.func.ops.length 0) state.consumerPos
          consumerPos := state.consumerPos + 1 } := by
  have getOp := state.m.func.insertReshard_getOp consumer operandIdx layout spillOutput operand inDram
  have replaced : ((state.m.func.insertReshardForConsumer consumer operandIdx layout).getOp consumer).operands[operandIdx]?
      = some (.result state.m.func.ops.length 0) := by
    rw [getOp, if_pos rfl]
    exact List.getElem?_set_self (List.getElem?_eq_some_iff.mp operand).1
  simp only [Manager.reshardOperand, replaced]
  exact ⟨_, rfl⟩

section
variable (setting : Setting) (rule : EvictionRule hooks start victim pos motive)
  (produced : ∀ producer number, victim = .result producer number → producer < start.func.ops.length)
include rule produced

theorem reshardOperand_rule (consumer operandIdx : Nat) (layout : TTNNLayout) (isPastConsumer : Bool) (operands : List Nat)
    (state : Manager.Restoring τ) (notAgain : operandIdx ∉ operands)
    (before : Resharding hooks start victim pos motive consumer isPastConsumer (operandIdx :: operands) state) :
    Resharding hooks start victim pos motive consumer isPastConsumer operands
      (Manager.reshardOperand setting hooks consumer layout isPastConsumer state operandIdx) := by
  obtain ⟨number, operand⟩ := before.waiting operandIdx List.mem_cons_self
  have restoration := before.restored.restoration
  have inDram := restoration.inDram number
  have getOp := state.m.func.insertReshard_getOp consumer operandIdx layout _ operand inDram
  have awaiting : Awaiting start victim state.m consumer operandIdx state.consumerPos :=
    ⟨before.restored, before.scheduled, before.reader, before.located, number, operand⟩
  obtain ⟨rewired, inserted⟩ := awaiting.resharded produced layout
  have waiting : ∀ other ∈ operands, ∃ number,
      ((state.m.func.insertReshardForConsumer consumer operandIdx layout).getOp consumer).operands[other]? =
        some (.result start.func.ops.length number) := by
    intro other member
    obtain ⟨place, found⟩ := before.waiting other (List.mem_cons_of_mem _ member)
    refine ⟨place, ?_⟩
    have other : operandIdx ≠ other := fun same => notAgain (same ▸ member)
    rw [getOp, if_pos rfl, List.getElem?_set_ne other]
    exact found
  have side := before.side
  obtain ⟨sizePerCore, equation⟩ := reshardOperand_eq setting consumer operandIdx layout isPastConsumer state _
    operand inDram
  rw [equation]
  cases bracketing : isPastConsumer && !hooks.usesRewindEviction with
  | true =>
      rw [bracketing, if_pos rfl] at side
      have simulated : hooks.usesRewindEviction = false := by
        simp only [Bool.and_eq_true, Bool.not_eq_true'] at bracketing
        exact bracketing.2
      simp only [↓reduceIte]
      cases bracket : (state.m.resharded consumer operandIdx layout).allocBracket consumer with
      | none =>
          have holds := rule.unbracketed state.m _ consumer operandIdx _ layout simulated side awaiting before.holds
          exact ⟨holds, rewired, before.scheduled, before.reader, before.located, by rwa [bracketing], waiting⟩
      | some ends =>
          have holds := rule.bracketed state.m _ consumer operandIdx _ layout ends.1 ends.2 sizePerCore simulated side
            awaiting bracket before.holds
          exact ⟨holds, rewired, before.scheduled, before.reader, before.located, by rwa [bracketing], waiting⟩
  | false =>
      rw [bracketing, if_neg Bool.false_ne_true] at side
      have holds := rule.scheduled state.m _ consumer operandIdx _ layout side awaiting before.holds
      simp only [Bool.false_eq_true, ↓reduceIte]
      refine ⟨holds, inserted, before.scheduled, before.reader, ?_, ?_, waiting⟩
      · obtain ⟨inside, _⟩ := List.getElem?_eq_some_iff.mp before.located
        refine (getElem?_insertAt _ _ (state.consumerPos + 1) _ (Nat.le_of_lt inside)).trans ?_
        rw [if_neg (by omega), if_neg (by omega)]
        exact before.located
      · rw [bracketing, if_neg Bool.false_ne_true]
        exact side.imp id Nat.le_succ_of_le

theorem reshardOperands_rule (consumer : OpId) (layout : TTNNLayout) (isPastConsumer : Bool) (operands : List Nat) (distinct : operands.Nodup)
    (state : Manager.Restoring τ)
    (before : Resharding hooks start victim pos motive consumer isPastConsumer operands state) :
    Resharding hooks start victim pos motive consumer isPastConsumer []
      (operands.foldl (Manager.reshardOperand setting hooks consumer layout isPastConsumer) state) := by
  induction operands generalizing state with
  | nil => exact before
  | cons operandIdx rest ih =>
      have parts := List.nodup_cons.mp distinct
      exact ih parts.2 _ (reshardOperand_rule setting rule produced consumer operandIdx layout isPastConsumer rest state
        parts.1 before)

end

theorem restoreConsumer_rule (setting : Setting) (rule : EvictionRule hooks start victim pos motive)
    (timetable : Timetable start.func start.data)
    (produced : ∀ producer number, victim = .result producer number → producer < start.func.ops.length)
    (layout : TTNNLayout) (skipReshardConsumer : Option OpId) (state : Manager τ × List (Nat × L1Event))
    (consumer : OpId) (old : consumer < start.func.ops.length + 1)
    (before : motive state.1 state.2 ∧ Restored start victim state.1) :
    let next := Manager.restoreConsumer setting hooks victim pos layout skipReshardConsumer state consumer
    motive next.1 next.2 ∧ Restored start victim next.1 := by
  obtain ⟨m, events⟩ := state
  obtain ⟨holds, restored⟩ := before
  simp only [Manager.restoreConsumer]
  cases found : m.data.positionMap consumer with
  | none => exact ⟨holds, restored⟩
  | some consumerPos =>
      simp only
      split
      · exact ⟨holds, restored⟩
      cases waiting : Manager.spilledOperandIdx m.func consumer victim with
      | nil => exact ⟨holds, restored⟩
      | cons first rest =>
          have located := (restored.timetable.positions consumer consumerPos).mp found
          -- the consumer is an op of the start: only later ops have been inserted
          have scheduled : consumer ∈ start.data.schedule := by
            rcases restored.scheduled consumer (List.mem_of_getElem? located) with kept | new
            · exact kept
            · exact absurd old (Nat.not_lt.mpr new)
          have readers (operandIdx : Nat) (member : operandIdx ∈ first :: rest) :=
            mem_spilledOperandIdx restored.restoration consumer operandIdx (waiting ▸ member)
          have distinct : (first :: rest).Nodup := waiting ▸ List.nodup_range.filter _
          have known := timetable.known consumer scheduled
          have reader : victim ∈ (start.func.getOp consumer).operands := by
            obtain ⟨number, operand⟩ := readers first List.mem_cons_self
            exact restored.restoration.takers consumer number (List.mem_iff_getElem?.mpr ⟨first, operand⟩) known
          -- every operand that reads the spilled output gets its reshard
          have restore (current : Manager τ) (sameFunc : current.func = m.func) (sameData : current.data = m.data)
              (kept : motive current events) :
              let isPastConsumer := decide (consumerPos < pos)
              let state : Manager.Restoring τ := ⟨current, consumerPos, events⟩
              let next := (first :: rest).foldl
                (Manager.reshardOperand setting hooks consumer layout isPastConsumer) state
              motive next.m next.transientInsertions ∧ Restored start victim next.m := by
            have before : Resharding hooks start victim pos motive consumer (decide (consumerPos < pos)) (first :: rest)
                ⟨current, consumerPos, events⟩ := by
              constructor
              · exact kept
              · exact ⟨sameFunc ▸ restored.restoration, sameFunc ▸ sameData ▸ restored.timetable,
                  sameData ▸ restored.scheduled⟩
              · exact scheduled
              · exact reader
              · exact sameData ▸ located
              · by_cases past : consumerPos < pos
                · cases rewinds : hooks.usesRewindEviction with
                  | true => simp [past]
                  | false => simp [past]
                · simp [past, Nat.le_of_not_lt past]
              · exact sameFunc ▸ readers
            have after := reshardOperands_rule setting rule produced consumer layout _ _ distinct _ before
            exact ⟨after.holds, after.restored⟩
          by_cases direct : (decide (consumerPos < pos) || (m.func.getOp consumer).isDRAMShardedMatmul) = true
          · simp only [direct, ↓reduceIte]
            exact restore m rfl rfl holds
          · simp only [direct, Bool.false_eq_true, ↓reduceIte]
            have asked := rule.ask m events holds
            split
            · exact restore { m with asked := m.asked + 1 } rfl rfl asked
            · exact ⟨asked, restored.restoration, restored.timetable, restored.scheduled⟩

theorem collectDownstreamConsumers_known (func : Func) (changed consumer : OpId)
    (member : consumer ∈ func.collectDownstreamConsumers changed) : consumer < func.ops.length := by
  have known (value : Value) (use : OpId × Nat) (used : use ∈ func.uses value) : use.1 < func.ops.length := by
    have reads := (func.mem_uses value use.1 use.2).mp used
    by_contra outside
    rw [func.getOp_outside use.1 (Nat.le_of_not_lt outside)] at reads
    cases reads
  simp only [Func.collectDownstreamConsumers, List.mem_flatMap] at member
  obtain ⟨number, _, use, used, through⟩ := member
  split at through
  · obtain ⟨later, usedLater, same⟩ := List.mem_map.mp through
    exact same ▸ known _ later usedLater
  · rw [List.mem_singleton.mp through]
    exact known _ use used

def Manager.afterSpill (hooks : RebuildHooks τ) (m : Manager τ) (victim : Value) : Manager τ :=
  let spilled :=
    { m with
      liveValues := eraseValue m.liveValues victim
      evictions := victim :: m.evictions
      func := m.func.spillToDram victim
      memoryTracker := MemoryTracker.removeTensorFromSizes m.memoryTracker victim }
  match victim.getDefiningOp, m.func.getLayout victim with
  | some victimOp, some _ => if hooks.usesRewindEviction then spilled.shortenLifetime victim victimOp else spilled
  | _, _ => spilled

structure Evicted (start : Manager τ) (victim : Value) (m : Manager τ) : Prop where
  rewrites : start.func.Rewrites m.func
  results : ∀ op < start.func.ops.length, (m.func.getOp op).results = (start.func.getOp op).results
  untouched : ∀ op < start.func.ops.length, victim ∉ (start.func.getOp op).operands →
    m.func.getOp op = start.func.getOp op
  timetable : Timetable m.func m.data
  scheduled : ∀ op ∈ m.data.schedule, op ∈ start.data.schedule ∨ start.func.ops.length < op

theorem afterSpill_fields (hooks : RebuildHooks τ) (m : Manager τ) (victim : Value) :
    (m.afterSpill hooks victim).func = m.func.spillToDram victim ∧
    (m.afterSpill hooks victim).data.schedule = m.data.schedule ∧
    (m.afterSpill hooks victim).data.positionMap = m.data.positionMap := by
  simp only [Manager.afterSpill]
  split
  · split <;> exact ⟨rfl, rfl, rfl⟩
  · exact ⟨rfl, rfl, rfl⟩

theorem afterSpill_kept (hooks : RebuildHooks τ) (m : Manager τ) (victim : Value) :
    (m.afterSpill hooks victim).evictions = victim :: m.evictions ∧
    (m.afterSpill hooks victim).sweepCheckpoints = m.sweepCheckpoints ∧
    (m.afterSpill hooks victim).insertedReshardValues = m.insertedReshardValues ∧
    (m.afterSpill hooks victim).compilationFailed = m.compilationFailed ∧
    (m.afterSpill hooks victim).memoryTracker = MemoryTracker.removeTensorFromSizes m.memoryTracker victim := by
  simp only [Manager.afterSpill]
  split
  · split <;> exact ⟨rfl, rfl, rfl, rfl, rfl⟩
  · exact ⟨rfl, rfl, rfl, rfl, rfl⟩

theorem Evicted.unspilled (hooks : RebuildHooks τ) {m : Manager τ} (timetable : Timetable m.func m.data)
    (unchanged : m.func.spillToDram victim = m.func) : Evicted m victim (m.afterSpill hooks victim) := by
  obtain ⟨func, schedule, positionMap⟩ := afterSpill_fields hooks m victim
  rw [unchanged] at func
  constructor
  · rw [func]
    exact Func.Rewrites.refl m.func
  · rw [func]
    exact fun op _ => rfl
  · rw [func]
    exact fun op _ _ => rfl
  · rw [func]
    exact timetable.congr schedule positionMap
  · rw [schedule]
    exact fun op member => Or.inl member

/-- A property that holds after the spill and survives every reshard holds
after `spillValue`. -/
theorem spillValue_rule (setting : Setting) (rule : EvictionRule hooks start victim pos motive)
    (timetable : Timetable start.func start.data) (skipReshardConsumer : Option OpId)
    (holds : motive (start.afterSpill hooks victim) []) :
    let next := Manager.spillValue setting hooks start victim pos skipReshardConsumer
    motive next.1 next.2 ∧ Evicted start victim next.1 := by
  obtain ⟨func, schedule, positionMap⟩ := afterSpill_fields hooks start victim
  cases victim with
  | argument index => exact ⟨holds, Evicted.unspilled hooks timetable rfl⟩
  | result producer number =>
      cases typed : start.func.getLayout (.result producer number) with
      | none =>
          have unchanged : start.func.spillToDram (.result producer number) = start.func := by
            simp only [Func.spillToDram, Func.spillToDramImpl, Value.getDefiningOp, typed]
          have evicted := Evicted.unspilled hooks timetable unchanged
          simp only [Manager.afterSpill, Value.getDefiningOp, typed] at holds evicted
          simp only [Manager.spillValue, Value.getDefiningOp, typed]
          exact ⟨holds, evicted⟩
      | some layout =>
          cases inL1 : layout.hasL1BufferType with
          | false =>
              have unchanged : start.func.spillToDram (.result producer number) = start.func := by
                simp only [Func.spillToDram, Func.spillToDramImpl, Value.getDefiningOp, typed, inL1, Bool.false_eq_true,
                  ↓reduceIte]
              have evicted := Evicted.unspilled hooks timetable unchanged
              simp only [Manager.afterSpill, Value.getDefiningOp, typed] at holds evicted
              simp only [Manager.spillValue, Value.getDefiningOp, typed, inL1, Bool.false_eq_true, ↓reduceIte]
              exact ⟨holds, evicted⟩
          | true =>
              have spilled := Restoration.spilled start.func timetable.defined producer number layout typed inL1
              have length : (start.func.spillToDram (.result producer number)).ops.length = start.func.ops.length + 1 :=
                (start.func.spillToDramImpl_spilled producer number none layout typed inL1).length
              have restored : Restored start (.result producer number)
                  (start.afterSpill hooks (.result producer number)) := by
                constructor
                · rw [func]
                  exact spilled
                · rw [func]
                  exact (timetable.congr schedule positionMap).rewritten spilled.rewrites
                · rw [schedule]
                  exact fun op member => Or.inl member
              have produced (other place : Nat) (same : Value.result producer number = .result other place) :
                  other < start.func.ops.length := by
                cases same
                exact start.func.producer_inside producer number layout typed
              -- the consumers are restored one after another, each keeps the motive
              have loop (consumers : List OpId) (old : ∀ consumer ∈ consumers, consumer < start.func.ops.length + 1)
                  (state : Manager τ × List (Nat × L1Event))
                  (before : motive state.1 state.2 ∧ Restored start (.result producer number) state.1) :
                  let next := consumers.foldl (Manager.restoreConsumer setting hooks
                    (.result producer number) pos layout
                    skipReshardConsumer) state
                  motive next.1 next.2 ∧ Restored start (.result producer number) next.1 := by
                induction consumers generalizing state with
                | nil => exact before
                | cons consumer rest ih =>
                    exact ih (fun other member => old other (List.mem_cons_of_mem _ member)) _
                      (restoreConsumer_rule setting rule timetable produced layout skipReshardConsumer state consumer
                        (old consumer List.mem_cons_self) before)
              have reached := loop ((start.afterSpill hooks
                  (.result producer number)).func.collectDownstreamConsumers producer)
                (fun consumer member => by
                  rw [← length, ← func]
                  exact collectDownstreamConsumers_known _ _ _ member)
                (start.afterSpill hooks (.result producer number), []) ⟨holds, restored⟩
              have equation : Manager.spillValue setting hooks start (.result producer number) pos skipReshardConsumer =
                  ((start.afterSpill hooks (.result producer number)).func.collectDownstreamConsumers producer).foldl
                    (Manager.restoreConsumer setting hooks (.result producer number) pos layout skipReshardConsumer)
                    (start.afterSpill hooks (.result producer number), []) := by
                simp only [Manager.spillValue, Manager.afterSpill, Value.getDefiningOp, typed, inL1, ↓reduceIte]
              rw [equation]
              exact ⟨reached.1, reached.2.restoration.rewrites, reached.2.restoration.results,
                reached.2.restoration.untouched, reached.2.timetable, reached.2.scheduled⟩

end Rule

end TtMlir.Spill
