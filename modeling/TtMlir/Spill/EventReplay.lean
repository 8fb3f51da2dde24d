import TtMlir.Library.Lists
import TtMlir.Spill.Eviction
import TtMlir.Spill.Flush
import TtMlir.Spill.Sweep

/-!
The event log of the address-simulating manager. `Simulation` makes the steps of the manager
explicit; in every reachable state whose last rebuild placed all tensors, the log rebuilds the
tracker.
-/

namespace TtMlir.Spill

/-- The tracker is renewed before alloc events that still count. -/
def renewsSnapshot (event : L1Event) : Bool := decide (event.skipped = false ∧ event.kind = .kAlloc)

def emptyAddresses (l1Budget : Nat) : AddressState := (SumL1MemoryTracker.init l1Budget).addresses

def rebuilt (m : SumManager) (log : List L1Event) : Option AddressState :=
  EventLog.replay (AddressSim.replayEvent m.func m.memoryTracker.l1Budget) (log.filter fun event => !event.skipped)
    (emptyAddresses m.memoryTracker.l1Budget)

/-- The tracker and its snapshots agree with the event log. -/
structure ReplayFaithful (m : SumManager) : Prop where
  addresses : rebuilt m m.l1EventLog = some m.memoryTracker.addresses
  evicted : ∀ value ∈ m.evictions, m.memoryTracker.addresses.hasTensorAddress value = false
  indexed : ∀ value idx, m.allocEventIndex value = some idx ↔
    (m.allocEventIndex value).isSome = true ∧
      ∃ event, m.l1EventLog[idx]? = some event ∧ event.kind = .kAlloc ∧ event.tensor = value
  snapshots : ∀ idx event, m.l1EventLog[idx]? = some event → event.kind = .kAlloc → event.skipped = false →
    (m.addressSnapshots idx).isSome = true ∧ m.addressSnapshots idx = rebuilt m (m.l1EventLog.take idx)

inductive Reconfigures (op : OpId) (func : Func) : Func → Prop where
  | demoteToDram : Reconfigures op func (func.demoteToDram op)
  | applyOutputConfig (layouts : List TTNNLayout) : Reconfigures op func (func.applyOutputConfig op layouts)
  | spillToDram : Reconfigures op func (func.spillToDram (.result op 0))

structure Simulation where
  m : SumManager
  pos : Nat := 0
  /-- What the last rebuild returned. -/
  placedAll : Bool := true
  /-- `campaignMin` of the running campaign. -/
  campaignMin : Option Nat := none
  /-- Values that were live when the campaign began. -/
  candidates : List Value := []

namespace Simulation
variable (setting : Setting)

def start (func : Func) : Simulation := { m := (Sweep.start setting func).m }

/-- One step of the manager. A campaign, a commit, a death and a flush only
begin once the last rebuild placed everything. -/
inductive Step (s : Simulation) : Simulation → Prop where
  /-- Bookkeeping between the steps: probes, pops of the heap, error flags. -/
  | note (liveValues : List Value) (liveSet : List LiveEntry) (asked : Nat) (compilationFailed : Bool) :
      (∀ value ∈ liveValues, value ∈ s.m.liveValues) →
      Step s { s with m := { s.m with liveValues, liveSet, asked, compilationFailed } }
  | pass : Step s { s with pos := s.pos + 1 }
  | place (op : OpId) (totalL1 : Nat) (m : SumManager) :
      s.placedAll = true → s.m.data.schedule[s.pos]? = some op →
      Sweep.addResultsToLiveSet (AddressSim.hooks setting) s.m op totalL1 = .ok m →
      Step s { m, pos := s.pos + 1 }
  | die (value : Value) : s.placedAll = true → Step s { m := s.m.freeDead value, pos := s.pos }
  | reconfigure (op : OpId) (func : Func) : op ∈ s.m.data.schedule.drop s.pos → Reconfigures op s.m.func func →
      Step s { s with m := { s.m with func } }
  | campaign : s.placedAll = true → Step s { s with campaignMin := none, candidates := s.m.liveValues }
  | evict (victim : Value) (skipReshardConsumer : Option OpId) (m : SumManager) (campaignMin : Option Nat)
      (placedAll : Bool) : victim ∈ s.candidates →
      s.m.evictValue setting AddressSim.rebuildHooks victim s.pos s.campaignMin skipReshardConsumer =
        .ok (m, campaignMin, placedAll) →
      Step s { s with m, campaignMin, placedAll }
  | flush (trigger : OpId) (m : SumManager) : s.placedAll = true →
      s.m.evictAllFromL1 setting s.pos trigger = .ok m → Step s { m, pos := s.pos }

inductive Reachable (func : Func) : Simulation → Prop where
  | start : Reachable func (start setting func)
  | step {s next : Simulation} : Reachable func s → Step setting s next → Reachable func next

end Simulation

theorem replayEvents_eq (func : Func) (l1Budget : Nat) (log : List L1Event) (idx : Nat) (state : AddressState)
    (snapshots : Nat → Option AddressState) : AddressSim.replayEvents func l1Budget log idx state snapshots =
      EventLog.rebuild (AddressSim.replayEvent func l1Budget) renewsSnapshot log idx state snapshots := by
  induction log generalizing idx state snapshots with
  | nil => rfl
  | cons event rest ih =>
      simp only [AddressSim.replayEvents, EventLog.rebuild, renewsSnapshot, decide_eq_true_eq]
      cases AddressSim.replayEvent func l1Budget event state with
      | none => rfl
      | some next => exact ih _ _ _

theorem replayEvent_skipped (func : Func) (l1Budget : Nat) (event : L1Event) (skipped : event.skipped = true)
    (state : AddressState) : AddressSim.replayEvent func l1Budget event state = some state := by
  rw [AddressSim.replayEvent, if_pos skipped]

theorem rebuilt_eq (m : SumManager) (log : List L1Event) : rebuilt m log =
    EventLog.replay (AddressSim.replayEvent m.func m.memoryTracker.l1Budget) log
      (emptyAddresses m.memoryTracker.l1Budget) := by
  rw [rebuilt]
  generalize emptyAddresses m.memoryTracker.l1Budget = state
  induction log generalizing state with
  | nil => rfl
  | cons event rest ih =>
      cases skipped : event.skipped with
      | true =>
          rw [List.filter_cons_of_neg (by simp [skipped]), ih, EventLog.replay, replayEvent_skipped _ _ _ skipped]
          rfl
      | false =>
          rw [List.filter_cons_of_pos (by simp [skipped])]
          simp only [EventLog.replay]
          cases AddressSim.replayEvent m.func m.memoryTracker.l1Budget event state with
          | none => rfl
          | some next => exact ih next

/-- Two logs with the same events, up to what is skipped. -/
def SameEvents (log other : List L1Event) : Prop :=
  ∀ idx : Nat, other[idx]?.map (fun event => (event.kind, event.tensor)) =
    log[idx]?.map fun event => (event.kind, event.tensor)

theorem SameEvents.found {log other : List L1Event} (same : SameEvents log other) (idx : Nat) (event : L1Event)
    (found : log[idx]? = some event) :
    ∃ later, other[idx]? = some later ∧ later.kind = event.kind ∧ later.tensor = event.tensor := by
  have equal := same idx
  rw [found, Option.map_some, Option.map_eq_some_iff] at equal
  obtain ⟨later, present, fields⟩ := equal
  exact ⟨later, present, congrArg Prod.fst fields, congrArg Prod.snd fields⟩

theorem SameEvents.symm {log other : List L1Event} (same : SameEvents log other) : SameEvents other log :=
  fun idx => (same idx).symm

theorem SameEvents.trans {first second third : List L1Event} (one : SameEvents first second)
    (two : SameEvents second third) : SameEvents first third := fun idx => (two idx).trans (one idx)

theorem skipEvent_getElem? (log : List L1Event) (place idx : Nat) : (Manager.skipEvent log place)[idx]? =
    log[idx]?.map fun event => if place = idx then { event with skipped := true } else event := by
  rw [Manager.skipEvent, List.getElem?_modify]
  rfl

theorem skipEvent_sameEvents (log : List L1Event) (place : Nat) : SameEvents log (Manager.skipEvent log place) := by
  intro idx
  rw [skipEvent_getElem?, Option.map_map]
  congr 1
  funext event
  simp only [Function.comp_apply]
  split <;> rfl

/-- A reshard that lives in the log only, around one of its consumers. -/
def Transient (m : SumManager) (tensor : Value) : Prop :=
  ∃ op number, tensor = .result op number ∧ op ∉ m.data.schedule ∧ op < m.func.ops.length ∧
    (m.func.getOp op).kind = .toMemoryConfig

/-- How the log, the index of its alloc events and the schedule belong together. -/
structure Recorded (m : SumManager) (pos : Nat) : Prop where
  timetable : Timetable m.func m.data
  indexed : ∀ value idx, m.allocEventIndex value = some idx →
    ∃ event, m.l1EventLog[idx]? = some event ∧ event.kind = .kAlloc ∧ event.tensor = value
  committed : ∀ value idx, m.allocEventIndex value = some idx →
    ∃ op number, value = .result op number ∧ op ∈ m.data.schedule.take pos
  ordered : ∀ op number idx value other, m.allocEventIndex (.result op number) = some idx →
    value ∈ (m.func.getOp op).operands → m.allocEventIndex value = some other → other < idx
  allocs : ∀ idx event, m.l1EventLog[idx]? = some event → event.kind = .kAlloc →
    m.allocEventIndex event.tensor = some idx ∨ Transient m event.tensor

namespace Recorded
variable {m : SumManager} {pos : Nat}

theorem index_lt (recorded : Recorded m pos) (value : Value) (idx : Nat) (found : m.allocEventIndex value = some idx) :
    idx < m.l1EventLog.length := by
  obtain ⟨event, present, _⟩ := recorded.indexed value idx found
  exact (List.getElem?_eq_some_iff.mp present).1

theorem rewritten (recorded : Recorded m pos) (next : SumManager) (rewrites : m.func.Rewrites next.func)
    (timetable : Timetable next.func next.data)
    (taken : next.data.schedule.take pos = m.data.schedule.take pos)
    (scheduled : ∀ op ∈ next.data.schedule, op ∈ m.data.schedule ∨ m.func.ops.length ≤ op)
    (index : next.allocEventIndex = m.allocEventIndex) (log : SameEvents m.l1EventLog next.l1EventLog) :
    Recorded next pos := by
  have known (op : OpId) (member : op ∈ m.data.schedule.take pos) : op < m.func.ops.length :=
    recorded.timetable.known op (List.mem_of_mem_take member)
  constructor
  · exact timetable
  · intro value idx found
    rw [index] at found
    obtain ⟨event, present, kind, tensor⟩ := recorded.indexed value idx found
    obtain ⟨later, there, sameKind, sameTensor⟩ := log.found idx event present
    exact ⟨later, there, sameKind.trans kind, sameTensor.trans tensor⟩
  · intro value idx found
    rw [index] at found
    rw [taken]
    exact recorded.committed value idx found
  · intro op number idx value other found member foundOther
    rw [index] at found foundOther
    obtain ⟨reader, _, isResult, readerTaken⟩ := recorded.committed _ _ found
    cases isResult
    rcases rewrites.operands op (known op readerTaken) value member with old | ⟨new, place, isNew, added⟩
    · exact recorded.ordered op number idx value other found old foundOther
    · obtain ⟨producer, _, isProduced, producerTaken⟩ := recorded.committed _ _ foundOther
      rw [isProduced] at isNew
      cases isNew
      exact absurd (known _ producerTaken) (Nat.not_lt.mpr added)
  · intro idx event found isAlloc
    obtain ⟨earlier, present, sameKind, sameTensor⟩ := log.symm.found idx event found
    rw [index, ← sameTensor]
    rcases recorded.allocs idx earlier present (sameKind.trans isAlloc) with indexed | transient
    · exact Or.inl indexed
    · obtain ⟨op, number, isResult, unscheduled, inside, config⟩ := transient
      refine Or.inr ⟨op, number, isResult, ?_, Nat.lt_of_lt_of_le inside rewrites.grows, ?_⟩
      · intro member
        rcases scheduled op member with old | new
        · exact unscheduled old
        · exact absurd inside (Nat.not_lt.mpr new)
      · exact (rewrites.kind op inside).trans config

theorem advance (recorded : Recorded m pos) : Recorded m (pos + 1) := by
  constructor
  · exact recorded.timetable
  · exact recorded.indexed
  · intro value idx found
    obtain ⟨op, number, isResult, taken⟩ := recorded.committed value idx found
    exact ⟨op, number, isResult, List.take_subset_take_left _ (Nat.le_succ pos) taken⟩
  · exact recorded.ordered
  · exact recorded.allocs

theorem insertEvent (recorded : Recorded m pos) (place : Nat) (event : L1Event) (inside : place ≤ m.l1EventLog.length)
    (transient : Transient m event.tensor) : Recorded (m.insertEventIntoLog place event) pos := by
  have lookup (idx : Nat) := getElem?_insertAt m.l1EventLog place idx event inside
  have shifted (value : Value) (idx : Nat)
      (found : (m.insertEventIntoLog place event).allocEventIndex value = some idx) :
      ∃ old, m.allocEventIndex value = some old ∧ idx = if place ≤ old then old + 1 else old := by
    obtain ⟨old, was, same⟩ := Option.map_eq_some_iff.mp found
    exact ⟨old, was, same.symm⟩
  constructor
  · exact recorded.timetable
  · intro value idx found
    obtain ⟨old, was, shift⟩ := shifted value idx found
    obtain ⟨earlier, present, fields⟩ := recorded.indexed value old was
    refine ⟨earlier, ?_, fields⟩
    refine (lookup idx).trans ?_
    by_cases later : place ≤ old
    · rw [if_pos later] at shift
      rw [if_neg (by omega), if_neg (by omega), shift]
      exact present
    · rw [if_neg later] at shift
      rw [if_pos (by omega), shift]
      exact present
  · intro value idx found
    obtain ⟨old, was, _⟩ := shifted value idx found
    exact recorded.committed value old was
  · intro op number idx value other found member foundOther
    obtain ⟨old, was, shift⟩ := shifted _ idx found
    obtain ⟨oldOther, wasOther, shiftOther⟩ := shifted value other foundOther
    have before := recorded.ordered op number old value oldOther was member wasOther
    rw [shift, shiftOther]
    split <;> split <;> omega
  · intro idx found present isAlloc
    have there : (if idx < place then m.l1EventLog[idx]? else if idx = place then some event
        else m.l1EventLog[idx - 1]?) = some found := (lookup idx).symm.trans present
    split at there
    · rename_i before
      rcases recorded.allocs idx found there isAlloc with indexed | isTransient
      · left
        refine Option.map_eq_some_iff.mpr ⟨idx, indexed, if_neg (by omega)⟩
      · exact Or.inr isTransient
    · split at there
      · cases there
        exact Or.inr transient
      · rcases recorded.allocs (idx - 1) found there isAlloc with indexed | isTransient
        · left
          refine Option.map_eq_some_iff.mpr ⟨idx - 1, indexed, ?_⟩
          rw [if_pos (by omega)]
          omega
        · exact Or.inr isTransient

end Recorded

def SnapshotRight (m : SumManager) (idx : Nat) : Prop :=
  EventLog.Stored (AddressSim.replayEvent m.func m.memoryTracker.l1Budget) (emptyAddresses m.memoryTracker.l1Budget)
    m.l1EventLog m.addressSnapshots idx

def SnapshotsBelow (m : SumManager) (limit : Nat) : Prop :=
  ∀ idx event, idx < limit → m.l1EventLog[idx]? = some event → renewsSnapshot event = true → SnapshotRight m idx

def SameAliases (m : SumManager) (after : Func) (limit : Nat) : Prop :=
  ∀ idx event, idx < limit → m.l1EventLog[idx]? = some event → event.kind = .kAlloc →
    after.aliasSource event.tensor = m.func.aliasSource event.tensor

theorem replayEvent_congr (before after : Func) (l1Budget : Nat) (event : L1Event)
    (same : event.kind = .kAlloc → after.aliasSource event.tensor = before.aliasSource event.tensor)
    (state : AddressState) :
    AddressSim.replayEvent after l1Budget event state = AddressSim.replayEvent before l1Budget event state := by
  unfold AddressSim.replayEvent
  cases kind : event.kind with
  | kDealloc => rfl
  | kAlloc => rw [same kind]

theorem SameAliases.replayEvent {m : SumManager} {after : Func} {limit : Nat} (aliases : SameAliases m after limit)
    (event : L1Event) (member : event ∈ m.l1EventLog.take limit) (l1Budget : Nat) (state : AddressState) :
    AddressSim.replayEvent after l1Budget event state = AddressSim.replayEvent m.func l1Budget event state := by
  refine replayEvent_congr m.func after l1Budget event (fun isAlloc => ?_) state
  obtain ⟨idx, found⟩ := List.mem_iff_getElem?.mp member
  rw [List.getElem?_take] at found
  split at found
  · rename_i below
    exact aliases idx event below found isAlloc
  · cases found

theorem SnapshotRight.kept {m next : SumManager} {idx : Nat} (right : SnapshotRight m idx)
    (budget : next.memoryTracker.l1Budget = m.memoryTracker.l1Budget)
    (log : next.l1EventLog.take idx = m.l1EventLog.take idx)
    (snapshot : next.addressSnapshots idx = m.addressSnapshots idx) (aliases : SameAliases m next.func idx) :
    SnapshotRight next idx := by
  unfold SnapshotRight
  rw [budget]
  exact EventLog.stored_prefix _ _ _ _ _ _ _ _ right snapshot log fun event member state =>
    aliases.replayEvent event member _ state

theorem SameAliases.mono {m : SumManager} {after : Func} {limit lower : Nat} (aliases : SameAliases m after limit)
    (below : lower ≤ limit) : SameAliases m after lower :=
  fun idx event inside => aliases idx event (Nat.lt_of_lt_of_le inside below)

theorem Reconfigures.frame {op : OpId} {func after : Func} (reconfigures : Reconfigures op func after) :
    func.Rewrites after ∧
    (∀ other < func.ops.length, other ≠ op → ¬ func.Reads other op → after.getOp other = func.getOp other) ∧
    ∀ producer < func.ops.length, producer ≠ op → (after.getOp producer).results = (func.getOp producer).results := by
  have relaid (results : List (Option TTNNLayout)) (other : OpId) (different : other ≠ op) :
      (func.setResults op results).getOp other = func.getOp other := by
    rw [Func.getOp_setResults, if_neg fun both => different both.1]
  cases reconfigures with
  | demoteToDram =>
      refine ⟨func.demoteToDram_rewrites op, fun other _ different _ => relaid _ other different, ?_⟩
      intro producer _ different
      rw [Func.demoteToDram, relaid _ producer different]
  | applyOutputConfig layouts =>
      have rewrites := func.applyOutputConfig_rewrites op layouts
      rw [Func.applyOutputConfig] at rewrites ⊢
      split
      · exact ⟨Func.Rewrites.refl func, fun _ _ _ _ => rfl, fun _ _ _ => rfl⟩
      · rename_i chosen
        rw [if_neg chosen] at rewrites
        refine ⟨rewrites, fun other _ different _ => relaid _ other different, ?_⟩
        intro producer _ different
        rw [relaid _ producer different]
  | spillToDram =>
      rcases func.spillToDramImpl_cases (.result op 0) none with same | ⟨producer, number, layout, isResult, _, spilled⟩
      · rw [Func.spillToDram, same]
        exact ⟨Func.Rewrites.refl func, fun _ _ _ _ => rfl, fun _ _ _ => rfl⟩
      · refine ⟨func.spillToDramImpl_rewrites _ none, ?_, fun producer old _ => spilled.results producer old⟩
        intro other old _ noUse
        exact spilled.untouched other old fun member => noUse ⟨0, member⟩

theorem Recorded.reconfigured {m : SumManager} {pos : Nat} (recorded : Recorded m pos) (op : OpId) (after : Func)
    (ahead : op ∈ m.data.schedule.drop pos) (reconfigures : Reconfigures op m.func after) (limit : Nat) :
    SameAliases m after limit := by
  obtain ⟨rewrites, untouched, results⟩ := reconfigures.frame
  intro idx event _ found isAlloc
  rcases recorded.allocs idx event found isAlloc with indexed | ⟨transient, number, isResult, _, inside, config⟩
  · obtain ⟨reader, number, isResult, taken⟩ := recorded.committed _ _ indexed
    have known := recorded.timetable.known reader (List.mem_of_mem_take taken)
    have apart := recorded.timetable.ordered
    rw [← List.take_append_drop pos m.data.schedule, List.pairwise_append] at apart
    obtain ⟨different, noUse⟩ := apart.2.2 reader taken op ahead
    rw [isResult]
    refine Func.aliasSource_kept rewrites reader number (untouched reader known different noUse) fun producer reads =>
      ?_
    refine results producer (recorded.timetable.defined reader producer reads) fun same => ?_
    exact noUse (same ▸ reads)
  · rw [isResult, Func.aliasSource_toMemoryConfig _ _ _ config,
      Func.aliasSource_toMemoryConfig _ _ _ ((rewrites.kind transient inside).trans config)]

theorem Recorded.evicted {m next : SumManager} {pos : Nat} (recorded : Recorded m pos) (victim : Value)
    (evicted : Evicted m victim next) (allocIdx : Nat) (allocated : m.allocEventIndex victim = some allocIdx) :
    SameAliases m next.func allocIdx := by
  intro idx event below found isAlloc
  rcases recorded.allocs idx event found isAlloc with indexed | ⟨transient, number, isResult, _, inside, config⟩
  · obtain ⟨reader, number, isResult, taken⟩ := recorded.committed _ _ indexed
    have known := recorded.timetable.known reader (List.mem_of_mem_take taken)
    rw [isResult] at indexed ⊢
    have noUse : victim ∉ (m.func.getOp reader).operands := by
      intro member
      have before := recorded.ordered reader number idx victim allocIdx indexed member allocated
      omega
    refine Func.aliasSource_kept evicted.rewrites reader number (evicted.untouched reader known noUse)
      fun producer reads => ?_
    exact evicted.results producer (recorded.timetable.defined reader producer reads)
  · rw [isResult, Func.aliasSource_toMemoryConfig _ _ _ config,
      Func.aliasSource_toMemoryConfig _ _ _ ((evicted.rewrites.kind transient inside).trans config)]

/-! One eviction: the spill, the insertions into the log, the rebuild. -/

/-- Between the spill of a victim and the rebuild: the log is untouched, and insertions go behind the
victim. -/
structure Pending (start : SumManager) (victim : Value) (pos allocIdx : Nat) (m : SumManager)
    (events : List (Nat × L1Event)) : Prop where
  log : m.l1EventLog = start.l1EventLog
  index : m.allocEventIndex = start.allocEventIndex
  snapshots : m.addressSnapshots = start.addressSnapshots
  budget : m.memoryTracker.l1Budget = start.memoryTracker.l1Budget
  live : m.liveValues = eraseValue start.liveValues victim
  evictions : m.evictions = victim :: start.evictions
  taken : m.data.schedule.take pos = start.data.schedule.take pos
  events : ∀ entry ∈ events, allocIdx < entry.1 ∧ entry.1 ≤ start.l1EventLog.length ∧
    ∃ op, entry.2.tensor = .result op 0 ∧ start.func.ops.length ≤ op ∧ op < m.func.ops.length ∧ op ∉ m.data.schedule

theorem allocBracket_indices (m : SumManager) (op firstAllocIdx lastAllocIdx : Nat)
    (bracket : m.allocBracket op = some (firstAllocIdx, lastAllocIdx)) :
    (∃ number, m.allocEventIndex (.result op number) = some firstAllocIdx) ∧
    ∃ number, m.allocEventIndex (.result op number) = some lastAllocIdx := by
  simp only [Manager.allocBracket] at bracket
  have indexed (idx : Nat) (member : idx ∈ (List.range (m.func.getOp op).results.length).filterMap fun number =>
      m.allocEventIndex (.result op number)) : ∃ number, m.allocEventIndex (.result op number) = some idx := by
    obtain ⟨number, _, found⟩ := List.mem_filterMap.mp member
    exact ⟨number, found⟩
  split at bracket
  · cases bracket
  · rename_i first rest indices
    rw [indices] at indexed
    cases bracket
    constructor
    · exact indexed _ (foldl_choice (fun a b => by omega) rest first)
    · exact indexed _ (foldl_choice (fun a b => by omega) rest first)

theorem Pending.rule {m : SumManager} {pos : Nat} (recorded : Recorded m pos) (victim : Value) (allocIdx : Nat)
    (allocated : m.allocEventIndex victim = some allocIdx) :
    EvictionRule AddressSim.rebuildHooks m victim pos (Pending m victim pos allocIdx) := by
  constructor
  · intro current events pending
    exact ⟨pending.log, pending.index, pending.snapshots, pending.budget, pending.live, pending.evictions,
      pending.taken, pending.events⟩
  · intro current events consumer operandIdx place layout _ _ awaiting pending
    refine ⟨pending.log, pending.index, pending.snapshots, pending.budget, pending.live, pending.evictions,
      pending.taken, fun entry member => ?_⟩
    obtain ⟨after, inside, op, tensor, new, known, unscheduled⟩ := pending.events entry member
    refine ⟨after, inside, op, tensor, new, ?_, unscheduled⟩
    rw [awaiting.length layout]
    exact Nat.lt_succ_of_lt known
  · intro current events consumer operandIdx place layout firstAllocIdx lastAllocIdx sizePerCore _ _ awaiting bracket
      pending
    refine ⟨pending.log, pending.index, pending.snapshots, pending.budget, pending.live, pending.evictions,
      pending.taken, fun entry member => ?_⟩
    have grown : m.func.ops.length ≤ current.func.ops.length := Nat.le_of_lt awaiting.restored.restoration.grown
    have fresh : current.func.ops.length ∉ current.data.schedule := by
      intro scheduled
      exact Nat.lt_irrefl _ (awaiting.restored.timetable.known _ scheduled)
    obtain ⟨⟨firstNumber, isFirst⟩, lastNumber, isLast⟩ := allocBracket_indices _ _ _ _ bracket
    have firstIndexed : m.allocEventIndex (.result consumer firstNumber) = some firstAllocIdx := by
      rw [← pending.index]
      exact isFirst
    have lastIndexed : m.allocEventIndex (.result consumer lastNumber) = some lastAllocIdx := by
      rw [← pending.index]
      exact isLast
    -- the consumer was allocated after the victim it read
    have afterFirst := recorded.ordered _ _ _ _ _ firstIndexed awaiting.reader allocated
    have afterLast := recorded.ordered _ _ _ _ _ lastIndexed awaiting.reader allocated
    have firstInside := recorded.index_lt _ _ firstIndexed
    have lastInside := recorded.index_lt _ _ lastIndexed
    rw [awaiting.length layout]
    rcases List.mem_append.mp member with old | added
    · obtain ⟨after, inside, op, tensor, new, known, unscheduled⟩ := pending.events entry old
      exact ⟨after, inside, op, tensor, new, Nat.lt_succ_of_lt known, unscheduled⟩
    · simp only [bracketEvents, List.mem_cons, List.not_mem_nil, or_false] at added
      rcases added with dealloc | alloc
      · subst dealloc
        exact ⟨Nat.lt_succ_of_lt afterLast, lastInside, _, rfl, grown, Nat.lt_succ_self _, fresh⟩
      · subst alloc
        exact ⟨afterFirst, Nat.le_of_lt firstInside, _, rfl, grown, Nat.lt_succ_self _, fresh⟩
  · intro current events consumer operandIdx place layout ahead awaiting pending
    have behind : pos ≤ place := by
      rcases ahead with rewinds | behind
      · cases rewinds
      · exact behind
    obtain ⟨inside, _⟩ := List.getElem?_eq_some_iff.mp awaiting.located
    refine ⟨pending.log, pending.index, pending.snapshots, pending.budget, pending.live, pending.evictions, ?_,
      fun entry member => ?_⟩
    · exact (take_insertAt _ place pos _ behind (Nat.le_of_lt inside)).trans pending.taken
    · obtain ⟨after, within, op, tensor, new, known, unscheduled⟩ := pending.events entry member
      refine ⟨after, within, op, tensor, new, ?_, fun scheduled => ?_⟩
      · exact Nat.lt_of_lt_of_eq (Nat.lt_succ_of_lt known) (awaiting.length layout).symm
      · rcases List.mem_append.mp scheduled with front | back
        · exact unscheduled (List.mem_of_mem_take front)
        · rcases List.mem_cons.mp back with isReshard | rest
          · exact absurd isReshard (Nat.ne_of_lt known)
          · exact unscheduled (List.mem_of_mem_drop rest)

structure Inserted (before after : SumManager) (pos allocIdx : Nat) : Prop where
  recorded : Recorded after pos
  func : after.func = before.func
  data : after.data = before.data
  budget : after.memoryTracker.l1Budget = before.memoryTracker.l1Budget
  live : after.liveValues = before.liveValues
  evictions : after.evictions = before.evictions
  length : before.l1EventLog.length ≤ after.l1EventLog.length
  taken : after.l1EventLog.take allocIdx = before.l1EventLog.take allocIdx
  snapshots : ∀ idx ≤ allocIdx, after.addressSnapshots idx = before.addressSnapshots idx
  moved : ∀ value idx event, before.allocEventIndex value = some idx → before.l1EventLog[idx]? = some event →
    ∃ later, idx ≤ later ∧ (idx ≤ allocIdx → later = idx) ∧ after.allocEventIndex value = some later ∧
      after.l1EventLog[later]? = some event

theorem Inserted.refl {m : SumManager} {pos : Nat} (recorded : Recorded m pos) (allocIdx : Nat) :
    Inserted m m pos allocIdx := by
  refine ⟨recorded, rfl, rfl, rfl, rfl, rfl, Nat.le_refl _, rfl, fun _ _ => rfl, ?_⟩
  exact fun value idx event indexed found => ⟨idx, Nat.le_refl _, fun _ => rfl, indexed, found⟩

theorem Inserted.insert {before after : SumManager} {pos allocIdx : Nat} (inserted : Inserted before after pos allocIdx)
    (place : Nat) (event : L1Event) (behind : allocIdx < place) (inside : place ≤ before.l1EventLog.length)
    (transient : Transient after event.tensor) :
    Inserted before (after.insertEventIntoLog place event) pos allocIdx := by
  have within : place ≤ after.l1EventLog.length := Nat.le_trans inside inserted.length
  constructor
  · exact inserted.recorded.insertEvent place event within transient
  · exact inserted.func
  · exact inserted.data
  · exact inserted.budget
  · exact inserted.live
  · exact inserted.evictions
  · refine Nat.le_trans inserted.length ?_
    rw [show (after.insertEventIntoLog place event).l1EventLog.length = after.l1EventLog.length + 1 from
      length_insertAt _ _ _ within]
    exact Nat.le_succ _
  · exact (take_insertAt _ place allocIdx event (Nat.le_of_lt behind) within).trans inserted.taken
  · intro idx early
    refine Eq.trans ?_ (inserted.snapshots idx early)
    simp only [Manager.insertEventIntoLog]
    rw [if_pos (by omega)]
  · intro value idx found indexed present
    obtain ⟨later, notBefore, kept, index, there⟩ := inserted.moved value idx found indexed present
    have lookup (other : Nat) := getElem?_insertAt after.l1EventLog place other event within
    by_cases shifts : place ≤ later
    · refine ⟨later + 1, by omega, fun early => ?_, ?_, ?_⟩
      · have same := kept early
        omega
      · exact Option.map_eq_some_iff.mpr ⟨later, index, if_pos shifts⟩
      · refine (lookup (later + 1)).trans ?_
        rw [if_neg (by omega), if_neg (by omega)]
        exact there
    · refine ⟨later, notBefore, kept, ?_, ?_⟩
      · exact Option.map_eq_some_iff.mpr ⟨later, index, if_neg shifts⟩
      · refine (lookup later).trans ?_
        rw [if_pos (by omega)]
        exact there

theorem Inserted.inserts {before after : SumManager} {pos allocIdx : Nat} (events : List (Nat × L1Event))
    (inserted : Inserted before after pos allocIdx)
    (placed : ∀ entry ∈ events, allocIdx < entry.1 ∧ entry.1 ≤ before.l1EventLog.length ∧
      Transient before entry.2.tensor) :
    Inserted before (events.foldl (fun m insertion => m.insertEventIntoLog insertion.1 insertion.2) after) pos
      allocIdx := by
  induction events generalizing after with
  | nil => exact inserted
  | cons entry rest ih =>
      obtain ⟨behind, inside, op, number, isResult, unscheduled, known, config⟩ := placed entry List.mem_cons_self
      have transient : Transient after entry.2.tensor := by
        refine ⟨op, number, isResult, ?_, ?_, ?_⟩
        · rw [inserted.data]
          exact unscheduled
        · rw [inserted.func]
          exact known
        · rw [inserted.func]
          exact config
      exact ih (inserted.insert entry.1 entry.2 behind inside transient)
        fun other member => placed other (List.mem_cons_of_mem _ member)

structure Marked (log marked : List L1Event) (allocIdx : Nat) : Prop where
  same : SameEvents log marked
  taken : marked.take allocIdx = log.take allocIdx
  victim : ∀ event, marked[allocIdx]? = some event → event.skipped = true
  others : ∀ idx event, idx ≠ allocIdx → log[idx]? = some event → event.kind = .kAlloc → marked[idx]? = some event

def markedLog (log : List L1Event) (victim : Value) (allocIdx : Nat) : List L1Event :=
  let marked := Manager.skipEvent log allocIdx
  match Manager.deallocAfter marked victim allocIdx with
  | some idx => Manager.skipEvent marked idx
  | none => marked

theorem skipEvent_taken (log : List L1Event) (place limit : Nat) (behind : limit ≤ place) :
    (Manager.skipEvent log place).take limit = log.take limit := by
  apply List.ext_getElem?
  intro idx
  rw [List.getElem?_take, List.getElem?_take]
  split
  · rw [skipEvent_getElem?]
    cases log[idx]? with
    | none => rfl
    | some event => rw [Option.map_some, if_neg (by omega)]
  · rfl

theorem deallocAfter_behind (log : List L1Event) (tensor : Value) (allocIdx idx : Nat)
    (found : Manager.deallocAfter log tensor allocIdx = some idx) :
    allocIdx < idx ∧ ∃ event, log[idx]? = some event ∧ event.kind = .kDealloc := by
  have matched := List.find?_some found
  simp only [Bool.and_eq_true, decide_eq_true_eq, Option.any_eq_true] at matched
  obtain ⟨behind, event, present, _, kind⟩ := matched
  exact ⟨behind, event, present, kind⟩

theorem markedLog_marked (log : List L1Event) (victim : Value) (allocIdx : Nat) :
    Marked log (markedLog log victim allocIdx) allocIdx := by
  have first := skipEvent_sameEvents log allocIdx
  have skips (event : L1Event) (found : (Manager.skipEvent log allocIdx)[allocIdx]? = some event) :
      event.skipped = true := by
    rw [skipEvent_getElem?, Option.map_eq_some_iff] at found
    obtain ⟨old, _, same⟩ := found
    rw [if_pos rfl] at same
    rw [← same]
  have keeps (idx : Nat) (event : L1Event) (other : idx ≠ allocIdx) (found : log[idx]? = some event) :
      (Manager.skipEvent log allocIdx)[idx]? = some event := by
    rw [skipEvent_getElem?, found, Option.map_some, if_neg (Ne.symm other)]
  simp only [markedLog]
  cases dealloc : Manager.deallocAfter (Manager.skipEvent log allocIdx) victim allocIdx with
  | none =>
      exact ⟨first, skipEvent_taken log _ _ (Nat.le_refl _), skips,
        fun idx event other found _ => keeps idx event other found⟩
  | some place =>
      obtain ⟨behind, freed, present, kind⟩ := deallocAfter_behind _ _ _ _ dealloc
      constructor
      · exact first.trans (skipEvent_sameEvents _ place)
      · rw [skipEvent_taken _ _ _ (Nat.le_of_lt behind)]
        exact skipEvent_taken log _ _ (Nat.le_refl _)
      · intro event found
        rw [skipEvent_getElem?, Option.map_eq_some_iff] at found
        obtain ⟨old, was, same⟩ := found
        rw [if_neg (by omega)] at same
        exact same ▸ skips old was
      · intro idx event other found isAlloc
        have kept := keeps idx event other found
        have notFreed : place ≠ idx := by
          intro same
          subst same
          rw [present] at kept
          cases kept
          rw [kind] at isAlloc
          cases isAlloc
        rw [skipEvent_getElem?, kept, Option.map_some, if_neg notFreed]

def Logged (m : SumManager) (value : Value) (skipped : Bool) : Prop :=
  ∃ idx event, m.allocEventIndex value = some idx ∧ m.l1EventLog[idx]? = some event ∧ event.skipped = skipped

/-- Everything a step relies on and keeps. Below `campaignMin` every snapshot is still right. -/
structure Invariant (s : Simulation) : Prop where
  recorded : Recorded s.m s.pos
  live : ∀ value ∈ s.m.liveValues, Logged s.m value false
  evicted : ∀ value ∈ s.m.evictions, Logged s.m value true
  placed : s.placedAll = true →
    rebuilt s.m s.m.l1EventLog = some s.m.memoryTracker.addresses ∧ SnapshotsBelow s.m s.m.l1EventLog.length
  begun : ∀ least, s.campaignMin = some least → SnapshotRight s.m least ∧ SnapshotsBelow s.m least
  unbegun : s.campaignMin = none → s.placedAll = true
  candidates : ∀ value ∈ s.candidates, ∃ idx event, s.m.allocEventIndex value = some idx ∧
    s.m.l1EventLog[idx]? = some event ∧
    (event.skipped = false ∨ ∃ least, s.campaignMin = some least ∧ least ≤ idx)

def rebuildStart (campaignMin : Option Nat) (allocIdx : Nat) : Nat :=
  match campaignMin with
  | some least => min least allocIdx
  | none => allocIdx

/-- A rebuild starts from a right snapshot: that of the victim, or the one of
the campaign when that is earlier. -/
theorem Invariant.rebuilds_from {s : Simulation} (invariant : Invariant s) (victim : Value)
    (candidate : victim ∈ s.candidates) (allocIdx : Nat) (allocated : s.m.allocEventIndex victim = some allocIdx) :
    let start := rebuildStart s.campaignMin allocIdx
    start ≤ allocIdx ∧ SnapshotRight s.m start ∧ SnapshotsBelow s.m start := by
  obtain ⟨idx, event, indexed, found, state⟩ := invariant.candidates victim candidate
  rw [allocated] at indexed
  cases indexed
  have below (limit : Nat) (lower : Nat) (right : SnapshotsBelow s.m limit) (within : lower ≤ limit) :
      SnapshotsBelow s.m lower := fun idx event inside => right idx event (Nat.lt_of_lt_of_le inside within)
  obtain ⟨alloc, present, kind, _⟩ := invariant.recorded.indexed victim allocIdx allocated
  rw [found] at present
  cases present
  cases began : s.campaignMin with
  | none =>
      obtain ⟨_, right⟩ := invariant.placed (invariant.unbegun began)
      have inside := (List.getElem?_eq_some_iff.mp found).1
      have counting : event.skipped = false := by
        rcases state with counting | ⟨least, same, _⟩
        · exact counting
        · rw [began] at same
          cases same
      refine ⟨Nat.le_refl _, right allocIdx event inside found ?_, below _ _ right (Nat.le_of_lt inside)⟩
      simp only [renewsSnapshot, counting, kind, and_self, decide_true]
  | some least =>
      obtain ⟨rightLeast, right⟩ := invariant.begun least began
      simp only [rebuildStart]
      by_cases earlier : allocIdx < least
      · have counting : event.skipped = false := by
          rcases state with counting | ⟨other, same, behind⟩
          · exact counting
          · rw [began] at same
            cases same
            omega
        rw [Nat.min_eq_right (Nat.le_of_lt earlier)]
        refine ⟨Nat.le_refl _, right allocIdx event earlier found ?_, below _ _ right (Nat.le_of_lt earlier)⟩
        simp only [renewsSnapshot, counting, kind, and_self, decide_true]
      · rw [Nat.min_eq_left (Nat.le_of_not_lt earlier)]
        exact ⟨Nat.le_of_not_lt earlier, rightLeast, right⟩

section Steps
variable (setting : Setting)

def beforeRebuild (m : SumManager) (victim : Value) (pos : Nat) (skipReshardConsumer : Option OpId) : SumManager :=
  let spilled := m.spillValue setting AddressSim.rebuildHooks victim pos skipReshardConsumer
  (setting.insertionOrder.sort insertsLater spilled.2).foldl
    (fun m insertion => m.insertEventIntoLog insertion.1 insertion.2) spilled.1

theorem beforeRebuild_inserted (m : SumManager) (pos : Nat) (recorded : Recorded m pos) (victim : Value)
    (skipReshardConsumer : Option OpId) (allocIdx : Nat) (allocated : m.allocEventIndex victim = some allocIdx) :
    ∃ spilled : SumManager, Pending m victim pos allocIdx spilled [] ∧ Evicted m victim spilled ∧
      Inserted spilled (beforeRebuild setting m victim pos skipReshardConsumer) pos allocIdx := by
  have started : Pending m victim pos allocIdx (m.afterSpill AddressSim.rebuildHooks victim) [] := by
    have unlisted : ∀ entry ∈ ([] : List (Nat × L1Event)), allocIdx < entry.1 ∧ entry.1 ≤ m.l1EventLog.length ∧
        ∃ op, entry.2.tensor = .result op 0 ∧ m.func.ops.length ≤ op ∧
          op < (m.afterSpill AddressSim.rebuildHooks victim).func.ops.length ∧
          op ∉ (m.afterSpill AddressSim.rebuildHooks victim).data.schedule := fun entry member => by cases member
    simp only [Manager.afterSpill] at unlisted ⊢
    split at unlisted <;> exact ⟨rfl, rfl, rfl, rfl, rfl, rfl, rfl, unlisted⟩
  obtain ⟨pending, evicted⟩ := spillValue_rule setting (Pending.rule recorded victim allocIdx allocated)
    recorded.timetable skipReshardConsumer started
  generalize same : m.spillValue setting AddressSim.rebuildHooks victim pos skipReshardConsumer =
    spilled at pending evicted
  obtain ⟨next, events⟩ := spilled
  simp only at pending evicted
  have kept : Recorded next pos := by
    refine recorded.rewritten next evicted.rewrites evicted.timetable pending.taken ?_ pending.index ?_
    · exact fun op member => (evicted.scheduled op member).imp id Nat.le_of_lt
    · rw [pending.log]
      exact fun idx => rfl
  refine ⟨next, ⟨pending.log, pending.index, pending.snapshots, pending.budget, pending.live, pending.evictions,
    pending.taken, fun entry member => by cases member⟩, evicted, ?_⟩
  simp only [beforeRebuild, same]
  refine Inserted.inserts _ (Inserted.refl kept allocIdx) fun entry member => ?_
  have listed := (setting.insertionOrder.sort_perm insertsLater events).mem_iff.mp member
  obtain ⟨behind, inside, op, isResult, new, known, unscheduled⟩ := pending.events entry listed
  refine ⟨behind, ?_, op, 0, isResult, unscheduled, known, evicted.rewrites.added op new known⟩
  rw [pending.log]
  exact inside

def afterRebuild (m : SumManager) (victim : Value) (allocIdx start : Nat) (snapshot : AddressState) : SumManager × Bool :=
  let log := markedLog m.l1EventLog victim allocIdx
  let rebuild := EventLog.rebuild (AddressSim.replayEvent m.func m.memoryTracker.l1Budget) renewsSnapshot (log.drop start)
    start snapshot m.addressSnapshots
  ({ m with
      l1EventLog := log
      memoryTracker := { m.memoryTracker with addresses := rebuild.1 }
      addressSnapshots := rebuild.2.1 }, rebuild.2.2)

theorem evictValue_eq (m : SumManager) (victim : Value) (pos : Nat) (campaignMin skipReshardConsumer : Option Nat)
    (allocIdx : Nat)
    (allocated : (beforeRebuild setting m victim pos skipReshardConsumer).allocEventIndex victim = some allocIdx) :
    m.evictValue setting AddressSim.rebuildHooks victim pos campaignMin skipReshardConsumer =
      let start := rebuildStart campaignMin allocIdx
      let prepared := beforeRebuild setting m victim pos skipReshardConsumer
      match prepared.addressSnapshots start with
      | none => .error .assertion
      | some snapshot =>
          let rebuild := afterRebuild prepared victim allocIdx start snapshot
          .ok (rebuild.1, some start, rebuild.2) := by
  have marks : m.evictValue setting AddressSim.rebuildHooks victim pos campaignMin skipReshardConsumer =
      Manager.markEvictedAndRebuild AddressSim.rebuildHooks (beforeRebuild setting m victim pos skipReshardConsumer)
        victim campaignMin := rfl
  rw [marks]
  generalize beforeRebuild setting m victim pos skipReshardConsumer = prepared at allocated
  have rebuilds (start : Nat) :
      AddressSim.replayFrom { prepared with l1EventLog := markedLog prepared.l1EventLog victim allocIdx } start =
        (prepared.addressSnapshots start).elim (.error .assertion)
          fun snapshot => .ok (afterRebuild prepared victim allocIdx start snapshot) := by
    simp only [AddressSim.replayFrom]
    cases prepared.addressSnapshots start with
    | none => rfl
    | some snapshot =>
        simp only [replayEvents_eq]
        rfl
  have unfolds : Manager.markEvictedAndRebuild AddressSim.rebuildHooks prepared victim campaignMin = (do
      let placed ← AddressSim.replayFrom
        { prepared with l1EventLog := markedLog prepared.l1EventLog victim allocIdx }
          (rebuildStart campaignMin allocIdx)
      .ok (placed.1, some (rebuildStart campaignMin allocIdx), placed.2)) := by
    simp only [Manager.markEvictedAndRebuild, allocated]
    rfl
  rw [unfolds, rebuilds]
  simp only
  cases prepared.addressSnapshots (rebuildStart campaignMin allocIdx) <;> rfl

theorem evict_invariant (s : Simulation) (invariant : Invariant s) (victim : Value) (candidate : victim ∈ s.candidates)
    (skipReshardConsumer : Option OpId) (m : SumManager) (campaignMin : Option Nat) (placedAll : Bool)
    (evicts : s.m.evictValue setting AddressSim.rebuildHooks victim s.pos s.campaignMin skipReshardConsumer =
      .ok (m, campaignMin, placedAll)) : Invariant { s with m, campaignMin, placedAll } := by
  obtain ⟨allocIdx, _, allocated, _⟩ := invariant.candidates victim candidate
  obtain ⟨spilled, pending, evicted, inserted⟩ :=
    beforeRebuild_inserted setting s.m s.pos invariant.recorded victim skipReshardConsumer allocIdx allocated
  obtain ⟨notBehind, right, rightBelow⟩ := invariant.rebuilds_from victim candidate allocIdx allocated
  generalize isStart : rebuildStart s.campaignMin allocIdx = start at notBehind right rightBelow
  generalize isPrepared : beforeRebuild setting s.m victim s.pos skipReshardConsumer = prepared at inserted
  have moves (value : Value) (idx : Nat) (event : L1Event) (indexed : s.m.allocEventIndex value = some idx)
      (found : s.m.l1EventLog[idx]? = some event) : ∃ later, idx ≤ later ∧ (idx ≤ allocIdx → later = idx) ∧
        prepared.allocEventIndex value = some later ∧ prepared.l1EventLog[later]? = some event :=
    inserted.moved value idx event (by rw [pending.index]; exact indexed) (by rw [pending.log]; exact found)
  have stillAllocated : prepared.allocEventIndex victim = some allocIdx := by
    obtain ⟨event, found, _⟩ := invariant.recorded.indexed victim allocIdx allocated
    obtain ⟨later, _, same, indexed, _⟩ := moves victim allocIdx event allocated found
    rw [same (Nat.le_refl _)] at indexed
    exact indexed
  rw [evictValue_eq setting s.m victim s.pos s.campaignMin skipReshardConsumer allocIdx
    (by rw [isPrepared]; exact stillAllocated)] at evicts
  simp only [isStart, isPrepared] at evicts
  have marked := markedLog_marked prepared.l1EventLog victim allocIdx
  obtain ⟨state, snapshot, replayed⟩ := right
  have preparedSnapshot : prepared.addressSnapshots start = some state := by
    rw [inserted.snapshots start notBehind, pending.snapshots]
    exact snapshot
  rw [preparedSnapshot] at evicts
  cases evicts
  have budget : prepared.memoryTracker.l1Budget = s.m.memoryTracker.l1Budget := inserted.budget.trans pending.budget
  have aliases : SameAliases s.m prepared.func allocIdx := by
    rw [inserted.func]
    exact invariant.recorded.evicted victim evicted allocIdx allocated
  have sameLog (idx : Nat) (early : idx ≤ allocIdx) :
      (markedLog prepared.l1EventLog victim allocIdx).take idx = s.m.l1EventLog.take idx := by
    rw [← Nat.min_eq_left early, ← List.take_take, marked.taken, inserted.taken, pending.log, List.take_take]
  have kept (idx : Nat) (early : idx ≤ start) (wasRight : SnapshotRight s.m idx) :
      SnapshotRight (afterRebuild prepared victim allocIdx start state).1 idx := by
    refine wasRight.kept budget (sameLog idx (Nat.le_trans early notBehind)) ?_
      (aliases.mono (Nat.le_trans early notBehind))
    rcases Nat.eq_or_lt_of_le early with same | before
    · rw [same, snapshot]
      exact EventLog.rebuild_start _ _ _ _ _ _ preparedSnapshot
    · refine (EventLog.rebuild_before _ _ _ _ _ _ idx before).trans ?_
      rw [inserted.snapshots idx (Nat.le_trans early notBehind), pending.snapshots]
  have startRight := kept start (Nat.le_refl _) ⟨state, snapshot, replayed⟩
  have keptBelow : SnapshotsBelow (afterRebuild prepared victim allocIdx start state).1 start := by
    intro idx event before found renews
    refine kept idx (Nat.le_of_lt before) (rightBelow idx event before ?_ renews)
    have prefixes := congrArg (fun log => log[idx]?) (sameLog start notBehind)
    simp only [List.getElem?_take, if_pos before] at prefixes
    exact prefixes.symm.trans found
  -- what became of the alloc event of a value
  have event (value : Value) (idx : Nat) (event : L1Event) (indexed : s.m.allocEventIndex value = some idx)
      (found : s.m.l1EventLog[idx]? = some event) : ∃ later now, idx ≤ later ∧
        prepared.allocEventIndex value = some later ∧
        (markedLog prepared.l1EventLog victim allocIdx)[later]? = some now ∧
        (value ≠ victim → now.skipped = event.skipped) ∧
        (value = victim → later = allocIdx ∧ now.skipped = true) := by
    obtain ⟨later, behind, _, index, there⟩ := moves value idx event indexed found
    obtain ⟨alloc, present, kind, tensor⟩ := inserted.recorded.indexed value later index
    rw [there] at present
    cases present
    by_cases same : value = victim
    · rw [same, stillAllocated] at index
      cases index
      obtain ⟨now, isNow, _, _⟩ := marked.same.found _ _ there
      exact ⟨_, now, behind, by rw [same]; exact stillAllocated, isNow, fun other => absurd same other,
        fun _ => ⟨rfl, marked.victim now isNow⟩⟩
    · have other : later ≠ allocIdx := by
        intro equal
        subst equal
        obtain ⟨alloc, present, _, isVictim⟩ := inserted.recorded.indexed victim later stillAllocated
        rw [there] at present
        cases present
        exact same (tensor.symm.trans isVictim)
      exact ⟨later, _, behind, index, marked.others later _ other there kind, fun _ => rfl,
        fun equal => absurd equal same⟩
  constructor
  · refine inserted.recorded.rewritten _ (Func.Rewrites.refl _) inserted.recorded.timetable rfl
      (fun op member => Or.inl member) rfl marked.same
  · intro value member
    have live : value ∈ eraseValue s.m.liveValues victim := by
      rw [← pending.live, ← inserted.live]
      exact member
    obtain ⟨wasLive, other⟩ := List.mem_filter.mp live
    obtain ⟨idx, was, indexed, found, counting⟩ := invariant.live value wasLive
    obtain ⟨later, now, _, index, there, same, _⟩ := event value idx was indexed found
    exact ⟨later, now, index, there, (same (of_decide_eq_true other)).trans counting⟩
  · intro value member
    have evictedValue : value ∈ victim :: s.m.evictions := by
      rw [← pending.evictions, ← inserted.evictions]
      exact member
    by_cases same : value = victim
    · obtain ⟨idx, was, indexed, found, _⟩ := invariant.candidates victim candidate
      rw [same]
      obtain ⟨later, now, _, index, there, _, skips⟩ := event victim idx was indexed found
      exact ⟨later, now, index, there, (skips rfl).2⟩
    · have before := (List.mem_cons.mp evictedValue).resolve_left same
      obtain ⟨idx, was, indexed, found, skipped⟩ := invariant.evicted value before
      obtain ⟨later, now, _, index, there, keeps, _⟩ := event value idx was indexed found
      exact ⟨later, now, index, there, (keeps same).trans skipped⟩
  · intro complete
    obtain ⟨startState, startSnapshot, startReplayed⟩ := startRight
    have isState : startState = state := by
      have same := EventLog.rebuild_start (AddressSim.replayEvent prepared.func prepared.memoryTracker.l1Budget)
        renewsSnapshot ((markedLog prepared.l1EventLog victim allocIdx).drop start) start state
        prepared.addressSnapshots preparedSnapshot
      exact Option.some.inj (startSnapshot.symm.trans same)
    subst isState
    obtain ⟨whole, renewed⟩ := EventLog.rebuild_complete _ renewsSnapshot _ startState _ start _ startReplayed complete
    constructor
    · rw [rebuilt_eq]
      exact whole
    · intro idx event inside found renews
      by_cases before : idx < start
      · exact keptBelow idx event before found renews
      · exact renewed idx event (Nat.le_of_not_lt before) found renews
  · intro least same
    cases same
    exact ⟨startRight, keptBelow⟩
  · intro same
    cases same
  · intro value member
    obtain ⟨idx, was, indexed, found, state⟩ := invariant.candidates value member
    obtain ⟨later, now, behind, index, there, keeps, skips⟩ := event value idx was indexed found
    refine ⟨later, now, index, there, ?_⟩
    by_cases same : value = victim
    · exact Or.inr ⟨start, rfl, (skips same).1 ▸ notBehind⟩
    · rcases state with counting | ⟨least, began, behindLeast⟩
      · exact Or.inl ((keeps same).trans counting)
      · refine Or.inr ⟨start, rfl, ?_⟩
        have lower : start ≤ least := by
          rw [← isStart, began]
          exact Nat.min_le_left _ _
        omega

theorem appended (m next : SumManager) (event : L1Event) (func : next.func = m.func)
    (budget : next.memoryTracker.l1Budget = m.memoryTracker.l1Budget)
    (log : next.l1EventLog = m.l1EventLog ++ [event])
    (older : ∀ idx < m.l1EventLog.length, next.addressSnapshots idx = m.addressSnapshots idx)
    (newest : renewsSnapshot event = true →
      next.addressSnapshots m.l1EventLog.length = some m.memoryTracker.addresses)
    (replays : rebuilt m m.l1EventLog = some m.memoryTracker.addresses)
    (applies : AddressSim.replayEvent m.func m.memoryTracker.l1Budget event m.memoryTracker.addresses =
      some next.memoryTracker.addresses)
    (right : SnapshotsBelow m m.l1EventLog.length) :
    rebuilt next next.l1EventLog = some next.memoryTracker.addresses ∧
      SnapshotsBelow next next.l1EventLog.length := by
  rw [rebuilt_eq] at replays ⊢
  have prefixed (idx : Nat) (inside : idx ≤ m.l1EventLog.length) :
      next.l1EventLog.take idx = m.l1EventLog.take idx := by
    rw [log, List.take_append_of_le_length inside]
  constructor
  · rw [log, func, budget, EventLog.replay_append, replays, Option.bind_some, EventLog.replay_singleton]
    exact applies
  · intro idx found inside present renews
    rw [log, List.length_append, List.length_singleton] at inside
    rcases Nat.eq_or_lt_of_le (Nat.le_of_lt_succ inside) with last | before
    · subst last
      rw [log, List.getElem?_append_right (Nat.le_refl _), Nat.sub_self] at present
      cases present
      refine ⟨m.memoryTracker.addresses, newest renews, ?_⟩
      rw [prefixed _ (Nat.le_refl _), List.take_length, func, budget]
      exact replays
    · rw [log, List.getElem?_append_left before] at present
      refine (right idx found before present renews).kept budget (prefixed idx (Nat.le_of_lt before))
        (older idx before) ?_
      rw [func]
      exact fun _ _ _ _ _ => rfl

structure Settled (m : SumManager) (pos : Nat) : Prop where
  recorded : Recorded m pos
  live : ∀ value ∈ m.liveValues, Logged m value false
  evicted : ∀ value ∈ m.evictions, Logged m value true
  replays : rebuilt m m.l1EventLog = some m.memoryTracker.addresses
  snapshots : SnapshotsBelow m m.l1EventLog.length

theorem Invariant.settled {s : Simulation} (invariant : Invariant s) (placed : s.placedAll = true) :
    Settled s.m s.pos := by
  obtain ⟨replays, snapshots⟩ := invariant.placed placed
  exact ⟨invariant.recorded, invariant.live, invariant.evicted, replays, snapshots⟩

theorem Settled.invariant {m : SumManager} {pos : Nat} (settled : Settled m pos) : Invariant { m, pos } := by
  constructor
  · exact settled.recorded
  · exact settled.live
  · exact settled.evicted
  · exact fun _ => ⟨settled.replays, settled.snapshots⟩
  · intro least began
    cases began
  · exact fun _ => rfl
  · intro value member
    cases member

theorem Settled.die {m : SumManager} {pos : Nat} (settled : Settled m pos) (value : Value) :
    Settled (m.freeDead value) pos := by
  by_cases isLive : value ∈ m.liveValues
  · have freed : m.freeDead value =
        { m with
          liveValues := eraseValue m.liveValues value
          l1EventLog := m.l1EventLog ++ [{ kind := .kDealloc, tensor := value }]
          memoryTracker := m.memoryTracker.removeTensor value } := if_pos isLive
    have logged (other : Value) (skipped : Bool) (was : Logged m other skipped) :
        Logged (m.freeDead value) other skipped := by
      obtain ⟨idx, event, indexed, found, same⟩ := was
      rw [freed]
      refine ⟨idx, event, indexed, ?_, same⟩
      rw [List.getElem?_append_left (List.getElem?_eq_some_iff.mp found).1]
      exact found
    have rebuilds := appended m (m.freeDead value) { kind := .kDealloc, tensor := value } (by rw [freed])
      (by rw [freed]; rfl) (by rw [freed]) (fun _ _ => by rw [freed]) (fun renews => by cases renews)
      settled.replays (by rw [freed]; rfl) settled.snapshots
    constructor
    · rw [freed]
      constructor
      · exact settled.recorded.timetable
      · intro other idx indexed
        obtain ⟨event, found, fields⟩ := settled.recorded.indexed other idx indexed
        refine ⟨event, ?_, fields⟩
        rw [List.getElem?_append_left (List.getElem?_eq_some_iff.mp found).1]
        exact found
      · exact settled.recorded.committed
      · exact settled.recorded.ordered
      · intro idx event found isAlloc
        by_cases inside : idx < m.l1EventLog.length
        · rw [List.getElem?_append_left inside] at found
          exact settled.recorded.allocs idx event found isAlloc
        · rw [List.getElem?_append_right (Nat.le_of_not_lt inside)] at found
          have isDealloc := List.mem_singleton.mp (List.mem_of_getElem? found)
          rw [isDealloc] at isAlloc
          cases isAlloc
    · intro other member
      have live : other ∈ eraseValue m.liveValues value := by
        rw [freed] at member
        exact member
      exact logged other false (settled.live other (List.mem_of_mem_filter live))
    · intro other member
      rw [freed] at member
      exact logged other true (settled.evicted other member)
    · exact rebuilds.1
    · exact rebuilds.2
  · rw [show m.freeDead value = m from if_neg isLive]
    exact settled

theorem placeResult_replays (m : SumManager) (value : Value) (perResultL1 : Nat) (tracker : SumL1MemoryTracker)
    (placed : AddressSim.placeResult m value perResultL1 = some tracker) :
    tracker.l1Budget = m.memoryTracker.l1Budget ∧
    AddressSim.replayEvent m.func m.memoryTracker.l1Budget
      { kind := .kAlloc, tensor := value, sizePerCore := perResultL1 } m.memoryTracker.addresses =
      some tracker.addresses := by
  simp only [AddressSim.placeResult, AddressSim.aliasedSource, AddressSim.replayEvent] at placed ⊢
  cases source : (m.func.aliasSource value).filter m.memoryTracker.addresses.hasTensorAddress with
  | some src =>
      simp only [source] at placed ⊢
      cases placed
      exact ⟨rfl, rfl⟩
  | none =>
      simp only [source, SumL1MemoryTracker.addTensor, Option.map_eq_some_iff] at placed ⊢
      obtain ⟨addresses, allocated, same⟩ := placed
      cases same
      exact ⟨rfl, allocated⟩

theorem Settled.commit {m next : SumManager} {pos : Nat} (settled : Settled m (pos + 1)) (op number : Nat)
    (current : m.data.schedule[pos]? = some op) (fresh : m.allocEventIndex (.result op number) = none)
    (perResultL1 : Nat) (commits : AddressSim.commitAllocation m (.result op number) perResultL1 = .ok next) :
    Settled next (pos + 1) ∧ next.data = m.data ∧
      next.allocEventIndex = Function.update m.allocEventIndex (.result op number) (some m.l1EventLog.length) := by
  cases placed : AddressSim.placeResult m (.result op number) perResultL1 with
  | none =>
      simp only [AddressSim.commitAllocation, placed] at commits
      cases commits
  | some tracker =>
      simp only [AddressSim.commitAllocation, placed] at commits
      cases commits
      obtain ⟨budget, applies⟩ := placeResult_replays m _ perResultL1 tracker placed
      have rebuilds := appended m (AddressSim.recordCommit m (.result op number) perResultL1 tracker)
        { kind := .kAlloc, tensor := .result op number, sizePerCore := perResultL1 } rfl budget rfl
        (fun idx before => Function.update_of_ne (by omega) _ _) (fun _ => Function.update_self _ _ _)
        settled.replays applies settled.snapshots
      have kept (idx : Nat) (event : L1Event) (found : m.l1EventLog[idx]? = some event) :
          (AddressSim.recordCommit m (.result op number) perResultL1 tracker).l1EventLog[idx]? = some event := by
        simp only [AddressSim.recordCommit]
        rw [List.getElem?_append_left (List.getElem?_eq_some_iff.mp found).1]
        exact found
      -- a recorded value is another one: this result is fresh
      have other (value : Value) (idx : Nat) (indexed : m.allocEventIndex value = some idx) :
          value ≠ .result op number := by
        intro same
        rw [same, fresh] at indexed
        cases indexed
      have logged (value : Value) (skipped : Bool) (was : Logged m value skipped) :
          Logged (AddressSim.recordCommit m (.result op number) perResultL1 tracker) value skipped := by
        obtain ⟨idx, event, indexed, found, same⟩ := was
        refine ⟨idx, event, ?_, kept idx event found, same⟩
        exact (Function.update_of_ne (other value idx indexed) _ _).trans indexed
      have newest : (AddressSim.recordCommit m
          (.result op number) perResultL1 tracker).l1EventLog[m.l1EventLog.length]? =
          some { kind := .kAlloc, tensor := .result op number, sizePerCore := perResultL1 } := by
        simp only [AddressSim.recordCommit]
        rw [List.getElem?_append_right (Nat.le_refl _), Nat.sub_self]
        rfl
      have taken : op ∈ m.data.schedule.take (pos + 1) := by
        refine List.mem_iff_getElem?.mpr ⟨pos, ?_⟩
        rw [List.getElem?_take, if_pos (Nat.lt_succ_self pos)]
        exact current
      -- the old events keep their indices, the new one stands at the end of the log
      refine ⟨⟨?_, ?_, ?_, rebuilds.1, rebuilds.2⟩, rfl, rfl⟩
      · constructor
        · exact settled.recorded.timetable
        · intro value idx indexed
          by_cases same : value = .result op number
          · subst same
            cases (Function.update_self _ _ _).symm.trans indexed
            exact ⟨_, newest, rfl, rfl⟩
          · obtain ⟨event, found, fields⟩ := settled.recorded.indexed value idx
              ((Function.update_of_ne same _ _).symm.trans indexed)
            exact ⟨event, kept idx event found, fields⟩
        · intro value idx indexed
          by_cases same : value = .result op number
          · exact ⟨op, number, same, taken⟩
          · exact settled.recorded.committed value idx ((Function.update_of_ne same _ _).symm.trans indexed)
        · intro reader place idx value older indexed reads foundOther
          have readerTaken : reader ∈ m.data.schedule.take (pos + 1) := by
            by_cases same : Value.result reader place = .result op number
            · cases same
              exact taken
            · obtain ⟨committed, _, isResult, isTaken⟩ := settled.recorded.committed _ idx
                ((Function.update_of_ne same _ _).symm.trans indexed)
              cases isResult
              exact isTaken
          by_cases new : value = .result op number
          · -- nothing committed so far reads the op
            subst new
            obtain ⟨late, found⟩ := List.mem_iff_getElem?.mp readerTaken
            rw [List.getElem?_take] at found
            split at found
            · have before := settled.recorded.timetable.reads_before reader op late pos found current ⟨number, reads⟩
              omega
            · cases found
          · have oldIndexed := (Function.update_of_ne new _ _).symm.trans foundOther
            have inside := settled.recorded.index_lt value older oldIndexed
            by_cases same : Value.result reader place = .result op number
            · rw [same] at indexed
              cases (Function.update_self _ _ _).symm.trans indexed
              exact inside
            · exact settled.recorded.ordered reader place idx value older
                ((Function.update_of_ne same _ _).symm.trans indexed) reads oldIndexed
        · intro idx event found isAlloc
          by_cases inside : idx < m.l1EventLog.length
          · simp only [AddressSim.recordCommit] at found
            rw [List.getElem?_append_left inside] at found
            have old := settled.recorded.allocs idx event found isAlloc
            -- an older transient event of this result would be unscheduled, but the op is at `pos`
            have notNew : event.tensor ≠ .result op number := by
              intro same
              rw [same] at old
              rcases old with indexed | ⟨transient, _, isResult, unscheduled, _⟩
              · rw [fresh] at indexed
                cases indexed
              · cases isResult
                exact unscheduled (List.mem_of_getElem? current)
            rcases old with indexed | transient
            · exact Or.inl ((Function.update_of_ne notNew _ _).trans indexed)
            · exact Or.inr transient
          · simp only [AddressSim.recordCommit] at found
            rw [List.getElem?_append_right (Nat.le_of_not_lt inside)] at found
            have last : idx = m.l1EventLog.length := by
              have bound := (List.getElem?_eq_some_iff.mp found).1
              rw [List.length_singleton] at bound
              omega
            have isNew := List.mem_singleton.mp (List.mem_of_getElem? found)
            rw [isNew, last]
            exact Or.inl (Function.update_self _ _ _)
      · intro value member
        rcases List.mem_insert_iff.mp member with new | old
        · rw [new]
          exact ⟨_, _, Function.update_self _ _ _, newest, rfl⟩
        · exact logged value false (settled.live value old)
      · exact fun value member => logged value true (settled.evicted value member)

theorem Settled.place {m next : SumManager} {pos : Nat} (settled : Settled m pos) (op totalL1 : Nat)
    (current : m.data.schedule[pos]? = some op)
    (places : Sweep.addResultsToLiveSet (AddressSim.hooks setting) m op totalL1 = .ok next) :
    Settled next (pos + 1) := by
  have loop (numbers : List Nat) (distinct : numbers.Nodup) (perResultL1 : Nat) (state : SumManager)
      (before : Settled state (pos + 1)) (located : state.data.schedule[pos]? = some op)
      (fresh : ∀ number ∈ numbers, state.allocEventIndex (.result op number) = none)
      (commits : (numbers.map (Value.result op)).foldlM
        (fun m result => AddressSim.commitAllocation m result perResultL1) state = .ok next) :
      Settled next (pos + 1) := by
    induction numbers generalizing state with
    | nil =>
        cases commits
        exact before
    | cons number rest ih =>
        rw [List.map_cons, List.foldlM_cons] at commits
        cases first : AddressSim.commitAllocation state (.result op number) perResultL1 with
        | error failure =>
            rw [first] at commits
            cases commits
        | ok middle =>
            rw [first] at commits
            have parts := List.nodup_cons.mp distinct
            obtain ⟨after, sameData, index⟩ := before.commit op number located (fresh number List.mem_cons_self)
              perResultL1 first
            refine ih parts.2 middle after (by rw [sameData]; exact located) (fun other member => ?_) commits
            rw [index, Function.update_of_ne]
            · exact fresh other (List.mem_cons_of_mem _ member)
            · intro same
              cases same
              exact parts.1 member
  have advanced : Settled m (pos + 1) :=
    ⟨settled.recorded.advance, settled.live, settled.evicted, settled.replays, settled.snapshots⟩
  refine loop (m.func.getOp op).tensorResults (List.nodup_range.filter _) _ m advanced current ?_ places
  -- an op at the current position was not committed before
  intro number _
  cases indexed : m.allocEventIndex (.result op number) with
  | none => rfl
  | some idx =>
      obtain ⟨committed, _, isResult, taken⟩ := settled.recorded.committed _ idx indexed
      cases isResult
      obtain ⟨early, found⟩ := List.mem_iff_getElem?.mp taken
      rw [List.getElem?_take] at found
      split at found
      · have same := settled.recorded.timetable.position_unique op early pos found current
        omega
      · cases found

theorem Settled.flush {m next : SumManager} {pos : Nat} (settled : Settled m pos)
    (flushed : Flushed (fun tracker => tracker = .init setting.l1BudgetPerCore) m next) : Settled next pos := by
  have same : SameEvents m.l1EventLog next.l1EventLog := by
    intro idx
    rw [flushed.log, List.getElem?_map, Option.map_map]
    rfl
  have skipped (event : L1Event) (member : event ∈ next.l1EventLog) : event.skipped = true := by
    rw [flushed.log] at member
    obtain ⟨old, _, isSkipped⟩ := List.mem_map.mp member
    rw [← isSkipped]
  constructor
  · refine settled.recorded.rewritten next flushed.rewrites ?_ (by rw [flushed.data]) ?_ flushed.index same
    · rw [flushed.data]
      exact settled.recorded.timetable.rewritten flushed.rewrites
    · rw [flushed.data]
      exact fun op member => Or.inl member
  · intro value member
    rw [flushed.live] at member
    cases member
  · intro value member
    rw [flushed.evictions] at member
    obtain ⟨idx, event, indexed, found, _⟩ := settled.evicted value member
    obtain ⟨later, there, _, _⟩ := same.found idx event found
    exact ⟨idx, later, by rw [flushed.index]; exact indexed, there, skipped later (List.mem_of_getElem? there)⟩
  · rw [rebuilt_eq, flushed.tracker]
    refine EventLog.replay_idle _ _ _ fun event member state => ?_
    exact replayEvent_skipped _ _ event (skipped event member) state
  · intro idx event _ found renews
    rw [renewsSnapshot, skipped event (List.mem_of_getElem? found)] at renews
    cases renews

theorem reconfigure_invariant (s : Simulation) (invariant : Invariant s) (op : OpId) (func : Func)
    (ahead : op ∈ s.m.data.schedule.drop s.pos) (reconfigures : Reconfigures op s.m.func func) :
    Invariant { s with m := { s.m with func } } := by
  obtain ⟨rewrites, _⟩ := reconfigures.frame
  have aliases := invariant.recorded.reconfigured op func ahead reconfigures
  have kept (idx : Nat) (right : SnapshotRight s.m idx) : SnapshotRight { s.m with func } idx :=
    right.kept rfl rfl rfl (aliases idx)
  constructor
  · exact invariant.recorded.rewritten _ rewrites (invariant.recorded.timetable.rewritten rewrites) rfl
      (fun op member => Or.inl member) rfl fun idx => rfl
  · exact invariant.live
  · exact invariant.evicted
  · intro placed
    obtain ⟨replays, right⟩ := invariant.placed placed
    refine ⟨?_, fun idx event inside found renews => kept idx (right idx event inside found renews)⟩
    rw [rebuilt_eq] at replays ⊢
    rw [← replays]
    refine EventLog.replay_congr _ _ _ _ fun event member state => ?_
    exact (aliases s.m.l1EventLog.length).replayEvent event (by rw [List.take_length]; exact member) _ state
  · intro least began
    obtain ⟨right, below⟩ := invariant.begun least began
    exact ⟨kept least right, fun idx event inside found renews => kept idx (below idx event inside found renews)⟩
  · exact invariant.unbegun
  · exact invariant.candidates

theorem step_invariant (s next : Simulation) (invariant : Invariant s) (step : Simulation.Step setting s next) :
    Invariant next := by
  cases step with
  | note liveValues liveSet asked compilationFailed fewer =>
      exact ⟨⟨invariant.recorded.timetable, invariant.recorded.indexed, invariant.recorded.committed,
        invariant.recorded.ordered, invariant.recorded.allocs⟩,
        fun value member => invariant.live value (fewer value member), invariant.evicted, invariant.placed,
        invariant.begun, invariant.unbegun, invariant.candidates⟩
  | pass =>
      exact ⟨invariant.recorded.advance, invariant.live, invariant.evicted, invariant.placed, invariant.begun,
        invariant.unbegun, invariant.candidates⟩
  | place op totalL1 m placed current places =>
      exact ((invariant.settled placed).place setting op totalL1 current places).invariant
  | die value placed => exact ((invariant.settled placed).die value).invariant
  | reconfigure op func ahead reconfigures => exact reconfigure_invariant s invariant op func ahead reconfigures
  | campaign placed =>
      refine ⟨invariant.recorded, invariant.live, invariant.evicted, invariant.placed, ?_, fun _ => placed, ?_⟩
      · intro least began
        cases began
      · intro value member
        obtain ⟨idx, event, indexed, found, counting⟩ := invariant.live value member
        exact ⟨idx, event, indexed, found, Or.inl counting⟩
  | evict victim skipReshardConsumer m campaignMin placedAll candidate evicts =>
      exact evict_invariant setting s invariant victim candidate skipReshardConsumer m campaignMin placedAll evicts
  | flush trigger m placed flushes =>
      obtain ⟨next, same, flushed⟩ := evictAllFromL1_flushed (sum_emptied setting) s.m s.pos trigger
      rw [flushes] at same
      cases same
      exact ((invariant.settled placed).flush setting flushed).invariant

end Steps

theorem start_settled (setting : Setting) (func : Func) (inOrder : func.InOrder) :
    Settled (Sweep.start setting func).m 0 := by
  constructor
  · constructor
    · exact buildScheduleData_timetable func inOrder
    · intro value idx indexed
      cases indexed
    · intro value idx indexed
      cases indexed
    · intro op number idx value other indexed
      cases indexed
    · intro idx event found
      cases found
  · intro value member
    cases member
  · intro value member
    cases member
  · rfl
  · intro idx event inside
    exact absurd inside (Nat.not_lt_zero idx)

theorem reachable_invariant (setting : Setting) (func : Func) (inOrder : func.InOrder) (s : Simulation)
    (reached : Simulation.Reachable setting func s) : Invariant s := by
  induction reached with
  | start => exact (start_settled setting func inOrder).invariant
  | step _ taken ih => exact step_invariant setting _ _ ih taken

theorem replayEvent_untouched (func : Func) (l1Budget : Nat) (event : L1Event) (value : Value)
    (other : event.kind = .kAlloc → event.tensor ≠ value) (before after : AddressState)
    (absent : before.hasTensorAddress value = false)
    (applies : AddressSim.replayEvent func l1Budget event before = some after) :
    after.hasTensorAddress value = false := by
  have inserted (slot : Nat × Nat) (different : event.tensor ≠ value) :
      ((before.tensorAddresses.insert event.tensor slot).lookup value).isSome = false := by
    rw [AList.lookup_insert_ne (Ne.symm different)]
    exact absent
  unfold AddressSim.replayEvent at applies
  split at applies
  · cases applies
    exact absent
  · cases kind : event.kind with
    | kDealloc =>
        simp only [kind] at applies
        cases applies
        have erased : ((before.tensorAddresses.erase event.tensor).lookup value).isSome = false := by
          by_cases same : value = event.tensor
          · rw [same, AList.lookup_erase]
            rfl
          · rw [AList.lookup_erase_ne same]
            exact absent
        unfold AddressState.freeAddress
        split
        · exact absent
        · simp only
          split
          · exact erased
          · split <;> exact erased
    | kAlloc =>
        have different := other kind
        simp only [kind] at applies
        split at applies
        · cases applies
          unfold AddressState.allocateAddressAt
          split
          · exact inserted _ different
          · exact absent
        · unfold AddressState.allocateAddress at applies
          split at applies
          · cases applies
            exact absent
          · obtain ⟨carved, _, same⟩ := Option.map_eq_some_iff.mp applies
            cases same
            exact inserted _ different

theorem Settled.unaddressed {m : SumManager} {pos : Nat} (settled : Settled m pos) (value : Value)
    (evicted : value ∈ m.evictions) : m.memoryTracker.addresses.hasTensorAddress value = false := by
  obtain ⟨idx, event, indexed, found, skipped⟩ := settled.evicted value evicted
  refine EventLog.replay_induction _ (fun state => state.hasTensorAddress value = false) _ _ _ rfl settled.replays ?_
  intro other member before after absent applies
  obtain ⟨logged, counting⟩ := List.mem_filter.mp member
  refine replayEvent_untouched _ _ other value (fun isAlloc same => ?_) before after absent applies
  -- the only alloc event of the value is skipped
  obtain ⟨place, present⟩ := List.mem_iff_getElem?.mp logged
  rcases settled.recorded.allocs place other present isAlloc with here | ⟨op, number, isResult, unscheduled, _⟩
  · rw [same, indexed] at here
    cases here
    rw [found] at present
    cases present
    rw [skipped] at counting
    cases counting
  · obtain ⟨committed, _, isCommitted, taken⟩ := settled.recorded.committed value idx indexed
    rw [same, isCommitted] at isResult
    cases isResult
    exact unscheduled (List.mem_of_mem_take taken)

theorem Settled.faithful {m : SumManager} {pos : Nat} (settled : Settled m pos) : ReplayFaithful m := by
  constructor
  · exact settled.replays
  · exact settled.unaddressed
  · intro value idx
    constructor
    · intro indexed
      exact ⟨by rw [indexed]; rfl, settled.recorded.indexed value idx indexed⟩
    · rintro ⟨isIndexed, event, found, isAlloc, tensor⟩
      obtain ⟨known, indexed⟩ := Option.isSome_iff_exists.mp isIndexed
      rcases settled.recorded.allocs idx event found isAlloc with here | ⟨op, number, isResult, unscheduled, _⟩
      · rw [tensor] at here
        exact here
      · obtain ⟨committed, _, isCommitted, taken⟩ := settled.recorded.committed value known indexed
        rw [tensor, isCommitted] at isResult
        cases isResult
        exact absurd (List.mem_of_mem_take taken) unscheduled
  · intro idx event found isAlloc counting
    have renews : renewsSnapshot event = true := by
      simp only [renewsSnapshot, isAlloc, counting, and_self, decide_true]
    have inside := (List.getElem?_eq_some_iff.mp found).1
    obtain ⟨state, snapshot, replayed⟩ := settled.snapshots idx event inside found renews
    rw [rebuilt_eq, snapshot, replayed]
    exact ⟨rfl, rfl⟩

/-- Whatever the order of commits, deaths and evictions, a rebuild that places
all tensors leaves the tracker its log stands for. -/
theorem replay_faithful (setting : Setting) (func : Func) (inOrder : func.InOrder) (s : Simulation)
    (reached : Simulation.Reachable setting func s) (placed : s.placedAll = true) : ReplayFaithful s.m :=
  ((reachable_invariant setting func inOrder s reached).settled placed).faithful

def simulatedSetting (l1BudgetPerCore outputL1Usage : Nat) : Setting where
  l1BudgetPerCore
  cbFragCushion := l1BudgetPerCore / 10
  backend _ _ := { status := .success, outputL1Usage }
  popOrder := TieBreak.insertion _
  insertionOrder := TieBreak.insertion _

/-- Evicting the first tensor brackets the alloc event of the second with a reshard. -/
theorem replay_faithful_readerChain : ∃ s, Simulation.Reachable (simulatedSetting 8192 1024) readerChain s ∧
    s.placedAll = true ∧ s.m.evictions = [.result 0 0] ∧ s.m.l1EventLog.length = 4 ∧ ReplayFaithful s.m := by
  have started : Simulation.Reachable (simulatedSetting 8192 1024) readerChain _ := .start
  have first := started.step (.place 0 1024 _ rfl rfl rfl)
  have second := first.step (.place 1 1024 _ rfl rfl rfl)
  have campaign := second.step (.campaign rfl)
  have evicted := campaign.step (.evict (.result 0 0) none _ _ _ (by decide) rfl)
  exact ⟨_, evicted, rfl, rfl, rfl, replay_faithful _ _ readerChain_inOrder _ evicted rfl⟩

end TtMlir.Spill
