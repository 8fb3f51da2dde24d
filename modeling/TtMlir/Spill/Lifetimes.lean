import TtMlir.Spill.Eviction
import TtMlir.Spill.Flush
import TtMlir.Spill.Sweep

/-!
Lifetimes in the rewind-based manager. A value that dies at the position of its
own producer is freed before the next op is validated, so it cannot be evicted;
an eviction gives its victim such a lifetime and keeps all others.
-/

namespace TtMlir.Spill

section Lifetimes
variable {τ : Type} [MemoryTracker τ]

def DiesAtOnce (m : Manager τ) (value : Value) : Prop :=
  ∃ op number place, value = .result op number ∧ m.data.schedule[place]? = some op ∧ value ∈ m.data.deathSchedule place

/-- Live values at a position: results of earlier ops, and those that die at
once only of the op right before. -/
def LiveAt (m : Manager τ) (pos : Nat) (live : List Value) : Prop :=
  ∀ value ∈ live, ∃ op number place, value = .result op number ∧ m.data.schedule[place]? = some op ∧ place < pos ∧
    number ∈ (m.func.getOp op).tensorResults ∧ (DiesAtOnce m value → place + 1 = pos)

def Checkpointed (m : Manager τ) (pos : Nat) : Prop :=
  ∀ place < pos, ∃ checkpoint, m.sweepCheckpoints place = some checkpoint ∧ LiveAt m place checkpoint.liveValues

theorem LiveAt.rewritten {m next : Manager τ} {pos : Nat} {live : List Value} (alive : LiveAt m pos live)
    (timetable : Timetable m.func m.data) (rewrites : m.func.Rewrites next.func) (data : next.data = m.data) :
    LiveAt next pos live := by
  intro value member
  obtain ⟨op, number, place, isResult, located, before, typed, dying⟩ := alive value member
  refine ⟨op, number, place, isResult, by rw [data]; exact located, before, ?_, fun dies => dying ?_⟩
  · rw [rewrites.tensorResults op (timetable.known op (List.mem_of_getElem? located))]
    exact typed
  · simp only [DiesAtOnce, data] at dies
    exact dies

theorem Checkpointed.rewritten {m next : Manager τ} {pos : Nat} (checkpointed : Checkpointed m pos)
    (timetable : Timetable m.func m.data) (rewrites : m.func.Rewrites next.func) (data : next.data = m.data)
    (checkpoints : next.sweepCheckpoints = m.sweepCheckpoints) : Checkpointed next pos := by
  intro place before
  obtain ⟨checkpoint, stored, alive⟩ := checkpointed place before
  exact ⟨checkpoint, by rw [checkpoints]; exact stored, alive.rewritten timetable rewrites data⟩

theorem processDeadTensors_fields (m : Manager τ) (pos : Nat) :
    (m.processDeadTensors pos).func = m.func ∧ (m.processDeadTensors pos).data = m.data ∧
    (m.processDeadTensors pos).sweepCheckpoints = m.sweepCheckpoints ∧
    (m.processDeadTensors pos).insertedReshardValues = m.insertedReshardValues ∧
    (m.processDeadTensors pos).evictions = m.evictions ∧
    (m.processDeadTensors pos).liveSet = m.liveSet ∧
    ∀ value, value ∈ (m.processDeadTensors pos).liveValues ↔
      value ∈ m.liveValues ∧ (0 < pos → value ∉ m.data.deathSchedule (pos - 1)) := by
  have frees (dead : List Value) (state : Manager τ) :
      (dead.foldl Manager.freeDead state).func = state.func ∧ (dead.foldl Manager.freeDead state).data = state.data ∧
      (dead.foldl Manager.freeDead state).sweepCheckpoints = state.sweepCheckpoints ∧
      (dead.foldl Manager.freeDead state).insertedReshardValues = state.insertedReshardValues ∧
      (dead.foldl Manager.freeDead state).evictions = state.evictions ∧
      (dead.foldl Manager.freeDead state).liveSet = state.liveSet ∧
      ∀ value, value ∈ (dead.foldl Manager.freeDead state).liveValues ↔ value ∈ state.liveValues ∧ value ∉ dead := by
    induction dead generalizing state with
    | nil => simp
    | cons first rest ih =>
        obtain ⟨func, data, checkpoints, inserted, evictions, liveSet, live⟩ := ih (state.freeDead first)
        rw [List.foldl_cons, func, data, checkpoints, inserted, evictions, liveSet]
        by_cases isLive : first ∈ state.liveValues
        · rw [Manager.freeDead, if_pos isLive] at live ⊢
          refine ⟨rfl, rfl, rfl, rfl, rfl, rfl, fun value => ?_⟩
          rw [live]
          simp only [eraseValue, List.mem_filter, decide_eq_true_eq, List.mem_cons, not_or, and_assoc]
        · rw [Manager.freeDead, if_neg isLive] at live ⊢
          refine ⟨rfl, rfl, rfl, rfl, rfl, rfl, fun value => ?_⟩
          rw [live, List.mem_cons, not_or]
          constructor
          · rintro ⟨alive, kept⟩
            exact ⟨alive, fun same => isLive (same ▸ alive), kept⟩
          · rintro ⟨alive, _, kept⟩
            exact ⟨alive, kept⟩
  cases pos with
  | zero => exact ⟨rfl, rfl, rfl, rfl, rfl, rfl, fun value => by simp [Manager.processDeadTensors]⟩
  | succ pos =>
      obtain ⟨func, data, checkpoints, inserted, evictions, liveSet, live⟩ := frees (m.data.deathSchedule pos) m
      refine ⟨func, data, checkpoints, inserted, evictions, liveSet, fun value => ?_⟩
      simp only [Manager.processDeadTensors, Nat.add_sub_cancel, live, Nat.zero_lt_succ, forall_const]

theorem LiveAt.freed {m : Manager τ} {pos : Nat} (timetable : Timetable m.func m.data)
    (alive : LiveAt m pos m.liveValues) (value : Value) (member : value ∈ (m.processDeadTensors pos).liveValues) :
    ∃ op number place, value = .result op number ∧ m.data.schedule[place]? = some op ∧ place < pos ∧
      number ∈ (m.func.getOp op).tensorResults ∧ ¬ DiesAtOnce m value := by
  obtain ⟨_, _, _, _, _, _, live⟩ := processDeadTensors_fields m pos
  obtain ⟨wasLive, survives⟩ := (live value).mp member
  obtain ⟨op, number, place, isResult, located, before, typed, dying⟩ := alive value wasLive
  refine ⟨op, number, place, isResult, located, before, typed, fun dies => ?_⟩
  have last := dying dies
  obtain ⟨other, _, otherPlace, isOther, otherAt, dead⟩ := dies
  rw [isResult] at isOther
  cases isOther
  have same := timetable.position_unique _ _ _ located otherAt
  refine survives (by omega) ?_
  rw [show pos - 1 = otherPlace by omega]
  exact dead

structure Evicting (start : Manager τ) (victim : Value) (place : Nat) (m : Manager τ)
    (_ : List (Nat × L1Event)) : Prop where
  evictions : m.evictions = victim :: start.evictions
  known : start.func.ops.length ≤ m.func.ops.length
  shifted : ∀ op before, start.data.schedule[before]? = some op → ∃ after, m.data.schedule[after]? = some op ∧
    before ≤ after ∧ (before ≤ place → after = before)
  checkpoints : ∀ key ≤ place, m.sweepCheckpoints key = start.sweepCheckpoints key
  kept : ∀ value ∈ start.insertedReshardValues, value ∈ m.insertedReshardValues
  inserted : ∀ value ∈ m.insertedReshardValues, value ∈ start.insertedReshardValues ∨
    ∃ op, value = .result op 0 ∧ start.func.ops.length ≤ op ∧ op < m.func.ops.length
  scheduled : ∀ op ∈ m.data.schedule, op ∈ start.data.schedule ∨
    start.func.ops.length ≤ op ∧ .result op 0 ∈ m.insertedReshardValues ∧ (m.func.getOp op).tensorResults = [0]
  dies : ∀ op number, op < start.func.ops.length → .result op number ≠ victim →
    (DiesAtOnce m (.result op number) ↔ DiesAtOnce start (.result op number))
  victim : DiesAtOnce m victim

theorem insertReshard_dies (m : Manager τ) (consumer operandIdx place op number : Nat) (layout : TTNNLayout)
    (inside : place ≤ m.data.schedule.length) (old : op ≠ m.func.ops.length) :
    DiesAtOnce ((m.resharded consumer operandIdx layout).insertReshardIntoSchedule m.func.ops.length
      (.result m.func.ops.length 0) place) (.result op number) ↔ DiesAtOnce m (.result op number) := by
  have lookup (idx : Nat) := getElem?_insertAt m.data.schedule place idx m.func.ops.length inside
  constructor
  · rintro ⟨_, _, after, isResult, located, dies⟩
    cases isResult
    have found := (lookup after).symm.trans located
    simp only [Manager.insertReshardIntoSchedule, Manager.resharded] at dies
    split at found
    · rename_i before
      rw [if_pos before] at dies
      exact ⟨op, number, after, rfl, found, dies⟩
    · rename_i notBefore
      split at found
      · exact absurd (Option.some.inj found).symm old
      · rename_i notHere
        rw [if_neg notBefore, if_neg notHere] at dies
        refine ⟨op, number, after - 1, rfl, found, ?_⟩
        split at dies
        · rename_i next
          rw [next, Nat.add_sub_cancel]
          rcases List.mem_append.mp dies with was | new
          · exact was
          · cases List.mem_singleton.mp new
            exact absurd rfl old
        · exact dies
  · rintro ⟨_, _, before, isResult, located, dies⟩
    cases isResult
    by_cases early : before < place
    · refine ⟨op, number, before, rfl, (lookup before).trans (by rw [if_pos early]; exact located), ?_⟩
      simp only [Manager.insertReshardIntoSchedule, Manager.resharded, if_pos early]
      exact dies
    · refine ⟨op, number, before + 1, rfl, (lookup (before + 1)).trans ?_, ?_⟩
      · rw [if_neg (by omega), if_neg (by omega)]
        exact located
      · simp only [Manager.insertReshardIntoSchedule, Manager.resharded]
        rw [if_neg (by omega), if_neg (by omega)]
        split
        · rename_i next
          rw [show place = before by omega]
          exact List.mem_append_left _ dies
        · exact dies

/-- The death schedule once the value is taken from its last use, where that is later. -/
def clearedDeaths (data : ScheduleData) (dead : Value) (place : Nat) : Nat → List Value :=
  match data.lastUsePositions dead with
  | some lastUse =>
      if lastUse ≠ place then Function.update data.deathSchedule lastUse
        (eraseValue (data.deathSchedule lastUse) dead)
      else data.deathSchedule
  | none => data.deathSchedule

theorem clearedDeaths_subset {data : ScheduleData} {dead value : Value} {place spot : Nat}
    (member : value ∈ clearedDeaths data dead place spot) : value ∈ data.deathSchedule spot := by
  cases used : data.lastUsePositions dead with
  | none => simpa only [clearedDeaths, used] using member
  | some lastUse =>
      simp only [clearedDeaths, used] at member
      by_cases later : lastUse ≠ place
      · rw [if_pos later] at member
        by_cases here : spot = lastUse
        · rw [here, Function.update_self] at member
          exact here ▸ List.mem_of_mem_filter member
        · rwa [Function.update_of_ne here] at member
      · rwa [if_neg later] at member

theorem mem_clearedDeaths {data : ScheduleData} {dead value : Value} {place spot : Nat} (other : value ≠ dead)
    (member : value ∈ data.deathSchedule spot) : value ∈ clearedDeaths data dead place spot := by
  cases used : data.lastUsePositions dead with
  | none => simpa only [clearedDeaths, used] using member
  | some lastUse =>
      simp only [clearedDeaths, used]
      by_cases later : lastUse ≠ place
      · rw [if_pos later]
        by_cases here : spot = lastUse
        · rw [here, Function.update_self]
          exact List.mem_filter.mpr ⟨here ▸ member, decide_eq_true other⟩
        · rwa [Function.update_of_ne here]
      · rwa [if_neg later]

section
variable (hooks : RebuildHooks τ) (rewinds : hooks.usesRewindEviction = true) (m : Manager τ)
  (timetable : Timetable m.func m.data) (op number place : Nat) (located : m.data.schedule[place]? = some op)
include hooks rewinds timetable place located

theorem afterSpill_dies (typed : number ∈ (m.func.getOp op).tensorResults) :
    let deaths := (m.afterSpill hooks (.result op number)).data.deathSchedule
    (∀ value, value ≠ .result op number → ∀ spot, value ∈ deaths spot ↔ value ∈ m.data.deathSchedule spot) ∧
      .result op number ∈ deaths place ∧
      ∀ spot, .result op number ∈ deaths spot → spot = place ∨ .result op number ∈ m.data.deathSchedule spot := by
  have layout : ∃ layout, m.func.getLayout (.result op number) = some layout := by
    simp only [Operation.tensorResults, List.mem_filter] at typed
    exact Option.isSome_iff_exists.mp typed.2
  obtain ⟨layout, isLayout⟩ := layout
  have position := (timetable.positions op place).mpr located
  -- `shortenLifetime` takes the value from its last use and adds it at its producer
  let cleared := clearedDeaths m.data (.result op number) place
  have shortened : (m.afterSpill hooks (.result op number)).data.deathSchedule =
      Function.update cleared place (cleared place ++ [.result op number]) := by
    simp only [Manager.afterSpill, Value.getDefiningOp, isLayout, rewinds, ↓reduceIte, Manager.shortenLifetime,
      position,
      Option.getD_some]
    rfl
  have erased (value : Value) (spot : Nat) (member : value ∈ cleared spot) : value ∈ m.data.deathSchedule spot :=
    clearedDeaths_subset member
  have others (value : Value) (other : value ≠ .result op number) (spot : Nat)
      (member : value ∈ m.data.deathSchedule spot) : value ∈ cleared spot :=
    mem_clearedDeaths other member
  rw [shortened]
  refine ⟨fun value other spot => ?_, ?_, fun spot member => ?_⟩
  · by_cases here : spot = place
    · rw [here, Function.update_self, List.mem_append, List.mem_singleton, or_iff_left other]
      exact ⟨erased value place, others value other place⟩
    · rw [Function.update_of_ne here]
      exact ⟨erased value spot, others value other spot⟩
  · rw [Function.update_self]
    exact List.mem_append_right _ List.mem_cons_self
  · by_cases here : spot = place
    · exact Or.inl here
    · rw [Function.update_of_ne here] at member
      exact Or.inr (erased _ spot member)

theorem Evicting.spilled (typed : number ∈ (m.func.getOp op).tensorResults) :
    Evicting m (.result op number) place (m.afterSpill hooks (.result op number)) [] := by
  obtain ⟨func, schedule, _⟩ := afterSpill_fields hooks m (.result op number)
  obtain ⟨others, dies, _⟩ := afterSpill_dies hooks rewinds m timetable op number place located typed
  have kept := afterSpill_kept hooks m (.result op number)
  constructor
  · exact kept.1
  · rw [func]
    exact (m.func.spillToDramImpl_rewrites _ none).grows
  · intro other before found
    exact ⟨before, by rw [schedule]; exact found, Nat.le_refl _, fun _ => rfl⟩
  · intro key _
    rw [kept.2.1]
  · rw [kept.2.2.1]
    exact fun value member => member
  · rw [kept.2.2.1]
    exact fun value member => Or.inl member
  · rw [schedule]
    exact fun other member => Or.inl member
  · intro other place' _ different
    simp only [DiesAtOnce, schedule, others _ different]
  · exact ⟨op, number, place, rfl, by rw [schedule]; exact located, dies⟩

theorem Evicting.rule (pos : Nat) : EvictionRule hooks m (.result op number) pos (Evicting m (.result op number) place) := by
  have opKnown := timetable.known op (List.mem_of_getElem? located)
  constructor
  · intro current events evicting
    exact ⟨evicting.evictions, evicting.known, evicting.shifted, evicting.checkpoints, evicting.kept, evicting.inserted,
      evicting.scheduled, evicting.dies, evicting.victim⟩
  · intro current events consumer operandIdx spot layout simulated
    rw [rewinds] at simulated
    cases simulated
  · intro current events consumer operandIdx spot layout firstAllocIdx lastAllocIdx sizePerCore simulated
    rw [rewinds] at simulated
    cases simulated
  · intro current events consumer operandIdx spot layout _ awaiting evicting
    obtain ⟨inside, _⟩ := List.getElem?_eq_some_iff.mp awaiting.located
    have lookup (idx : Nat) := getElem?_insertAt current.data.schedule spot idx current.func.ops.length
        (Nat.le_of_lt inside)
    obtain ⟨digit, operand⟩ := awaiting.operand
    have inDram := awaiting.restored.restoration.inDram digit
    have rewrites := current.func.insertReshard_rewrites consumer operandIdx layout _ operand inDram
    have length := awaiting.length layout
    -- the reshard goes in front of a consumer, which stands behind the victim
    have behind : place < spot := by
      obtain ⟨was, wasAt⟩ := List.mem_iff_getElem?.mp awaiting.scheduled
      have reads := timetable.reads_before consumer op was place wasAt located ⟨number, awaiting.reader⟩
      obtain ⟨after, nowAt, later, _⟩ := evicting.shifted consumer was wasAt
      have same := awaiting.restored.timetable.position_unique consumer after spot nowAt awaiting.located
      omega
    constructor
    · exact evicting.evictions
    · exact Nat.le_trans evicting.known (Nat.le_of_lt (Nat.lt_of_lt_of_eq (Nat.lt_succ_self _) length.symm))
    · intro other before found
      obtain ⟨after, nowAt, later, same⟩ := evicting.shifted other before found
      by_cases shifts : after < spot
      · exact ⟨after, (lookup after).trans (by rw [if_pos shifts]; exact nowAt), later, same⟩
      · refine ⟨after + 1, (lookup (after + 1)).trans ?_, by omega, fun early => ?_⟩
        · rw [if_neg (by omega), if_neg (by omega)]
          exact nowAt
        · have equal := same early
          omega
    · intro key early
      refine Eq.trans ?_ (evicting.checkpoints key early)
      simp only [Manager.insertReshardIntoSchedule, Manager.resharded]
      rw [if_pos (by omega)]
    · exact fun value member => List.mem_cons_of_mem _ (evicting.kept value member)
    · intro value member
      rcases List.mem_cons.mp member with new | old
      · exact Or.inr ⟨_, new, evicting.known, Nat.lt_of_lt_of_eq (Nat.lt_succ_self _) length.symm⟩
      · rcases evicting.inserted value old with was | ⟨reshard, isResult, fresh, known⟩
        · exact Or.inl was
        · exact Or.inr ⟨reshard, isResult, fresh, Nat.lt_of_lt_of_eq (Nat.lt_succ_of_lt known) length.symm⟩
    · intro other member
      have older (scheduled : other ∈ current.data.schedule) : other ∈ m.data.schedule ∨
          m.func.ops.length ≤ other ∧ Value.result other 0 ∈ Value.result current.func.ops.length 0 ::
            current.insertedReshardValues ∧
          ((current.func.insertReshardForConsumer consumer operandIdx layout).getOp other).tensorResults = [0] := by
        rcases evicting.scheduled other scheduled with was | ⟨fresh, isInserted, single⟩
        · exact Or.inl was
        · refine Or.inr ⟨fresh, List.mem_cons_of_mem _ isInserted, ?_⟩
          rw [rewrites.tensorResults other (awaiting.restored.timetable.known other scheduled)]
          exact single
      rcases List.mem_append.mp member with front | back
      · exact older (List.mem_of_mem_take front)
      · rcases List.mem_cons.mp back with new | rest
        · subst new
          refine Or.inr ⟨evicting.known, List.mem_cons_self, ?_⟩
          have consumerKnown := awaiting.restored.timetable.known consumer (List.mem_of_getElem? awaiting.located)
          have getOp := current.func.insertReshard_getOp consumer operandIdx layout _ operand inDram
            current.func.ops.length
          rw [if_neg (Ne.symm (Nat.ne_of_lt consumerKnown)), if_pos rfl] at getOp
          exact congrArg Operation.tensorResults getOp
        · exact older (List.mem_of_mem_drop rest)
    · intro other digit known different
      -- an op of the original function is not the new reshard, so its deaths are the old ones
      have old : other ≠ current.func.ops.length := Nat.ne_of_lt (Nat.lt_of_lt_of_le known evicting.known)
      exact (insertReshard_dies current consumer operandIdx spot other digit layout (Nat.le_of_lt inside) old).trans
        (evicting.dies other digit known different)
    · have old : op ≠ current.func.ops.length := Nat.ne_of_lt (Nat.lt_of_lt_of_le opKnown evicting.known)
      exact (insertReshard_dies current consumer operandIdx spot op number layout (Nat.le_of_lt inside) old).mpr
        evicting.victim

end

end Lifetimes

end TtMlir.Spill
