import TtMlir.Library.Lists
import TtMlir.Spill.Lifetimes

/-!
Positions of the schedule while evictions rewrite it. Reshards shift positions,
deaths and checkpoints together; a shortened lifetime may leave an entry behind,
but only at a later position, where the value is no longer live.
-/

namespace TtMlir.Spill

section LastUse

/-- The last position at which a scheduled op reads the value, at least the place of its producer. -/
structure IsLastUse (func : Func) (schedule : List OpId) (value : Value) (place last : Nat) : Prop where
  behind : place ≤ last
  covers : ∀ pos op, schedule[pos]? = some op → value ∈ (func.getOp op).operands → pos ≤ last
  attained : last = place ∨ ∃ op, schedule[last]? = some op ∧ value ∈ (func.getOp op).operands

theorem IsLastUse.unique {func : Func} {schedule : List OpId} {value : Value} {place one two : Nat}
    (isOne : IsLastUse func schedule value place one) (isTwo : IsLastUse func schedule value place two) :
      one = two := by
  have le (left right : Nat) (isLeft : IsLastUse func schedule value place left)
      (isRight : IsLastUse func schedule value place right) : left ≤ right := by
    rcases isLeft.attained with same | ⟨op, located, reads⟩
    · rw [same]
      exact isRight.behind
    · exact isRight.covers left op located reads
  exact Nat.le_antisymm (le one two isOne isTwo) (le two one isTwo isOne)

theorem lastUse_isLastUse (func : Func) (schedule : List OpId) (distinct : schedule.Nodup) (value : Value)
    (place : Nat) : IsLastUse func schedule value place (lastUse func schedule value place) := by
  have listed (pos : Nat) : pos ∈ ((func.uses value).filterMap fun use =>
      if use.1 ∈ schedule then some (schedule.idxOf use.1) else none) ↔
      ∃ op, schedule[pos]? = some op ∧ value ∈ (func.getOp op).operands := by
    simp only [List.mem_filterMap, Option.ite_none_right_eq_some, Option.some.injEq]
    constructor
    · rintro ⟨⟨op, number⟩, isUse, scheduled, rfl⟩
      have reads := (func.mem_uses value op number).mp isUse
      exact ⟨op, List.getElem?_idxOf scheduled, List.mem_iff_getElem?.mpr ⟨number, reads⟩⟩
    · rintro ⟨op, located, reads⟩
      obtain ⟨number, isOperand⟩ := List.mem_iff_getElem?.mp reads
      obtain ⟨inside, isOp⟩ := List.getElem?_eq_some_iff.mp located
      refine ⟨(op, number), (func.mem_uses value op number).mpr isOperand, List.mem_of_getElem? located, ?_⟩
      rw [← isOp, distinct.idxOf_getElem]
  obtain ⟨above, covers, attained⟩ := foldl_max_spec _ place
  constructor
  · exact above
  · exact fun pos op located reads => covers pos ((listed pos).mpr ⟨op, located, reads⟩)
  · exact attained.imp_right (listed _).mp

end LastUse

section Shift
variable {τ : Type} [MemoryTracker τ]

def shifted (place pos : Nat) : Nat := if place ≤ pos then pos + 1 else pos

theorem shifted_cases (place spot : Nat) : spot = place ∨ ∃ pos, spot = shifted place pos := by
  rcases Nat.lt_trichotomy spot place with before | same | behind
  · exact Or.inr ⟨spot, (if_neg (by omega)).symm⟩
  · exact Or.inl same
  · exact Or.inr ⟨spot - 1, by rw [shifted, if_pos (by omega)]; omega⟩

theorem shifted_le (place one two : Nat) : shifted place one ≤ shifted place two ↔ one ≤ two := by
  unfold shifted
  split <;> split <;> omega

structure ReshardPlaced (m : Manager τ) (reshardOp place : Nat) (next : Manager τ) : Prop where
  here : next.data.schedule[place]? = some reshardOp
  moved : ∀ pos, next.data.schedule[shifted place pos]? = m.data.schedule[pos]?
  dies : ∀ pos value, value ∈ next.data.deathSchedule (shifted place pos) ↔
    value ∈ m.data.deathSchedule pos ∨ pos = place ∧ value = .result reshardOp 0
  noDeath : next.data.deathSchedule place = []
  checkpoints : ∀ pos, next.sweepCheckpoints (shifted place pos) = m.sweepCheckpoints pos
  noCheckpoint : next.sweepCheckpoints place = none

theorem insertReshardIntoSchedule_inserted (m : Manager τ) (reshardOp place : Nat)
    (inside : place ≤ m.data.schedule.length) :
    ReshardPlaced m reshardOp place (m.insertReshardIntoSchedule reshardOp (.result reshardOp 0) place) := by
  have lookup (idx : Nat) := getElem?_insertAt m.data.schedule place idx reshardOp inside
  constructor
  · refine (lookup place).trans ?_
    rw [if_neg (Nat.lt_irrefl _), if_pos rfl]
  · intro pos
    refine (lookup (shifted place pos)).trans ?_
    unfold shifted
    split
    · rw [if_neg (by omega), if_neg (by omega), Nat.add_sub_cancel]
    · rw [if_pos (by omega)]
  · intro pos value
    simp only [Manager.insertReshardIntoSchedule, shifted]
    split
    · rw [if_neg (by omega), if_neg (by omega)]
      by_cases same : pos = place
      · subst same
        simp
      · rw [if_neg (by omega), Nat.add_sub_cancel]
        simp [same]
    · rename_i before
      rw [if_pos (by omega), or_iff_left]
      exact fun both => before both.1.ge
  · simp [Manager.insertReshardIntoSchedule]
  · intro pos
    simp only [Manager.insertReshardIntoSchedule, shifted]
    split
    · rw [if_neg (by omega), if_neg (by omega), Nat.add_sub_cancel]
    · rw [if_pos (by omega)]
  · simp [Manager.insertReshardIntoSchedule]

theorem ReshardPlaced.located {m next : Manager τ} {reshardOp place : Nat}
    (inserted : ReshardPlaced m reshardOp place next)
    (op spot : Nat) (located : next.data.schedule[spot]? = some op) :
    (spot = place ∧ op = reshardOp) ∨ ∃ pos, spot = shifted place pos ∧ m.data.schedule[pos]? = some op := by
  rcases shifted_cases place spot with rfl | ⟨pos, rfl⟩
  · rw [inserted.here] at located
    exact Or.inl ⟨rfl, (Option.some.inj located).symm⟩
  · rw [inserted.moved] at located
    exact Or.inr ⟨pos, rfl, located⟩

theorem IsLastUse.congr_readers {func after : Func} {schedule : List OpId} {value : Value} {place last : Nat}
    (isLast : IsLastUse func schedule value place last)
    (readers : ∀ op ∈ schedule, value ∈ (after.getOp op).operands ↔ value ∈ (func.getOp op).operands) :
    IsLastUse after schedule value place last := by
  constructor
  · exact isLast.behind
  · intro pos op located reads
    exact isLast.covers pos op located ((readers op (List.mem_of_getElem? located)).mp reads)
  · refine isLast.attained.imp_right fun ⟨op, located, reads⟩ => ⟨op, located, ?_⟩
    exact (readers op (List.mem_of_getElem? located)).mpr reads

theorem IsLastUse.inserted {func after : Func} {m next : Manager τ} {reshardOp place : Nat} {value : Value}
    {producer last : Nat} (isLast : IsLastUse func m.data.schedule value producer last)
    (inserted : ReshardPlaced m reshardOp place next)
    (readers : ∀ op ∈ m.data.schedule, value ∈ (after.getOp op).operands ↔ value ∈ (func.getOp op).operands)
    (unread : value ∉ (after.getOp reshardOp).operands) :
    IsLastUse after next.data.schedule value (shifted place producer) (shifted place last) := by
  constructor
  · exact (shifted_le ..).mpr isLast.behind
  · intro spot op located reads
    rcases inserted.located op spot located with ⟨_, rfl⟩ | ⟨pos, rfl, wasAt⟩
    · exact absurd reads unread
    · exact (shifted_le ..).mpr (isLast.covers pos op wasAt ((readers op (List.mem_of_getElem? wasAt)).mp reads))
  · rcases isLast.attained with same | ⟨op, located, reads⟩
    · exact Or.inl (congrArg (shifted place) same)
    · refine Or.inr ⟨op, (inserted.moved last).trans located, ?_⟩
      exact (readers op (List.mem_of_getElem? located)).mpr reads

end Shift

section Books
variable {τ : Type} [MemoryTracker τ]

/-- The manager, the values whose lifetime was shortened, and the checkpoint that the sweep took when
it entered an op. -/
structure Books (τ : Type) [MemoryTracker τ] where
  m : Manager τ
  spilled : List Value
  captured : OpId → Option (SweepCheckpoint τ)

namespace Books

def start (func : Func) (memoryTracker : τ) : Books τ :=
  { m := { func, memoryTracker, data := buildScheduleData func }
    spilled := []
    captured := fun _ => none }

/-- What the sweep and its evictions do to the books. -/
inductive Step (hooks : RebuildHooks τ) : Books τ → Books τ → Prop
  | shorten (books : Books τ) (op number place : Nat) (located : books.m.data.schedule[place]? = some op)
      (typed : number ∈ (books.m.func.getOp op).tensorResults) :
      Step hooks books
        { m := books.m.afterSpill hooks (.result op number)
          spilled := .result op number :: books.spilled
          captured := books.captured }
  | reshard (books : Books τ) (consumer operandIdx place : Nat) (layout : TTNNLayout) (spillOutput : Value)
      (located : books.m.data.schedule[place]? = some consumer)
      (operand : (books.m.func.getOp consumer).operands[operandIdx]? = some spillOutput)
      (inDram : (books.m.func.getLayout spillOutput).any (·.hasL1BufferType) = false)
      (unscheduled : ∀ op number, spillOutput = .result op number → op ∉ books.m.data.schedule) :
      Step hooks books
        { m := (books.m.resharded consumer operandIdx layout).insertReshardIntoSchedule books.m.func.ops.length
            (.result books.m.func.ops.length 0) place
          spilled := books.spilled
          captured := books.captured }
  | capture (books : Books τ) (op place : Nat) (located : books.m.data.schedule[place]? = some op) :
      Step hooks books
        { m := books.m.captureCheckpoint place
          spilled := books.spilled
          captured := Function.update books.captured op ((books.m.captureCheckpoint place).sweepCheckpoints place) }
  | restore (books : Books τ) (place : Nat) (next : Manager τ)
      (restored : books.m.restoreCheckpoint place = .ok next) :
      Step hooks books
        { m := next
          spilled := books.spilled
          captured := fun op => if (books.m.data.positionMap op).any (place < ·) then none else books.captured op }
  | advance (books : Books τ) (next : Manager τ) (func : next.func = books.m.func) (data : next.data = books.m.data)
      (checkpoints : next.sweepCheckpoints = books.m.sweepCheckpoints) :
      Step hooks books { m := next, spilled := books.spilled, captured := books.captured }

/-- Where a value dies: at its own position once it was spilled, else at its last use. -/
def dueAt (books : Books τ) (value : Value) (place : Nat) : Nat :=
  if value ∈ books.spilled then place else lastUse books.m.func books.m.data.schedule value place

structure Kept (books : Books τ) : Prop where
  timetable : Timetable books.m.func books.m.data
  owned : ∀ pos, ∀ value ∈ books.m.data.deathSchedule pos, ∃ op number, value = .result op number ∧ op ∈ books.m.data.schedule
  spilled : ∀ value ∈ books.spilled, ∃ op number, value = .result op number ∧ op ∈ books.m.data.schedule
  listed : ∀ op number place, books.m.data.schedule[place]? = some op → number ∈ (books.m.func.getOp op).tensorResults →
    .result op number ∈ books.m.data.deathSchedule (books.dueAt (.result op number) place)
  notBefore : ∀ op number place, books.m.data.schedule[place]? = some op → ∀ pos,
    .result op number ∈ books.m.data.deathSchedule pos → books.dueAt (.result op number) place ≤ pos
  captured : ∀ op checkpoint, books.captured op = some checkpoint → op ∈ books.m.data.schedule
  checkpoints : ∀ key, books.m.sweepCheckpoints key = (books.m.data.schedule[key]?).bind books.captured

theorem Kept.due_behind {books : Books τ} (kept : books.Kept) (value : Value) (place : Nat) :
    place ≤ books.dueAt value place := by
  unfold dueAt
  split
  · exact Nat.le_refl _
  · exact (lastUse_isLastUse _ _ kept.timetable.distinct value place).behind

theorem dueAt_eq (books : Books τ) (distinct : books.m.data.schedule.Nodup) (value : Value) (place last : Nat)
    (unspilled : value ∉ books.spilled) (isLast : IsLastUse books.m.func books.m.data.schedule value place last) :
    books.dueAt value place = last := by
  rw [dueAt, if_neg unspilled]
  exact (lastUse_isLastUse _ _ distinct value place).unique isLast

theorem start_kept (func : Func) (inOrder : func.InOrder) (memoryTracker : τ) : (start func memoryTracker).Kept := by
  have timetable := buildScheduleData_timetable func inOrder
  have distinct := timetable.distinct
  have place_eq (op place : Nat) (located : (buildScheduleData func).schedule[place]? = some op) :
      (buildScheduleData func).schedule.idxOf op = place := by
    obtain ⟨inside, isOp⟩ := List.getElem?_eq_some_iff.mp located
    rw [← isOp, distinct.idxOf_getElem]
  have positions (op number place : Nat) (located : (buildScheduleData func).schedule[place]? = some op)
      (typed : .result op number ∈ func.tensorResults op) :
      (buildScheduleData func).lastUsePositions (.result op number) =
        some (lastUse func (buildScheduleData func).schedule (.result op number) place) := by
    change computeLastUsePositions func (buildScheduleData func).schedule (.result op number) = _
    rw [computeLastUsePositions, if_pos ⟨List.mem_of_getElem? located, typed⟩, place_eq op place located]
  have member (pos : Nat) (value : Value) : value ∈ (buildScheduleData func).deathSchedule pos ↔
      (∃ op ∈ (buildScheduleData func).schedule, value ∈ func.tensorResults op) ∧
        (buildScheduleData func).lastUsePositions value = some pos := by
    change value ∈ (((buildScheduleData func).schedule.flatMap func.tensorResults).filter fun value =>
      decide ((buildScheduleData func).lastUsePositions value = some pos)) ↔ _
    rw [List.mem_filter, List.mem_flatMap, decide_eq_true_eq]
  have typed_of (op number : Nat) (other : OpId) (listed : .result op number ∈ func.tensorResults other) :
      other = op ∧ number ∈ (func.getOp op).tensorResults := by
    obtain ⟨digit, isDigit, same⟩ := List.mem_map.mp listed
    cases same
    exact ⟨rfl, isDigit⟩
  constructor
  · exact timetable
  · intro pos value dies
    obtain ⟨⟨op, scheduled, listed⟩, _⟩ := (member pos value).mp dies
    obtain ⟨number, _, rfl⟩ := List.mem_map.mp listed
    exact ⟨op, number, rfl, scheduled⟩
  · simp [start]
  · intro op number place located typed
    have listed : .result op number ∈ func.tensorResults op := List.mem_map_of_mem typed
    refine (member _ _).mpr ⟨⟨op, List.mem_of_getElem? located, listed⟩, ?_⟩
    exact positions op number place located listed
  · intro op number place located pos dies
    obtain ⟨⟨other, _, listed⟩, last⟩ := (member pos _).mp dies
    obtain ⟨rfl, _⟩ := typed_of op number other listed
    rw [positions other number place located listed] at last
    exact (Option.some.inj last).le
  · intro op checkpoint isCaptured
    cases isCaptured
  · intro key
    change none = ((buildScheduleData func).schedule[key]?).bind fun _ => none
    cases (buildScheduleData func).schedule[key]? <;> rfl

theorem spill_readers (func : Func) (victim : Value) (producer number op : Nat) (known : producer < func.ops.length)
    (isOp : op < func.ops.length) (other : .result producer number ≠ victim) :
    .result producer number ∈ ((func.spillToDram victim).getOp op).operands ↔
      .result producer number ∈ (func.getOp op).operands := by
  rcases func.spillToDramImpl_cases victim none with same | ⟨source, digit, layout, rfl, _, spilled⟩
  · rw [Func.spillToDram, same]
  · constructor
    · intro reads
      rcases spilled.mem_operands op isOp _ reads with was | ⟨_, new⟩
      · exact was
      · cases new
        exact absurd known (Nat.lt_irrefl _)
    · intro reads
      obtain ⟨operand, isOperand⟩ := List.mem_iff_getElem?.mp reads
      rcases spilled.operands op isOp operand with kept | ⟨ofVictim, _⟩
      · exact List.mem_iff_getElem?.mpr ⟨operand, kept.trans isOperand⟩
      · rw [isOperand] at ofVictim
        exact absurd (Option.some.inj ofVictim) other

theorem shorten_kept (hooks : RebuildHooks τ) (rewinds : hooks.usesRewindEviction = true) (books : Books τ)
    (kept : books.Kept) (op number place : Nat) (located : books.m.data.schedule[place]? = some op)
    (typed : number ∈ (books.m.func.getOp op).tensorResults) :
    Kept { m := books.m.afterSpill hooks (.result op number)
           spilled := .result op number :: books.spilled
           captured := books.captured } := by
  have timetable := kept.timetable
  obtain ⟨func, schedule, positionMap⟩ := afterSpill_fields hooks books.m (.result op number)
  obtain ⟨others, dies, origin⟩ := afterSpill_dies hooks rewinds books.m timetable op number place located typed
  have rewrites := books.m.func.spillToDramImpl_rewrites (.result op number) none
  have checkpoints := (afterSpill_kept hooks books.m (.result op number)).2.1
  have table : Timetable (books.m.afterSpill hooks (.result op number)).func
      (books.m.afterSpill hooks (.result op number)).data := by
    rw [func]
    exact (timetable.congr schedule positionMap).rewritten rewrites
  have scheduled := List.mem_of_getElem? located
  -- the victim dies in its own place, the others where they did
  have due (other digit spot : Nat) (otherAt : books.m.data.schedule[spot]? = some other)
      (different : Value.result other digit ≠ .result op number) :
      dueAt { m := books.m.afterSpill hooks (.result op number)
              spilled := .result op number :: books.spilled
              captured := books.captured } (.result other digit) spot =
        books.dueAt (.result other digit) spot := by
    by_cases spilled : .result other digit ∈ books.spilled
    · rw [dueAt, dueAt, if_pos (List.mem_cons_of_mem _ spilled), if_pos spilled]
    · refine dueAt_eq { m := books.m.afterSpill hooks (.result op number)
                        spilled := .result op number :: books.spilled
                        captured := books.captured } table.distinct _ _ _ (by simp [different, spilled]) ?_
      rw [dueAt, if_neg spilled]
      dsimp only
      rw [schedule, func]
      refine (lastUse_isLastUse _ _ kept.timetable.distinct _ spot).congr_readers fun reader isReader => ?_
      exact spill_readers _ _ _ _ _ (timetable.known other (List.mem_of_getElem? otherAt))
        (timetable.known reader isReader) different
  have dueVictim (spot : Nat) : dueAt { m := books.m.afterSpill hooks (.result op number)
                                        spilled := .result op number :: books.spilled
                                        captured := books.captured } (.result op number) spot = spot :=
    if_pos List.mem_cons_self
  constructor
  · exact table
  · intro pos value listed
    dsimp only at listed ⊢
    rw [schedule]
    by_cases same : value = .result op number
    · exact ⟨op, number, same, scheduled⟩
    · exact kept.owned pos value ((others value same pos).mp listed)
  · intro value member
    dsimp only at member ⊢
    rw [schedule]
    rcases List.mem_cons.mp member with same | old
    · exact ⟨op, number, same, scheduled⟩
    · exact kept.spilled value old
  · intro other digit spot otherAt otherTyped
    dsimp only at otherAt otherTyped ⊢
    rw [schedule] at otherAt
    rw [func, Func.spillToDram, rewrites.tensorResults other (timetable.known other (List.mem_of_getElem? otherAt))]
      at otherTyped
    by_cases same : .result other digit = Value.result op number
    · cases same
      have here := timetable.position_unique op spot place otherAt located
      rw [dueVictim, here]
      exact dies
    · rw [due other digit spot otherAt same]
      exact (others _ same _).mpr (kept.listed other digit spot otherAt otherTyped)
  · intro other digit spot otherAt pos listed
    dsimp only at otherAt listed
    rw [schedule] at otherAt
    by_cases same : .result other digit = Value.result op number
    · cases same
      rw [dueVictim]
      have here := timetable.position_unique op spot place otherAt located
      rcases origin pos listed with now | was
      · omega
      · exact Nat.le_trans (kept.due_behind _ _) (kept.notBefore op number spot otherAt pos was)
    · rw [due other digit spot otherAt same]
      exact kept.notBefore other digit spot otherAt pos ((others _ same pos).mp listed)
  · intro other checkpoint isCaptured
    dsimp only at isCaptured ⊢
    rw [schedule]
    exact kept.captured other checkpoint isCaptured
  · intro key
    dsimp only
    rw [checkpoints, schedule]
    exact kept.checkpoints key

theorem reshard_readers (func : Func) (consumer operandIdx op : OpId) (layout : TTNNLayout) (spillOutput value : Value)
    (operand : (func.getOp consumer).operands[operandIdx]? = some spillOutput)
    (inDram : (func.getLayout spillOutput).any (·.hasL1BufferType) = false) (old : op < func.ops.length)
    (notOperand : value ≠ spillOutput) (notReshard : value ≠ .result func.ops.length 0) :
    value ∈ ((func.insertReshardForConsumer consumer operandIdx layout).getOp op).operands ↔
      value ∈ (func.getOp op).operands := by
  rw [func.insertReshard_getOp consumer operandIdx layout spillOutput operand inDram op]
  by_cases same : op = consumer
  · subst same
    rw [if_pos rfl]
    constructor
    · intro reads
      rcases List.mem_or_eq_of_mem_set reads with was | new
      · exact was
      · exact absurd new notReshard
    · intro reads
      obtain ⟨number, isOperand⟩ := List.mem_iff_getElem?.mp reads
      refine List.mem_iff_getElem?.mpr ⟨number, ?_⟩
      have apart : operandIdx ≠ number := by
        rintro rfl
        rw [operand] at isOperand
        exact notOperand (Option.some.inj isOperand).symm
      rw [List.getElem?_set_ne apart]
      exact isOperand
  · rw [if_neg same, if_neg (Nat.ne_of_lt old)]

theorem reshard_kept (books : Books τ) (kept : books.Kept) (consumer operandIdx place : Nat) (layout : TTNNLayout)
    (spillOutput : Value) (located : books.m.data.schedule[place]? = some consumer)
    (operand : (books.m.func.getOp consumer).operands[operandIdx]? = some spillOutput)
    (inDram : (books.m.func.getLayout spillOutput).any (·.hasL1BufferType) = false)
    (unscheduled : ∀ op number, spillOutput = .result op number → op ∉ books.m.data.schedule) :
    Kept { m := (books.m.resharded consumer operandIdx layout).insertReshardIntoSchedule books.m.func.ops.length
              (.result books.m.func.ops.length 0) place
           spilled := books.spilled
           captured := books.captured } := by
  have timetable := kept.timetable
  have rewrites := books.m.func.insertReshard_rewrites consumer operandIdx layout spillOutput operand inDram
  have getOp := books.m.func.insertReshard_getOp consumer operandIdx layout spillOutput operand inDram
  have table := timetable.inserted books.m consumer operandIdx place layout spillOutput operand inDram located
  obtain ⟨inside, isConsumer⟩ := List.getElem?_eq_some_iff.mp located
  have inserted : ReshardPlaced books.m books.m.func.ops.length place
      ((books.m.resharded consumer operandIdx layout).insertReshardIntoSchedule books.m.func.ops.length
        (.result books.m.func.ops.length 0) place) := by
    obtain ⟨here, moved, dies, noDeath, checkpoints, noCheckpoint⟩ := insertReshardIntoSchedule_inserted
      (books.m.resharded consumer operandIdx layout) books.m.func.ops.length place (Nat.le_of_lt inside)
    exact ⟨here, moved, dies, noDeath, checkpoints, noCheckpoint⟩
  generalize isNext : (books.m.resharded consumer operandIdx layout).insertReshardIntoSchedule books.m.func.ops.length
    (.result books.m.func.ops.length 0) place = next at table inserted ⊢
  have func : next.func = books.m.func.insertReshardForConsumer consumer operandIdx layout := by
    rw [← isNext]
    rfl
  have known (op : OpId) (scheduled : op ∈ books.m.data.schedule) : op < books.m.func.ops.length :=
    timetable.known op scheduled
  have fresh (op : OpId) (scheduled : op ∈ books.m.data.schedule) : op ≠ books.m.func.ops.length :=
    Nat.ne_of_lt (known op scheduled)
  have stays (op : OpId) (scheduled : op ∈ books.m.data.schedule) : op ∈ next.data.schedule := by
    obtain ⟨pos, isAt⟩ := List.mem_iff_getElem?.mp scheduled
    exact List.mem_of_getElem? ((inserted.moved pos).trans isAt)
  have isReshard := List.mem_of_getElem? inserted.here
  -- an old value dies where its last reader went
  have due (op number spot : Nat) (opAt : books.m.data.schedule[spot]? = some op) :
      dueAt { m := next, spilled := books.spilled, captured := books.captured } (.result op number) (shifted place spot) =
        shifted place (books.dueAt (.result op number) spot) := by
    have scheduled := List.mem_of_getElem? opAt
    by_cases spilled : Value.result op number ∈ books.spilled
    · rw [dueAt, dueAt, if_pos spilled, if_pos spilled]
    · refine dueAt_eq { m := next, spilled := books.spilled, captured := books.captured } table.distinct _ _ _ spilled ?_
      rw [dueAt, if_neg spilled]
      have notOperand : Value.result op number ≠ spillOutput := fun same => unscheduled op number same.symm scheduled
      have notReshard : Value.result op number ≠ .result books.m.func.ops.length 0 := fun same =>
        fresh op scheduled (Value.result.inj same).1
      refine (lastUse_isLastUse _ _ kept.timetable.distinct _ spot).inserted inserted (fun reader isReader => ?_) ?_
      · dsimp only
        rw [func]
        exact reshard_readers _ _ _ _ _ _ _ operand inDram (known reader isReader) notOperand notReshard
      · dsimp only
        rw [func, getOp, if_neg (Ne.symm (fresh consumer (isConsumer ▸ List.getElem_mem inside))), if_pos rfl]
        exact fun reads => notOperand (List.mem_singleton.mp reads)
  -- the reshard dies right after its consumer
  have dueReshard : dueAt { m := next, spilled := books.spilled, captured := books.captured }
      (.result books.m.func.ops.length 0) place = shifted place place := by
    have unspilled : Value.result books.m.func.ops.length 0 ∉ books.spilled := fun member => by
      obtain ⟨op, number, same, scheduled⟩ := kept.spilled _ member
      exact fresh op scheduled (Value.result.inj same).1.symm
    refine dueAt_eq { m := next, spilled := books.spilled, captured := books.captured } table.distinct _ _ _ unspilled ?_
    have reads (op : OpId) (scheduled : op ∈ books.m.data.schedule)
        (reading : Value.result books.m.func.ops.length 0 ∈ (next.func.getOp op).operands) : op = consumer := by
      rw [func, getOp] at reading
      by_contra other
      rw [if_neg other, if_neg (fresh op scheduled)] at reading
      exact Nat.lt_irrefl _ (timetable.defined op _ ⟨0, reading⟩)
    constructor
    · unfold shifted
      split <;> omega
    · intro spot op isAt reading
      rcases inserted.located op spot isAt with ⟨rfl, _⟩ | ⟨pos, rfl, wasAt⟩
      · unfold shifted
        split <;> omega
      · have isConsumer := reads op (List.mem_of_getElem? wasAt) reading
        subst isConsumer
        rw [timetable.position_unique op pos place wasAt located]
    · refine Or.inr ⟨consumer, (inserted.moved place).trans located, ?_⟩
      dsimp only
      rw [func, getOp, if_pos rfl]
      exact List.mem_iff_getElem?.mpr ⟨operandIdx,
        List.getElem?_set_self (List.getElem?_eq_some_iff.mp operand).1⟩
  have dies (pos : Nat) (value : Value) (listed : value ∈ next.data.deathSchedule (shifted place pos)) :
      value ∈ books.m.data.deathSchedule pos ∨ pos = place ∧ value = .result books.m.func.ops.length 0 :=
    (inserted.dies pos value).mp listed
  constructor
  · rw [func]
    exact table
  · intro spot value listed
    rcases shifted_cases place spot with rfl | ⟨pos, rfl⟩
    · rw [inserted.noDeath] at listed
      cases listed
    · rcases dies pos value listed with was | ⟨_, same⟩
      · obtain ⟨op, number, same, scheduled⟩ := kept.owned pos value was
        exact ⟨op, number, same, stays op scheduled⟩
      · exact ⟨_, 0, same, isReshard⟩
  · intro value member
    obtain ⟨op, number, same, scheduled⟩ := kept.spilled value member
    exact ⟨op, number, same, stays op scheduled⟩
  · intro op number spot isAt typed
    dsimp only at isAt typed ⊢
    rw [func] at typed
    rcases inserted.located op spot isAt with ⟨rfl, rfl⟩ | ⟨pos, rfl, wasAt⟩
    · rw [getOp, if_neg (Ne.symm (fresh consumer (isConsumer ▸ List.getElem_mem inside))), if_pos rfl] at typed
      have zero : number = 0 := by simpa [Operation.tensorResults] using typed
      subst zero
      rw [dueReshard]
      exact (inserted.dies _ _).mpr (Or.inr ⟨rfl, rfl⟩)
    · rw [rewrites.tensorResults op (known op (List.mem_of_getElem? wasAt))] at typed
      rw [due op number pos wasAt]
      exact (inserted.dies _ _).mpr (Or.inl (kept.listed op number pos wasAt typed))
  · intro op number spot isAt behind listed
    dsimp only at isAt listed
    rcases shifted_cases place behind with rfl | ⟨later, rfl⟩
    · rw [inserted.noDeath] at listed
      cases listed
    · rcases inserted.located op spot isAt with ⟨rfl, rfl⟩ | ⟨pos, rfl, wasAt⟩
      · rcases dies later _ listed with was | ⟨rfl, same⟩
        · obtain ⟨owner, _, same, scheduled⟩ := kept.owned later _ was
          exact absurd (Value.result.inj same).1.symm (fresh owner scheduled)
        · cases same
          rw [dueReshard]
      · rw [due op number pos wasAt, shifted_le]
        rcases dies later _ listed with was | ⟨_, same⟩
        · exact kept.notBefore op number pos wasAt later was
        · exact absurd (Value.result.inj same).1 (fresh op (List.mem_of_getElem? wasAt))
  · intro op checkpoint isCaptured
    exact stays op (kept.captured op checkpoint isCaptured)
  · intro key
    dsimp only
    rcases shifted_cases place key with rfl | ⟨pos, rfl⟩
    · rw [inserted.noCheckpoint, inserted.here, Option.bind_some]
      cases isCaptured : books.captured books.m.func.ops.length with
      | none => rfl
      | some checkpoint => exact absurd rfl (fresh _ (kept.captured _ checkpoint isCaptured))
    · rw [inserted.checkpoints, inserted.moved]
      exact kept.checkpoints pos

theorem Kept.recaptured {books : Books τ} (kept : books.Kept) (next : Manager τ)
    (captured : OpId → Option (SweepCheckpoint τ)) (func : next.func = books.m.func) (data : next.data = books.m.data)
    (owned : ∀ op checkpoint, captured op = some checkpoint → op ∈ books.m.data.schedule)
    (checkpoints : ∀ key, next.sweepCheckpoints key = (books.m.data.schedule[key]?).bind captured) :
    Kept { m := next, spilled := books.spilled, captured } := by
  have due (value : Value) (place : Nat) :
      dueAt { m := next, spilled := books.spilled, captured } value place = books.dueAt value place := by
    simp only [dueAt, func, data]
  constructor
  · rw [func, data]
    exact kept.timetable
  · rw [data]
    exact kept.owned
  · rw [data]
    exact kept.spilled
  · rw [func, data]
    simp only [due]
    exact kept.listed
  · rw [data]
    simp only [due]
    exact kept.notBefore
  · rw [data]
    exact owned
  · rw [data]
    exact checkpoints

theorem capture_kept (books : Books τ) (kept : books.Kept) (op place : Nat)
    (located : books.m.data.schedule[place]? = some op) :
    Kept { m := books.m.captureCheckpoint place
           spilled := books.spilled
           captured := Function.update books.captured op
             ((books.m.captureCheckpoint place).sweepCheckpoints place) } := by
  refine kept.recaptured (books.m.captureCheckpoint place) _ rfl rfl (fun other checkpoint isCaptured => ?_)
    fun key => ?_
  · by_cases same : other = op
    · rw [same]
      exact List.mem_of_getElem? located
    · rw [Function.update_of_ne same] at isCaptured
      exact kept.captured other checkpoint isCaptured
  · by_cases here : key = place
    · rw [here, located, Option.bind_some, Function.update_self]
    · have old : (books.m.captureCheckpoint place).sweepCheckpoints key = books.m.sweepCheckpoints key :=
        Function.update_of_ne here _ _
      rw [old, kept.checkpoints]
      cases isAt : books.m.data.schedule[key]? with
      | none => rfl
      | some other =>
          have apart : other ≠ op := fun same =>
            here (kept.timetable.position_unique op key place (same ▸ isAt) located)
          rw [Option.bind_some, Option.bind_some, Function.update_of_ne apart]

theorem restore_kept (books : Books τ) (kept : books.Kept) (place : Nat) (next : Manager τ)
    (restored : books.m.restoreCheckpoint place = .ok next) :
    Kept { m := next
           spilled := books.spilled
           captured := fun op => if (books.m.data.positionMap op).any
             (place < ·) then none else books.captured op } := by
  unfold Manager.restoreCheckpoint at restored
  split at restored
  · cases restored
  · cases restored
    refine kept.recaptured _ _ rfl rfl (fun op checkpoint isCaptured => ?_) fun key => ?_
    · split at isCaptured
      · cases isCaptured
      · exact kept.captured op checkpoint isCaptured
    · dsimp only
      rw [kept.checkpoints]
      cases isAt : books.m.data.schedule[key]? with
      | none => simp
      | some op =>
          have position := (kept.timetable.positions op key).mpr isAt
          simp only [Option.bind_some, position, Option.any_some, decide_eq_true_eq]

theorem Step.kept {hooks : RebuildHooks τ} (rewinds : hooks.usesRewindEviction = true) {books next : Books τ}
    (step : Step hooks books next) (kept : books.Kept) : next.Kept := by
  cases step with
  | shorten op number place located typed => exact shorten_kept hooks rewinds books kept op number place located typed
  | reshard consumer operandIdx place layout spillOutput located operand inDram unscheduled =>
      exact reshard_kept books kept consumer operandIdx place layout spillOutput located operand inDram unscheduled
  | capture op place located => exact capture_kept books kept op place located
  | restore place manager restored => exact restore_kept books kept place manager restored
  | advance manager func data checkpoints =>
      refine kept.recaptured manager books.captured func data kept.captured fun key => ?_
      rw [checkpoints]
      exact kept.checkpoints key

structure Continues (func : Func) (books : Books τ) : Prop where
  schedule : (buildScheduleData func).schedule.Sublist books.m.data.schedule
  results : ∀ op ∈ (buildScheduleData func).schedule,
    (books.m.func.getOp op).tensorResults = (func.getOp op).tensorResults

theorem Step.continues {hooks : RebuildHooks τ} {books next : Books τ} {func : Func} (step : Step hooks books next)
    (kept : books.Kept) (continues : Continues func books) : Continues func next := by
  have known (op : OpId) (scheduled : op ∈ (buildScheduleData func).schedule) : op < books.m.func.ops.length :=
    kept.timetable.known op (continues.schedule.subset scheduled)
  cases step with
  | shorten op number place located typed =>
      obtain ⟨after, schedule, _⟩ := afterSpill_fields hooks books.m (.result op number)
      have rewrites := books.m.func.spillToDramImpl_rewrites (.result op number) none
      constructor
      · dsimp only
        rw [schedule]
        exact continues.schedule
      · intro other scheduled
        dsimp only
        rw [after]
        exact (rewrites.tensorResults other (known other scheduled)).trans (continues.results other scheduled)
  | reshard consumer operandIdx place layout spillOutput located operand inDram unscheduled =>
      have rewrites := books.m.func.insertReshard_rewrites consumer operandIdx layout spillOutput operand inDram
      constructor
      · refine continues.schedule.trans ?_
        change books.m.data.schedule.Sublist (books.m.data.schedule.take place ++ _ :: books.m.data.schedule.drop place)
        conv_lhs => rw [← List.take_append_drop place books.m.data.schedule]
        exact List.Sublist.append_left (List.sublist_cons_self _ _) _
      · intro other scheduled
        exact (rewrites.tensorResults other (known other scheduled)).trans (continues.results other scheduled)
  | capture op place located => exact ⟨continues.schedule, continues.results⟩
  | restore place manager restored =>
      unfold Manager.restoreCheckpoint at restored
      split at restored
      · cases restored
      · cases restored
        exact ⟨continues.schedule, continues.results⟩
  | advance manager after data checkpoints =>
      constructor
      · rw [data]
        exact continues.schedule
      · rw [after]
        exact continues.results

theorem run_kept {hooks : RebuildHooks τ} (rewinds : hooks.usesRewindEviction = true) (func : Func)
    (inOrder : func.InOrder) (memoryTracker : τ) (books : Books τ)
    (run : Relation.ReflTransGen (Step hooks) (start func memoryTracker) books) :
    books.Kept ∧ Continues func books := by
  induction run with
  | refl => exact ⟨start_kept func inOrder memoryTracker, List.Sublist.refl _, fun _ _ => rfl⟩
  | tail _ step ih => exact ⟨step.kept rewinds ih.1, step.continues ih.1 ih.2⟩

end Books

end Books

section Forward
variable {τ : Type} [MemoryTracker τ]

/-- One position of a sweep: the dead are freed, then results of its op come to life. -/
def sweepPosition (admitted : List Value) (m : Manager τ) (pos : Nat) : Manager τ :=
  let m := m.processDeadTensors pos
  { m with liveValues := admitted ∪ m.liveValues }

/-- The sweep over the first positions, with nothing live before. -/
def forwardSweep (m : Manager τ) (births : Nat → List Value) : Nat → Manager τ
  | 0 => { m with liveValues := [] }
  | pos + 1 => sweepPosition (births pos) (forwardSweep m births pos) pos

def Admissible (m : Manager τ) (births : Nat → List Value) : Prop :=
  ∀ pos, ∀ value ∈ births pos, ∃ op, m.data.schedule[pos]? = some op ∧ value ∈ m.func.tensorResults op

def FreedAt (m : Manager τ) (births : Nat → List Value) (value : Value) (pos : Nat) : Prop :=
  value ∈ (forwardSweep m births pos).liveValues ∧ value ∉ ((forwardSweep m births pos).processDeadTensors pos).liveValues

theorem forwardSweep_data (m : Manager τ) (births : Nat → List Value) (pos : Nat) :
    (forwardSweep m births pos).data = m.data := by
  induction pos with
  | zero => rfl
  | succ pos ih => exact (processDeadTensors_fields _ pos).2.1.trans ih

variable {books : Books τ} {births : Nat → List Value} {place : Nat} {value : Value}

theorem forwardSweep_live (kept : books.Kept) (admissible : Admissible books.m births) (admitted : value ∈ births place)
    (pos : Nat) : value ∈ (forwardSweep books.m births pos).liveValues ↔ place < pos ∧
      pos ≤ books.dueAt value place + 1 := by
  obtain ⟨op, located, listed⟩ := admissible place value admitted
  obtain ⟨number, typed, rfl⟩ := List.mem_map.mp listed
  have behind := kept.due_behind (.result op number) place
  induction pos with
  | zero => simp [forwardSweep]
  | succ pos ih =>
      have live := (processDeadTensors_fields (forwardSweep books.m births pos) pos).2.2.2.2.2.2 (.result op number)
      rw [forwardSweep_data] at live
      simp only [forwardSweep, sweepPosition, List.mem_union_iff, live, ih]
      by_cases here : pos = place
      · rw [here]
        exact iff_of_true (Or.inl admitted) (by omega)
      · have elsewhere : .result op number ∉ births pos := fun again => by
          obtain ⟨other, otherAt, isResult⟩ := admissible pos _ again
          obtain ⟨_, _, same⟩ := List.mem_map.mp isResult
          cases same
          exact here (kept.timetable.position_unique op pos place otherAt located)
        rw [or_iff_right elsewhere]
        constructor
        · rintro ⟨⟨began, due⟩, alive⟩
          refine ⟨by omega, ?_⟩
          by_contra late
          have last : pos - 1 = books.dueAt (.result op number) place := by omega
          exact alive (by omega) (last ▸ kept.listed op number place located typed)
        · rintro ⟨began, due⟩
          refine ⟨⟨by omega, by omega⟩, fun _ dead => ?_⟩
          have := kept.notBefore op number place located _ dead
          omega

theorem freedAt_iff (kept : books.Kept) (admissible : Admissible books.m births) (admitted : value ∈ births place)
    (pos : Nat) : FreedAt books.m births value pos ↔ pos = books.dueAt value place + 1 := by
  have window := forwardSweep_live kept admissible admitted pos
  have live := (processDeadTensors_fields (forwardSweep books.m births pos) pos).2.2.2.2.2.2 value
  rw [forwardSweep_data] at live
  obtain ⟨op, located, listed⟩ := admissible place value admitted
  obtain ⟨number, typed, rfl⟩ := List.mem_map.mp listed
  have behind := kept.due_behind (.result op number) place
  rw [FreedAt, live, window]
  constructor
  · rintro ⟨⟨began, due⟩, dead⟩
    by_contra early
    refine dead ⟨⟨began, due⟩, fun _ listed => ?_⟩
    have := kept.notBefore op number place located _ listed
    omega
  · intro now
    refine ⟨by omega, fun alive => alive.2 (by omega) ?_⟩
    rw [now, Nat.add_sub_cancel]
    exact kept.listed op number place located typed

/-- However reshards are inserted and lifetimes shortened: positions and schedule are inverse,
each tensor result of a scheduled op is listed where it is due in the schedule as it is now, and a checkpoint
stands at the position of the op it was taken at. A forward sweep frees a live value when it enters the position after that
one, and at no other; what is due at the last position stays live. -/
theorem bookkeeping_survives (hooks : RebuildHooks τ) (rewinds : hooks.usesRewindEviction = true) (func : Func)
    (inOrder : func.InOrder) (memoryTracker : τ) (books : Books τ)
    (run : Relation.ReflTransGen (Books.Step hooks) (Books.start func memoryTracker) books) :
    (∀ op pos, books.m.data.positionMap op = some pos ↔ books.m.data.schedule[pos]? = some op) ∧
    Books.Continues func books ∧
    (∀ op number place, books.m.data.schedule[place]? = some op → number ∈ (books.m.func.getOp op).tensorResults →
      .result op number ∈ books.m.data.deathSchedule (books.dueAt (.result op number) place)) ∧
    (∀ key, books.m.sweepCheckpoints key = (books.m.data.schedule[key]?).bind books.captured) ∧
    ∀ births, Admissible books.m births → ∀ place, ∀ value ∈ births place, ∀ pos,
      (value ∈ (forwardSweep books.m births pos).liveValues ↔ place < pos ∧ pos ≤ books.dueAt value place + 1) ∧
      (FreedAt books.m births value pos ↔ pos = books.dueAt value place + 1) := by
  obtain ⟨kept, continues⟩ := Books.run_kept rewinds func inOrder memoryTracker books run
  refine ⟨kept.timetable.positions, continues, kept.listed, kept.checkpoints, ?_⟩
  intro births admissible place value admitted pos
  exact ⟨forwardSweep_live kept admissible admitted pos, freedAt_iff kept admissible admitted pos⟩

def readerChainBooks : Books MockAllocatorL1Tracker :=
  let spilled := (Books.start readerChain (MockAllocatorL1Tracker.init 4096)).m.afterSpill Stateful.rebuildHooks (.result 0 0)
  let layout : TTNNLayout := { bufferType := .l1, memLayout := .heightSharded, perCoreL1Usage := 1024 }
  { m := (spilled.resharded 1 0 layout).insertReshardIntoSchedule spilled.func.ops.length
      (.result spilled.func.ops.length 0) 1
    spilled := [.result 0 0]
    captured := fun _ => none }

theorem readerChainBooks_run : Relation.ReflTransGen (Books.Step Stateful.rebuildHooks)
    (Books.start readerChain (MockAllocatorL1Tracker.init 4096)) readerChainBooks := by
  refine Relation.ReflTransGen.tail (Relation.ReflTransGen.single (.shorten _ 0 0 0 rfl (by decide)))
    (.reshard _ 1 0 1 _ (.result 2 0) rfl rfl rfl fun op number same scheduled => ?_)
  cases same
  revert scheduled
  decide

/-- The spilled tensor is freed before the reshard that takes the next position. -/
theorem bookkeeping_survives_readerChain : readerChainBooks.m.data.schedule = [0, 3, 1] ∧
    ∀ pos, FreedAt readerChainBooks.m (fun place => if place = 0 then [.result 0 0] else []) (.result 0 0) pos ↔ pos = 1 := by
  refine ⟨by decide, fun pos => ?_⟩
  have survives := bookkeeping_survives Stateful.rebuildHooks rfl readerChain readerChain_inOrder _ readerChainBooks
    readerChainBooks_run
  refine (survives.2.2.2.2 _ (fun place value admitted => ?_) 0 (.result 0 0) (by decide) pos).2
  split at admitted
  · rename_i first
    subst first
    rw [List.mem_singleton.mp admitted]
    exact ⟨0, rfl, by decide⟩
  · cases admitted

/-- Nothing is freed after the last position of the schedule. -/
theorem forwardSweep_keeps_last : readerChain.InOrder ∧
    ¬ ∀ books : Books MockAllocatorL1Tracker,
      Relation.ReflTransGen (Books.Step Stateful.rebuildHooks)
        (Books.start readerChain (MockAllocatorL1Tracker.init 4096)) books →
      ∀ births, Admissible books.m births → ∀ place, ∀ value ∈ births place,
        ∃ pos < books.m.data.schedule.length, FreedAt books.m births value pos := by
  refine ⟨readerChain_inOrder, fun freed => ?_⟩
  obtain ⟨pos, visited, live, _⟩ := freed _ Relation.ReflTransGen.refl
    (fun place => if place = 1 then [.result 1 0] else []) (fun place value admitted => by
      dsimp only at admitted
      split at admitted
      · rename_i last
        subst last
        rw [List.mem_singleton.mp admitted]
        exact ⟨1, rfl, by decide⟩
      · cases admitted) 1 (.result 1 0) (by decide)
  have short : (Books.start readerChain (MockAllocatorL1Tracker.init 4096)).m.data.schedule.length = 2 := by decide
  rw [short] at visited
  rcases (by omega : pos = 0 ∨ pos = 1) with rfl | rfl
  · exact absurd live (by decide)
  · exact absurd live (by decide)

end Forward

end TtMlir.Spill
