import TtMlir.Library.EventLog
import TtMlir.Spill.Manager
import TtMlir.Spill.Rewrites

/-!
The schedule next to the function: every op stands behind the ops it reads.
Evicting a value rewrites both, and the rule at the end reduces whatever holds
throughout an eviction to the single reshards it inserts.
-/

namespace TtMlir.Spill

/-- The schedule names ops of the function in an order that respects their
operands, and the position map agrees with it. -/
structure Timetable (func : Func) (data : ScheduleData) : Prop where
  positions : ∀ op pos, data.positionMap op = some pos ↔ data.schedule[pos]? = some op
  ordered : data.schedule.Pairwise fun first second => first ≠ second ∧ ¬ func.Reads first second
  irreflexive : ∀ op ∈ data.schedule, ¬ func.Reads op op
  known : ∀ op ∈ data.schedule, op < func.ops.length
  defined : func.Defined

namespace Timetable
variable {func : Func} {data : ScheduleData}

theorem reads_before (timetable : Timetable func data) (reader producer : OpId) (late early : Nat)
    (readerAt : data.schedule[late]? = some reader) (producerAt : data.schedule[early]? = some producer)
    (reads : func.Reads reader producer) : early < late := by
  by_contra notBefore
  obtain ⟨inside, isReader⟩ := List.getElem?_eq_some_iff.mp readerAt
  obtain ⟨present, isProducer⟩ := List.getElem?_eq_some_iff.mp producerAt
  rcases Nat.eq_or_lt_of_le (Nat.le_of_not_lt notBefore) with same | later
  · subst same
    rw [isReader] at isProducer
    subst isProducer
    exact timetable.irreflexive reader (isReader ▸ List.getElem_mem inside) reads
  · have apart := List.pairwise_iff_getElem.mp timetable.ordered late early inside present later
    rw [isReader, isProducer] at apart
    exact apart.2 reads

theorem position_unique (timetable : Timetable func data) (op : OpId) (first second : Nat)
    (one : data.schedule[first]? = some op) (two : data.schedule[second]? = some op) : first = second := by
  have located := (timetable.positions op first).mpr one
  rw [(timetable.positions op second).mpr two] at located
  exact (Option.some.inj located).symm

theorem distinct (timetable : Timetable func data) : data.schedule.Nodup := timetable.ordered.imp fun apart => apart.1

theorem congr {other : ScheduleData} (timetable : Timetable func data) (schedule : other.schedule = data.schedule)
    (positionMap : other.positionMap = data.positionMap) : Timetable func other := by
  constructor
  · rw [schedule, positionMap]
    exact timetable.positions
  · rw [schedule]
    exact timetable.ordered
  · rw [schedule]
    exact timetable.irreflexive
  · rw [schedule]
    exact timetable.known
  · exact timetable.defined

theorem rewritten {after : Func} (timetable : Timetable func data) (rewrites : func.Rewrites after) :
    Timetable after data := by
  have reads (reader producer : OpId) (isReader : reader ∈ data.schedule) (isProducer : producer ∈ data.schedule) :=
    rewrites.reads reader producer (timetable.known reader isReader) (timetable.known producer isProducer)
  constructor
  · exact timetable.positions
  · refine List.Pairwise.imp_of_mem ?_ timetable.ordered
    intro first second isFirst isSecond apart
    exact ⟨apart.1, fun reading => apart.2 (reads first second isFirst isSecond reading)⟩
  · exact fun op member reading => timetable.irreflexive op member (reads op op member member reading)
  · exact fun op member => Nat.lt_of_lt_of_le (timetable.known op member) rewrites.grows
  · exact rewrites.defined timetable.defined

end Timetable

structure Func.InOrder (func : Func) : Prop where
  ordered : func.body.Pairwise fun first second => first ≠ second ∧ ¬ func.Reads first second
  irreflexive : ∀ op ∈ func.body, ¬ func.Reads op op
  known : ∀ op ∈ func.body, op < func.ops.length
  defined : func.Defined

theorem Func.defined_of_ops (func : Func)
    (known : ∀ operation ∈ func.ops, ∀ value ∈ operation.operands, ∀ producer ∈ value.getDefiningOp,
      producer < func.ops.length) : func.Defined := by
  rintro reader producer ⟨number, member⟩
  by_cases inside : reader < func.ops.length
  · rw [Func.getOp, List.getD_eq_getElem?_getD, List.getElem?_eq_getElem inside] at member
    exact known _ (List.getElem_mem inside) _ member producer rfl
  · rw [func.getOp_outside reader (Nat.le_of_not_lt inside)] at member
    cases member

instance (func : Func) (reader producer : OpId) : Decidable (func.Reads reader producer) :=
  decidable_of_iff (∃ value ∈ (func.getOp reader).operands, value.getDefiningOp = some producer) (by
    constructor
    · rintro ⟨value, member, produced⟩
      cases value with
      | argument index => cases produced
      | result op number =>
          cases produced
          exact ⟨number, member⟩
    · rintro ⟨number, member⟩
      exact ⟨_, member, rfl⟩)

def readerChain : Func :=
  let sharded : Option TTNNLayout := some { bufferType := .l1, memLayout := .heightSharded, perCoreL1Usage := 1024 }
  { ops := [{ kind := .other true, operands := [], results := [sharded] },
      { kind := .other true, operands := [.result 0 0], results := [sharded] }]
    body := [0, 1] }

theorem readerChain_inOrder : readerChain.InOrder := by
  constructor
  · decide
  · decide
  · decide
  · exact readerChain.defined_of_ops (by decide)

theorem buildScheduleData_timetable (func : Func) (inOrder : func.InOrder) :
    Timetable func (buildScheduleData func) := by
  have ordered := inOrder.ordered.filter fun op => (func.getOp op).isBeamSearchTarget
  have distinct : (buildScheduleData func).schedule.Nodup := ordered.imp fun apart => apart.1
  constructor
  · intro op pos
    simp only [buildScheduleData] at distinct ⊢
    constructor
    · intro found
      split at found
      · rename_i member
        cases found
        exact List.getElem?_idxOf member
      · cases found
    · intro found
      obtain ⟨inside, isOp⟩ := List.getElem?_eq_some_iff.mp found
      rw [if_pos (List.mem_of_getElem? found), ← isOp, distinct.idxOf_getElem]
  · exact ordered
  · exact fun op member => inOrder.irreflexive op (List.mem_of_mem_filter member)
  · exact fun op member => inOrder.known op (List.mem_of_mem_filter member)
  · exact inOrder.defined

section Insertion
variable {τ : Type} [MemoryTracker τ]

/-- The manager once an operand of the consumer has been put back into L1, with
the backend asked about the reshard. -/
def Manager.resharded (m : Manager τ) (consumer : OpId) (operandIdx : Nat) (layout : TTNNLayout) : Manager τ :=
  { m with func := m.func.insertReshardForConsumer consumer operandIdx layout, asked := m.asked + 1 }

theorem Timetable.inserted (m : Manager τ) (timetable : Timetable m.func m.data) (consumer : OpId)
    (operandIdx place : Nat) (layout : TTNNLayout) (spillOutput : Value)
    (operand : (m.func.getOp consumer).operands[operandIdx]? = some spillOutput)
    (inDram : (m.func.getLayout spillOutput).any (·.hasL1BufferType) = false)
    (located : m.data.schedule[place]? = some consumer) :
    Timetable (m.func.insertReshardForConsumer consumer operandIdx layout)
      ((m.resharded consumer operandIdx layout).insertReshardIntoSchedule m.func.ops.length
        (.result m.func.ops.length 0) place).data := by
  have rewrites := m.func.insertReshard_rewrites consumer operandIdx layout spillOutput operand inDram
  have getOp := m.func.insertReshard_getOp consumer operandIdx layout spillOutput operand inDram
  have length := m.func.insertReshard_length consumer operandIdx layout spillOutput operand inDram
  have kept := timetable.rewritten rewrites
  obtain ⟨inside, atPlace⟩ := List.getElem?_eq_some_iff.mp located
  have known (op : OpId) (member : op ∈ m.data.schedule) : op ≠ m.func.ops.length :=
    Nat.ne_of_lt (timetable.known op member)
  have consumerKnown := known consumer (atPlace ▸ List.getElem_mem inside)
  have split := kept.ordered
  rw [← List.take_append_drop place m.data.schedule, List.pairwise_append] at split
  obtain ⟨early, late, across⟩ := split
  -- the reshard reads what its consumer read
  have behind (op : OpId) (member : op ∈ m.data.schedule.drop place) :
      ¬ (m.func.insertReshardForConsumer consumer operandIdx layout).Reads m.func.ops.length op := by
    rintro ⟨number, reading⟩
    rw [getOp, if_neg (Ne.symm consumerKnown), if_pos rfl] at reading
    obtain ⟨idx, found⟩ := List.mem_iff_getElem?.mp member
    rw [List.getElem?_drop] at found
    have reads : m.func.Reads consumer op :=
      ⟨number, List.mem_iff_getElem?.mpr ⟨operandIdx, (List.mem_singleton.mp reading) ▸ operand⟩⟩
    have before := timetable.reads_before consumer op place (place + idx) located found reads
    omega
  have unread (op : OpId) (member : op ∈ m.data.schedule.take place) :
      ¬ (m.func.insertReshardForConsumer consumer operandIdx layout).Reads op m.func.ops.length := by
    rintro ⟨number, reading⟩
    obtain ⟨idx, found⟩ := List.mem_iff_getElem?.mp member
    have other : op ≠ consumer := by
      intro same
      subst same
      rw [List.getElem?_take] at found
      split at found
      · have same := timetable.position_unique op idx place found located
        omega
      · cases found
    rw [getOp, if_neg other, if_neg (known op (List.mem_of_mem_take member))] at reading
    exact Nat.lt_irrefl _ (timetable.defined op m.func.ops.length ⟨number, reading⟩)
  constructor
  · intro op pos
    have lookup := getElem?_insertAt m.data.schedule place pos m.func.ops.length (Nat.le_of_lt inside)
    simp only [Manager.insertReshardIntoSchedule, Manager.resharded]
    rw [show m.data.schedule.take place ++ m.func.ops.length :: m.data.schedule.drop place =
      insertAt m.data.schedule place m.func.ops.length from rfl, lookup]
    by_cases new : op = m.func.ops.length
    · subst new
      rw [Function.update_self]
      constructor
      · intro same
        cases same
        rw [if_neg (Nat.lt_irrefl _), if_pos rfl]
      · intro found
        split at found
        · exact absurd rfl (known _ (List.mem_of_getElem? found))
        · split at found
          · rename_i same
            rw [same]
          · exact absurd rfl (known _ (List.mem_of_getElem? found))
    · rw [Function.update_of_ne new, Option.map_eq_some_iff]
      constructor
      · rintro ⟨old, found, shifted⟩
        have foundAt := (timetable.positions op old).mp found
        subst shifted
        by_cases later : place ≤ old
        · rw [if_pos later, if_neg (by omega), if_neg (by omega)]
          exact foundAt
        · rw [if_neg later, if_pos (by omega)]
          exact foundAt
      · intro found
        split at found
        · rename_i before
          exact ⟨pos, (timetable.positions op pos).mpr found, if_neg (by omega)⟩
        · split at found
          · exact absurd (Option.some.inj found).symm new
          · refine ⟨pos - 1, (timetable.positions op (pos - 1)).mpr found, ?_⟩
            rw [if_pos (by omega)]
            omega
  · refine List.pairwise_append.mpr ⟨early, List.pairwise_cons.mpr ⟨?_, late⟩, ?_⟩
    · intro op member
      exact ⟨Ne.symm (known op (List.mem_of_mem_drop member)), behind op member⟩
    · intro first isFirst second isSecond
      rcases List.mem_cons.mp isSecond with new | old
      · rw [new]
        exact ⟨known first (List.mem_of_mem_take isFirst), unread first isFirst⟩
      · exact across first isFirst second old
  · intro op member reading
    rcases List.mem_append.mp member with front | back
    · exact kept.irreflexive op (List.mem_of_mem_take front) reading
    · rcases List.mem_cons.mp back with new | old
      · rw [new] at reading
        obtain ⟨number, reads⟩ := reading
        rw [getOp, if_neg (Ne.symm consumerKnown), if_pos rfl] at reads
        have read := List.mem_iff_getElem?.mpr ⟨operandIdx, (List.mem_singleton.mp reads) ▸ operand⟩
        exact Nat.lt_irrefl _ (timetable.defined consumer m.func.ops.length ⟨number, read⟩)
      · exact kept.irreflexive op (List.mem_of_mem_drop old) reading
  · intro op member
    rw [length]
    rcases List.mem_append.mp member with front | back
    · exact Nat.lt_succ_of_lt (timetable.known op (List.mem_of_mem_take front))
    · rcases List.mem_cons.mp back with new | old
      · rw [new]
        exact Nat.lt_succ_self _
      · exact Nat.lt_succ_of_lt (timetable.known op (List.mem_of_mem_drop old))
  · exact kept.defined

end Insertion

end TtMlir.Spill
