import TtMlir.Library.Outcome
import TtMlir.Spill.AddressSim
import TtMlir.Spill.Rewrites

/-!
The full flush before an op the backend cannot model: every live value is
spilled in front of the op, the log counts for nothing any more and the tracker
is empty, whatever the consumers that are validated again come to.
-/

namespace TtMlir.Spill

section Flush
variable {τ : Type} [MemoryTracker τ]

/-- What is known of an emptied tracker: validations keep it, and replacing
results in it does not fail. -/
structure Emptied (setting : Setting) (emptied : τ → Prop) : Prop where
  init : emptied (MemoryTracker.init setting.l1BudgetPerCore)
  accept : ∀ tracker op result, emptied tracker → emptied (MemoryTracker.accept tracker op result).2
  replace : ∀ tracker func perResultL1 (results : List Value), emptied tracker →
    ∃ next, results.foldlM (Manager.replaceResult func perResultL1) tracker = some next ∧ emptied next

/-- The manager after a flush. -/
structure Flushed (emptied : τ → Prop) (before after : Manager τ) : Prop where
  rewrites : before.func.Rewrites after.func
  data : after.data = before.data
  checkpoints : after.sweepCheckpoints = before.sweepCheckpoints
  index : after.allocEventIndex = before.allocEventIndex
  inserted : after.insertedReshardValues = before.insertedReshardValues
  evictions : after.evictions = before.evictions
  live : after.liveValues = []
  log : after.l1EventLog = before.l1EventLog.map fun event => { event with skipped := true }
  tracker : emptied after.memoryTracker

variable {setting : Setting} {emptied : τ → Prop} (rule : Emptied setting emptied) {start : Manager τ}

section
include rule

theorem revalidateConsumer_flushed (m : Manager τ) (currentPos : Nat) (consumer : OpId)
    (flushed : Flushed emptied start m) :
    Ends (fun _ => False) (fun result => Flushed emptied start result.1)
      (m.revalidateConsumer setting currentPos consumer) := by
  have validated : Flushed emptied start (m.validate setting consumer).2 :=
    ⟨flushed.rewrites, flushed.data, flushed.checkpoints, flushed.index, flushed.inserted, flushed.evictions,
      flushed.live, flushed.log, rule.accept _ _ _ flushed.tracker⟩
  unfold Manager.revalidateConsumer
  simp only
  split
  · exact flushed
  · split
    · exact flushed
    · split
      · rename_i outputLayout changed
        have relaid := ((m.validate setting consumer).2.func.applyOutputConfig_rewrites consumer
          (m.validate setting consumer).1.actualOutputLayouts)
        generalize (m.validate setting consumer).2.func.applyOutputConfig consumer
          (m.validate setting consumer).1.actualOutputLayouts = func at relaid
        obtain ⟨next, replaced, kept⟩ := rule.replace _ func
          (if (func.getOp consumer).tensorResults.length > 0 then
            (m.validate setting consumer).1.outputL1Usage / (func.getOp consumer).tensorResults.length else 0)
          ((List.range (func.getOp consumer).results.length).map (Value.result consumer)) validated.tracker
        rw [replaced]
        exact ⟨validated.rewrites.trans relaid, validated.data, validated.checkpoints, validated.index,
          validated.inserted, validated.evictions, validated.live, validated.log, kept⟩
      · exact validated

theorem revalidateList_flushed (currentPos : Nat) (consumers : List OpId) (m : Manager τ)
    (worklist : List OpId) (flushed : Flushed emptied start m) :
    Ends (fun _ => False) (fun result => Flushed emptied start result.1)
      (m.revalidateList setting currentPos consumers worklist) := by
  induction consumers generalizing m worklist with
  | nil => exact flushed
  | cons consumer rest ih =>
      exact ends_bind (revalidateConsumer_flushed rule m currentPos consumer flushed)
        fun result kept => ih result.1 _ kept

theorem revalidateWorklist_flushed (currentPos fuel : Nat) (m : Manager τ) (worklist visited : List OpId)
    (flushed : Flushed emptied start m) :
    Ends (fun _ => False) (Flushed emptied start)
      (m.revalidateWorklist setting currentPos fuel worklist visited) := by
  induction fuel generalizing m worklist visited with
  | zero => exact flushed
  | succ fuel ih =>
      rw [Manager.revalidateWorklist]
      split
      · exact flushed
      · exact ends_bind (revalidateList_flushed rule currentPos _ m _ flushed)
          fun result kept => ih result.1 _ _ kept

end

theorem flushValues_fields (trigger : OpId) (victims : List Value) (m : Manager τ) :
    let next := victims.foldl (Manager.flushValue trigger) m
    m.func.Rewrites next.func ∧ next.data = m.data ∧ next.sweepCheckpoints = m.sweepCheckpoints ∧
      next.allocEventIndex = m.allocEventIndex ∧ next.insertedReshardValues = m.insertedReshardValues ∧
      next.evictions = m.evictions ∧ next.l1EventLog = m.l1EventLog := by
  induction victims generalizing m with
  | nil => exact ⟨Func.Rewrites.refl m.func, rfl, rfl, rfl, rfl, rfl, rfl⟩
  | cons victim rest ih =>
      obtain ⟨rewrites, fields⟩ := ih (Manager.flushValue trigger m victim)
      exact ⟨(m.func.spillToDramImpl_rewrites victim (some trigger)).trans rewrites, fields⟩

include rule in
theorem evictAllFromL1_flushed (m : Manager τ) (pos : Nat) (trigger : OpId) :
    ∃ next, m.evictAllFromL1 setting pos trigger = .ok next ∧ Flushed emptied m next := by
  obtain ⟨rewrites, data, checkpoints, index, inserted, evictions, log⟩ := flushValues_fields trigger m.liveValues m
  refine ends_total (ends_foldlM _ _
    (fun next flushed _ _ => revalidateWorklist_flushed rule pos _ next _ _ flushed) _ ?_)
  refine ⟨rewrites, data, checkpoints, index, inserted, evictions, rfl, ?_, rule.init⟩
  exact congrArg (List.map fun event => { event with skipped := true }) log

end Flush

theorem sum_emptied (setting : Setting) :
    Emptied setting fun tracker : SumL1MemoryTracker => tracker = .init setting.l1BudgetPerCore := by
  constructor
  · rfl
  · exact fun tracker op result emptied => emptied
  · intro tracker func perResultL1 results emptied
    refine ⟨tracker, ?_, emptied⟩
    induction results with
    | nil => rfl
    | cons result rest ih =>
        have untracked : MemoryTracker.hasTensor tracker result = false := by
          rw [emptied]
          rfl
        simpa [List.foldlM_cons, Manager.replaceResult, untracked] using ih

theorem mock_emptied (setting : Setting) : Emptied setting fun _ : MockAllocatorL1Tracker => True := by
  constructor
  · trivial
  · exact fun _ _ _ _ => trivial
  · intro tracker func perResultL1 results _
    induction results generalizing tracker with
    | nil => exact ⟨tracker, rfl, trivial⟩
    | cons result rest ih =>
        have replaces : ∃ next, Manager.replaceResult func perResultL1 tracker result = some next := by
          unfold Manager.replaceResult
          split <;> exact ⟨_, rfl⟩
        obtain ⟨next, first⟩ := replaces
        obtain ⟨last, replaced, _⟩ := ih next
        refine ⟨last, ?_, trivial⟩
        rw [List.foldlM_cons, first]
        exact replaced

end TtMlir.Spill
