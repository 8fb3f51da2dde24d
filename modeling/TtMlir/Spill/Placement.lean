import TtMlir.Spill.Flush
import TtMlir.Spill.Sweep

/-!
Whether placing an output can break the allocator's contract. The sweep checks
that the total size of an output fits as one block and then allocates an even,
separately aligned share of it for every tensor result.
-/

namespace TtMlir.Spill

def NotUnplaceable (failure : Failure) : Prop := failure ≠ .noContiguousBlock

namespace Placement
variable (setting : Setting)

/-- The checked size is placed through the source's slot or has a free block. -/
def Fits (m : SumManager) (op : OpId) (l1Size : Nat) : Prop :=
  AddressSim.willAliasSourceInL1 m op = true ∨ (m.memoryTracker.wouldAllocateAt l1Size).isSome = true

def HasRoom (m : SumManager) (op : OpId) (l1Size : Nat) : Prop :=
  let tensorResults := m.func.tensorResults op
  let perResultL1 := l1Size / tensorResults.length
  AddressSim.willAliasSourceInL1 m op = true ∨ perResultL1 = 0 ∨ m.memoryTracker.l1Budget = 0 ∨
    tensorResults.length ≤ capacity (alignedSize perResultL1) m.memoryTracker.addresses.freeList

theorem replay_notUnplaceable (m : SumManager) (startIdx : Nat) :
    Ends NotUnplaceable (fun _ => True) (AddressSim.replayFrom m startIdx) := by
  unfold AddressSim.replayFrom
  cases m.addressSnapshots startIdx with
  | none => exact fun same => by cases same
  | some snapshot => exact trivial

theorem evictValue_notUnplaceable (m : SumManager) (victim : Value) (pos : Nat) (campaignMin : Option Nat)
    (skipReshardConsumer : Option OpId) : Ends NotUnplaceable (fun _ => True)
      (m.evictValue setting AddressSim.rebuildHooks victim pos campaignMin skipReshardConsumer) := by
  unfold Manager.evictValue Manager.markEvictedAndRebuild
  simp only [AddressSim.rebuildHooks, Bool.false_eq_true, ↓reduceIte]
  split
  · exact fun same => by cases same
  · exact ends_bind (replay_notUnplaceable _ _) fun _ _ => trivial

theorem evictLoop_notUnplaceable {α : Type} (pos fuel : Nat) (probe : SumManager → α × SumManager)
    (shouldStop : α → Bool) (m : SumManager) (campaignMin : Option Nat) (rebuildPlacedAll : Bool) :
    Ends NotUnplaceable (fun _ => True)
      (m.evictLoop setting AddressSim.rebuildHooks pos probe shouldStop fuel campaignMin rebuildPlacedAll) := by
  induction fuel generalizing m campaignMin rebuildPlacedAll with
  | zero => exact trivial
  | succ fuel ih =>
      simp only [Manager.evictLoop]
      generalize Manager.probeStop probe shouldStop m rebuildPlacedAll = probed
      obtain ⟨stop, probed⟩ := probed
      simp only
      split
      · exact trivial
      · generalize probed.evictFarthestUse setting = popped
        obtain ⟨_ | victim, next⟩ := popped
        · exact trivial
        · exact ends_bind (evictValue_notUnplaceable setting next victim pos campaignMin none)
            fun _ _ => ih _ _ _

theorem evictUntilTracker_stops (m : SumManager) (pos : Nat) (shouldStop : SumL1MemoryTracker → Bool) :
    Ends NotUnplaceable (fun result => result.2 = some true → shouldStop result.1.memoryTracker = true)
      (AddressSim.evictUntilTracker setting m pos shouldStop) := by
  refine ends_bind (evictLoop_notUnplaceable setting pos _ _ _ m none true) fun result _ => ?_
  obtain ⟨next, rebuildPlacedAll⟩ := result
  cases rebuildPlacedAll with
  | true => exact fun stopped => Option.some.inj stopped
  | false => exact fun stopped => by cases stopped

theorem evictForDramCBGrowth_notUnplaceable (m : SumManager) (op : OpId) (pos : Nat) :
    Ends NotUnplaceable (fun _ => True) (AddressSim.evictForDramCBGrowth setting m op pos) := by
  unfold AddressSim.evictForDramCBGrowth
  simp only
  split
  · exact trivial
  · refine ends_bind (evictUntilTracker_stops setting _ _ _) fun _ _ => ?_
    split <;> exact trivial

def Handled (op : OpId) (result : SumManager × Nat) : Prop := Fits result.1 op result.2

theorem fits_zero (m : SumManager) (op : OpId) : Fits m op 0 := by
  refine Or.inr ?_
  simp [SumL1MemoryTracker.wouldAllocateAt, AddressState.wouldAllocateAt]

theorem demoteSelf_handled (m : SumManager) (op : OpId) (pos : Nat) :
    Ends NotUnplaceable (Handled op) (AddressSim.demoteSelf setting m op pos) :=
  ends_bind (evictForDramCBGrowth_notUnplaceable setting _ op pos) fun m _ => fits_zero m op

theorem revalidateFit_handled (m : SumManager) (op : OpId) :
    (AddressSim.revalidateFit setting m op).2.2.memoryTracker = m.memoryTracker ∧
    ((AddressSim.revalidateFit setting m op).2.1 = true →
      Handled op (AddressSim.applyFit (AddressSim.revalidateFit setting m op).2.2 op
        (AddressSim.revalidateFit setting m op).1)) := by
  refine ⟨rfl, fun fits => Or.inr ?_⟩
  simp only [AddressSim.revalidateFit, Bool.and_eq_true, Bool.or_eq_true, decide_eq_true_eq] at fits
  rcases fits.2 with zero | placed
  · simp [AddressSim.applyFit, AddressSim.revalidateFit, zero, SumL1MemoryTracker.wouldAllocateAt,
      AddressState.wouldAllocateAt]
  · exact placed

theorem handleNoFit_handled (m : SumManager) (op : OpId) (pos outputL1Size : Nat) :
    Ends NotUnplaceable (Handled op) (AddressSim.handleNoFit setting m op pos outputL1Size) := by
  refine ends_bind (evictUntilTracker_stops setting m pos _) fun result _ => ?_
  obtain ⟨evicted, answer⟩ := result
  simp only
  split
  · exact fits_zero evicted op
  · split
    · exact demoteSelf_handled setting evicted op pos
    · have checked := (revalidateFit_handled setting evicted op).2
      generalize AddressSim.revalidateFit setting evicted op = validated at checked
      obtain ⟨freshResult, fits, next⟩ := validated
      simp only at checked ⊢
      split
      · next accepted => exact checked accepted
      · exact demoteSelf_handled setting next op pos

theorem spillSiblings_notUnplaceable (op : OpId) (pos : Nat) (victims : List Value) (m : SumManager)
    (campaignMin : Option Nat) (placedAll : Bool) :
    Ends NotUnplaceable (fun _ => True)
      (AddressSim.spillSiblings setting op pos victims m campaignMin placedAll) := by
  induction victims generalizing m campaignMin placedAll with
  | nil => exact trivial
  | cons victim rest ih => exact ends_bind (evictValue_notUnplaceable setting m _ _ _ _) fun _ _ => ih _ _ _

theorem handleFragmentation_handled (m : SumManager) (op : OpId) (pos cbPeakUsage outputL1Size : Nat) :
    Ends NotUnplaceable (Handled op)
      (AddressSim.handleFragmentation setting m op pos cbPeakUsage outputL1Size) := by
  refine ends_bind (evictUntilTracker_stops setting m pos _) fun result stops => ?_
  obtain ⟨evicted, answer⟩ := result
  simp only at stops ⊢
  split
  · exact fits_zero evicted op
  · split
    · split
      · split
        · exact fits_zero _ op
        · exact fits_zero _ op
      · exact demoteSelf_handled setting evicted op pos
    · next stopped =>
      have placed : (evicted.memoryTracker.wouldAllocateAt outputL1Size).isSome = true := by
        have met := stops (not_not.mp stopped)
        cases placed : evicted.memoryTracker.wouldAllocateAt outputL1Size with
        | none => simp [placed] at met
        | some address => rfl
      have checked := revalidateFit_handled setting evicted op
      generalize AddressSim.revalidateFit setting evicted op = validated at checked
      obtain ⟨freshResult, fits, next⟩ := validated
      simp only at checked ⊢
      split
      · next accepted => exact checked.2 accepted
      · split
        -- the sharded output keeps the size the eviction made room for
        · exact Or.inr (checked.1 ▸ placed)
        · split
          · refine ends_bind (spillSiblings_notUnplaceable setting op pos _ next none true) fun result _ => ?_
            obtain ⟨spilled, fitsAfterSiblingSpill⟩ := result
            cases fitsAfterSiblingSpill with
            | true => exact demoteSelf_handled setting spilled op pos
            | false => exact fits_zero _ op
          · exact demoteSelf_handled setting next op pos

theorem makeRoom_handled (m : SumManager) (op : OpId) (pos l1Size : Nat) :
    Ends NotUnplaceable (Handled op) (AddressSim.makeRoom setting m op pos l1Size) := by
  unfold AddressSim.makeRoom
  split
  · next placed => exact Or.inr placed
  · exact handleNoFit_handled setting m op pos l1Size

theorem ensureFitsL1_handled (m : SumManager) (op : OpId) (pos cbPeakUsage l1Size : Nat) :
    Ends NotUnplaceable (Handled op) (AddressSim.ensureFitsL1 setting m op pos cbPeakUsage l1Size) := by
  unfold AddressSim.ensureFitsL1
  split
  · next aliased => exact Or.inl aliased
  · refine ends_bind (makeRoom_handled setting m op pos l1Size) fun result handled => ?_
    obtain ⟨roomy, size⟩ := result
    simp only
    split
    · exact handleFragmentation_handled setting roomy op pos cbPeakUsage size
    · exact handled

def commits (results : List Value) (perResultL1 : Nat) (m : SumManager) : Except Failure SumManager :=
  results.foldlM (fun m result => AddressSim.commitAllocation m result perResultL1) m

theorem commits_cons (result : Value) (rest : List Value) (perResultL1 : Nat) (m : SumManager)
    (memoryTracker : SumL1MemoryTracker) (placed : AddressSim.placeResult m result perResultL1 = some memoryTracker) :
    commits (result :: rest) perResultL1 m =
      commits rest perResultL1 (AddressSim.recordCommit m result perResultL1 memoryTracker) := by
  rw [commits, List.foldlM_cons, AddressSim.commitAllocation, placed]
  rfl

theorem placeResult_aliased (m : SumManager) (val src : Value) (perResultL1 : Nat)
    (aliased : AddressSim.aliasedSource m val = some src) :
    AddressSim.placeResult m val perResultL1 = some (m.memoryTracker.addTensorAtAddress val perResultL1 src) := by
  rw [AddressSim.placeResult, aliased]

theorem placeResult_fresh (m : SumManager) (val : Value) (perResultL1 : Nat)
    (unaliased : AddressSim.aliasedSource m val = none) :
    AddressSim.placeResult m val perResultL1 = m.memoryTracker.addTensor val perResultL1 := by
  rw [AddressSim.placeResult, unaliased]

theorem commits_aliased (op : OpId) (perResultL1 : Nat) (numbers : List Nat) (m : SumManager)
    (aliased : AddressSim.willAliasSourceInL1 m op = true) :
    ∃ next, commits (numbers.map (Value.result op)) perResultL1 m = .ok next := by
  induction numbers generalizing m with
  | nil => exact ⟨m, rfl⟩
  | cons number rest ih =>
      obtain ⟨src, found⟩ := Option.isSome_iff_exists.mp aliased
      obtain ⟨source, placed⟩ := Option.filter_eq_some_iff.mp found
      have here := placeResult_aliased m (.result op number) src perResultL1 found
      have still : AddressSim.willAliasSourceInL1 (AddressSim.recordCommit m (.result op number) perResultL1
          (m.memoryTracker.addTensorAtAddress (.result op number) perResultL1 src)) op = true := by
        refine Option.isSome_iff_exists.mpr ⟨src, Option.filter_eq_some_iff.mpr ⟨source, ?_⟩⟩
        exact AddressState.hasTensorAddress_aliasing _ _ _ _ placed
      rw [List.map_cons, commits_cons _ _ _ _ _ here]
      exact ih _ still

theorem commits_trivial (perResultL1 : Nat) (results : List Value) (m : SumManager)
    (nothing : perResultL1 = 0 ∨ m.memoryTracker.l1Budget = 0) :
    ∃ next, commits results perResultL1 m = .ok next := by
  induction results generalizing m with
  | nil => exact ⟨m, rfl⟩
  | cons result rest ih =>
      cases aliased : AddressSim.aliasedSource m result with
      | some src =>
          rw [commits_cons _ _ _ _ _ (placeResult_aliased m result src perResultL1 aliased)]
          exact ih _ nothing
      | none =>
          have here := placeResult_fresh m result perResultL1 aliased
          rw [SumL1MemoryTracker.addTensor, AddressState.allocateAddress, if_pos nothing] at here
          rw [commits_cons _ _ _ _ _ here]
          exact ih _ nothing

theorem commits_room (perResultL1 : Nat) (sized : perResultL1 ≠ 0) (results : List Value) (m : SumManager)
    (budgeted : m.memoryTracker.l1Budget ≠ 0)
    (room : results.length ≤ capacity (alignedSize perResultL1) m.memoryTracker.addresses.freeList) :
    ∃ next, commits results perResultL1 m = .ok next := by
  induction results generalizing m with
  | nil => exact ⟨m, rfl⟩
  | cons result rest ih =>
      rw [List.length_cons] at room
      cases aliased : AddressSim.aliasedSource m result with
      | some src =>
          rw [commits_cons _ _ _ _ _ (placeResult_aliased m result src perResultL1 aliased)]
          refine ih _ budgeted ?_
          simp only [AddressSim.recordCommit, SumL1MemoryTracker.addTensorAtAddress,
            AddressState.allocateAddressAt_freeList]
          omega
      | none =>
          have here := placeResult_fresh m result perResultL1 aliased
          have uses := AddressState.allocateAddress_capacity m.memoryTracker.addresses m.memoryTracker.l1Budget
            result perResultL1 sized budgeted
          rw [SumL1MemoryTracker.addTensor] at here
          generalize AddressState.allocateAddress _ _ _ _ = allocated at here uses
          cases allocated with
          | none =>
              simp only at uses
              omega
          | some addresses =>
              rw [commits_cons _ _ _ _ _ here]
              refine ih _ budgeted ?_
              simp only [AddressSim.recordCommit]
              omega

theorem commits_crowded (op : OpId) (perResultL1 : Nat) (sized : perResultL1 ≠ 0) (numbers : List Nat)
    (m : SumManager) (budgeted : m.memoryTracker.l1Budget ≠ 0)
    (ownUse : ∀ number, m.func.aliasSource (.result op 0) ≠ some (.result op number))
    (unaliased : AddressSim.willAliasSourceInL1 m op = false)
    (crowded : capacity (alignedSize perResultL1) m.memoryTracker.addresses.freeList < numbers.length) :
    commits (numbers.map (Value.result op)) perResultL1 m = .error .noContiguousBlock := by
  induction numbers generalizing m with
  | nil => simp at crowded
  | cons number rest ih =>
      have none : AddressSim.aliasedSource m (.result op number) = none := by
        rw [← Option.not_isSome_iff_eq_none]
        exact Bool.not_eq_true _ ▸ unaliased
      have here := placeResult_fresh m (.result op number) perResultL1 none
      have uses := AddressState.allocateAddress_capacity m.memoryTracker.addresses m.memoryTracker.l1Budget
        (.result op number) perResultL1 sized budgeted
      rw [SumL1MemoryTracker.addTensor] at here
      generalize AddressState.allocateAddress _ _ _ _ = allocated at here uses
      rw [List.map_cons]
      cases allocated with
      | none =>
          rw [commits, List.foldlM_cons, AddressSim.commitAllocation, here]
          rfl
      | some addresses =>
          obtain ⟨taken, keys⟩ := uses
          rw [commits_cons _ _ _ _ _ here]
          refine ih _ budgeted ownUse ?_
            (by simp only [AddressSim.recordCommit]; simp only [List.length_cons] at crowded; omega)
          -- the new address is the op's own result, never its operand
          refine Bool.eq_false_iff.mpr fun still => ?_
          obtain ⟨src, found⟩ := Option.isSome_iff_exists.mp still
          obtain ⟨source, placed⟩ := Option.filter_eq_some_iff.mp found
          have other : src ≠ .result op number := fun same => ownUse number (same ▸ source)
          have before : m.memoryTracker.addresses.hasTensorAddress src = true := by
            have key : src ∈ addresses.tensorAddresses := AList.lookup_isSome.mp placed
            rw [AList.mem_keys, keys, List.mem_cons] at key
            exact AList.lookup_isSome.mpr (AList.mem_keys.mpr (List.mem_of_mem_erase (key.resolve_left other)))
          have aliased : AddressSim.aliasedSource m (.result op number) = some src :=
            Option.filter_eq_some_iff.mpr ⟨source, before⟩
          rw [none] at aliased
          cases aliased

theorem addResults_commits (m : SumManager) (op : OpId) (l1Size : Nat) :
    Sweep.addResultsToLiveSet (AddressSim.hooks setting) m op l1Size =
      commits (m.func.tensorResults op) (l1Size / (m.func.tensorResults op).length) m := rfl

theorem addResults_room (m : SumManager) (op : OpId) (l1Size : Nat) (room : HasRoom m op l1Size) :
    ∃ next, Sweep.addResultsToLiveSet (AddressSim.hooks setting) m op l1Size = .ok next := by
  rw [addResults_commits]
  rcases room with aliased | zero | unbounded | enough
  · exact commits_aliased op _ _ m aliased
  · exact commits_trivial _ _ m (Or.inl zero)
  · exact commits_trivial _ _ m (Or.inr unbounded)
  · by_cases nothing : l1Size / (m.func.tensorResults op).length = 0 ∨ m.memoryTracker.l1Budget = 0
    · exact commits_trivial _ _ m nothing
    · rw [not_or] at nothing
      exact commits_room _ nothing.1 _ m nothing.2 enough

theorem hasRoom_single (m : SumManager) (op : OpId) (l1Size : Nat) (fits : Fits m op l1Size)
    (few : (m.func.tensorResults op).length ≤ 1) : HasRoom m op l1Size := by
  rcases fits with aliased | placed
  · exact Or.inl aliased
  · rcases Nat.le_one_iff_eq_zero_or_eq_one.mp few with none | one
    · exact Or.inr (Or.inl (by simp [none]))
    · by_cases zero : l1Size = 0
      · exact Or.inr (Or.inl (by simp [zero]))
      by_cases unbounded : m.memoryTracker.l1Budget = 0
      · exact Or.inr (Or.inr (Or.inl unbounded))
      refine Or.inr (Or.inr (Or.inr ?_))
      rw [one, Nat.div_one]
      exact AddressState.wouldAllocateAt_capacity _ _ _ zero unbounded placed

def ControlFits (m : SumManager) : Control → Prop
  | .place _ op l1Size => Fits m op l1Size
  | _ => True

theorem controlFits_shifted (m : SumManager) (op : OpId) (pos : Nat) (unshifted : Control)
    (fits : ControlFits m unshifted) : ControlFits m (Sweep.rewindIfScheduleShifted m op pos unshifted) := by
  unfold Sweep.rewindIfScheduleShifted
  split
  · exact fits
  · exact trivial

theorem handleOOM_fits (m : SumManager) (op : OpId) (pos : Nat) :
    Ends NotUnplaceable (fun result => ∀ l1Size, result.2 = .place l1Size → Fits result.1 op l1Size)
      (AddressSim.handleOOM setting m op pos) := by
  refine ends_then ?_ fun result => ?_
  · refine ends_bind (evictLoop_notUnplaceable setting pos _ _ _ m none true) fun _ _ => ?_
    simp only
    split <;> exact trivial
  obtain ⟨evicted, answer⟩ := result
  simp only
  split
  · exact fun l1Size placing => by cases placing
  · cases answer.filter (·.isSuccess) with
    | none => exact fun l1Size placing => by cases placing
    | some validated =>
        have handled : Ends NotUnplaceable (Handled op)
            (AddressSim.makeRoomAfterOOM setting evicted op pos validated) := by
          unfold AddressSim.makeRoomAfterOOM
          split
          · exact ensureFitsL1_handled setting evicted op pos _ _
          · exact ends_bind (evictForDramCBGrowth_notUnplaceable setting evicted op pos)
              fun m _ => fits_zero m op
        refine ends_bind handled fun result fits => ?_
        obtain ⟨roomy, size⟩ := result
        simp only
        split
        · exact fun l1Size placing => by cases placing
        · intro l1Size placing
          cases placing
          exact fits

theorem recovery_fits (m : SumManager) (op : OpId) (pos : Nat) :
    Ends NotUnplaceable (fun result => ControlFits result.1 result.2) (do
      let (m, recovery) ← (AddressSim.hooks setting).recoverFromOOM m op pos
      match recovery with
      | .rewindTo target => .ok (m, .rewind pos target)
      | .place l1Size => .ok (m, .place pos op l1Size)
      | .nothing => .ok (m, Sweep.rewindIfScheduleShifted m op pos (.sweep (pos + 1)))) := by
  refine ends_bind (handleOOM_fits setting m op pos) fun result fits => ?_
  obtain ⟨recovered, recovery⟩ := result
  cases recovery with
  | nothing => exact controlFits_shifted recovered op pos _ trivial
  | place l1Size => exact fits l1Size rfl
  | rewindTo target => exact trivial

theorem processOp_fits (m : SumManager) (op : OpId) (pos : Nat) :
    Ends NotUnplaceable (fun result => ControlFits result.1 result.2)
      (Sweep.processOp setting (AddressSim.hooks setting) m op pos) := by
  unfold Sweep.processOp
  generalize m.validate setting op = validated
  obtain ⟨result, next⟩ := validated
  simp only
  cases result.status with
  | success =>
      refine ends_bind (ensureFitsL1_handled setting next op pos _ _) fun result handled => ?_
      obtain ⟨placed, l1Size⟩ := result
      refine controlFits_shifted placed op pos _ ?_
      split
      · exact trivial
      · exact handled
  | notImplemented =>
      obtain ⟨flushed, flushes, _⟩ := evictAllFromL1_flushed (sum_emptied setting) next pos op
      rw [flushes]
      exact trivial
  | metalBackendError => exact trivial
  | unmatchedReferenceConfig => exact recovery_fits setting next op pos
  | outOfMemoryError => exact recovery_fits setting next op pos

theorem visit_fits (m : SumManager) (op : OpId) (pos : Nat) :
    Ends NotUnplaceable (fun result => ControlFits result.1 result.2)
      (Sweep.visit setting (AddressSim.hooks setting) m op pos) := by
  unfold Sweep.visit
  simp only
  split
  · exact trivial
  · split
    · split
      · split
        · refine ends_then ?_ fun _ => trivial
          exact ends_bind (ensureFitsL1_handled setting m op pos 0 _) fun _ _ => trivial
        · exact trivial
      · exact trivial
    · split
      · exact trivial
      · exact processOp_fits setting m op pos

/-- Where an op with several tensor results is about to be placed, the free list
has a slot for the aligned share of each. -/
def PlacesWithRoom (s : Sweep SumL1MemoryTracker) : Prop :=
  ∀ pos op l1Size, s.control = .place pos op l1Size → 2 ≤ (s.m.func.tensorResults op).length →
    HasRoom s.m op l1Size

theorem step_fits (s : Sweep SumL1MemoryTracker) (fits : ControlFits s.m s.control) (room : PlacesWithRoom s) :
    Ends NotUnplaceable (fun next => ControlFits next.m next.control)
      (s.step setting (AddressSim.hooks setting)) := by
  obtain ⟨m, control, rewindCount, kMaxRewinds⟩ := s
  cases control with
  | finished => exact fits
  | sweep pos =>
      simp only [Sweep.step]
      split
      · exact trivial
      · split
        · exact trivial
        · exact ends_bind (visit_fits setting _ _ pos) fun _ fits => fits
  | place pos op l1Size =>
      have enough : HasRoom m op l1Size := by
        by_cases several : 2 ≤ (m.func.tensorResults op).length
        · exact room pos op l1Size rfl several
        · exact hasRoom_single m op l1Size fits (by omega)
      obtain ⟨next, placed⟩ := addResults_room setting m op l1Size enough
      simp only [Sweep.step, placed]
      exact trivial
  | rewind pos target =>
      simp only [Sweep.step]
      refine ends_then ?_ fun next => ?_
      · unfold Manager.restoreCheckpoint
        split
        · exact fun same => by cases same
        · exact trivial
      · split
        · exact fun same => by cases same
        · exact trivial

theorem run_fits (func : Func) (steps : Nat)
    (room : ∀ earlier < steps, ∀ s, Sweep.run setting (AddressSim.hooks setting) func earlier = .ok s →
      PlacesWithRoom s) :
    Ends NotUnplaceable (fun s => ControlFits s.m s.control)
      (Sweep.run setting (AddressSim.hooks setting) func steps) := by
  induction steps with
  | zero => exact trivial
  | succ steps ih =>
      have before := ih fun earlier below => room earlier (by omega)
      rw [Sweep.run]
      cases reached : Sweep.run setting (AddressSim.hooks setting) func steps with
      | error failure =>
          have allowed : NotUnplaceable failure := ends_error before reached
          exact allowed
      | ok s =>
          rw [reached] at before
          exact step_fits setting s before (room steps (by omega) s reached)

end Placement

open Placement in
/-- No run breaks the allocator's contract as long as every op with several
tensor results finds a slot for each of its even shares; where one does not, the
contract breaks. -/
theorem placement_keeps_contract (setting : Setting) (func : Func) :
    (∀ steps, (∀ earlier < steps, ∀ s, Sweep.run setting (AddressSim.hooks setting) func earlier = .ok s →
        PlacesWithRoom s) →
      Sweep.run setting (AddressSim.hooks setting) func steps ≠ .error .noContiguousBlock) ∧
    (∀ (s : Sweep SumL1MemoryTracker) pos op l1Size, s.control = .place pos op l1Size →
      (∀ number, s.m.func.aliasSource (.result op 0) ≠ some (.result op number)) → ¬ HasRoom s.m op l1Size →
      s.step setting (AddressSim.hooks setting) = .error .noContiguousBlock) := by
  constructor
  · intro steps room broke
    exact ends_error (run_fits setting func steps room) broke rfl
  · intro s pos op l1Size placing ownUse crowded
    simp only [HasRoom, not_or, not_le, Bool.not_eq_true] at crowded
    obtain ⟨unaliased, sized, budgeted, few⟩ := crowded
    have broke := commits_crowded op (l1Size / (s.m.func.tensorResults op).length) sized
      (s.m.func.getOp op).tensorResults s.m budgeted ownUse unaliased (by simpa [Func.tensorResults] using few)
    rw [Sweep.step, placing]
    simp only [addResults_commits]
    rw [show commits (s.m.func.tensorResults op) _ s.m = _ from broke]
    rfl

def threeHeads : Func :=
  let head : Option TTNNLayout := some { bufferType := .l1, memLayout := .heightSharded }
  { ops := [{ kind := .other true, operands := [], results := [head, head, head] }], body := [0] }

def acceptingSetting (l1BudgetPerCore outputL1Usage : Nat) : Setting where
  l1BudgetPerCore
  cbFragCushion := l1BudgetPerCore / 10
  backend _ _ := { status := .success, outputL1Usage }
  popOrder := TieBreak.stable _
  insertionOrder := TieBreak.stable _

/-- Three shares of 2688, a multiple of the alignment, fill 8064 of 8192 bytes. -/
theorem placement_keeps_contract_threeHeads :
    Sweep.run (acceptingSetting 8192 8064) (AddressSim.hooks (acceptingSetting 8192 8064)) threeHeads 3 ≠
      .error .noContiguousBlock := by
  refine (placement_keeps_contract (acceptingSetting 8192 8064) threeHeads).1 3 ?_
  intro earlier below s reached pos op l1Size placing several
  match earlier, below with
  | 0, _ =>
      cases reached
      cases placing
  | 1, _ =>
      cases reached
      cases placing
      exact Or.inr (Or.inr (Or.inr (by decide)))
  | 2, _ =>
      cases reached
      cases placing

/-- 8192 bytes fit as one block, three shares of 2730 rounded up to 2752 do not. -/
theorem placement_breaks_contract :
    ¬ ∀ (setting : Setting) (func : Func) (steps : Nat),
      Sweep.run setting (AddressSim.hooks setting) func steps ≠ .error .noContiguousBlock := by
  intro always
  exact always (acceptingSetting 8192 8192) threeHeads 2 rfl

end TtMlir.Spill
