import Mathlib
import TtMlir.D2m.McastLoad

/-!
What the lowered load makes each core of a multicast group do, operation by
operation, once for the sender and once for a receiver. Everything proved about
runs goes through these two lists of moves.
-/

namespace TtMlir.McastLoad

section Region

theorem mem_mcastCores {index start shape : List Nat} (dims : shape.length = start.length)
    (member : index ∈ mcastCores start shape) : index.length = start.length := by
  induction start generalizing index shape with
  | nil => simp_all [mcastCores]
  | cons first start ih =>
      cases shape with
      | nil => simp at dims
      | cons extent shape =>
          simp only [mcastCores, List.mem_flatMap, List.mem_range, List.mem_map] at member
          obtain ⟨offset, _, rest, inner, rfl⟩ := member
          simp [ih (by simpa using dims) inner]

theorem nodup_mcastCores (start shape : List Nat) : (mcastCores start shape).Nodup := by
  induction start generalizing shape with
  | nil => simp [mcastCores]
  | cons first start ih =>
      cases shape with
      | nil => simp [mcastCores]
      | cons extent shape =>
          rw [mcastCores, List.nodup_flatMap]
          constructor
          · intro offset _
            exact (ih shape).map fun left right same => (List.cons.inj same).2
          · refine List.nodup_range.imp fun {left right} different index inLeft inRight => ?_
            rw [List.mem_map] at inLeft inRight
            obtain ⟨_, _, rfl⟩ := inLeft
            obtain ⟨_, _, same⟩ := inRight
            have := (List.cons.inj same).1
            omega

theorem length_mcastCores (start shape : List Nat) (dims : shape.length = start.length) :
    (mcastCores start shape).length = shape.prod := by
  induction start generalizing shape with
  | nil =>
      obtain rfl := List.length_eq_zero_iff.1 dims
      simp [mcastCores]
  | cons first start ih =>
      cases shape with
      | nil => simp at dims
      | cons extent shape =>
          simp [mcastCores, List.length_flatMap, ih shape (by simpa using dims)]

theorem start_mem_mcastCores (start shape : List Nat) (dims : shape.length = start.length)
    (positive : 0 < shape.prod) : start ∈ mcastCores start shape := by
  induction start generalizing shape with
  | nil => simp [mcastCores]
  | cons first start ih =>
      cases shape with
      | nil => simp at dims
      | cons extent shape =>
          rw [List.prod_cons] at positive
          simp only [mcastCores, List.mem_flatMap, List.mem_range, List.mem_map]
          exact ⟨0, Nat.pos_of_mul_pos_right positive, start,
            ih shape (by simpa using dims) (Nat.pos_of_mul_pos_left positive), rfl⟩

theorem mcastVolume_eq (shape : List Nat) : mcastVolume shape = shape.prod := by
  rw [mcastVolume, List.prod_eq_foldl]

theorem isSender_iff {index start : List Nat} (length : index.length = start.length) :
    isSender index start = true ↔ index = start := by
  rw [isSender, List.all_eq_true]
  constructor
  · intro same
    refine List.ext_getElem length fun i inIndex inStart => ?_
    have here := same i (List.mem_range.2 inStart)
    simpa [List.getD_eq_getElem?_getD, inIndex, inStart] using here
  · rintro rfl i _
    simp

end Region

variable {α : Type}

/-- One dimension or more, two cores or more, room for one entry or more in the circular buffers. -/
structure Setup.Valid (setup : Setup α) : Prop where
  dims : setup.shape.length = setup.start.length
  several : 2 ≤ mcastVolume setup.shape
  depth : 1 ≤ setup.depth

namespace Setup

variable {setup : Setup α}

section
variable (valid : setup.Valid)
include valid

theorem Valid.nonempty : setup.start ≠ [] := by
  intro empty
  have none : setup.shape = [] := List.length_eq_zero_iff.1 (by rw [valid.dims, empty, List.length_nil])
  have several := valid.several
  rw [none] at several
  simp [mcastVolume] at several

theorem receivers_eq : setup.receivers = setup.group.filter (· ≠ setup.start) := by
  rw [receivers, mcastTargets, if_neg (by simpa using valid.nonempty), group]

theorem start_mem_group : setup.start ∈ setup.group := by
  refine start_mem_mcastCores _ _ valid.dims ?_
  have := valid.several
  rw [mcastVolume_eq] at this
  omega

theorem mem_group_iff {index : CoreIndex} :
    index ∈ setup.group ↔ index = setup.start ∨ index ∈ setup.receivers := by
  rw [receivers_eq valid, List.mem_filter]
  constructor
  · intro member
    by_cases same : index = setup.start
    · exact .inl same
    · exact .inr ⟨member, by simpa using same⟩
  · rintro (rfl | ⟨member, _⟩)
    · exact start_mem_group valid
    · exact member

theorem start_not_receiver : setup.start ∉ setup.receivers := by
  rw [receivers_eq valid, List.mem_filter]
  simp

theorem ne_start {index : CoreIndex} (receiver : index ∈ setup.receivers) :
    index ≠ setup.start := by
  rintro rfl
  exact start_not_receiver valid receiver

theorem nodup_receivers : setup.receivers.Nodup := by
  rw [receivers_eq valid]
  exact (nodup_mcastCores _ _).filter _

theorem length_receivers : setup.receivers.length = mcastVolume setup.shape - 1 := by
  have perm : List.Perm setup.group (setup.start :: setup.receivers) := by
    have nodup : setup.group.Nodup := nodup_mcastCores _ _
    rw [List.perm_ext_iff_of_nodup nodup (List.nodup_cons.2 ⟨start_not_receiver valid, nodup_receivers valid⟩)]
    intro index
    rw [mem_group_iff valid, List.mem_cons]
  have length := perm.length_eq
  rw [group, length_mcastCores _ _ valid.dims, List.length_cons] at length
  rw [mcastVolume_eq]
  omega

theorem program_sender : setup.program setup.start =
    [.reserve, .dmaRead, .dmaWait, .semaphoreWait .receiversReady setup.receivers.length,
      .semaphoreSet .receiversReady 0 [] [], .dmaWrite setup.start setup.shape, .dmaWait,
      .semaphoreSet .senderFinished 1 setup.start setup.shape, .push] := by
  simp [program, handleMcastRemoteLoad, semaphoreWaitReset, (isSender_iff rfl).2, length_receivers valid]

theorem program_receiver {index : CoreIndex} (receiver : index ∈ setup.receivers) :
    setup.program index = [.reserve, .semaphoreInc .receiversReady 1 setup.start,
      .semaphoreWait .senderFinished 1, .semaphoreSet .senderFinished 0 [] [], .push] := by
  have other : ¬ isSender index setup.start = true := by
    rw [isSender_iff (mem_mcastCores valid.dims ((mem_group_iff valid).2 (.inr receiver)))]
    exact ne_start valid receiver
  simp [program, handleMcastRemoteLoad, semaphoreWaitReset, other]

end

end Setup

namespace Core

@[simp] theorem enqueue_nil (core : Core α) : core.enqueue [] = core := by
  simp [enqueue]

@[simp] theorem enqueue_inbox (core : Core α) (messages : List (Message α)) :
    (core.enqueue messages).inbox = core.inbox ++ messages := rfl

@[simp] theorem setLocal_pushed (core : Core α) (semaphore : Semaphore) (value : Nat) :
    (core.setLocal semaphore value).pushed = core.pushed := rfl

end Core

namespace State

@[simp] theorem modify_increments (s : State α) (index : CoreIndex) (change : Core α → Core α) :
    (s.modify index change).increments = s.increments := rfl

@[simp] theorem modify_self (s : State α) (index : CoreIndex) (change : Core α → Core α) :
    (s.modify index change).cores index = change (s.cores index) := Function.update_self ..

theorem modify_other (s : State α) {index other : CoreIndex} (different : other ≠ index)
    (change : Core α → Core α) : (s.modify index change).cores other = s.cores other :=
  Function.update_of_ne different ..

@[simp] theorem send_increments (s : State α) (targets : List CoreIndex) (message : Message α) :
    (s.send targets message).increments = s.increments := rfl

theorem send_target (s : State α) {targets : List CoreIndex} {index : CoreIndex} (target : index ∈ targets)
    (message : Message α) :
    (s.send targets message).cores index = (s.cores index).enqueue [message] := if_pos target

theorem send_other (s : State α) {targets : List CoreIndex} {index : CoreIndex} (other : index ∉ targets)
    (message : Message α) : (s.send targets message).cores index = s.cores index := if_neg other

end State

/-- What the sender does to itself, and the message it sends to every receiver. -/
inductive SenderMove (setup : Setup α) (core : Core α) : Core α → List (Message α) → Prop where
  | reserve : core.position = 0 → core.pushed < setup.limit setup.start →
      core.pushed < core.popped + setup.depth → SenderMove setup core { core with position := 1 } []
  | dmaRead : core.position = 1 → SenderMove setup core { core with position := 2, reading := true } []
  | readDone : core.position = 2 → core.reading = false → SenderMove setup core { core with position := 3 } []
  | waitReady : core.position = 3 → core.semaphores .receiversReady = setup.receivers.length →
      SenderMove setup core { core with position := 4 } []
  | resetReady : core.position = 4 →
      SenderMove setup core { core.setLocal .receiversReady 0 with position := 5 } []
  | dmaWrite : core.position = 5 →
      SenderMove setup core { core with position := 6 }
        [.data (core.slot setup) (core.slots (core.slot setup)) core.pushed]
  | writeDone : core.position = 6 → core.reading = false → SenderMove setup core { core with position := 7 } []
  | setFinished : core.position = 7 →
      SenderMove setup core { core.setLocal .senderFinished 1 with position := 8 }
        [.set .senderFinished 1 setup.start core.pushed]
  | push : core.position = 8 →
      SenderMove setup core { core with position := 0, pushed := core.pushed + 1 } []

/-- What a receiver does to itself, and the iterations it sends increments in. -/
inductive ReceiverMove (setup : Setup α) (limit : Nat) (core : Core α) : Core α → List Nat → Prop where
  | reserve : core.position = 0 → core.pushed < limit → core.pushed < core.popped + setup.depth →
      ReceiverMove setup limit core { core with position := 1 } []
  | increment : core.position = 1 → ReceiverMove setup limit core { core with position := 2 } [core.pushed]
  | waitFinished : core.position = 2 → core.semaphores .senderFinished = 1 →
      ReceiverMove setup limit core { core with position := 3 } []
  | resetFinished : core.position = 3 →
      ReceiverMove setup limit core { core.setLocal .senderFinished 0 with position := 4 } []
  | push : core.position = 4 →
      ReceiverMove setup limit core { core with position := 0, pushed := core.pushed + 1 } []

variable {setup : Setup α} {s next : State α}

theorem exec_eq_some {index : CoreIndex} (performed : exec setup index s = some next) :
    ∃ op middle, (setup.program index)[(s.cores index).position]? = some op ∧
      execOp setup index op s = some middle ∧ next = middle.modify index (Core.advance (setup.program index)) := by
  unfold exec at performed
  split at performed
  · rename_i op here
    obtain ⟨middle, ran, rfl⟩ := Option.map_eq_some_iff.1 performed
    exact ⟨op, middle, here, ran, rfl⟩
  · cases performed

theorem exec_sender (valid : setup.Valid) (performed : exec setup setup.start s = some next) :
    ∃ sent, SenderMove setup (s.cores setup.start) (next.cores setup.start) sent ∧
      (∀ index ∈ setup.receivers, next.cores index = (s.cores index).enqueue sent) ∧
      next.increments = s.increments := by
  obtain ⟨op, middle, here, ran, rfl⟩ := exec_eq_some performed
  rw [Setup.program_sender valid] at here ⊢
  have targets : mcastTargets setup.start setup.start setup.shape = setup.receivers := rfl
  have local_targets : mcastTargets setup.start [] [] = [] := rfl
  have outside := Setup.start_not_receiver valid
  have apart : ∀ (t : State α) (change : Core α → Core α), ∀ index ∈ setup.receivers,
      (t.modify setup.start change).cores index = t.cores index :=
    fun t change index member => t.modify_other (Setup.ne_start valid member) change
  -- one case per op of the sender's program, in its order
  rcases position : (s.cores setup.start).position with _ | _ | _ | _ | _ | _ | _ | _ | _ | _ <;>
    simp only [position, List.getElem?_cons_zero, List.getElem?_cons_succ, List.getElem?_nil, Option.some.injEq,
      reduceCtorEq] at here <;>
    subst here <;> simp only [execOp] at ran
  · split at ran
    · cases ran
      rename_i room
      refine ⟨[], ?_, fun index member => by simp [apart _ _ index member], rfl⟩
      simpa [Core.advance, position] using SenderMove.reserve position room.1 room.2
    · cases ran
  · cases ran
    refine ⟨[], ?_, fun index member => by simp [apart _ _ index member], rfl⟩
    simpa [Core.advance, position] using @SenderMove.dmaRead α setup _ position
  · split at ran
    · cases ran
    · cases ran
      rename_i landed
      refine ⟨[], ?_, fun index member => by simp [apart _ _ index member], rfl⟩
      simpa [Core.advance, position] using @SenderMove.readDone α setup _ position (by simpa using landed)
  · split at ran
    · cases ran
      rename_i reached
      refine ⟨[], ?_, fun index member => by simp [apart _ _ index member], rfl⟩
      simpa [Core.advance, position] using SenderMove.waitReady position reached
    · cases ran
  · cases ran
    rw [local_targets]
    refine ⟨[], ?_, fun index member => by simp [apart _ _ index member, State.send_other], rfl⟩
    simpa [Core.advance, position, State.send_other, Core.setLocal] using
      @SenderMove.resetReady α setup _ position
  · cases ran
    rw [targets]
    let core := s.cores setup.start
    refine ⟨[.data (core.slot setup) (core.slots (core.slot setup)) core.pushed], ?_, fun index member => ?_, rfl⟩
    · simpa [Core.advance, position, State.send_other _ outside] using @SenderMove.dmaWrite α setup _ position
    · rw [apart _ _ index member, State.send_target _ member]
  · split at ran
    · cases ran
    · cases ran
      rename_i landed
      refine ⟨[], ?_, fun index member => by simp [apart _ _ index member], rfl⟩
      simpa [Core.advance, position] using @SenderMove.writeDone α setup _ position (by simpa using landed)
  · cases ran
    rw [targets]
    refine ⟨[.set .senderFinished 1 setup.start (s.cores setup.start).pushed], ?_, fun index member => ?_, rfl⟩
    · simpa [Core.advance, position, State.send_other _ outside, Core.setLocal] using
        @SenderMove.setFinished α setup _ position
    · rw [apart _ _ index member, State.send_target _ member, apart _ _ index member]
  · cases ran
    refine ⟨[], ?_, fun index member => by simp [apart _ _ index member], rfl⟩
    simpa [Core.advance, position] using @SenderMove.push α setup _ position

theorem exec_receiver (valid : setup.Valid) {index : CoreIndex} (receiver : index ∈ setup.receivers)
    (performed : exec setup index s = some next) :
    ∃ sent, ReceiverMove setup (setup.limit index) (s.cores index) (next.cores index) sent ∧
      (∀ other, other ≠ index → next.cores other = s.cores other) ∧
      next.increments = s.increments ++
        sent.map fun iteration => ⟨setup.start, .receiversReady, 1, index, iteration⟩ := by
  obtain ⟨op, middle, here, ran, rfl⟩ := exec_eq_some performed
  rw [Setup.program_receiver valid receiver] at here ⊢
  have local_targets : mcastTargets index [] [] = [] := rfl
  have apart : ∀ (t : State α) (change : Core α → Core α), ∀ other, other ≠ index →
      (t.modify index change).cores other = t.cores other :=
    fun t change other different => t.modify_other different change
  rcases position : (s.cores index).position with _ | _ | _ | _ | _ | _ <;>
    simp only [position, List.getElem?_cons_zero, List.getElem?_cons_succ, List.getElem?_nil, Option.some.injEq,
      reduceCtorEq] at here <;>
    subst here <;> simp only [execOp] at ran
  · split at ran
    · cases ran
      rename_i room
      refine ⟨[], ?_, apart _ _, by simp⟩
      simpa [Core.advance, position] using ReceiverMove.reserve position room.1 room.2
    · cases ran
  · cases ran
    refine ⟨[(s.cores index).pushed], ?_, apart _ _, rfl⟩
    simpa [Core.advance, position] using
      @ReceiverMove.increment α setup (setup.limit index) _ position
  · split at ran
    · cases ran
      rename_i reached
      refine ⟨[], ?_, apart _ _, by simp⟩
      simpa [Core.advance, position] using
        @ReceiverMove.waitFinished α setup (setup.limit index) _ position reached
    · cases ran
  · cases ran
    rw [local_targets]
    refine ⟨[], ?_, fun other different => by simp [apart _ _ other different, State.send_other], by simp⟩
    simpa [Core.advance, position, State.send_other, Core.setLocal] using
      @ReceiverMove.resetFinished α setup (setup.limit index) _ position
  · cases ran
    refine ⟨[], ?_, fun other different => by simp [apart _ _ other different], by simp⟩
    simpa [Core.advance, position] using
      @ReceiverMove.push α setup (setup.limit index) _ position

end TtMlir.McastLoad
