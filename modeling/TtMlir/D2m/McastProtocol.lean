import TtMlir.D2m.McastInvariant

/-!
The multicast load protocol over whole runs: every step keeps the invariant of
the group, and what the invariant says about slots, pushes, increments, sets
and progress.
-/

namespace TtMlir.McastLoad

variable {α : Type} {setup : Setup α} {s next : State α}

namespace Invariant

theorem initial (setup : Setup α) (slots : CoreIndex → Nat → α) : Invariant setup (State.initial slots) := by
  constructor
  · constructor <;> simp [State.initial]
  · intro index member
    constructor <;> simp [State.initial, Core.cleared, Core.asked]
    exact .idle rfl rfl rfl rfl rfl
  · intro index member
    constructor <;> simp [State.initial]
  · constructor
    · simp [State.initial]
    · simp [State.pending, State.initial]
    · intro index iteration
      simp [State.pending, State.initial, Core.cleared, Core.asked]
    · simp [State.initial]

theorem exec (valid : setup.Valid) {index : CoreIndex} (ok : Invariant setup s) (member : index ∈ setup.group)
    (performed : exec setup index s = some next) : Invariant setup next := by
  rcases (Setup.mem_group_iff valid).1 member with rfl | receiver
  · obtain ⟨sent, move, others, increments⟩ := exec_sender valid performed
    have gathered : (s.cores setup.start).position = 4 → ∀ index ∈ setup.receivers,
        (s.cores setup.start).pushed < (s.cores index).asked := by
      intro here index member
      have arrived := ok.pending.gathered here index member
      exact ((ok.pending.mem _ _).1 (List.mem_append_left _ arrived)).2.2
    constructor
    · exact ok.sender.move move
    · intro index member
      rw [others index member]
      exact (ok.receiver index member).senderMove ok.sender move fun here => gathered here index member
    · intro index member
      rcases (Setup.mem_group_iff valid).1 member with rfl | receiver
      · exact (ok.buffer _ member).senderMove ok.sender move
      · rw [others index receiver]
        exact (ok.buffer _ member).congr rfl rfl rfl id
    · exact ok.pending.senderMove ok.sender ok.receiver move others increments
  · obtain ⟨sent, move, others, increments⟩ := exec_receiver valid receiver performed
    have start := others _ (Setup.ne_start valid receiver).symm
    constructor
    · rw [start]
      exact ok.sender
    · intro other isReceiver
      rw [start]
      by_cases same : other = index
      · rw [same]
        exact (ok.receiver index receiver).move move
      · rw [others other same]
        exact ok.receiver other isReceiver
    · intro other inGroup
      by_cases same : other = index
      · rw [same]
        exact (ok.buffer index member).receiverMove (ok.receiver index receiver) move
      · rw [others other same]
        exact ok.buffer other inGroup
    · exact ok.pending.receiverMove valid receiver (ok.receiver index receiver).asked move others increments

theorem modify (ok : Invariant setup s) {index : CoreIndex} {change : Core α → Core α}
    (position : (change (s.cores index)).position = (s.cores index).position)
    (pushed : (change (s.cores index)).pushed = (s.cores index).pushed)
    (arrivals : (change (s.cores index)).arrivals .receiversReady = (s.cores index).arrivals .receiversReady)
    (buffer : BufferOk setup (setup.limit index) (change (s.cores index)))
    (sender : index = setup.start → SenderOk setup (change (s.cores index)))
    (receiver : index ∈ setup.receivers → ReceiverOk setup (s.cores setup.start) (change (s.cores index))) :
    Invariant setup (s.modify index change) := by
  have cases : ∀ (holds : Core α → Prop) (other : CoreIndex), (other = index → holds (change (s.cores index))) →
      (other ≠ index → holds (s.cores other)) → holds ((s.modify index change).cores other) := by
    intro holds other here elsewhere
    by_cases same : other = index
    · rw [same, State.modify_self]
      exact here same
    · rw [State.modify_other _ same]
      exact elsewhere same
  have positions : ∀ other, ((s.modify index change).cores other).position = (s.cores other).position :=
    fun other => cases (fun core => core.position = (s.cores other).position) other
      (fun same => by rw [same, position]) fun _ => rfl
  have pushes : ∀ other, ((s.modify index change).cores other).pushed = (s.cores other).pushed :=
    fun other => cases (fun core => core.pushed = (s.cores other).pushed) other
      (fun same => by rw [same, pushed]) fun _ => rfl
  constructor
  · exact cases _ _ (fun same => sender same.symm) fun _ => ok.sender
  · intro other isReceiver
    have seen : ReceiverOk setup (s.cores setup.start) ((s.modify index change).cores other) :=
      cases _ _ (fun same => receiver (same ▸ isReceiver)) fun _ => ok.receiver other isReceiver
    refine ⟨seen.position, seen.reading, ?_, ?_, seen.waited, seen.filled⟩
    · simpa only [Core.cleared, positions, pushes] using seen.asked
    · simpa only [Core.written, Core.announced, positions, pushes] using seen.delivery
  · intro other inGroup
    exact cases _ _ (fun same => same ▸ buffer) fun _ => ok.buffer other inGroup
  · refine ok.pending.congr rfl positions pushes ?_
    exact cases (fun core => core.arrivals .receiversReady = (s.cores setup.start).arrivals .receiversReady) _
      (fun same => by rw [same, arrivals]) fun _ => rfl

theorem landRead (valid : setup.Valid) {index : CoreIndex} (ok : Invariant setup s) (member : index ∈ setup.group)
    (performed : landRead setup index s = some next) : Invariant setup next := by
  unfold McastLoad.landRead at performed
  split at performed
  · rename_i reading
    cases performed
    rcases (Setup.mem_group_iff valid).1 member with rfl | receiver
    · have here := ok.sender.reading reading
      have active : 0 < (s.cores setup.start).position := by omega
      refine ok.modify rfl rfl rfl ?_ ?_ ?_
      · exact ((ok.buffer _ member).writeSlot active _).congr rfl rfl rfl id
      · intro _
        constructor <;> simp [Core.writeSlot, ok.sender.inbox, ok.sender.ready, here]
        simp [Core.slot]
      · exact fun receiver => absurd receiver (Setup.start_not_receiver valid)
    · rw [(ok.receiver index receiver).reading] at reading
      cases reading
  · cases performed

theorem deliver (valid : setup.Valid) {index : CoreIndex} {number : Nat} (ok : Invariant setup s)
    (member : index ∈ setup.group) (performed : deliver index number s = some next) : Invariant setup next := by
  unfold McastLoad.deliver at performed
  simp only at performed
  split at performed
  · rename_i message here
    split at performed
    · rename_i inOrder
      cases performed
      rcases (Setup.mem_group_iff valid).1 member with rfl | receiver
      · simp [ok.sender.inbox] at here
      · have seen := ok.receiver index receiver
        obtain ⟨waiting, current⟩ := seen.mem_inbox (List.mem_of_getElem? here)
        have active : 0 < (s.cores index).position := by omega
        have buffer := ok.buffer index member
        have apart := Setup.ne_start valid receiver
        refine ok.modify ?_ ?_ ?_ ?_ (fun same => absurd same apart) fun _ => seen.deliver here inOrder
        · rcases current with rfl | rfl <;> rfl
        · rcases current with rfl | rfl <;> rfl
        · rcases current with rfl | rfl <;> simp [Setup.dataOf, Setup.setOf, Core.receive, Core.writeSlot, Core.arrive]
        · rcases current with rfl | rfl
          · exact (buffer.writeSlot active _).congr rfl rfl rfl id
          · exact buffer.congr rfl rfl rfl id
    · cases performed
  · cases performed

theorem pop {index : CoreIndex} (ok : Invariant setup s) (member : index ∈ setup.group)
    (performed : pop index s = some next) : Invariant setup next := by
  unfold McastLoad.pop at performed
  split at performed
  · rename_i left
    cases performed
    refine ok.modify rfl rfl rfl ((ok.buffer index member).pop left) ?_ ?_
    · rintro rfl
      have seen := ok.sender
      exact ⟨seen.position, seen.inbox, seen.reading, seen.filled, seen.ready⟩
    · intro receiver
      have seen := ok.receiver index receiver
      exact ⟨seen.position, seen.reading, seen.asked, seen.delivery.congr rfl rfl rfl rfl rfl, seen.waited,
        seen.filled⟩
  · cases performed

theorem deliverIncrement (valid : setup.Valid) {number : Nat} (ok : Invariant setup s)
    (performed : deliverIncrement number s = some next) : Invariant setup next := by
  obtain ⟨increment, _, increments, start, others⟩ := ok.pending.delivered_eq performed
  constructor
  · rw [start]
    have seen := ok.sender
    refine ⟨seen.position, seen.inbox, seen.reading, seen.filled, ?_⟩
    simp [Core.arrive, seen.ready]
  · intro index receiver
    have seen := ok.receiver index receiver
    rw [others index (Setup.ne_start valid receiver), start]
    exact ⟨seen.position, seen.reading, seen.asked, seen.delivery, seen.waited, seen.filled⟩
  · intro index member
    rcases (Setup.mem_group_iff valid).1 member with rfl | receiver
    · rw [start]
      exact (ok.buffer _ member).congr rfl rfl rfl id
    · rw [others index (Setup.ne_start valid receiver)]
      exact ok.buffer index member
  · exact ok.pending.deliverIncrement valid performed

theorem step (valid : setup.Valid) (action : Action) (ok : Invariant setup s)
    (performed : step setup action s = some next) : Invariant setup next := by
  cases action with
  | exec index =>
      obtain ⟨member, performed⟩ := Option.ite_none_right_eq_some.1 performed
      exact ok.exec valid member performed
  | landRead index =>
      obtain ⟨member, performed⟩ := Option.ite_none_right_eq_some.1 performed
      exact ok.landRead valid member performed
  | deliverIncrement number => exact ok.deliverIncrement valid performed
  | deliver index number =>
      obtain ⟨member, performed⟩ := Option.ite_none_right_eq_some.1 performed
      exact ok.deliver valid member performed
  | pop index =>
      obtain ⟨member, performed⟩ := Option.ite_none_right_eq_some.1 performed
      exact ok.pop member performed

theorem reached (valid : setup.Valid) {slots : CoreIndex → Nat → α}
    (run : Reaches (McastLoad.step setup) (State.initial slots) s) : Invariant setup s :=
  run.invariant (Invariant setup) (initial setup slots) fun action _ _ ok performed => ok.step valid action performed

end Invariant

def State.current (setup : Setup α) (s : State α) (index : CoreIndex) : Option Op :=
  (setup.program index)[(s.cores index).position]?

namespace State

theorem current_sender (valid : setup.Valid) : s.current setup setup.start =
    [.reserve, .dmaRead, .dmaWait, .semaphoreWait .receiversReady setup.receivers.length,
      .semaphoreSet .receiversReady 0 [] [], .dmaWrite setup.start setup.shape, .dmaWait,
      .semaphoreSet .senderFinished 1 setup.start setup.shape, .push][(s.cores setup.start).position]? := by
  rw [current, Setup.program_sender valid]

theorem current_receiver (valid : setup.Valid) {index : CoreIndex} (receiver : index ∈ setup.receivers) :
    s.current setup index = [.reserve, .semaphoreInc .receiversReady 1 setup.start,
      .semaphoreWait .senderFinished 1, .semaphoreSet .senderFinished 0 [] [],
      .push][(s.cores index).position]? := by
  rw [current, Setup.program_receiver valid receiver]

end State

theorem blocked_sender (valid : setup.Valid) (ok : SenderOk setup (s.cores setup.start))
    (landed : (s.cores setup.start).reading = false) (blocked : exec setup setup.start s = none) :
    ((s.cores setup.start).position = 0 ∧
      ((s.cores setup.start).pushed < setup.limit setup.start →
        (s.cores setup.start).popped + setup.depth ≤ (s.cores setup.start).pushed)) ∨
    ((s.cores setup.start).position = 3 ∧
      (s.cores setup.start).semaphores .receiversReady ≠ setup.receivers.length) := by
  have bound := ok.position
  unfold exec at blocked
  rw [Setup.program_sender valid] at blocked
  rcases position : (s.cores setup.start).position with _ | _ | _ | _ | _ | _ | _ | _ | _ | _ <;>
    simp_all [execOp] <;> omega

theorem blocked_receiver (valid : setup.Valid) {index : CoreIndex} (receiver : index ∈ setup.receivers)
    (bound : (s.cores index).position ≤ 4) (blocked : exec setup index s = none) :
    ((s.cores index).position = 0 ∧
      ((s.cores index).pushed < setup.limit index →
        (s.cores index).popped + setup.depth ≤ (s.cores index).pushed)) ∨
    ((s.cores index).position = 2 ∧ (s.cores index).semaphores .senderFinished ≠ 1) := by
  unfold exec at blocked
  rw [Setup.program_receiver valid receiver] at blocked
  rcases position : (s.cores index).position with _ | _ | _ | _ | _ | _ <;>
    simp_all [execOp] <;> omega

/-- No core and no delivery can take a step; only consumers can. -/
def Stuck (setup : Setup α) (s : State α) : Prop :=
  ∀ action, (∀ index, action ≠ .pop index) → step setup action s = none

namespace Stuck

theorem exec_none (stuck : Stuck setup s) {index : CoreIndex} (member : index ∈ setup.group) :
    exec setup index s = none := by
  simpa [step, member] using stuck (.exec index) (by simp)

theorem no_increment (stuck : Stuck setup s) : s.increments = [] := by
  have none := stuck (.deliverIncrement 0) (by simp)
  simp only [step, deliverIncrement] at none
  split at none
  · cases none
  · rename_i empty
    simpa using empty

theorem no_message (stuck : Stuck setup s) {index : CoreIndex} (member : index ∈ setup.group) :
    (s.cores index).inbox = [] := by
  have none := stuck (.deliver index 0) (by simp)
  simp only [step, deliver, member, if_true] at none
  split at none
  · simp at none
  · rename_i empty
    simpa using empty

theorem no_read (stuck : Stuck setup s) {index : CoreIndex} (member : index ∈ setup.group) :
    (s.cores index).reading = false := by
  have none := stuck (.landRead index) (by simp)
  simp only [step, landRead, member, if_true] at none
  split at none
  · cases none
  · rename_i landed
    simpa using landed

end Stuck

def WaitsForConsumer (setup : Setup α) (s : State α) (index : CoreIndex) : Prop :=
  s.current setup index = some .reserve ∧ (s.cores index).pushed < setup.limit index ∧
    (s.cores index).pushed = (s.cores index).popped + setup.depth

namespace Invariant

theorem receiver_stuck (valid : setup.Valid) (ok : Invariant setup s) (stuck : Stuck setup s)
    (counters : (s.cores setup.start).cleared = (s.cores setup.start).pushed ∧
      (s.cores setup.start).announced = (s.cores setup.start).pushed)
    {index : CoreIndex} (receiver : index ∈ setup.receivers) (busy : ¬ WaitsForConsumer setup s index) :
    (s.cores setup.start).pushed ≤ (s.cores index).pushed ∧
      ((s.cores index).asked = (s.cores setup.start).pushed → (s.cores index).pushed = setup.limit index) := by
  have member := (Setup.mem_group_iff valid).2 (.inr receiver)
  have seen := ok.receiver index receiver
  have behind := seen.asked
  have buffer := ok.buffer index member
  rcases blocked_receiver valid receiver seen.position (stuck.exec_none member) with ⟨here, full⟩ | ⟨here, low⟩
  · have asked : (s.cores index).asked = (s.cores index).pushed := by simp [Core.asked, here]
    refine ⟨by omega, fun _ => ?_⟩
    by_contra unfinished
    have limit := buffer.limit
    have room := buffer.room
    have before : (s.cores index).pushed < setup.limit index := by omega
    have least := full before
    refine busy ⟨?_, before, by omega⟩
    rw [State.current_receiver valid receiver, here]
    rfl
  · have asked : (s.cores index).asked = (s.cores index).pushed + 1 := by simp [Core.asked, here]
    have taken : (s.cores index).taken = (s.cores index).pushed := by simp [Core.taken, here]
    have empty := stuck.no_message member
    cases seen.delivery with
    | idle | dataLanded => exact ⟨by omega, by omega⟩
    | dataInFlight _ _ inbox | bothInFlight _ _ inbox | setInFlight _ _ inbox => simp [inbox] at empty
    | setArrived _ _ _ _ reached => exact absurd reached low

theorem stuck_cases (valid : setup.Valid) (ok : Invariant setup s) (stuck : Stuck setup s) :
    (∃ index ∈ setup.group, WaitsForConsumer setup s index) ∨
    ∃ index ∈ setup.group, (s.cores index).pushed = setup.limit index ∧
      ∀ other ∈ setup.group, setup.limit index ≤ (s.cores other).pushed := by
  by_cases waits : ∃ index ∈ setup.group, WaitsForConsumer setup s index
  · exact .inl waits
  right
  have busy : ∀ index ∈ setup.group, ¬ WaitsForConsumer setup s index :=
    fun index member waiting => waits ⟨index, member, waiting⟩
  have start := Setup.start_mem_group valid
  have cases := blocked_sender valid ok.sender (stuck.no_read start) (stuck.exec_none start)
  have counters : (s.cores setup.start).cleared = (s.cores setup.start).pushed ∧
      (s.cores setup.start).announced = (s.cores setup.start).pushed := by
    rcases cases with ⟨here, _⟩ | ⟨here, _⟩ <;> simp [Core.cleared, Core.announced, here]
  -- receivers are never behind the sender once it is stuck
  have ahead : ∀ other ∈ setup.group, (s.cores setup.start).pushed ≤ (s.cores other).pushed := by
    intro other member
    rcases (Setup.mem_group_iff valid).1 member with rfl | receiver
    · exact le_rfl
    · exact (ok.receiver_stuck valid stuck counters receiver (busy other member)).1
  rcases cases with ⟨here, full⟩ | ⟨here, low⟩
  · have buffer := ok.buffer _ start
    have limit := buffer.limit
    have room := buffer.room
    have finished : (s.cores setup.start).pushed = setup.limit setup.start := by
      by_contra unfinished
      have before : (s.cores setup.start).pushed < setup.limit setup.start := by omega
      have least := full before
      refine busy _ start ⟨?_, before, by omega⟩
      rw [State.current_sender valid, here]
      rfl
    exact ⟨_, start, finished, fun other member => by rw [← finished]; exact ahead other member⟩
  · -- Some receiver has not asked for this iteration, or the wait would pass.
    obtain ⟨index, receiver, missing⟩ : ∃ index ∈ setup.receivers,
        (s.cores index).asked ≤ (s.cores setup.start).pushed := by
      by_contra all
      push Not at all
      have everyone : (setup.receivers.map fun index => (index, (s.cores setup.start).pushed)) ⊆
          (s.cores setup.start).arrivals .receiversReady := by
        intro tag member
        obtain ⟨index, receiver, rfl⟩ := List.mem_map.1 member
        have pending := (ok.pending.mem index (s.cores setup.start).pushed).2
          ⟨receiver, counters.1.le, all index receiver⟩
        simpa [State.pending, stuck.no_increment] using pending
      have nodup : (setup.receivers.map fun index => (index, (s.cores setup.start).pushed)).Nodup :=
        (Setup.nodup_receivers valid).map fun left right same => (Prod.mk.inj same).1
      have once := (List.nodup_append.1 ok.pending.nodup).1
      have least := (List.subperm_of_subset nodup everyone).length_le
      have most := (List.subperm_of_subset once (ok.pending.current ok.receiver (by omega))).length_le
      rw [List.length_map] at least most
      exact low (by rw [ok.sender.ready]; omega)
    have member := (Setup.mem_group_iff valid).2 (.inr receiver)
    obtain ⟨atLeast, done⟩ := ok.receiver_stuck valid stuck counters receiver (busy index member)
    have behind := (ok.receiver index receiver).asked
    have asked : (s.cores index).pushed ≤ (s.cores index).asked := Nat.le_add_right ..
    have finished := done (by omega)
    exact ⟨index, member, finished, fun other inGroup => by have := ahead other inGroup; omega⟩

end Invariant

/-- Data is on its way to a slot only while the receiver waits in its iteration, with the slot
reserved and free. -/
def WritesInTime (setup : Setup α) (s : State α) : Prop :=
  ∀ index ∈ setup.receivers, ∀ slot value iteration, .data slot value iteration ∈ (s.cores index).inbox →
    iteration = (s.cores index).pushed ∧ slot = (s.cores index).slot setup ∧
      s.current setup index = some (.semaphoreWait .senderFinished 1) ∧
      (s.cores index).pushed < (s.cores index).popped + setup.depth

/-- A core about to push has the shard the sender read in that iteration, and
what it has pushed stays so until it is popped. -/
def PushesShards (setup : Setup α) (s : State α) : Prop :=
  ∀ index ∈ setup.group,
    (s.current setup index = some .push →
      (s.cores index).slots ((s.cores index).slot setup) = setup.shard (s.cores index).pushed) ∧
    ∀ entry, (s.cores index).popped ≤ entry → entry < (s.cores index).pushed →
      (s.cores index).slots (entry % setup.depth) = setup.shard entry

/-- Of the increments sent, exactly those of iterations the sender has not cleared are in flight or
at its semaphore, once each. -/
def IncrementsKept (setup : Setup α) (s : State α) : Prop :=
  (s.pending setup).Nodup ∧
  (∀ index iteration, (index, iteration) ∈ s.pending setup ↔
    index ∈ setup.receivers ∧ (s.cores setup.start).cleared ≤ iteration ∧ iteration < (s.cores index).asked) ∧
  (s.cores setup.start).semaphores .receiversReady = ((s.cores setup.start).arrivals .receiversReady).length ∧
  (s.current setup setup.start = some (.semaphoreSet .receiversReady 0 [] []) →
    ((s.cores setup.start).arrivals .receiversReady).Perm
      (setup.receivers.map fun index => (index, (s.cores setup.start).pushed)))

def Message.setTag : Message α → Option (CoreIndex × Nat)
  | .set _ _ source iteration => some (source, iteration)
  | .data .. => none

/-- Of the sets sent to a receiver, exactly the one it has not taken is at its semaphore or on its
way. -/
def SetsKept (setup : Setup α) (s : State α) : Prop :=
  ∀ index ∈ setup.receivers,
    (s.cores index).taken ≤ (s.cores setup.start).announced ∧
    (s.cores setup.start).announced ≤ (s.cores index).taken + 1 ∧
    (s.cores index).arrivals .senderFinished ++ (s.cores index).inbox.filterMap Message.setTag =
      (if (s.cores index).taken < (s.cores setup.start).announced then [(setup.start, (s.cores index).taken)]
        else []) ∧
    (s.cores index).semaphores .senderFinished = ((s.cores index).arrivals .senderFinished).length ∧
    (s.current setup index = some (.semaphoreSet .senderFinished 0 [] []) →
      (s.cores index).arrivals .senderFinished = [(setup.start, (s.cores index).pushed)])

/-- Where nothing can step, a core waits for its consumer, which can pop, or every iteration is done.
-/
def Progresses (setup : Setup α) (s : State α) : Prop :=
  Stuck setup s →
    (∃ index ∈ setup.group, WaitsForConsumer setup s index ∧ (step setup (.pop index) s).isSome) ∨
    ∃ index ∈ setup.group, (s.cores index).pushed = setup.limit index ∧
      ∀ other ∈ setup.group, setup.limit index ≤ (s.cores other).pushed ∧
        (s.cores other).pushed ≤ setup.limit other

namespace Invariant

section
variable (valid : setup.Valid) (ok : Invariant setup s)
include valid ok

theorem writesInTime : WritesInTime setup s := by
  intro index receiver slot value iteration flying
  obtain ⟨here, current⟩ := (ok.receiver index receiver).mem_inbox flying
  have member := (Setup.mem_group_iff valid).2 (.inr receiver)
  have room := (ok.buffer index member).reserved (by omega)
  rcases current with same | other
  · cases same
    refine ⟨rfl, rfl, ?_, room.1⟩
    rw [State.current_receiver valid receiver, here]
    rfl
  · cases other

theorem pushesShards : PushesShards setup s := by
  intro index member
  refine ⟨fun pushing => ?_, (ok.buffer index member).contents⟩
  rcases (Setup.mem_group_iff valid).1 member with rfl | receiver
  · have bound := ok.sender.position
    rw [State.current_sender valid] at pushing
    have here : (s.cores setup.start).position = 8 := by
      rcases position : (s.cores setup.start).position with _ | _ | _ | _ | _ | _ | _ | _ | _ | _ <;>
        simp_all
    refine ok.sender.filled (by omega) ?_
    by_contra busy
    have := ok.sender.reading (by simpa using busy)
    omega
  · rw [State.current_receiver valid receiver] at pushing
    have here : (s.cores index).position = 4 := by
      rcases position : (s.cores index).position with _ | _ | _ | _ | _ | _ <;> simp_all
    exact (ok.receiver index receiver).filled here

theorem incrementsKept : IncrementsKept setup s := by
  refine ⟨ok.pending.nodup, ok.pending.mem, ok.sender.ready, fun clearing => ?_⟩
  rw [State.current_sender valid] at clearing
  have here : (s.cores setup.start).position = 4 := by
    rcases position : (s.cores setup.start).position with _ | _ | _ | _ | _ | _ | _ | _ | _ | _ <;>
      simp_all
  have nodup : (setup.receivers.map fun index => (index, (s.cores setup.start).pushed)).Nodup :=
    (Setup.nodup_receivers valid).map fun left right same => (Prod.mk.inj same).1
  rw [List.perm_ext_iff_of_nodup (List.nodup_append.1 ok.pending.nodup).1 nodup]
  intro tag
  constructor
  · exact fun arrived => ok.pending.current ok.receiver (by omega) arrived
  · intro member
    obtain ⟨index, receiver, rfl⟩ := List.mem_map.1 member
    exact ok.pending.gathered here index receiver

theorem setsKept : SetsKept setup s := by
  intro index receiver
  have seen := ok.receiver index receiver
  have clearing : s.current setup index = some (.semaphoreSet .senderFinished 0 [] []) →
      (s.cores index).position = 3 := by
    intro current
    rw [State.current_receiver valid receiver] at current
    rcases position : (s.cores index).position with _ | _ | _ | _ | _ | _ <;> simp_all
  cases seen.delivery with
  | setArrived _ announced inbox arrivals reached =>
      refine ⟨by omega, by omega, ?_, by simp [arrivals, reached], fun current => ?_⟩
      · simp [announced, inbox, arrivals]
      · rw [arrivals, Core.taken, clearing current]
        simp
  | idle _ announced inbox arrivals zero | dataInFlight _ announced inbox arrivals zero
  | dataLanded _ announced inbox arrivals zero =>
      refine ⟨by omega, by omega, ?_, by simp [arrivals, zero], fun current => ?_⟩
      · simp [announced, inbox, arrivals, Setup.dataOf, Message.setTag]
      · exact absurd arrivals (seen.waited (clearing current))
  | bothInFlight _ announced inbox arrivals zero | setInFlight _ announced inbox arrivals zero =>
      refine ⟨by omega, by omega, ?_, by simp [arrivals, zero], fun current => ?_⟩
      · rw [announced, inbox, arrivals, if_pos (Nat.lt_succ_self _)]
        rfl
      · exact absurd arrivals (seen.waited (clearing current))

theorem progresses : Progresses setup s := by
  intro stuck
  rcases ok.stuck_cases valid stuck with ⟨index, member, waiting⟩ | ⟨index, member, finished, least⟩
  · refine .inl ⟨index, member, waiting, ?_⟩
    obtain ⟨_, _, full⟩ := waiting
    have depth := valid.depth
    have left : (s.cores index).popped < (s.cores index).pushed := by omega
    simp [McastLoad.step, McastLoad.pop, member, left]
  · exact .inr ⟨index, member, finished, fun other inGroup => ⟨least other inGroup, (ok.buffer other inGroup).limit⟩⟩

end

end Invariant

/-- The multicast load protocol is safe in every state that any run of a group reaches. -/
theorem mcast_load_safe (valid : setup.Valid) (slots : CoreIndex → Nat → α)
    (run : Reaches (step setup) (State.initial slots) s) :
    WritesInTime setup s ∧ PushesShards setup s ∧ IncrementsKept setup s ∧ SetsKept setup s ∧
      Progresses setup s := by
  have ok := Invariant.reached valid run
  exact ⟨ok.writesInTime valid, ok.pushesShards valid, ok.incrementsKept valid, ok.setsKept valid,
    ok.progresses valid⟩

def pairSetup : Setup Nat where
  start := [0, 0]
  shape := [1, 2]
  depth := 1
  limit := fun _ => 2
  shard := fun iteration => 40 + iteration

def pairRun : List Action :=
  [.exec [0, 0], .exec [0, 1], .exec [0, 1], .exec [0, 0], .landRead [0, 0], .exec [0, 0], .deliverIncrement 0,
    .exec [0, 0], .exec [0, 0], .exec [0, 0], .exec [0, 0], .exec [0, 0], .deliver [0, 1] 0, .deliver [0, 1] 0,
    .exec [0, 1], .exec [0, 1], .exec [0, 1], .exec [0, 0], .pop [0, 0], .exec [0, 0]]

theorem mcast_load_safe_pair : ∃ s : State Nat, Reaches (step pairSetup) (State.initial fun _ _ => 0) s ∧
    (s.cores [0, 1]).slots 0 = 40 ∧ (WritesInTime pairSetup s ∧ PushesShards pairSetup s ∧
      IncrementsKept pairSetup s ∧ SetsKept pairSetup s ∧ Progresses pairSetup s) := by
  obtain ⟨s, replayed, held⟩ : ∃ s, EventLog.replay (step pairSetup) pairRun (State.initial fun _ _ => 0) = some s ∧
      (s.cores [0, 1]).slots 0 = 40 := ⟨_, rfl, rfl⟩
  have run := Reaches.of_replay pairRun replayed
  exact ⟨s, run, held, mcast_load_safe ⟨rfl, by decide, by decide⟩ (fun _ _ => 0) run⟩

end TtMlir.McastLoad
