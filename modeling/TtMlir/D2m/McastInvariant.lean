import TtMlir.D2m.McastMoves

/-!
What holds of a multicast group in every state of a run. The sender and each receiver are
compared by counters of iterations, and a delivery phase says where the data and the set of the
current one are.
-/

namespace TtMlir.McastLoad

variable {α : Type}

namespace Core

def cleared (sender : Core α) : Nat := sender.pushed + if 5 ≤ sender.position then 1 else 0

def written (sender : Core α) : Nat := sender.pushed + if 6 ≤ sender.position then 1 else 0

def announced (sender : Core α) : Nat := sender.pushed + if 8 ≤ sender.position then 1 else 0

def asked (receiver : Core α) : Nat := receiver.pushed + if 2 ≤ receiver.position then 1 else 0

def taken (receiver : Core α) : Nat := receiver.pushed + if 4 ≤ receiver.position then 1 else 0

end Core

namespace Setup

def dataOf (setup : Setup α) (iteration : Nat) : Message α :=
  .data (iteration % setup.depth) (setup.shard iteration) iteration

def setOf (setup : Setup α) (iteration : Nat) : Message α :=
  .set .senderFinished 1 setup.start iteration

end Setup

namespace Core

variable (core : Core α) (messages : List (Message α))

@[simp] theorem enqueue_asked : (core.enqueue messages).asked = core.asked := rfl

@[simp] theorem enqueue_taken : (core.enqueue messages).taken = core.taken := rfl

end Core

/-- Where the data and the set of the iteration a receiver takes next are. -/
inductive Delivery (setup : Setup α) (written announced : Nat) (core : Core α) : Prop where
  | idle : written = core.taken → announced = core.taken → core.inbox = [] →
      core.arrivals .senderFinished = [] → core.semaphores .senderFinished = 0 → Delivery setup written announced core
  | dataInFlight : written = core.taken + 1 → announced = core.taken → core.inbox = [setup.dataOf core.taken] →
      core.arrivals .senderFinished = [] → core.semaphores .senderFinished = 0 → Delivery setup written announced core
  | dataLanded : written = core.taken + 1 → announced = core.taken → core.inbox = [] →
      core.arrivals .senderFinished = [] → core.semaphores .senderFinished = 0 →
      core.slots (core.taken % setup.depth) = setup.shard core.taken → Delivery setup written announced core
  | bothInFlight : written = core.taken + 1 → announced = core.taken + 1 →
      core.inbox = [setup.dataOf core.taken, setup.setOf core.taken] →
      core.arrivals .senderFinished = [] → core.semaphores .senderFinished = 0 → Delivery setup written announced core
  | setInFlight : written = core.taken + 1 → announced = core.taken + 1 → core.inbox = [setup.setOf core.taken] →
      core.arrivals .senderFinished = [] → core.semaphores .senderFinished = 0 →
      core.slots (core.taken % setup.depth) = setup.shard core.taken → Delivery setup written announced core
  | setArrived : written = core.taken + 1 → announced = core.taken + 1 → core.inbox = [] →
      core.arrivals .senderFinished = [(setup.start, core.taken)] → core.semaphores .senderFinished = 1 →
      core.slots (core.taken % setup.depth) = setup.shard core.taken → Delivery setup written announced core

theorem Delivery.congr {setup : Setup α} {written announced : Nat} {core moved : Core α}
    (delivery : Delivery setup written announced core) (taken : moved.taken = core.taken)
    (inbox : moved.inbox = core.inbox) (arrivals : moved.arrivals = core.arrivals)
    (semaphores : moved.semaphores = core.semaphores) (slots : moved.slots = core.slots) :
    Delivery setup written announced moved := by
  cases delivery with
  | idle w a i r z => exact .idle (by omega) (by omega) (by rw [inbox, i]) (by rw [arrivals, r]) (by rw [semaphores, z])
  | dataInFlight w a i r z =>
      exact .dataInFlight (by omega) (by omega) (by rw [inbox, i, taken]) (by rw [arrivals, r]) (by rw [semaphores, z])
  | dataLanded w a i r z f =>
      exact .dataLanded (by omega) (by omega) (by rw [inbox, i]) (by rw [arrivals, r]) (by rw [semaphores, z])
        (by rw [slots, taken, f])
  | bothInFlight w a i r z =>
      exact .bothInFlight (by omega) (by omega) (by rw [inbox, i, taken]) (by rw [arrivals, r]) (by rw [semaphores, z])
  | setInFlight w a i r z f =>
      exact .setInFlight (by omega) (by omega) (by rw [inbox, i, taken]) (by rw [arrivals, r]) (by rw [semaphores, z])
        (by rw [slots, taken, f])
  | setArrived w a i r z f =>
      exact .setArrived (by omega) (by omega) (by rw [inbox, i]) (by rw [arrivals, r, taken]) (by rw [semaphores, z])
        (by rw [slots, taken, f])

structure SenderOk (setup : Setup α) (core : Core α) : Prop where
  position : core.position ≤ 8
  inbox : core.inbox = []
  reading : core.reading = true → core.position = 2
  filled : 2 ≤ core.position → core.reading = false → core.slots (core.slot setup) = setup.shard core.pushed
  ready : core.semaphores .receiversReady = (core.arrivals .receiversReady).length

structure ReceiverOk (setup : Setup α) (sender core : Core α) : Prop where
  position : core.position ≤ 4
  reading : core.reading = false
  asked : sender.cleared ≤ core.asked
  delivery : Delivery setup sender.written sender.announced core
  waited : core.position = 3 → core.arrivals .senderFinished ≠ []
  filled : core.position = 4 → core.slots (core.slot setup) = setup.shard core.pushed

/-- A circular buffer with the shards its consumer has not popped yet. Past the
reserve there is room for one more. -/
structure BufferOk (setup : Setup α) (limit : Nat) (core : Core α) : Prop where
  popped : core.popped ≤ core.pushed
  room : core.pushed ≤ core.popped + setup.depth
  reserved : 0 < core.position → core.pushed < core.popped + setup.depth ∧ core.pushed < limit
  limit : core.pushed ≤ limit
  contents : ∀ entry, core.popped ≤ entry → entry < core.pushed →
    core.slots (entry % setup.depth) = setup.shard entry

/-- The increments the sender has not taken yet: those at its semaphore, then
those in flight. -/
def State.pending (setup : Setup α) (s : State α) : List (CoreIndex × Nat) :=
  (s.cores setup.start).arrivals .receiversReady ++
    s.increments.map fun increment => (increment.source, increment.iteration)

structure PendingOk (setup : Setup α) (s : State α) : Prop where
  kind : ∀ increment ∈ s.increments,
    increment.target = setup.start ∧ increment.semaphore = .receiversReady ∧ increment.value = 1
  nodup : (s.pending setup).Nodup
  mem : ∀ index iteration, (index, iteration) ∈ s.pending setup ↔
    index ∈ setup.receivers ∧ (s.cores setup.start).cleared ≤ iteration ∧ iteration < (s.cores index).asked
  gathered : (s.cores setup.start).position = 4 → ∀ index ∈ setup.receivers,
    (index, (s.cores setup.start).pushed) ∈ (s.cores setup.start).arrivals .receiversReady

structure Invariant (setup : Setup α) (s : State α) : Prop where
  sender : SenderOk setup (s.cores setup.start)
  receiver : ∀ index ∈ setup.receivers, ReceiverOk setup (s.cores setup.start) (s.cores index)
  buffer : ∀ index ∈ setup.group, BufferOk setup (setup.limit index) (s.cores index)
  pending : PendingOk setup s

variable {setup : Setup α}

namespace SenderOk

variable {core moved : Core α} {sent : List (Message α)}

theorem move (ok : SenderOk setup core) (step : SenderMove setup core moved sent) : SenderOk setup moved := by
  have idle : ∀ other, core.position = other → other ≠ 2 → core.reading = false := by
    rintro other here different
    by_contra busy
    have := ok.reading (by simpa using busy)
    omega
  cases step with
  | reserve here =>
      constructor <;> simp [ok.inbox, ok.ready, idle 0 here]
  | dmaRead here =>
      constructor <;> simp [ok.inbox, ok.ready]
  | readDone here landed =>
      constructor <;> simp [ok.inbox, ok.ready, landed]
      exact ok.filled (by omega) landed
  | waitReady here =>
      constructor <;> simp [ok.inbox, ok.ready, idle 3 here]
      exact ok.filled (by omega) (idle 3 here (by omega))
  | resetReady here =>
      constructor <;> simp [ok.inbox, Core.setLocal, idle 4 here]
      exact ok.filled (by omega) (idle 4 here (by omega))
  | dmaWrite here =>
      constructor <;> simp [ok.inbox, ok.ready, idle 5 here]
      exact ok.filled (by omega) (idle 5 here (by omega))
  | writeDone here =>
      constructor <;> simp [ok.inbox, ok.ready, idle 6 here]
      exact ok.filled (by omega) (idle 6 here (by omega))
  | setFinished here =>
      constructor <;> simp [ok.inbox, ok.ready, Core.setLocal, idle 7 here]
      exact ok.filled (by omega) (idle 7 here (by omega))
  | push here =>
      constructor <;> simp [ok.inbox, ok.ready, idle 8 here]

end SenderOk

namespace BufferOk

variable {core moved : Core α} {limit : Nat}

section
variable (ok : BufferOk setup limit core)
include ok

theorem slot_ne (active : 0 < core.position) {entry : Nat}
    (oldest : core.popped ≤ entry) (newest : entry < core.pushed) : entry % setup.depth ≠ core.slot setup := by
  intro same
  obtain ⟨room, _⟩ := ok.reserved active
  have spread : (core.pushed - entry) % setup.depth = 0 := Nat.sub_mod_eq_zero_of_mod_eq same.symm
  rw [Nat.mod_eq_of_lt (by omega)] at spread
  omega

theorem congr (pushed : moved.pushed = core.pushed)
    (popped : moved.popped = core.popped) (slots : moved.slots = core.slots)
    (active : 0 < moved.position → 0 < core.position) : BufferOk setup limit moved := by
  constructor
  · rw [popped, pushed]
    exact ok.popped
  · rw [popped, pushed]
    exact ok.room
  · rw [popped, pushed]
    exact fun later => ok.reserved (active later)
  · rw [pushed]
    exact ok.limit
  · rw [popped, pushed, slots]
    exact ok.contents

theorem reserve (below : core.pushed < limit)
    (room : core.pushed < core.popped + setup.depth) : BufferOk setup limit { core with position := 1 } where
  popped := ok.popped
  room := ok.room
  reserved := fun _ => ⟨room, below⟩
  limit := ok.limit
  contents := ok.contents

theorem push (active : 0 < core.position)
    (filled : core.slots (core.slot setup) = setup.shard core.pushed) :
    BufferOk setup limit { core with position := 0, pushed := core.pushed + 1 } where
  popped := Nat.le_succ_of_le ok.popped
  room := (ok.reserved active).1
  reserved := fun later => absurd later (lt_irrefl 0)
  limit := (ok.reserved active).2
  contents := by
    intro entry oldest newest
    rcases Nat.lt_succ_iff_lt_or_eq.1 newest with before | rfl
    · exact ok.contents entry oldest before
    · exact filled

theorem pop (some : core.popped < core.pushed) :
    BufferOk setup limit { core with popped := core.popped + 1 } where
  popped := some
  room := by
    have := ok.room
    simp only
    omega
  reserved := fun active => by
    have := ok.reserved active
    simp only
    omega
  limit := ok.limit
  contents := fun entry oldest newest => ok.contents entry (Nat.le_of_succ_le oldest) newest

theorem writeSlot (active : 0 < core.position) (value : α) :
    BufferOk setup limit (core.writeSlot (core.slot setup) value) where
  popped := ok.popped
  room := ok.room
  reserved := ok.reserved
  limit := ok.limit
  contents := by
    intro entry oldest newest
    have kept : (core.writeSlot (core.slot setup) value).slots (entry % setup.depth) =
        core.slots (entry % setup.depth) := Function.update_of_ne (ok.slot_ne active oldest newest) ..
    rw [kept]
    exact ok.contents entry oldest newest

end

theorem senderMove {sent : List (Message α)} (ok : BufferOk setup (setup.limit setup.start) core)
    (sender : SenderOk setup core) (step : SenderMove setup core moved sent) :
    BufferOk setup (setup.limit setup.start) moved := by
  cases step with
  | reserve _ below room => exact ok.reserve below room
  | push here =>
      have landed : core.reading = false := by
        by_contra busy
        have := sender.reading (by simpa using busy)
        omega
      exact ok.push (by omega) (sender.filled (by omega) landed)
  | dmaRead here => exact ok.congr rfl rfl rfl fun _ => by omega
  | readDone here => exact ok.congr rfl rfl rfl fun _ => by omega
  | waitReady here => exact ok.congr rfl rfl rfl fun _ => by omega
  | resetReady here => exact ok.congr rfl rfl rfl fun _ => by omega
  | dmaWrite here => exact ok.congr rfl rfl rfl fun _ => by omega
  | writeDone here => exact ok.congr rfl rfl rfl fun _ => by omega
  | setFinished here => exact ok.congr rfl rfl rfl fun _ => by omega

theorem receiverMove {sent : List Nat} {sender : Core α} (ok : BufferOk setup limit core)
    (receiver : ReceiverOk setup sender core) (step : ReceiverMove setup limit core moved sent) :
    BufferOk setup limit moved := by
  cases step with
  | reserve _ below room => exact ok.reserve below room
  | push here => exact ok.push (by omega) (receiver.filled here)
  | increment here => exact ok.congr rfl rfl rfl fun _ => by omega
  | waitFinished here => exact ok.congr rfl rfl rfl fun _ => by omega
  | resetFinished here => exact ok.congr rfl rfl rfl fun _ => by omega

end BufferOk

namespace ReceiverOk

variable {sender core moved : Core α}

theorem asked_le (core : Core α) : core.asked ≤ core.taken + 1 := by
  unfold Core.asked Core.taken
  split <;> split <;> omega

theorem written_le (sender : Core α) : sender.written ≤ sender.cleared := by
  unfold Core.written Core.cleared
  split <;> split <;> omega

theorem waits (ok : ReceiverOk setup sender core) (ahead : core.taken < sender.written) :
    (core.position = 2 ∨ core.position = 3) ∧ core.taken = core.pushed := by
  have below : core.taken < core.asked := lt_of_lt_of_le ahead ((written_le sender).trans ok.asked)
  have position := ok.position
  unfold Core.taken Core.asked at below
  unfold Core.taken
  split at below <;> split at below <;> simp_all <;> omega

theorem quiet (ok : ReceiverOk setup sender core) (cleared : moved.cleared ≤ core.asked)
    (written : moved.written = sender.written) (announced : moved.announced = sender.announced) :
    ReceiverOk setup moved (core.enqueue []) := by
  rw [Core.enqueue_nil]
  exact
    { position := ok.position
      reading := ok.reading
      asked := cleared
      delivery := by
        rw [written, announced]
        exact ok.delivery
      waited := ok.waited
      filled := ok.filled }

theorem dmaWrite (ok : ReceiverOk setup sender core) (senderOk : SenderOk setup sender)
    (here : sender.position = 5) :
    ReceiverOk setup { sender with position := 6 }
      (core.enqueue [.data (sender.slot setup) (sender.slots (sender.slot setup)) sender.pushed]) := by
  have asked := ok.asked
  have most := asked_le core
  have landed : sender.reading = false := by
    by_contra busy
    have := senderOk.reading (by simpa using busy)
    omega
  have filled := senderOk.filled (by omega) landed
  have counters : sender.cleared = sender.pushed + 1 ∧ sender.written = sender.pushed ∧
      sender.announced = sender.pushed := by
    simp [Core.cleared, Core.written, Core.announced, here]
  obtain ⟨cleared, written, announced⟩ := counters
  constructor
  · exact ok.position
  · exact ok.reading
  · simpa [Core.cleared, here] using asked
  · cases ok.delivery with
    | idle taken same empty arrivals zero =>
        have now : core.taken = sender.pushed := by omega
        refine .dataInFlight ?_ ?_ ?_ arrivals zero
        · simp [Core.written, now]
        · simp [Core.announced, now]
        · simp only [Core.slot] at filled
          simp [empty, Core.slot, filled, Setup.dataOf, now]
    | dataInFlight | dataLanded | bothInFlight | setInFlight | setArrived => omega
  · exact ok.waited
  · exact ok.filled

theorem setFinished (ok : ReceiverOk setup sender core) (here : sender.position = 7) :
    ReceiverOk setup { sender.setLocal .senderFinished 1 with position := 8 }
      (core.enqueue [.set .senderFinished 1 setup.start sender.pushed]) := by
  have counters : sender.written = sender.pushed + 1 ∧ sender.announced = sender.pushed := by
    simp [Core.written, Core.announced, here]
  obtain ⟨written, announced⟩ := counters
  have later : ∀ taken, sender.announced = taken →
      ({ sender.setLocal .senderFinished 1 with position := 8 } : Core α).written = taken + 1 ∧
      ({ sender.setLocal .senderFinished 1 with position := 8 } : Core α).announced = taken + 1 := by
    rintro taken rfl
    simp [Core.written, Core.announced, here]
  constructor
  · exact ok.position
  · exact ok.reading
  · simpa [Core.cleared, here] using ok.asked
  · cases ok.delivery with
    | dataInFlight _ same inbox arrivals zero =>
        refine .bothInFlight (later _ same).1 (later _ same).2 ?_ arrivals zero
        have now : core.taken = sender.pushed := by omega
        simp [inbox, now, Setup.setOf]
    | dataLanded _ same inbox arrivals zero slot =>
        refine .setInFlight (later _ same).1 (later _ same).2 ?_ arrivals zero slot
        have now : core.taken = sender.pushed := by omega
        simp [inbox, now, Setup.setOf]
    | idle | bothInFlight | setInFlight | setArrived => omega
  · exact ok.waited
  · exact ok.filled

theorem senderMove {sent : List (Message α)} (ok : ReceiverOk setup sender core) (senderOk : SenderOk setup sender)
    (step : SenderMove setup sender moved sent)
    (gathered : sender.position = 4 → sender.pushed < core.asked) :
    ReceiverOk setup moved (core.enqueue sent) := by
  have asked := ok.asked
  cases step with
  | dmaWrite here => exact ok.dmaWrite senderOk here
  | setFinished here => exact ok.setFinished here
  | resetReady here =>
      refine ok.quiet ?_ ?_ ?_
      · simpa [Core.cleared] using Nat.succ_le_of_lt (gathered here)
      · simp [Core.written, here]
      · simp [Core.announced, here]
  | reserve here | dmaRead here | readDone here | waitReady here | writeDone here | push here =>
      refine ok.quiet ?_ ?_ ?_
      · simpa [Core.cleared, here] using asked
      · simp [Core.written, here]
      · simp [Core.announced, here]

theorem aside (ok : ReceiverOk setup sender core) (position : moved.position ≤ 4)
    (elsewhere : moved.position ≠ 3 ∧ moved.position ≠ 4)
    (taken : moved.taken = core.taken) (asked : core.asked ≤ moved.asked)
    (reading : moved.reading = core.reading) (inbox : moved.inbox = core.inbox)
    (arrivals : moved.arrivals = core.arrivals) (semaphores : moved.semaphores = core.semaphores)
    (slots : moved.slots = core.slots) : ReceiverOk setup sender moved where
  position := position
  reading := by rw [reading, ok.reading]
  asked := ok.asked.trans asked
  delivery := ok.delivery.congr taken inbox arrivals semaphores slots
  waited := fun here => absurd here elsewhere.1
  filled := fun here => absurd here elsewhere.2

theorem move {limit : Nat} {sent : List Nat} (ok : ReceiverOk setup sender core)
    (step : ReceiverMove setup limit core moved sent) : ReceiverOk setup sender moved := by
  cases step with
  | reserve here =>
      refine ok.aside (by simp) (by simp) ?_ ?_ rfl rfl rfl rfl rfl <;> simp [Core.taken, Core.asked, here]
  | increment here =>
      refine ok.aside (by simp) (by simp) ?_ ?_ rfl rfl rfl rfl rfl <;> simp [Core.taken, Core.asked, here]
  | push here =>
      refine ok.aside (by simp) (by simp) ?_ ?_ rfl rfl rfl rfl rfl <;> simp [Core.taken, Core.asked, here]
  | waitFinished here reached =>
      have taken : ({ core with position := 3 } : Core α).taken = core.taken := by
        simp [Core.taken, here]
      constructor
      · simp
      · exact ok.reading
      · simpa [Core.asked, here] using ok.asked
      · exact ok.delivery.congr taken rfl rfl rfl rfl
      · intro _
        cases ok.delivery with
        | setArrived _ _ _ arrivals => simp [arrivals]
        | idle | dataInFlight | dataLanded | bothInFlight | setInFlight => simp_all
      · simp
  | resetFinished here =>
      have arrived := ok.waited here
      have taken : core.taken = core.pushed := by
        simp [Core.taken, here]
      constructor
      · simp
      · exact ok.reading
      · simpa [Core.asked, here] using ok.asked
      · cases ok.delivery with
        | setArrived written announced inbox =>
            refine .idle ?_ ?_ inbox ?_ ?_
            · rw [written, taken]
              simp [Core.taken]
            · rw [announced, taken]
              simp [Core.taken]
            · simp [Core.setLocal]
            · simp [Core.setLocal]
        | idle _ _ _ none | dataInFlight _ _ _ none | dataLanded _ _ _ none | bothInFlight _ _ _ none
        | setInFlight _ _ _ none => exact absurd none arrived
      · simp
      · intro _
        cases ok.delivery with
        | setArrived _ _ _ _ _ filled =>
            rw [taken] at filled
            exact filled
        | idle _ _ _ none | dataInFlight _ _ _ none | dataLanded _ _ _ none | bothInFlight _ _ _ none
        | setInFlight _ _ _ none => exact absurd none arrived

theorem atWait (ok : ReceiverOk setup sender core) (written : sender.written = core.taken + 1)
    (none : core.arrivals .senderFinished = []) : core.position = 2 := by
  rcases (ok.waits (by omega)).1 with here | here
  · exact here
  · exact absurd none (ok.waited here)

theorem waiting (ok : ReceiverOk setup sender core) (here : core.position = 2)
    (position : moved.position = core.position)
    (pushed : moved.pushed = core.pushed) (reading : moved.reading = core.reading)
    (delivery : Delivery setup sender.written sender.announced moved) : ReceiverOk setup sender moved where
  position := by omega
  reading := by rw [reading, ok.reading]
  asked := by
    have same : moved.asked = core.asked := by
      simp only [Core.asked, position, pushed]
    rw [same]
    exact ok.asked
  delivery := delivery
  waited := fun there => by omega
  filled := fun there => by omega

theorem deliver {number : Nat} {message : Message α} (ok : ReceiverOk setup sender core)
    (here : core.inbox[number]? = some message)
    (inOrder : (message.isData || (core.inbox.take number).all (!·.isData)) = true) :
    ReceiverOk setup sender (({ core with inbox := core.inbox.eraseIdx number } : Core α).receive message) := by
  cases ok.delivery with
  | idle _ _ inbox | dataLanded _ _ inbox | setArrived _ _ inbox => simp [inbox] at here
  | dataInFlight written announced inbox arrivals zero =>
      rw [inbox] at here ⊢
      obtain ⟨rfl, rfl⟩ : number = 0 ∧ setup.dataOf core.taken = message := by
        simpa [List.getElem?_singleton] using here
      refine ok.waiting (ok.atWait written arrivals) rfl rfl rfl (.dataLanded written announced rfl arrivals zero ?_)
      exact Function.update_self ..
  | bothInFlight written announced inbox arrivals zero =>
      rw [inbox] at here inOrder ⊢
      rcases number with _ | _ | number
      · obtain rfl : setup.dataOf core.taken = message := by simpa using here
        refine ok.waiting (ok.atWait written arrivals) rfl rfl rfl (.setInFlight written announced rfl arrivals zero ?_)
        exact Function.update_self ..
      · -- The set is behind the data, so it cannot be delivered yet.
        obtain rfl : setup.setOf core.taken = message := by simpa using here
        simp [Setup.setOf, Setup.dataOf, Message.isData] at inOrder
      · simp at here
  | setInFlight written announced inbox arrivals zero filled =>
      rw [inbox] at here ⊢
      obtain ⟨rfl, rfl⟩ : number = 0 ∧ setup.setOf core.taken = message := by
        simpa [List.getElem?_singleton] using here
      refine ok.waiting (ok.atWait written arrivals) rfl rfl rfl (.setArrived written announced rfl ?_ ?_ filled)
      · simp [Setup.setOf, Core.receive, Core.arrive, arrivals, Core.taken]
      · simp [Setup.setOf, Core.receive, Core.arrive]

theorem mem_inbox {message : Message α} (ok : ReceiverOk setup sender core) (flying : message ∈ core.inbox) :
    core.position = 2 ∧ (message = setup.dataOf core.pushed ∨ message = setup.setOf core.pushed) := by
  cases ok.delivery with
  | idle _ _ inbox | dataLanded _ _ inbox | setArrived _ _ inbox => simp [inbox] at flying
  | dataInFlight written _ inbox arrivals =>
      have here := ok.atWait written arrivals
      rw [inbox, (ok.waits (by omega)).2] at flying
      exact ⟨here, .inl (by simpa using flying)⟩
  | bothInFlight written _ inbox arrivals =>
      have here := ok.atWait written arrivals
      rw [inbox, (ok.waits (by omega)).2] at flying
      exact ⟨here, by simpa using flying⟩
  | setInFlight written _ inbox arrivals =>
      have here := ok.atWait written arrivals
      rw [inbox, (ok.waits (by omega)).2] at flying
      exact ⟨here, .inr (by simpa using flying)⟩

theorem taken_le (ok : ReceiverOk setup sender core) : core.taken ≤ sender.announced := by
  cases ok.delivery with
  | idle | dataInFlight | dataLanded | bothInFlight | setInFlight | setArrived => omega

theorem asked_le_announced (ok : ReceiverOk setup sender core) : core.asked ≤ sender.announced + 1 := by
  have := asked_le core
  have := ok.taken_le
  omega

end ReceiverOk

namespace PendingOk

variable {s next : State α}

theorem of_perm (ok : PendingOk setup s)
    (kind : ∀ increment ∈ next.increments,
      increment.target = setup.start ∧ increment.semaphore = .receiversReady ∧ increment.value = 1)
    (perm : (next.pending setup).Perm (s.pending setup))
    (cleared : (next.cores setup.start).cleared = (s.cores setup.start).cleared)
    (asked : ∀ index ∈ setup.receivers, (next.cores index).asked = (s.cores index).asked)
    (gathered : (next.cores setup.start).position = 4 → ∀ index ∈ setup.receivers,
      (index, (next.cores setup.start).pushed) ∈ (next.cores setup.start).arrivals .receiversReady) :
    PendingOk setup next where
  kind := kind
  nodup := perm.nodup_iff.2 ok.nodup
  mem := by
    intro index iteration
    rw [perm.mem_iff, ok.mem, cleared]
    refine and_congr_right fun member => ?_
    rw [asked index member]
  gathered := gathered

theorem current (ok : PendingOk setup s)
    (receiver : ∀ index ∈ setup.receivers, ReceiverOk setup (s.cores setup.start) (s.cores index))
    (here : (s.cores setup.start).position ≤ 4) :
    (s.cores setup.start).arrivals .receiversReady ⊆
      setup.receivers.map fun index => (index, (s.cores setup.start).pushed) := by
  rintro ⟨index, iteration⟩ member
  obtain ⟨isReceiver, oldest, newest⟩ := (ok.mem index iteration).1 (List.mem_append_left _ member)
  have limit := (receiver index isReceiver).asked_le_announced
  have cleared : (s.cores setup.start).cleared = (s.cores setup.start).pushed := by
    rw [Core.cleared, if_neg (by omega), Nat.add_zero]
  have announced : (s.cores setup.start).announced = (s.cores setup.start).pushed := by
    rw [Core.announced, if_neg (by omega), Nat.add_zero]
  have same : (s.cores setup.start).pushed = iteration := by omega
  rw [List.mem_map]
  exact ⟨index, isReceiver, by rw [same]⟩

theorem gather (ok : PendingOk setup s) (sender : SenderOk setup (s.cores setup.start))
    (receiver : ∀ index ∈ setup.receivers, ReceiverOk setup (s.cores setup.start) (s.cores index))
    (here : (s.cores setup.start).position = 3)
    (reached : (s.cores setup.start).semaphores .receiversReady = setup.receivers.length) :
    ((s.cores setup.start).arrivals .receiversReady).Perm
      (setup.receivers.map fun index => (index, (s.cores setup.start).pushed)) := by
  have nodup : ((s.cores setup.start).arrivals .receiversReady).Nodup := (List.nodup_append.1 ok.nodup).1
  refine (List.subperm_of_subset nodup (ok.current receiver (by omega))).perm_of_length_le ?_
  rw [List.length_map, ← reached, sender.ready]

theorem senderMove {sent : List (Message α)} (ok : PendingOk setup s)
    (sender : SenderOk setup (s.cores setup.start))
    (receiver : ∀ index ∈ setup.receivers, ReceiverOk setup (s.cores setup.start) (s.cores index))
    (step : SenderMove setup (s.cores setup.start) (next.cores setup.start) sent)
    (others : ∀ index ∈ setup.receivers, next.cores index = (s.cores index).enqueue sent)
    (increments : next.increments = s.increments) : PendingOk setup next := by
  have kind := ok.kind
  rw [← increments] at kind
  have asked : ∀ index ∈ setup.receivers, (next.cores index).asked = (s.cores index).asked := by
    intro index member
    rw [others index member, Core.enqueue_asked]
  have same : (next.cores setup.start).arrivals .receiversReady = (s.cores setup.start).arrivals .receiversReady →
      (next.pending setup).Perm (s.pending setup) := by
    intro arrivals
    rw [State.pending, State.pending, arrivals, increments]
  generalize there : next.cores setup.start = moved at step
  cases step with
  | reserve here =>
      refine ok.of_perm kind (same ?_) ?_ asked ?_ <;> simp [there, Core.cleared, here]
  | dmaRead here =>
      refine ok.of_perm kind (same ?_) ?_ asked ?_ <;> simp [there, Core.cleared, here]
  | readDone here =>
      refine ok.of_perm kind (same ?_) ?_ asked ?_ <;> simp [there, Core.cleared, here]
  | dmaWrite here =>
      refine ok.of_perm kind (same ?_) ?_ asked ?_ <;> simp [there, Core.cleared, here]
  | writeDone here =>
      refine ok.of_perm kind (same ?_) ?_ asked ?_ <;> simp [there, Core.cleared, here]
  | setFinished here =>
      refine ok.of_perm kind (same ?_) ?_ asked ?_ <;> simp [there, Core.cleared, Core.setLocal, here]
  | push here =>
      refine ok.of_perm kind (same ?_) ?_ asked ?_ <;> simp [there, Core.cleared, here]
  | waitReady here reached =>
      refine ok.of_perm kind (same ?_) ?_ asked ?_
      · simp [there]
      · simp [there, Core.cleared, here]
      · intro _ index member
        rw [there, (ok.gather sender receiver here reached).mem_iff]
        exact List.mem_map_of_mem member
  | resetReady here =>
      have known := ok.gathered here
      have cleared : (s.cores setup.start).cleared = (s.cores setup.start).pushed := by
        simp [Core.cleared, here]
      have announced : (s.cores setup.start).announced = (s.cores setup.start).pushed := by
        simp [Core.announced, here]
      -- All increments sent so far are at the semaphore, so none is lost by the reset.
      have none : s.increments = [] := by
        rw [List.eq_nil_iff_forall_not_mem]
        intro increment flying
        have tag : (increment.source, increment.iteration) ∈
            s.increments.map fun increment => (increment.source, increment.iteration) := List.mem_map_of_mem flying
        obtain ⟨member, oldest, newest⟩ := (ok.mem _ _).1 (List.mem_append_right _ tag)
        have limit := (receiver _ member).asked_le_announced
        have current : increment.iteration = (s.cores setup.start).pushed := by omega
        rw [current] at tag
        exact List.disjoint_of_nodup_append ok.nodup (known _ member) tag
      have empty : next.pending setup = [] := by
        simp [State.pending, there, increments, none, Core.setLocal]
      constructor
      · exact kind
      · rw [empty]
        exact List.nodup_nil
      · intro index iteration
        rw [empty, there]
        simp only [List.not_mem_nil, false_iff, not_and, not_lt]
        intro member oldest
        have limit := (receiver index member).asked_le_announced
        simp [Core.cleared] at oldest
        rw [asked index member]
        omega
      · simp [there]

theorem receiverMove (valid : setup.Valid) {sent : List Nat} {index : CoreIndex} {limit : Nat} (ok : PendingOk setup s)
    (isReceiver : index ∈ setup.receivers) (behind : (s.cores setup.start).cleared ≤ (s.cores index).asked)
    (step : ReceiverMove setup limit (s.cores index) (next.cores index) sent)
    (others : ∀ other, other ≠ index → next.cores other = s.cores other)
    (increments : next.increments = s.increments ++
      sent.map fun iteration => ⟨setup.start, .receiversReady, 1, index, iteration⟩) : PendingOk setup next := by
  have start : next.cores setup.start = s.cores setup.start := others _ (Setup.ne_start valid isReceiver).symm
  have gathered := ok.gathered
  rw [← start] at gathered
  have quiet : sent = [] → (next.cores index).asked = (s.cores index).asked → PendingOk setup next := by
    intro silent same
    rw [silent, List.map_nil, List.append_nil] at increments
    refine ok.of_perm ?_ ?_ ?_ ?_ gathered
    · rw [increments]
      exact ok.kind
    · rw [State.pending, State.pending, start, increments]
    · rw [start]
    · intro other _
      by_cases this : other = index
      · rw [this, same]
      · rw [others other this]
  generalize there : next.cores index = moved at step
  cases step with
  | reserve here | waitFinished here | resetFinished here | push here =>
      refine quiet rfl ?_
      simp [there, Core.asked, here]
  | increment here =>
      have before : (s.cores index).asked = (s.cores index).pushed := by simp [Core.asked, here]
      have after : (next.cores index).asked = (s.cores index).pushed + 1 := by simp [there, Core.asked]
      have pending : next.pending setup = s.pending setup ++ [(index, (s.cores index).pushed)] := by
        simp [State.pending, start, increments]
      have fresh : (index, (s.cores index).pushed) ∉ s.pending setup := by
        rw [ok.mem, before]
        simp
      constructor
      · intro increment member
        rw [increments, List.mem_append] at member
        rcases member with old | new
        · exact ok.kind increment old
        · simp only [List.map_cons, List.map_nil, List.mem_singleton] at new
          subst new
          exact ⟨rfl, rfl, rfl⟩
      · rw [pending, List.nodup_append]
        refine ⟨ok.nodup, List.nodup_singleton _, fun tag old new member same => ?_⟩
        rw [List.mem_singleton] at member
        rw [same, member] at old
        exact fresh old
      · intro other iteration
        rw [pending, List.mem_append, ok.mem, List.mem_singleton, Prod.mk.injEq, start]
        by_cases this : other = index
        · subst this
          rw [after, before]
          constructor
          · rintro (⟨_, oldest, newest⟩ | ⟨_, rfl⟩)
            · exact ⟨isReceiver, oldest, by omega⟩
            · exact ⟨isReceiver, by omega, by omega⟩
          · rintro ⟨_, oldest, newest⟩
            by_cases last : iteration = (s.cores other).pushed
            · exact .inr ⟨rfl, last⟩
            · exact .inl ⟨isReceiver, oldest, by omega⟩
        · rw [others other this]
          simp [this]
      · exact gathered

theorem delivered_eq {number : Nat} (ok : PendingOk setup s) (delivered : deliverIncrement number s = some next) :
    ∃ increment, s.increments[number]? = some increment ∧
      next.increments = s.increments.eraseIdx number ∧
      next.cores setup.start = (s.cores setup.start).arrive .receiversReady
        ((s.cores setup.start).semaphores .receiversReady + 1) (increment.source, increment.iteration) ∧
      ∀ other, other ≠ setup.start → next.cores other = s.cores other := by
  unfold McastLoad.deliverIncrement at delivered
  split at delivered
  · rename_i increment here
    cases delivered
    obtain ⟨target, semaphore, value⟩ := ok.kind increment (List.mem_of_getElem? here)
    refine ⟨increment, here, rfl, ?_, fun other different => ?_⟩
    · rw [target, semaphore, value, State.modify_self]
    · rw [target, State.modify_other _ different]
  · cases delivered

theorem deliverIncrement (valid : setup.Valid) {number : Nat} (ok : PendingOk setup s)
    (delivered : deliverIncrement number s = some next) : PendingOk setup next := by
  obtain ⟨increment, here, increments, start, others⟩ := ok.delivered_eq delivered
  have arrivals : (next.cores setup.start).arrivals .receiversReady =
      (s.cores setup.start).arrivals .receiversReady ++ [(increment.source, increment.iteration)] := by
    rw [start]
    simp [Core.arrive]
  refine ok.of_perm ?_ ?_ ?_ ?_ ?_
  · intro other member
    rw [increments] at member
    exact ok.kind other (List.mem_of_mem_eraseIdx member)
  · obtain ⟨inside, rfl⟩ := List.getElem?_eq_some_iff.1 here
    have split := (List.getElem_cons_eraseIdx_perm inside).map
      fun increment : Increment => (increment.source, increment.iteration)
    rw [State.pending, State.pending, arrivals, increments, List.append_assoc]
    exact List.Perm.append_left _ split
  · rw [start]
    rfl
  · intro index member
    rw [others index (Setup.ne_start valid member)]
  · intro gathering index member
    rw [arrivals, List.mem_append, start]
    rw [start] at gathering
    exact .inl (ok.gathered gathering index member)

theorem congr (ok : PendingOk setup s) (increments : next.increments = s.increments)
    (position : ∀ index, (next.cores index).position = (s.cores index).position)
    (pushed : ∀ index, (next.cores index).pushed = (s.cores index).pushed)
    (arrivals : (next.cores setup.start).arrivals .receiversReady =
      (s.cores setup.start).arrivals .receiversReady) : PendingOk setup next := by
  refine ok.of_perm ?_ ?_ ?_ ?_ ?_
  · rw [increments]
    exact ok.kind
  · rw [State.pending, State.pending, increments, arrivals]
  · simp only [Core.cleared, position, pushed]
  · intro index _
    simp only [Core.asked, position, pushed]
  · rw [position, pushed, arrivals]
    exact ok.gathered

end PendingOk

end TtMlir.McastLoad
