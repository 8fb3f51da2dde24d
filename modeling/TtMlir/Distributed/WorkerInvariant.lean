import TtMlir.Distributed.Worker

/-!
What holds of a worker in every state, whatever the controller writes and reads:
commands are executed once and in the order they arrive, the responses come in the
order of the commands, and the threads end with nothing left to send.
-/

namespace TtMlir.Distributed

variable {Payload Pools : Type} {runtime : Runtime Payload Pools} {worker next : Worker Payload Pools}

section Sequential

theorem sequential_append {commands : List (Command Payload)} {pools after : Pools} {responses : List Response}
    {command : Command Payload} {response : Response} (earlier : runtime.sequential commands = some (pools, responses))
    (answer : runtime.respond pools command = some (after, response)) :
    runtime.sequential (commands ++ [command]) = some (after, responses ++ [response]) := by
  unfold Runtime.sequential at earlier ⊢
  rw [List.foldlM_append, earlier]
  simp [answer]

theorem sequential_split {commands : List (Command Payload)} {command : Command Payload} {pools : Pools}
    {responses : List Response} (whole : runtime.sequential (commands ++ [command]) = some (pools, responses)) :
    ∃ before earlier response, runtime.sequential commands = some (before, earlier) ∧
      responses = earlier ++ [response] := by
  unfold Runtime.sequential at whole ⊢
  rw [List.foldlM_append] at whole
  obtain ⟨⟨before, earlier⟩, first, last⟩ := Option.bind_eq_some_iff.mp whole
  simp only [List.foldlM_cons, List.foldlM_nil, Option.pure_def, Option.bind_fun_some, Option.bind_eq_bind] at last
  obtain ⟨⟨after, response⟩, _, same⟩ := Option.map_eq_some_iff.mp last
  cases same
  exact ⟨before, earlier, response, first, rfl⟩

section
variable {commands : List (Command Payload)} {pools : Pools} {responses : List Response}
  (whole : runtime.sequential commands = some (pools, responses))
include pools whole

theorem sequential_length : responses.length = commands.length := by
  induction commands using List.reverseRecOn generalizing pools responses with
  | nil =>
      cases whole
      rfl
  | append_singleton commands command ih =>
      obtain ⟨before, earlier, response, first, rfl⟩ := sequential_split whole
      rw [List.length_append, List.length_append, ih first]
      rfl

theorem answerTo_of_sequential (position : Nat)
    (known : position < commands.length) : runtime.answerTo commands position = responses[position]? := by
  induction commands using List.reverseRecOn generalizing pools responses with
  | nil => cases known
  | append_singleton commands command ih =>
      obtain ⟨before, earlier, response, first, rfl⟩ := sequential_split whole
      have length := sequential_length first
      rw [List.length_append, List.length_singleton] at known
      by_cases last : position = commands.length
      · subst last
        unfold Runtime.answerTo
        rw [List.take_of_length_le (by simp), whole]
        rfl
      · have inside : position < commands.length := by omega
        rw [List.getElem?_append_left (by omega), ← ih first inside]
        unfold Runtime.answerTo
        rw [List.take_append_of_le_length (by omega)]

end

theorem answerTo_begins {commands later : List (Command Payload)} (earlier : commands <+: later) (position : Nat)
    (known : position < commands.length) : runtime.answerTo later position = runtime.answerTo commands position := by
  obtain ⟨rest, rfl⟩ := earlier
  unfold Runtime.answerTo
  rw [List.take_append_of_le_length (by omega)]

end Sequential

def Executor.held : Executor Payload → List (Command Payload)
  | .executing command | .crashed command => [command]
  | _ => []

def Receiver.held : Receiver Payload → List (Command Payload)
  | .holding command => [command]
  | _ => []

namespace Worker

def Ended (worker : Worker Payload Pools) : Prop :=
  ∃ earlier last, worker.executed = earlier ++ [last] ∧ last.type = .shutdown

def Phase (worker : Worker Payload Pools) : Prop :=
  match worker.executor with
  | .testing => worker.shutdownRequested = true → worker.receiver = .stopped ∧ worker.sender = .stopped
  | .popping | .executing _ => worker.shutdownRequested = false
  | .answered => worker.shutdownRequested = false ∧ worker.Ended
  | .joiningReceiver => worker.shutdownRequested = true
  | .joiningSender => worker.shutdownRequested = true ∧ worker.receiver = .stopped
  | .stopped => worker.shutdownRequested = true ∧ worker.receiver = .stopped ∧ worker.sender = .stopped
  | .crashed _ => True

structure Ok (runtime : Runtime Payload Pools) (worker : Worker Payload Pools) : Prop where
  arrived : worker.executed ++ worker.executor.held ++ worker.commandQueue ++ worker.receiver.held ++ worker.inbound =
    worker.arrived
  answers : runtime.sequential worker.executed =
    some (worker.pools, worker.delivered ++ worker.outbound ++ worker.sender.held ++ worker.responseQueue)
  ended : worker.shutdownRequested = true → worker.Ended
  phase : worker.Phase
  receiver : worker.receiver = .stopped → worker.shutdownRequested = true
  sender : worker.sender.Ending worker.shutdownRequested worker.responseQueue

theorem Phase.receiving (phase : worker.Phase) (running : worker.receiver ≠ .stopped) (receiver : Receiver Payload)
    (inbound commandQueue : List (Command Payload)) :
    ({ worker with receiver, inbound, commandQueue } : Worker Payload Pools).Phase := by
  unfold Phase at phase ⊢
  dsimp only [Ended] at phase ⊢
  split at phase
  · exact fun requested => absurd (phase requested).1 running
  · exact phase
  · exact phase
  · exact phase
  · exact phase
  · exact absurd phase.2 running
  · exact absurd phase.2.1 running
  · trivial

theorem Phase.sending (phase : worker.Phase) (running : worker.sender ≠ .stopped) (sender : QueueLoop Response)
    (responseQueue outbound : List Response) :
    ({ worker with sender, responseQueue, outbound } : Worker Payload Pools).Phase := by
  unfold Phase at phase ⊢
  dsimp only [Ended] at phase ⊢
  split at phase
  · exact fun requested => absurd (phase requested).2 running
  · exact phase
  · exact phase
  · exact phase
  · exact phase
  · exact phase
  · exact absurd phase.2.2 running
  · trivial

theorem Ok.executed_begins (ok : worker.Ok runtime) : worker.executed <+: worker.arrived := by
  rw [← ok.arrived]
  simp only [List.append_assoc]
  exact List.prefix_append _ _

theorem Ok.delivered_answers (ok : worker.Ok runtime) (position : Nat) (known : position < worker.delivered.length) :
    position < worker.executed.length ∧ runtime.answerTo worker.executed position = worker.delivered[position]? := by
  have length := sequential_length ok.answers
  simp only [List.length_append] at length
  have inside : position < worker.executed.length := by omega
  refine ⟨inside, ?_⟩
  rw [answerTo_of_sequential ok.answers position inside]
  simp only [List.append_assoc]
  exact List.getElem?_append_left known

theorem step_apart {thread : Thread} (moved : worker.step runtime thread = some next) :
    next.arrived = worker.arrived ∧ next.delivered = worker.delivered := by
  unfold Worker.step at moved
  split at moved
  · cases moved
  · unfold Worker.receiveCommands at moved
    split at moved
    case h_2 => split at moved <;> cases moved <;> exact ⟨rfl, rfl⟩
    all_goals
      cases moved
      try exact ⟨rfl, rfl⟩
  · unfold Worker.run at moved
    split at moved
    case h_3 =>
      cases moved
      unfold Worker.execute
      split <;> exact ⟨rfl, rfl⟩
    case h_2 | h_5 | h_6 =>
      split at moved
      all_goals
        cases moved
        try exact ⟨rfl, rfl⟩
    all_goals
      cases moved
      try exact ⟨rfl, rfl⟩
  · unfold Worker.sendResponses at moved
    split at moved
    · cases moved
      exact ⟨rfl, rfl⟩
    · obtain ⟨_, _, rfl⟩ := Option.map_eq_some_iff.mp moved
      exact ⟨rfl, rfl⟩

namespace Ok

theorem start : runtime.start.Ok runtime :=
  ⟨rfl, rfl, nofun, nofun, nofun, QueueLoop.Ending.testing⟩

theorem receiveCommands (ok : worker.Ok runtime) (moved : worker.receiveCommands = some next) : next.Ok runtime := by
  have arrived := ok.arrived
  unfold Worker.receiveCommands at moved
  split at moved
  case h_1 place =>
    cases moved
    have running : worker.receiver ≠ .stopped := by rw [place]; nofun
    rw [place] at arrived
    by_cases requested : worker.shutdownRequested = true
    · rw [if_pos requested]
      exact ⟨arrived, ok.answers, ok.ended, ok.phase.receiving running _ _ _, fun _ => requested, ok.sender⟩
    · rw [if_neg requested]
      exact ⟨arrived, ok.answers, ok.ended, ok.phase.receiving running _ _ _, nofun, ok.sender⟩
  case h_2 place =>
    have running : worker.receiver ≠ .stopped := by rw [place]; nofun
    rw [place] at arrived
    split at moved
    case h_1 =>
      cases moved
      exact ⟨arrived, ok.answers, ok.ended, ok.phase.receiving running _ _ _, nofun, ok.sender⟩
    case h_2 command rest queue =>
      cases moved
      rw [queue] at arrived
      refine ⟨?_, ok.answers, ok.ended, ok.phase.receiving running _ _ _, nofun, ok.sender⟩
      simpa [Receiver.held] using arrived
  case h_3 command place =>
    cases moved
    have running : worker.receiver ≠ .stopped := by rw [place]; nofun
    rw [place] at arrived
    refine ⟨?_, ok.answers, ok.ended, ok.phase.receiving running _ _ _, nofun, ok.sender⟩
    simpa [Receiver.held] using arrived
  case h_4 => cases moved

theorem sendResponses (ok : worker.Ok runtime) (moved : worker.sendResponses = some next) : next.Ok runtime := by
  have answers := ok.answers
  unfold Worker.sendResponses at moved
  split at moved
  case h_1 response place =>
    cases moved
    have running : worker.sender ≠ .stopped := by rw [place]; nofun
    rw [place] at answers
    refine ⟨ok.arrived, ?_, ok.ended, ok.phase.sending running _ _ _, ok.receiver, QueueLoop.Ending.testing⟩
    simpa using answers
  case h_2 =>
    obtain ⟨⟨sender, responseQueue⟩, advanced, rfl⟩ := Option.map_eq_some_iff.mp moved
    have running : worker.sender ≠ .stopped := by
      intro gone
      rw [gone] at advanced
      cases advanced
    obtain ⟨idle, items, held, contents⟩ := QueueLoop.advance_contents advanced
    refine ⟨ok.arrived, ?_, ok.ended, ok.phase.sending running _ _ _, ok.receiver, ok.sender.advance id advanced⟩
    rw [answers, idle, ← contents, held]
    simp

theorem execute (ok : worker.Ok runtime) {command : Command Payload} (place : worker.executor = .executing command) :
    (worker.execute runtime command).Ok runtime := by
  have arrived := ok.arrived
  have phase := ok.phase
  rw [place] at arrived
  unfold Phase at phase
  rw [place] at phase
  unfold Worker.execute
  split
  case h_1 => exact ⟨arrived, ok.answers, ok.ended, trivial, ok.receiver, ok.sender⟩
  case h_2 pools response answer =>
    have sender := ok.sender
    rw [phase] at sender
    refine ⟨?_, ?_, fun requested => ?_, ?_, ok.receiver, ?_⟩
    · split <;> simpa [Executor.held] using arrived
    · rw [sequential_append ok.answers answer]
      simp
    · exact absurd (phase.symm.trans requested) Bool.false_ne_true
    · unfold Phase
      dsimp only
      split
      case h_1 => exact fun requested => absurd (phase.symm.trans requested) Bool.false_ne_true
      case h_4 gone =>
        have isShutdown : command.type = .shutdown := by
          by_contra other
          rw [if_neg other] at gone
          cases gone
        exact ⟨phase, worker.executed, command, rfl, isShutdown⟩
      all_goals
        rename_i gone
        split at gone <;> cases gone
    · dsimp only
      rw [phase]
      exact sender.push _

theorem run (ok : worker.Ok runtime) (moved : worker.run runtime = some next) : next.Ok runtime := by
  have arrived := ok.arrived
  have phase := ok.phase
  unfold Worker.run at moved
  unfold Phase at phase
  split at moved
  case h_1 place =>
    cases moved
    rw [place] at arrived phase
    by_cases requested : worker.shutdownRequested = true
    · rw [if_pos requested]
      exact ⟨arrived, ok.answers, ok.ended, ⟨requested, phase requested⟩, ok.receiver, ok.sender⟩
    · rw [if_neg requested]
      exact ⟨arrived, ok.answers, ok.ended, Bool.eq_false_iff.mpr requested, ok.receiver, ok.sender⟩
  case h_2 place =>
    rw [place] at arrived phase
    split at moved
    case h_1 => cases moved
    case h_2 command rest queue =>
      cases moved
      rw [queue] at arrived
      refine ⟨?_, ok.answers, ok.ended, phase, ok.receiver, ok.sender⟩
      simpa [Executor.held] using arrived
  case h_3 command place =>
    cases moved
    exact ok.execute place
  case h_4 place =>
    cases moved
    rw [place] at arrived phase
    exact ⟨arrived, ok.answers, fun _ => phase.2, rfl, fun _ => rfl, ok.sender.close⟩
  case h_5 place =>
    rw [place] at arrived phase
    split at moved
    case h_1 receiver =>
      cases moved
      exact ⟨arrived, ok.answers, ok.ended, ⟨phase, receiver⟩, ok.receiver, ok.sender⟩
    case h_2 => cases moved
  case h_6 place =>
    rw [place] at arrived phase
    split at moved
    case h_1 sender =>
      cases moved
      exact ⟨arrived, ok.answers, ok.ended, fun _ => ⟨phase.2, sender⟩, ok.receiver, ok.sender⟩
    case h_2 => cases moved
  case h_7 => cases moved
  case h_8 => cases moved

theorem step {thread : Thread} (ok : worker.Ok runtime) (moved : worker.step runtime thread = some next) :
    next.Ok runtime := by
  unfold Worker.step at moved
  split at moved
  · cases moved
  · exact ok.receiveCommands moved
  · exact ok.run moved
  · exact ok.sendResponses moved

theorem arrive (ok : worker.Ok runtime) (command : Command Payload) : (worker.arrive command).Ok runtime := by
  refine ⟨?_, ok.answers, ok.ended, ok.phase, ok.receiver, ok.sender⟩
  simp only [Worker.arrive, ← ok.arrived, List.append_assoc]

theorem deliver {response : Response} (ok : worker.Ok runtime) (read : worker.deliver = some (response, next)) :
    next.Ok runtime := by
  unfold Worker.deliver at read
  split at read
  case h_1 => cases read
  case h_2 rest outbound =>
    cases read
    refine ⟨ok.arrived, ?_, ok.ended, ok.phase, ok.receiver, ok.sender⟩
    have answers := ok.answers
    rw [outbound] at answers
    simpa using answers

end Ok

/-- A bound on the steps until all that has arrived is answered at the socket. -/
def work (worker : Worker Payload Pools) : Nat :=
  25 * worker.inbound.length + 20 * worker.commandQueue.length + worker.outbound.length +
    worker.sender.left worker.responseQueue +
    (match worker.receiver with
      | .testing => 2
      | .polling => 1
      | .holding _ => 23
      | .stopped => 0) +
    match worker.executor with
      | .testing => 2
      | .popping => 1
      | .executing _ => 12
      | _ => 0

structure Alive (worker : Worker Payload Pools) : Prop where
  executor : ∀ command, worker.executor ≠ .crashed command
  sender : worker.sender ≠ .unstarted

theorem Alive.step (total : ∀ pools command, (runtime.respond pools command).isSome) (alive : worker.Alive)
    {thread : Thread} (moved : worker.step runtime thread = some next) : next.Alive := by
  have executor := alive.executor
  have sender := alive.sender
  unfold Worker.step at moved
  split at moved
  case h_1 => cases moved
  case h_2 =>
    unfold Worker.receiveCommands at moved
    split at moved
    case h_2 => split at moved <;> cases moved <;> exact ⟨executor, sender⟩
    case h_4 => cases moved
    all_goals
      cases moved
      exact ⟨executor, sender⟩
  case h_3 =>
    unfold Worker.run at moved
    split at moved
    case h_1 =>
      cases moved
      refine ⟨fun command => ?_, sender⟩
      dsimp only
      split <;> nofun
    case h_3 command _ =>
      cases moved
      obtain ⟨answer, answers⟩ := Option.isSome_iff_exists.mp (total worker.pools command)
      refine ⟨fun other => ?_, ?_⟩
      · simp only [Worker.execute, answers]
        split <;> nofun
      · simpa only [Worker.execute, answers] using sender
    case h_4 =>
      cases moved
      exact ⟨nofun, sender⟩
    case h_7 => cases moved
    case h_8 => cases moved
    all_goals
      split at moved
      all_goals
        cases moved
        try exact ⟨nofun, sender⟩
  case h_4 =>
    unfold Worker.sendResponses at moved
    split at moved
    · cases moved
      exact ⟨executor, nofun⟩
    · obtain ⟨⟨sender, responseQueue⟩, advanced, rfl⟩ := Option.map_eq_some_iff.mp moved
      exact ⟨executor, (QueueLoop.advance_started advanced).2.2⟩

/-- All that has arrived is executed, and all responses are at the socket. -/
def Done (worker : Worker Payload Pools) : Prop :=
  worker.executed = worker.arrived ∧ worker.sender.held = [] ∧ worker.responseQueue = []

theorem Alive.step_eq (runtime : Runtime Payload Pools) (alive : worker.Alive) : worker.step runtime .receiver = worker.receiveCommands ∧
    worker.step runtime .executor = worker.run runtime ∧ worker.step runtime .sender = worker.sendResponses := by
  unfold Worker.step
  cases place : worker.executor with
  | crashed command => exact absurd place (alive.executor command)
  | _ => exact ⟨rfl, rfl, rfl⟩

section Progress
variable (total : ∀ pools command, (runtime.respond pools command).isSome) (ok : worker.Ok runtime)
  (alive : worker.Alive)
include ok

theorem receiveCommands_progress (running : worker.shutdownRequested = false)
    (queued : worker.receiver.held ≠ [] ∨ worker.inbound ≠ []) :
    ∃ next, worker.receiveCommands = some next ∧ next.work < worker.work := by
  unfold receiveCommands
  cases place : worker.receiver with
  | testing =>
      refine ⟨_, rfl, ?_⟩
      simp [work, place, running]
  | polling =>
      rw [place] at queued
      cases inbound : worker.inbound with
      | nil => exact absurd inbound (queued.resolve_left fun held => held rfl)
      | cons command rest =>
          refine ⟨_, rfl, ?_⟩
          simp only [work, place, inbound, List.length_cons]
          omega
  | holding command =>
      refine ⟨_, rfl, ?_⟩
      simp only [work, place, List.length_append, List.length_singleton]
      omega
  | stopped => exact absurd (running.symm.trans (ok.receiver place)) Bool.false_ne_true

include alive

theorem sendResponses_progress (queued : worker.sender.held ≠ [] ∨ worker.responseQueue ≠ []) :
    ∃ next, worker.sendResponses = some next ∧ next.work < worker.work := by
  unfold sendResponses
  split
  case h_1 response place =>
    refine ⟨_, rfl, ?_⟩
    simp only [work, place, QueueLoop.left, List.length_append, List.length_singleton]
    omega
  case h_2 other =>
    have idle : worker.sender.held = [] := by
      cases place : worker.sender with
      | holding response => exact absurd place (other response)
      | _ => rfl
    have waiting := queued.resolve_left fun held => held idle
    obtain ⟨sender, rest, advanced⟩ := QueueLoop.advance_exists worker.shutdownRequested id worker.responseQueue
      alive.sender (fun gone => waiting (ok.sender.stopped gone).2) idle
    have left := QueueLoop.advance_left (.inr waiting) advanced
    refine ⟨_, by rw [advanced]; rfl, ?_⟩
    simp only [work]
    omega

include total

theorem run_progress (running : ¬ worker.Ended) (queued : worker.executor.held ≠ [] ∨ worker.commandQueue ≠ []) :
    ∃ next, worker.run runtime = some next ∧ next.work < worker.work := by
  have requested : worker.shutdownRequested = false := Bool.eq_false_iff.mpr fun requested => running (ok.ended requested)
  have phase := ok.phase
  unfold Phase at phase
  unfold run
  cases place : worker.executor with
  | testing =>
      refine ⟨_, rfl, ?_⟩
      simp [work, place, requested]
  | popping =>
      rw [place] at queued
      cases waiting : worker.commandQueue with
      | nil => exact absurd waiting (queued.resolve_left fun held => held rfl)
      | cons command rest =>
          refine ⟨_, rfl, ?_⟩
          simp only [work, place, waiting, List.length_cons]
          omega
  | executing command =>
      obtain ⟨answer, answers⟩ := Option.isSome_iff_exists.mp (total worker.pools command)
      have pushed := worker.sender.left_push worker.responseQueue answer.2
      refine ⟨_, rfl, ?_⟩
      by_cases ends : command.type = .shutdown <;>
        simp only [work, execute, answers, place, ends, ↓reduceIte] <;> omega
  | crashed command => exact absurd place (alive.executor command)
  | answered =>
      rw [place] at phase
      exact absurd phase.2 running
  | joiningReceiver =>
      rw [place] at phase
      exact absurd (requested.symm.trans phase) Bool.false_ne_true
  | joiningSender =>
      rw [place] at phase
      exact absurd (requested.symm.trans phase.1) Bool.false_ne_true
  | stopped =>
      rw [place] at phase
      exact absurd (requested.symm.trans phase.1) Bool.false_ne_true

theorem progress (last : worker.Ended → worker.executed = worker.arrived) (busy : ¬ worker.Done) :
    ∃ thread next, worker.step runtime thread = some next ∧ next.work < worker.work := by
  obtain ⟨receives, runs, sends⟩ := alive.step_eq runtime
  by_cases executed : worker.executed = worker.arrived
  · refine ⟨.sender, ?_⟩
    rw [sends]
    apply sendResponses_progress ok alive
    by_contra! idle
    exact busy ⟨executed, idle.1, idle.2⟩
  · have running : ¬ worker.Ended := fun ended => executed (last ended)
    have requested := Bool.eq_false_iff.mpr fun requested => running (ok.ended requested)
    by_cases here : worker.executor.held = [] ∧ worker.commandQueue = []
    · refine ⟨.receiver, ?_⟩
      rw [receives]
      apply receiveCommands_progress ok requested
      by_contra! idle
      have arrived := ok.arrived
      rw [here.1, here.2, idle.1, idle.2] at arrived
      exact executed (by simpa using arrived)
    · refine ⟨.executor, ?_⟩
      rw [runs]
      exact run_progress total ok alive running (by tauto)

end Progress

end Worker

end TtMlir.Distributed
