import TtMlir.Distributed.Calling
import TtMlir.Library.Runs

/-!
Over all interleavings: every command goes to every worker once and in order, the
responses matched to an entry are the responses to its own command, and a shutdown
that succeeds leaves nothing unanswered.
-/

namespace TtMlir.Distributed

variable {n : Nat} {Payload Pools : Type}

section Results

variable {runtimes : Fin n → Runtime Payload Pools} {configuration : Payload} {firstId : UInt64}
  {s : State n Payload Pools}

theorem reached_invariant (reached : Reaches (step runtimes configuration) (start runtimes firstId) s) :
    Ordered runtimes s ∧ Calling s := by
  refine reached.invariant (fun s => Ordered runtimes s ∧ Calling s)
    ⟨start_ordered runtimes firstId, Calling.start runtimes firstId⟩ ?_
  rintro action state next ⟨ordered, calling⟩ moved
  cases action with
  | controller action =>
      simp only [step] at moved
      split at moved
      · cases moved
      · rename_i running
        have running := Bool.eq_false_iff.mpr running
        exact ⟨ordered.control calling.launching.mp (fun place => calling.launchingHandler (.inr place)) running moved,
          calling.control ordered running moved⟩
  | worker index thread =>
      obtain ⟨worker, stepped, rfl⟩ := Option.map_eq_some_iff.mp moved
      obtain ⟨arrived, delivered⟩ := Worker.step_apart stepped
      exact ⟨ordered.setWorker index worker ((ordered.workers index).step stepped) arrived delivered, { calling with }⟩

def Worker.sent (worker : Worker Payload Pools) : List Response := worker.delivered ++ worker.outbound

def Worker.onTheWay (worker : Worker Payload Pools) : List (Command Payload) :=
  worker.executor.held ++ worker.commandQueue ++ worker.receiver.held ++ worker.inbound

/-- Each worker executes the pushed commands once and in order; the responses matched to an entry are
each worker's to that entry's command; a completed call reads what the calls give one by one; a
successful shutdown leaves nothing unanswered. -/
structure NeverMixesUp (runtimes : Fin n → Runtime Payload Pools) (s : State n Payload Pools) : Prop where
  executes : ∀ index, (s.workers index).executed <+: s.pushed
  conserves : ∀ index, (s.workers index).executed ++ (s.workers index).onTheWay ++ toward s.dispatcher index ++
    s.commandQueue = s.pushed
  matched : ∀ number entry responses, s.handled[number]? = some (entry, responses) →
    ∃ call, s.calls[number]? = some call ∧ entry = call.entry number ∧ responses.length = n ∧
      ∀ index : Fin n, number < (s.workers index).executed.length ∧
        responses[index.val]? = (runtimes index).answerTo (s.calls.map (·.command)) number
  reads : ∀ number reading, (number, reading) ∈ s.reads → sequentialReading runtimes s.calls number = some reading ∧
    ∀ index, number < (s.workers index).executed.length
  shutdown : s.caller = .returned true → s.awaitingResponseQueue = [] ∧ s.responseHandler = .stopped ∧
    s.handled.length = s.calls.length ∧ ∀ index, (s.workers index).executed = s.calls.map (·.command)
  sends : ∀ index, (s.workers index).sender = .stopped ∨ (s.workers index).executor = .stopped →
    (s.workers index).executed = s.calls.map (·.command) ∧
      (runtimes index).sequential (s.calls.map (·.command)) = some ((s.workers index).pools, (s.workers index).sent)

theorem executed_all (ordered : Ordered runtimes s) (calling : Calling s) (index : Fin n)
    (ended : (s.workers index).Ended) : (s.workers index).executed = s.calls.map (·.command) := by
  obtain ⟨earlier, last, same, isShutdown⟩ := ended
  obtain ⟨rest, whole⟩ := ordered.executed_commands index
  rw [same] at whole ⊢
  cases final : s.caller.final with
  | false =>
      have member : last ∈ s.calls.map (·.command) := by
        rw [← whole]
        simp
      obtain ⟨call, called, rfl⟩ := List.mem_map.mp member
      exact absurd isShutdown (calling.ordinary final call called)
  | true =>
      obtain ⟨front, final, calls, _, ordinary⟩ := calling.final final
      rw [calls, List.map_append, List.map_singleton] at whole ⊢
      rcases List.eq_nil_or_concat rest with rfl | ⟨others, other, rfl⟩
      · rw [← whole, List.append_nil]
      · rw [List.concat_eq_append, ← List.append_assoc] at whole
        have split : earlier ++ [last] ++ others = front.map (·.command) ∧ [other] = [final.command] :=
          List.append_inj' whole rfl
        have member : last ∈ front.map (·.command) := by
          rw [← split.1]
          simp
        obtain ⟨call, called, rfl⟩ := List.mem_map.mp member
        exact absurd isShutdown (ordinary call called)

/-- In every state that any interleaving reaches. -/
theorem controller_never_mixes_up
    (reached : Reaches (step runtimes configuration) (start runtimes firstId) s) : NeverMixesUp runtimes s := by
  obtain ⟨ordered, calling⟩ := reached_invariant reached
  constructor
  case executes => exact ordered.executed_pushed
  case conserves =>
    intro index
    rw [← ordered.pushed_eq index, ← (ordered.workers index).arrived]
    simp only [Worker.onTheWay, List.append_assoc]
  case matched => exact fun number entry responses known => ordered.handled_own known
  case reads => exact fun number reading read => ordered.read_sequential read
  case shutdown =>
    intro returned
    have all := calling.answered (by rw [returned]; rfl)
    have stopped := calling.joinedBoth (by rw [returned]; rfl)
    refine ⟨(calling.handler.stopped stopped).2, stopped, all, fun index => ?_⟩
    apply (ordered.executed_commands index).eq_of_length_le
    have delivered := congrArg List.length (ordered.responses index)
    simp only [stopped, taken, QueueLoop.held_stopped, List.length_append, List.length_map, List.flatMap_nil,
      List.map_nil, List.length_nil] at delivered
    have answered := sequential_length (ordered.workers index).answers
    simp only [List.length_append] at answered
    rw [List.length_map]
    omega
  case sends =>
    intro index gone
    have ok := ordered.workers index
    have stopped : (s.workers index).sender = .stopped := by
      rcases gone with sender | executor
      · exact sender
      · have phase := ok.phase
        unfold Worker.Phase at phase
        rw [executor] at phase
        exact phase.2.2
    obtain ⟨requested, empty⟩ := ok.sender.stopped stopped
    have all := executed_all ordered calling index (ok.ended requested)
    refine ⟨all, ?_⟩
    have answers := ok.answers
    rw [all, stopped, empty] at answers
    simpa [Worker.sent] using answers

end Results

section Example

def volumes (index : Fin 2) : Runtime Unit Nat where
  initial := 12
  execute := fun pools command =>
    match command.type with
    | .getTensorVolume => some (pools, .tensorVolume (.ofNat pools))
    | _ => some (pools + index.val, .done)

def roundTrip : List (Action 2 Unit) :=
  [.controller .processCommandQueue, .controller .processCommandQueue, .controller (.write ⟨1, Nat.one_lt_two⟩),
    .controller (.write ⟨0, Nat.two_pos⟩), .controller .processCommandQueue, .controller .processResponseQueue,
    .controller .processResponseQueue] ++
  (List.finRange 2).flatMap (fun index =>
    [Worker.Thread.receiver, .receiver, .receiver, .executor, .executor, .executor, .sender, .sender, .sender].map
      (Action.worker index)) ++
  [.controller (.read ⟨0, Nat.two_pos⟩), .controller (.read ⟨1, Nat.one_lt_two⟩), .controller .processResponseQueue]

def volumeRun : List (Action 2 Unit) :=
  List.replicate 4 (.controller .proceed) ++ roundTrip ++ List.replicate 2 (.controller .proceed) ++
  [.controller (.call .getTensorVolume none true), .controller .proceed] ++ roundTrip ++
  [.controller .proceed, .controller .shutdown, .controller .proceed] ++ roundTrip ++
  [.controller .proceed, .controller .processCommandQueue, .controller .processCommandQueue, .controller .proceed,
    .controller .processResponseQueue, .controller .processResponseQueue, .controller .proceed,
    .controller (.exit (some 0))]

theorem controller_never_mixes_up_volumes : ∃ s : State 2 Unit Nat,
    Reaches (step volumes ()) (start volumes 7) s ∧ s.reads = [(0, .unset), (1, .number 12), (2, .unset)] ∧
      NeverMixesUp volumes s := by
  have replayed : (EventLog.replay (step volumes ()) volumeRun (start volumes 7)).map State.reads =
      some [(0, .unset), (1, .number 12), (2, .unset)] := by
    decide
  obtain ⟨s, run, reads⟩ := Option.map_eq_some_iff.mp replayed
  have reached := Reaches.of_replay volumeRun run
  exact ⟨s, reached, reads, controller_never_mixes_up reached⟩

end Example

end TtMlir.Distributed
