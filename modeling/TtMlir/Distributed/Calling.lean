import TtMlir.Distributed.Ordering

/-!
How far the caller of the API is with its calls and the threads of the controller
with their ends. The shutdown is the last call, and the threads end only after its
response has come.
-/

namespace TtMlir.Distributed

variable {n : Nat} {Payload Pools : Type}

section Places

def Caller.closing : Caller Payload → Bool
  | .joiningDispatcher | .joiningResponseHandler | .exiting | .returned _ => true
  | _ => false

def Caller.operating : Caller Payload → Bool
  | .idle | .pushing .api _ | .waiting .api _ => true
  | _ => false

def Caller.final : Caller Payload → Bool
  | .pushing .shutdown _ | .waiting .shutdown _ => true
  | caller => caller.closing

def Caller.joined : Caller Payload → Bool
  | .joiningResponseHandler | .exiting | .returned true => true
  | _ => false

def Caller.joinedBoth : Caller Payload → Bool
  | .exiting | .returned true => true
  | _ => false

end Places

structure Calling (s : State n Payload Pools) : Prop where
  launching : s.caller = .connected ↔ s.dispatcher = .unstarted
  fresh : s.caller = .connected → s.calls = []
  launchingHandler : s.caller = .connected ∨ s.caller = .dispatcherLaunched → s.responseHandler = .unstarted
  ordinary : s.caller.final = false → ∀ call ∈ s.calls, call.command.type ≠ .shutdown
  final : s.caller.final = true → ∃ earlier last, s.calls = earlier ++ [last] ∧ last.command.type = .shutdown ∧
    ∀ call ∈ earlier, call.command.type ≠ .shutdown
  operational : s.caller.operating = true → s.controllerState = .fullyOperational
  pushing : ∀ purpose call, s.caller = .pushing purpose call →
    s.calls ≠ [] ∧ (purpose ≠ .api → call.awaited = true)
  waiting : ∀ purpose promise, s.caller = .waiting purpose promise → promise + 1 = s.calls.length
  answered : s.caller.closing = true → s.handled.length = s.calls.length
  stopping : s.controllerState = .shuttingDown → s.caller.closing = true
  dispatcher : s.dispatcher.Ending s.caller.closing s.commandQueue
  handler : s.responseHandler.Ending s.caller.closing s.awaitingResponseQueue
  joined : s.caller.joined = true → s.dispatcher = .stopped
  joinedBoth : s.caller.joinedBoth = true → s.responseHandler = .stopped

namespace Calling

variable {runtimes : Fin n → Runtime Payload Pools} {s next : State n Payload Pools}

theorem start (runtimes : Fin n → Runtime Payload Pools) (firstId : UInt64) : Calling (start runtimes firstId) where
  launching := iff_of_true rfl rfl
  fresh := fun _ => rfl
  launchingHandler := fun _ => rfl
  ordinary := nofun
  final := nofun
  operational := nofun
  pushing := nofun
  waiting := nofun
  answered := nofun
  stopping := nofun
  dispatcher := QueueLoop.Ending.unstarted
  handler := QueueLoop.Ending.unstarted
  joined := nofun
  joinedBoth := nofun

section Stages

theorem of_open (started : s.dispatcher ≠ .unstarted)
    (launched : s.caller ≠ .connected ∧ s.caller ≠ .dispatcherLaunched) (isOpen : s.caller.closing = false)
    (ordinary : s.caller.final = false → ∀ call ∈ s.calls, call.command.type ≠ .shutdown)
    (final : s.caller.final = true → ∃ earlier last, s.calls = earlier ++ [last] ∧ last.command.type = .shutdown ∧
      ∀ call ∈ earlier, call.command.type ≠ .shutdown)
    (operational : s.caller.operating = true → s.controllerState = .fullyOperational)
    (pushing : ∀ purpose call, s.caller = .pushing purpose call →
      s.calls ≠ [] ∧ (purpose ≠ .api → call.awaited = true))
    (waiting : ∀ purpose promise, s.caller = .waiting purpose promise → promise + 1 = s.calls.length)
    (running : s.controllerState ≠ .shuttingDown) (dispatcher : s.dispatcher.Ending false s.commandQueue)
    (handler : s.responseHandler.Ending false s.awaitingResponseQueue) : Calling s where
  launching := iff_of_false launched.1 started
  fresh := fun place => absurd place launched.1
  launchingHandler := fun place => place.elim (absurd · launched.1) (absurd · launched.2)
  ordinary := ordinary
  final := final
  operational := operational
  pushing := pushing
  waiting := waiting
  answered := fun closing => absurd (isOpen.symm.trans closing) Bool.false_ne_true
  stopping := fun stopping => absurd stopping running
  dispatcher := by rw [isOpen]; exact dispatcher
  handler := by rw [isOpen]; exact handler
  joined := by
    intro joined
    unfold Caller.joined at joined
    split at joined
    case h_4 => cases joined
    all_goals
      rename_i place
      rw [place] at isOpen
      cases isOpen
  joinedBoth := by
    intro joined
    unfold Caller.joinedBoth at joined
    split at joined
    case h_3 => cases joined
    all_goals
      rename_i place
      rw [place] at isOpen
      cases isOpen

theorem of_closing (started : s.dispatcher ≠ .unstarted) (closing : s.caller.closing = true)
    (final : ∃ earlier last, s.calls = earlier ++ [last] ∧ last.command.type = .shutdown ∧
      ∀ call ∈ earlier, call.command.type ≠ .shutdown)
    (answered : s.handled.length = s.calls.length) (dispatcher : s.dispatcher.Ending true s.commandQueue)
    (handler : s.responseHandler.Ending true s.awaitingResponseQueue)
    (joined : s.caller.joined = true → s.dispatcher = .stopped)
    (joinedBoth : s.caller.joinedBoth = true → s.responseHandler = .stopped) : Calling s := by
  have apart : ∀ caller : Caller Payload, caller.closing = false → s.caller ≠ caller := by
    rintro caller isOpen rfl
    exact Bool.false_ne_true (isOpen.symm.trans closing)
  have isFinal : s.caller.final = true := by
    unfold Caller.final
    split
    · rfl
    · rfl
    · exact closing
  exact
    { launching := iff_of_false (apart _ rfl) started
      fresh := fun place => absurd place (apart _ rfl)
      launchingHandler := fun place => place.elim (absurd · (apart _ rfl)) (absurd · (apart _ rfl))
      ordinary := fun other => absurd (other.symm.trans isFinal) Bool.false_ne_true
      final := fun _ => final
      operational := by
        intro operating
        unfold Caller.operating at operating
        split at operating
        case h_1 place => exact absurd place (apart _ rfl)
        case h_2 place => exact absurd place (apart _ rfl)
        case h_3 place => exact absurd place (apart _ rfl)
        case h_4 => cases operating
      pushing := fun _ _ place => absurd place (apart _ rfl)
      waiting := fun _ _ place => absurd place (apart _ rfl)
      answered := fun _ => answered
      stopping := fun _ => closing
      dispatcher := by rw [closing]; exact dispatcher
      handler := by rw [closing]; exact handler
      joined := joined
      joinedBoth := joinedBoth }

theorem not_stopping (calling : Calling s) (isOpen : s.caller.closing = false) : s.controllerState ≠ .shuttingDown :=
  fun stopping => absurd (isOpen.symm.trans (calling.stopping stopping)) Bool.false_ne_true

theorem started (calling : Calling s) (place : s.caller ≠ .connected) : s.dispatcher ≠ .unstarted :=
  fun unstarted => place (calling.launching.mpr unstarted)

theorem stopping_closing (calling : Calling s) (stop : s.stopping = true) : s.caller.closing = true :=
  calling.stopping (of_decide_eq_true stop)

end Stages

section CallerThread

section
variable (calling : Calling s)
include calling

theorem pushToResponseQueue (launched : s.caller ≠ .connected) (before : s.caller.final = false)
    (isOpen : s.caller.closing = false) {purpose : Purpose} {type : CommandType} {payload : Option Payload}
    {awaited : Bool} (fits : purpose = .shutdown ↔ type = .shutdown) (waited : purpose ≠ .api → awaited = true)
    (operational : purpose = .api → s.controllerState = .fullyOperational) :
    Calling (s.pushToResponseQueue purpose type payload awaited) := by
  have ordinary := calling.ordinary before
  have handler := calling.handler
  have dispatcher := calling.dispatcher
  rw [isOpen] at handler dispatcher
  apply of_open
  case started => exact calling.started launched
  case launched => constructor <;> rintro ⟨⟩
  case isOpen => rfl
  case ordinary =>
    intro other call member
    rcases List.mem_append.mp member with earlier | last
    · exact ordinary call earlier
    · rw [List.mem_singleton.mp last]
      intro isShutdown
      rw [fits.mpr isShutdown] at other
      cases other
  case final =>
    intro gone
    refine ⟨s.calls, _, rfl, ?_, ordinary⟩
    apply fits.mp
    cases purpose with
    | shutdown => rfl
    | api => cases gone
    | configureRuntimeContext => cases gone
  case operational =>
    intro operating
    apply operational
    cases purpose with
    | shutdown => cases operating
    | api => rfl
    | configureRuntimeContext => cases operating
  case pushing =>
    intro own call same
    cases same
    exact ⟨by simp [State.pushToResponseQueue], waited⟩
  case waiting => rintro own promise ⟨⟩
  case running => exact calling.not_stopping isOpen
  case dispatcher => exact dispatcher
  case handler => exact handler.push _

theorem pushToCommandQueue {purpose : Purpose} {call : Call Payload}
    (place : s.caller = .pushing purpose call) : Calling (s.pushToCommandQueue purpose call) := by
  obtain ⟨some, waited⟩ := calling.pushing purpose call place
  have started := calling.started (by rw [place]; nofun)
  have running := calling.not_stopping (by rw [place]; rfl)
  have dispatcher := calling.dispatcher
  have handler := calling.handler
  have ordinary := calling.ordinary
  have final := calling.final
  have operational := calling.operational
  rw [place] at dispatcher handler ordinary final operational
  unfold State.pushToCommandQueue
  cases awaited : call.awaited with
  | true =>
      apply of_open
      case started => exact started
      case launched => exact ⟨nofun, nofun⟩
      case isOpen => rfl
      case ordinary => cases purpose <;> exact ordinary
      case final => cases purpose <;> exact final
      case operational => cases purpose <;> exact operational
      case pushing => nofun
      case waiting =>
        intro own promise same
        cases same
        exact Nat.succ_pred_eq_of_pos (List.length_pos_iff.mpr some)
      case running => exact running
      case dispatcher => exact dispatcher.push _
      case handler => exact handler
  | false =>
      obtain rfl : purpose = .api := by
        by_contra other
        rw [waited other] at awaited
        cases awaited
      exact of_open started ⟨nofun, nofun⟩ rfl ordinary nofun operational nofun nofun running
        (dispatcher.push _) handler

theorem call {type : CommandType} {payload : Option Payload} {awaited : Bool}
    (moved : s.call type payload awaited = some next) : Calling next := by
  unfold State.call at moved
  split at moved
  case h_1 place =>
    split at moved
    · rename_i waited
      cases moved
      apply calling.pushToResponseQueue (by rw [place]; nofun) (by rw [place]; rfl) (by rw [place]; rfl)
      · constructor
        · nofun
        · rintro rfl
          cases waited
      · exact fun other => absurd rfl other
      · exact fun _ => calling.operational (by rw [place]; rfl)
    · cases moved
  case h_2 => cases moved

theorem shutdown (moved : s.shutdown = some next) : Calling next := by
  unfold State.shutdown at moved
  split at moved
  case h_1 place =>
    have operational := calling.operational (by rw [place]; rfl)
    rw [operational] at moved
    cases moved
    exact calling.pushToResponseQueue (by rw [place]; nofun) (by rw [place]; rfl) (by rw [place]; rfl)
      (iff_of_true rfl rfl) (fun _ => rfl) nofun
  case h_2 => cases moved

theorem resume (all : s.handled.length ≤ s.calls.length) {purpose : Purpose} {promise : Nat}
    {reading : Reading} (place : s.caller = .waiting purpose promise) (handled : HandledAs s promise reading) :
    Calling (s.resume purpose) := by
  have started := calling.started (by rw [place]; nofun)
  have running := calling.not_stopping (by rw [place]; rfl)
  have dispatcher := calling.dispatcher
  have handler := calling.handler
  have ordinary := calling.ordinary
  have final := calling.final
  have operational := calling.operational
  rw [place] at dispatcher handler ordinary final operational
  cases purpose with
  | configureRuntimeContext =>
      exact of_open started ⟨nofun, nofun⟩ rfl ordinary nofun nofun nofun nofun nofun dispatcher handler
  | api =>
      exact of_open started ⟨nofun, nofun⟩ rfl ordinary nofun operational nofun nofun running dispatcher handler
  | shutdown =>
      have last := calling.waiting _ _ place
      obtain ⟨entry, responses, known, _⟩ := handled
      have below := (List.getElem?_eq_some_iff.mp known).1
      have answered : s.handled.length = s.calls.length := by omega
      exact of_closing started rfl (final rfl) answered dispatcher.close handler.close nofun nofun

theorem record (reads : List (Nat × Reading)) : Calling { s with reads } := { calling with }

theorem proceed (ordered : Ordered runtimes s) (running : s.fatal = false)
    {configuration : Payload} (moved : s.proceed configuration = some next) : Calling next := by
  have dispatcher := calling.dispatcher
  have handler := calling.handler
  have ordinary := calling.ordinary
  have final := calling.final
  unfold State.proceed at moved
  split at moved
  case h_1 place =>
    cases moved
    rw [place] at handler ordinary
    exact
      { launching := iff_of_false nofun nofun
        fresh := nofun
        launchingHandler := fun _ => calling.launchingHandler (.inl place)
        ordinary := ordinary
        final := nofun
        operational := nofun
        pushing := nofun
        waiting := nofun
        answered := nofun
        stopping := nofun
        dispatcher := QueueLoop.Ending.testing
        handler := handler
        joined := nofun
        joinedBoth := nofun }
  case h_2 place =>
    cases moved
    rw [place] at dispatcher ordinary
    exact of_open (calling.started (by rw [place]; nofun)) ⟨nofun, nofun⟩ rfl ordinary nofun nofun nofun nofun nofun
      dispatcher QueueLoop.Ending.testing
  case h_3 place =>
    cases moved
    exact calling.pushToResponseQueue (by rw [place]; nofun) (by rw [place]; rfl) (by rw [place]; rfl)
      (iff_of_false nofun nofun) (fun _ => rfl) nofun
  case h_4 place =>
    cases moved
    rw [place] at dispatcher handler ordinary
    exact of_open (calling.started (by rw [place]; nofun)) ⟨nofun, nofun⟩ rfl ordinary nofun (fun _ => rfl) nofun nofun
      nofun dispatcher handler
  case h_5 purpose call place =>
    cases moved
    exact calling.pushToCommandQueue place
  case h_6 purpose promise place =>
    obtain ⟨reading, known, rfl⟩ := Option.map_eq_some_iff.mp moved
    have handled := ordered.fulfilled running promise reading known
    exact (calling.record (s.reads ++ [(promise, reading)])).resume ordered.handled_le place handled
  case h_7 place =>
    split at moved
    case h_1 gone =>
      cases moved
      rw [place] at dispatcher handler final
      exact of_closing (calling.started (by rw [place]; nofun)) rfl (final rfl) (calling.answered (by rw [place]; rfl))
        dispatcher handler (fun _ => gone) nofun
    case h_2 => cases moved
  case h_8 place =>
    split at moved
    case h_1 gone =>
      cases moved
      rw [place] at dispatcher handler final
      exact of_closing (calling.started (by rw [place]; nofun)) rfl (final rfl) (calling.answered (by rw [place]; rfl))
        dispatcher handler (fun _ => calling.joined (by rw [place]; rfl)) fun _ => gone
    case h_2 => cases moved
  all_goals cases moved

theorem exit {exitCode : Option Int} (moved : s.exit exitCode = some next) : Calling next := by
  unfold State.exit at moved
  split at moved
  case h_1 place =>
    cases moved
    have dispatcher := calling.dispatcher
    have handler := calling.handler
    have final := calling.final
    rw [place] at dispatcher handler final
    exact of_closing (calling.started (by rw [place]; nofun)) rfl (final rfl) (calling.answered (by rw [place]; rfl))
      dispatcher handler (fun _ => calling.joined (by rw [place]; rfl)) fun _ => calling.joinedBoth (by rw [place]; rfl)
  case h_2 => cases moved

end

end CallerThread

section Threads

section
variable (calling : Calling s)
include calling

theorem timeout (moved : s.timeout = some next) : Calling next := by
  unfold State.timeout at moved
  split at moved
  · cases moved
  · cases moved
    exact { calling with }

theorem dispatching (started : s.dispatcher ≠ .unstarted) (running : s.dispatcher ≠ .stopped)
    (dispatcher : QueueLoop (Dispatch n Payload)) (commandQueue : List (Command Payload))
    (workers : Fin n → Worker Payload Pools) (ending : dispatcher.Ending s.caller.closing commandQueue)
    (still : dispatcher ≠ .unstarted) : Calling { s with dispatcher, commandQueue, workers } :=
  { calling with
    launching := iff_of_false (fun place => started (calling.launching.mp place)) still
    dispatcher := ending
    joined := fun place => absurd (calling.joined place) running }

theorem handling (started : s.responseHandler ≠ .unstarted)
    (running : s.responseHandler ≠ .stopped)
    (responseHandler : QueueLoop (Collect n)) (awaitingResponseQueue : List AwaitingResponseQueueEntry)
    (workers : Fin n → Worker Payload Pools) (ending : responseHandler.Ending s.caller.closing awaitingResponseQueue) :
    Calling { s with responseHandler, awaitingResponseQueue, workers } :=
  { calling with
    launchingHandler := fun place => absurd (calling.launchingHandler place) started
    handler := ending
    joinedBoth := fun place => absurd (calling.joinedBoth place) running }

theorem processCommandQueue (moved : s.processCommandQueue = some next) : Calling next := by
  unfold State.processCommandQueue at moved
  split at moved
  case h_1 dispatch place =>
    split at moved
    · cases moved
      exact calling.dispatching (by rw [place]; nofun) (by rw [place]; nofun) _ _ _ QueueLoop.Ending.testing nofun
    · cases moved
  case h_2 =>
    obtain ⟨⟨dispatcher, commandQueue⟩, advanced, rfl⟩ := Option.map_eq_some_iff.mp moved
    obtain ⟨started, running, still⟩ := QueueLoop.advance_started advanced
    exact calling.dispatching started running _ _ _ (calling.dispatcher.advance calling.stopping_closing advanced) still

theorem write {index : Fin n} (moved : s.write index = some next) : Calling next := by
  unfold State.write at moved
  split at moved
  case h_1 dispatch place =>
    split at moved
    · cases moved
    · cases moved
      exact calling.dispatching (by rw [place]; nofun) (by rw [place]; nofun) _ _ _ (QueueLoop.Ending.holding _) nofun
  case h_2 => cases moved

theorem read {index : Fin n} (moved : s.read index = some next) : Calling next := by
  unfold State.read at moved
  split at moved
  case h_1 collect place =>
    split at moved
    · cases moved
    · obtain ⟨⟨response, worker⟩, _, rfl⟩ := Option.map_eq_some_iff.mp moved
      exact calling.handling (by rw [place]; nofun) (by rw [place]; nofun) _ _ _ (QueueLoop.Ending.holding _)
  case h_2 => cases moved

theorem finish (ordered : Ordered runtimes s) {collect : Collect n}
    (place : s.responseHandler = .holding collect) (responses : List Response) :
    Calling (s.finish collect.entry responses) := by
  unfold State.finish
  split
  · exact { calling with }
  · split
    · exact { calling with }
    · have handled : Calling { s with responseHandler := .testing } :=
        calling.handling (by rw [place]; nofun) (by rw [place]; nofun) _ _ _ QueueLoop.Ending.testing
      refine { handled with answered := ?_ }
      intro closing
      have all := calling.answered closing
      have entries := congrArg List.length ordered.entries
      simp only [place, QueueLoop.held_holding, List.length_append, List.length_map, List.length_mapIdx,
        List.length_singleton] at entries
      omega

theorem processResponseQueue (ordered : Ordered runtimes s)
    (moved : s.processResponseQueue = some next) : Calling next := by
  unfold State.processResponseQueue at moved
  split at moved
  case h_1 collect place =>
    obtain ⟨responses, _, rfl⟩ := Option.map_eq_some_iff.mp moved
    exact calling.finish ordered place responses
  case h_2 =>
    obtain ⟨⟨responseHandler, awaitingResponseQueue⟩, advanced, rfl⟩ := Option.map_eq_some_iff.mp moved
    obtain ⟨started, running, _⟩ := QueueLoop.advance_started advanced
    exact calling.handling started running _ _ _ (calling.handler.advance calling.stopping_closing advanced)

end

end Threads

theorem control (calling : Calling s) (ordered : Ordered runtimes s) (running : s.fatal = false)
    {configuration : Payload}
    {action : ControllerAction n Payload} (moved : s.control configuration action = some next) : Calling next := by
  cases action with
  | call type payload awaited => exact calling.call moved
  | shutdown => exact calling.shutdown moved
  | proceed => exact calling.proceed ordered running moved
  | exit exitCode => exact calling.exit moved
  | processCommandQueue => exact calling.processCommandQueue moved
  | write index => exact calling.write moved
  | processResponseQueue => exact calling.processResponseQueue ordered moved
  | read index => exact calling.read moved
  | timeout => exact calling.timeout moved

end Calling

end TtMlir.Distributed
