import TtMlir.Distributed.Controller
import TtMlir.Distributed.WorkerInvariant
import TtMlir.Library.MapM

/-!
The entries, the commands and the responses on their way: each is in one place, in
the order of the calls, whatever the interleaving. So the responses that are matched
to an entry are the responses to its own command, although ids are never compared.
-/

namespace TtMlir.Distributed

variable {n : Nat} {Payload Pools : Type}

section Collecting

theorem mapM_finRange {α : Type} (f : Fin n → Option α) (values : List α) :
    (List.finRange n).mapM f = some values ↔ values.length = n ∧ ∀ index : Fin n, values[index.val]? = f index := by
  rw [mapM_eq_some, List.forall₂_iff_get]
  simp only [List.length_finRange, List.get_eq_getElem, List.getElem_finRange]
  constructor
  · rintro ⟨length, each⟩
    refine ⟨length.symm, fun index => ?_⟩
    have inside : index.val < values.length := by rw [← length]; exact index.isLt
    have same : f index = some values[index.val] := each index.val index.isLt inside
    rw [same, List.getElem?_eq_getElem inside]
  · rintro ⟨length, each⟩
    refine ⟨length.symm, fun index inside inValues => ?_⟩
    change f ⟨index, inside⟩ = some values[index]
    rw [← List.getElem?_eq_getElem, ← each ⟨index, inside⟩]

end Collecting

section Places

def Caller.pending : Caller Payload → List (Call Payload)
  | .pushing _ call => [call]
  | _ => []

def toward (dispatcher : QueueLoop (Dispatch n Payload)) (index : Fin n) : List (Command Payload) :=
  dispatcher.held.flatMap fun dispatch => if dispatch.written index then [] else [dispatch.command]

def taken (responseHandler : QueueLoop (Collect n)) (index : Fin n) : List Response :=
  responseHandler.held.flatMap fun collect => (collect.received index).toList

def State.pushed (s : State n Payload Pools) : List (Command Payload) :=
  (s.calls.take (s.calls.length - s.caller.pending.length)).map (·.command)

end Places

section Invariant

variable (runtimes : Fin n → Runtime Payload Pools)

def HandledAs (s : State n Payload Pools) (number : Nat) (reading : Reading) : Prop :=
  ∃ entry responses, s.handled[number]? = some (entry, responses) ∧
    handleResponse entry.commandType true (responses.map Response.body) = some reading

/-- Each entry and each command is in one place on its way, in the order of the calls. -/
structure Ordered (s : State n Payload Pools) : Prop where
  entries : s.handled.map Prod.fst ++ s.responseHandler.held.map (·.entry) ++ s.awaitingResponseQueue =
    s.calls.mapIdx fun number call => call.entry number
  commands : ∀ index, (s.workers index).arrived ++ toward s.dispatcher index ++ s.commandQueue ++
    s.caller.pending.map (·.command) = s.calls.map (·.command)
  responses : ∀ index, (s.workers index).delivered.map some =
    s.handled.map (fun handled => handled.2[index.val]?) ++ (taken s.responseHandler index).map some
  lengths : ∀ handled ∈ s.handled, handled.2.length = n
  workers : ∀ index, (s.workers index).Ok (runtimes index)
  fulfilled : s.fatal = false → ∀ promise reading, s.fulfilled promise = some reading → HandledAs s promise reading
  reads : ∀ read ∈ s.reads, HandledAs s read.1 read.2

theorem start_ordered (firstId : UInt64) : Ordered runtimes (start runtimes firstId) where
  entries := rfl
  commands := fun _ => rfl
  responses := fun _ => rfl
  lengths := nofun
  workers := fun _ => Worker.Ok.start
  fulfilled := nofun
  reads := nofun

end Invariant

section Ordering

variable {runtimes : Fin n → Runtime Payload Pools} {s next : State n Payload Pools}

theorem HandledAs.mono {number : Nat} {reading : Reading} (handled : HandledAs s number reading)
    (later : s.handled <+: next.handled) :
    HandledAs next number reading := by
  obtain ⟨entry, responses, known, read⟩ := handled
  obtain ⟨rest, same⟩ := later
  refine ⟨entry, responses, ?_, read⟩
  rw [← same, List.getElem?_append_left (List.getElem?_eq_some_iff.mp known).1, known]

namespace Ordered

section
variable (ordered : Ordered runtimes s)
include ordered

theorem setWorker (index : Fin n) (worker : Worker Payload Pools)
    (ok : worker.Ok (runtimes index)) (arrived : worker.arrived = (s.workers index).arrived)
    (delivered : worker.delivered = (s.workers index).delivered) : Ordered runtimes (s.setWorker index worker) := by
  refine { ordered with commands := ?_, responses := ?_, workers := ?_ }
  all_goals
    intro other
    by_cases same : other = index
  · subst same
    simpa [State.setWorker, arrived] using ordered.commands other
  · simpa [State.setWorker, same] using ordered.commands other
  · subst same
    simpa [State.setWorker, delivered] using ordered.responses other
  · simpa [State.setWorker, same] using ordered.responses other
  · subst same
    simpa [State.setWorker] using ok
  · simpa [State.setWorker, same] using ordered.workers other

theorem pushToResponseQueue (idle : s.caller.pending = []) (purpose : Purpose)
    (type : CommandType) (payload : Option Payload) (awaited : Bool) :
    Ordered runtimes (s.pushToResponseQueue purpose type payload awaited) := by
  refine { ordered with entries := ?_, commands := ?_ }
  · simp only [State.pushToResponseQueue, List.mapIdx_concat, ← ordered.entries, List.append_assoc]
  · intro index
    have commands := ordered.commands index
    rw [idle] at commands
    simp only [State.pushToResponseQueue, List.map_append, Caller.pending] at commands ⊢
    rw [← commands]
    simp

theorem pushToCommandQueue {purpose : Purpose} {call : Call Payload}
    (place : s.caller = .pushing purpose call) : Ordered runtimes (s.pushToCommandQueue purpose call) := by
  refine { ordered with commands := ?_ }
  intro index
  have commands := ordered.commands index
  rw [place] at commands
  have done : ∀ waiting : Bool, (if waiting then Caller.waiting purpose (s.calls.length - 1) else .idle :
      Caller Payload).pending = [] := by
    intro waiting
    cases waiting <;> rfl
  simp only [State.pushToCommandQueue, done]
  simpa [Caller.pending] using commands

theorem moveCaller (caller : Caller Payload) (controllerState : ControllerState)
    (same : caller.pending = s.caller.pending) : Ordered runtimes { s with caller, controllerState } := by
  refine { ordered with commands := ?_ }
  intro index
  simpa only [same] using ordered.commands index

theorem resume (idle : s.caller.pending = []) (purpose : Purpose) :
    Ordered runtimes (s.resume purpose) := by
  cases purpose <;> exact ordered.moveCaller _ _ (by rw [idle]; rfl)

theorem proceed (launching : s.caller = .connected → s.dispatcher = .unstarted)
    (launchingHandler : s.caller = .dispatcherLaunched → s.responseHandler = .unstarted) (running : s.fatal = false)
    {configuration : Payload} (moved : s.proceed configuration = some next) : Ordered runtimes next := by
  unfold State.proceed at moved
  split at moved
  case h_1 place =>
    cases moved
    have unstarted := launching place
    refine { ordered with commands := ?_ }
    intro index
    simpa [place, unstarted, Caller.pending, toward] using ordered.commands index
  case h_2 place =>
    cases moved
    have unstarted := launchingHandler place
    refine { ordered with entries := ?_, commands := ?_, responses := ?_ }
    · simpa [unstarted] using ordered.entries
    · intro index
      simpa [place, Caller.pending] using ordered.commands index
    · intro index
      simpa [unstarted, taken] using ordered.responses index
  case h_3 place =>
    cases moved
    exact ordered.pushToResponseQueue (by rw [place]; rfl) _ _ _ _
  case h_4 place =>
    cases moved
    exact ordered.moveCaller _ _ (by rw [place]; rfl)
  case h_5 purpose call place =>
    cases moved
    exact ordered.pushToCommandQueue place
  case h_6 purpose promise place =>
    obtain ⟨reading, known, rfl⟩ := Option.map_eq_some_iff.mp moved
    have handled := ordered.fulfilled running promise reading known
    have recorded : Ordered runtimes { s with reads := s.reads ++ [(promise, reading)] } := by
      refine { ordered with reads := ?_ }
      intro read member
      rcases List.mem_append.mp member with earlier | last
      · exact ordered.reads read earlier
      · rw [List.mem_singleton.mp last]
        exact handled
    exact recorded.resume (by rw [place]; rfl) purpose
  case h_7 place =>
    split at moved
    · cases moved
      exact ordered.moveCaller _ s.controllerState (by rw [place]; rfl)
    · cases moved
  case h_8 place =>
    split at moved
    · cases moved
      exact ordered.moveCaller _ s.controllerState (by rw [place]; rfl)
    · cases moved
  all_goals cases moved

theorem call {type : CommandType} {payload : Option Payload} {awaited : Bool}
    (moved : s.call type payload awaited = some next) : Ordered runtimes next := by
  unfold State.call at moved
  split at moved
  case h_1 place =>
    split at moved
    · cases moved
      exact ordered.pushToResponseQueue (by rw [place]; rfl) _ _ _ _
    · cases moved
  case h_2 => cases moved

theorem shutdown (moved : s.shutdown = some next) : Ordered runtimes next := by
  unfold State.shutdown at moved
  split at moved
  case h_1 place =>
    split at moved
    · cases moved
      exact ordered.moveCaller _ _ (by rw [place]; rfl)
    · split at moved
      · cases moved
        exact ordered.moveCaller _ _ (by rw [place]; rfl)
      · cases moved
        exact ordered.pushToResponseQueue (by rw [place]; rfl) _ _ _ _
  case h_2 => cases moved

theorem exit {exitCode : Option Int} (moved : s.exit exitCode = some next) :
    Ordered runtimes next := by
  unfold State.exit at moved
  split at moved
  case h_1 place =>
    cases moved
    exact ordered.moveCaller _ _ (by rw [place]; rfl)
  case h_2 => cases moved

theorem timeout (moved : s.timeout = some next) : Ordered runtimes next := by
  unfold State.timeout at moved
  split at moved
  · cases moved
  · cases moved
    exact { ordered with fulfilled := nofun }

theorem processCommandQueue (moved : s.processCommandQueue = some next) :
    Ordered runtimes next := by
  unfold State.processCommandQueue at moved
  split at moved
  case h_1 dispatch place =>
    split at moved
    · rename_i written
      cases moved
      refine { ordered with commands := ?_ }
      intro index
      simpa [place, toward, written index] using ordered.commands index
    · cases moved
  case h_2 =>
    obtain ⟨⟨dispatcher, commandQueue⟩, advanced, rfl⟩ := Option.map_eq_some_iff.mp moved
    obtain ⟨idle, items, held, contents⟩ := QueueLoop.advance_contents advanced
    refine { ordered with commands := ?_ }
    intro index
    have commands := ordered.commands index
    simp only [toward, idle, ← contents] at commands
    simpa [toward, held, List.flatMap_map] using commands

theorem write {index : Fin n} (moved : s.write index = some next) :
    Ordered runtimes next := by
  unfold State.write at moved
  split at moved
  case h_1 dispatch place =>
    split at moved
    · cases moved
    · rename_i unwritten
      cases moved
      refine { ordered with commands := ?_, responses := ?_, workers := ?_ }
      all_goals
        intro other
        by_cases same : other = index
      · subst same
        have commands := ordered.commands other
        simpa [place, toward, unwritten, Worker.arrive] using commands
      · have commands := ordered.commands other
        simpa [place, toward, same] using commands
      · subst same
        simpa [Worker.arrive] using ordered.responses other
      · simpa [same] using ordered.responses other
      · subst same
        simpa using (ordered.workers other).arrive dispatch.command
      · simpa [same] using ordered.workers other
  case h_2 => cases moved

theorem read {index : Fin n} (moved : s.read index = some next) :
    Ordered runtimes next := by
  unfold State.read at moved
  split at moved
  case h_1 collect place =>
    split at moved
    case h_1 => cases moved
    case h_2 unread =>
      obtain ⟨⟨response, worker⟩, delivered, rfl⟩ := Option.map_eq_some_iff.mp moved
      have ok := (ordered.workers index).deliver delivered
      obtain ⟨rest, outbound, rfl⟩ : ∃ rest, (s.workers index).outbound = response :: rest ∧ worker =
          { s.workers index with outbound := rest, delivered := (s.workers index).delivered ++ [response] } := by
        unfold Worker.deliver at delivered
        split at delivered
        case h_1 => cases delivered
        case h_2 first rest outbound =>
          cases delivered
          exact ⟨rest, outbound, rfl⟩
      refine { ordered with entries := ?_, commands := ?_, responses := ?_, workers := ?_ }
      · simpa [place] using ordered.entries
      all_goals
        intro other
        by_cases same : other = index
      · subst same
        simpa using ordered.commands other
      · simpa [same] using ordered.commands other
      · subst same
        have responses := ordered.responses other
        simp only [place, taken, QueueLoop.held_holding, List.flatMap_singleton, unread] at responses
        simpa [taken] using responses
      · have responses := ordered.responses other
        simpa [place, taken, same] using responses
      · subst same
        simpa using ok
      · simpa [same] using ordered.workers other
  case h_2 => cases moved

theorem promise_at_hand {collect : Collect n}
    (place : s.responseHandler = .holding collect)
    (promise : Nat) (named : collect.entry.promise = some promise) : promise = s.handled.length := by
  have here := congrArg (fun entries => entries[s.handled.length]?) ordered.entries
  simp only [place, QueueLoop.held_holding, List.map_cons, List.map_nil, List.append_assoc, List.cons_append,
    List.nil_append, List.getElem?_mapIdx] at here
  rw [List.getElem?_append_right (by simp), List.length_map, Nat.sub_self, List.getElem?_cons_zero] at here
  obtain ⟨call, _, same⟩ := Option.map_eq_some_iff.mp here.symm
  rw [← same] at named
  unfold Call.entry at named
  dsimp only at named
  split at named
  · exact (Option.some.inj named).symm
  · cases named

theorem finish {collect : Collect n} (place : s.responseHandler = .holding collect)
    {responses : List Response} (all : (List.finRange n).mapM collect.received = some responses) :
    Ordered runtimes (s.finish collect.entry responses) := by
  obtain ⟨length, each⟩ := (mapM_finRange _ _).mp all
  unfold State.finish
  split
  · exact { ordered with fulfilled := nofun }
  · split
    case h_1 => exact { ordered with fulfilled := nofun }
    case h_2 reading handled =>
      have later : s.handled <+: s.handled ++ [(collect.entry, responses)] := List.prefix_append _ _
      refine { ordered with entries := ?_, responses := ?_, lengths := ?_, fulfilled := ?_, reads := ?_ }
      · simpa [place] using ordered.entries
      · intro index
        have known := ordered.responses index
        obtain ⟨response, received⟩ : ∃ response, collect.received index = some response := by
          rw [← each index]
          exact ⟨responses[index.val], List.getElem?_eq_getElem (by rw [length]; exact index.isLt)⟩
        simpa [place, taken, each index, received] using known
      · intro entry member
        rcases List.mem_append.mp member with earlier | last
        · exact ordered.lengths entry earlier
        · rw [List.mem_singleton.mp last]
          exact length
      · intro running promise read known
        have before := ordered.fulfilled running promise read
        cases named : collect.entry.promise with
        | none =>
          simp only [State.fulfil, named] at known
          exact (before known).mono later
        | some own =>
          simp only [State.fulfil, named] at known
          have here := ordered.promise_at_hand place own named
          by_cases same : promise = own
          · subst same
            rw [Function.update_self] at known
            obtain rfl := Option.some.inj known
            refine ⟨collect.entry, responses, ?_, ?_⟩
            · simp [here]
            · simpa [named] using handled
          · rw [Function.update_of_ne same] at known
            exact (before known).mono later
      · intro read member
        exact (ordered.reads read member).mono later

theorem processResponseQueue (moved : s.processResponseQueue = some next) :
    Ordered runtimes next := by
  unfold State.processResponseQueue at moved
  split at moved
  case h_1 collect place =>
    obtain ⟨responses, all, rfl⟩ := Option.map_eq_some_iff.mp moved
    exact ordered.finish place all
  case h_2 =>
    obtain ⟨⟨responseHandler, awaitingResponseQueue⟩, advanced, rfl⟩ := Option.map_eq_some_iff.mp moved
    obtain ⟨idle, items, held, contents⟩ := QueueLoop.advance_contents advanced
    refine { ordered with entries := ?_, responses := ?_ }
    · have entries := ordered.entries
      simp only [idle, ← contents] at entries
      simpa [held, Function.comp_def] using entries
    · intro index
      have responses := ordered.responses index
      simp only [taken, idle] at responses
      have nothing : (items.flatMap fun _ => ([] : List Response)) = [] := List.flatMap_eq_nil_iff.mpr fun _ _ => rfl
      simpa [taken, held, List.flatMap_map, nothing] using responses

theorem control (launching : s.caller = .connected → s.dispatcher = .unstarted)
    (launchingHandler : s.caller = .dispatcherLaunched → s.responseHandler = .unstarted) (running : s.fatal = false)
    {configuration : Payload} {action : ControllerAction n Payload}
    (moved : s.control configuration action = some next) :
    Ordered runtimes next := by
  cases action with
  | call type payload awaited => exact ordered.call moved
  | shutdown => exact ordered.shutdown moved
  | proceed => exact ordered.proceed launching launchingHandler running moved
  | exit exitCode => exact ordered.exit moved
  | processCommandQueue => exact ordered.processCommandQueue moved
  | write index => exact ordered.write moved
  | processResponseQueue => exact ordered.processResponseQueue moved
  | read index => exact ordered.read moved
  | timeout => exact ordered.timeout moved

end

end Ordered

theorem Ordered.handled_le (ordered : Ordered runtimes s) : s.handled.length ≤ s.calls.length := by
  have entries := congrArg List.length ordered.entries
  simp only [List.length_append, List.length_map, List.length_mapIdx] at entries
  omega

end Ordering

section Matching

variable {runtimes : Fin n → Runtime Payload Pools} {s : State n Payload Pools}

theorem Ordered.pushed_eq (ordered : Ordered runtimes s) (index : Fin n) :
    (s.workers index).arrived ++ toward s.dispatcher index ++ s.commandQueue = s.pushed := by
  have commands := ordered.commands index
  unfold State.pushed
  rw [List.map_take, ← commands]
  have length := congrArg List.length commands
  simp only [List.length_append, List.length_map] at length
  rw [List.take_left']
  simp only [List.length_append]
  omega

theorem Ordered.executed_pushed (ordered : Ordered runtimes s) (index : Fin n) :
    (s.workers index).executed <+: s.pushed := by
  rw [← ordered.pushed_eq index, List.append_assoc]
  exact (ordered.workers index).executed_begins.trans (List.prefix_append _ _)

theorem Ordered.executed_commands (ordered : Ordered runtimes s) (index : Fin n) :
    (s.workers index).executed <+: s.calls.map (·.command) := by
  refine (ordered.executed_pushed index).trans ?_
  unfold State.pushed
  rw [List.map_take]
  exact List.take_prefix _ _

theorem Ordered.handled_own (ordered : Ordered runtimes s) {number : Nat} {entry : AwaitingResponseQueueEntry}
    {responses : List Response} (known : s.handled[number]? = some (entry, responses)) :
    ∃ call, s.calls[number]? = some call ∧ entry = call.entry number ∧ responses.length = n ∧
      ∀ index : Fin n, number < (s.workers index).executed.length ∧
        responses[index.val]? = (runtimes index).answerTo (s.calls.map (·.command)) number := by
  obtain ⟨below, here⟩ := List.getElem?_eq_some_iff.mp known
  have entries := congrArg (fun entries => entries[number]?) ordered.entries
  simp only [List.append_assoc, List.getElem?_mapIdx] at entries
  rw [List.getElem?_append_left (by rw [List.length_map]; exact below), List.getElem?_map, known] at entries
  obtain ⟨call, called, same⟩ := Option.map_eq_some_iff.mp entries.symm
  refine ⟨call, called, same.symm, ordered.lengths _ (List.mem_of_getElem? known), fun index => ?_⟩
  have delivered := congrArg (fun responses => responses[number]?) (ordered.responses index)
  rw [List.getElem?_append_left (by rw [List.length_map]; exact below), List.getElem?_map, List.getElem?_map, known] at delivered
  obtain ⟨response, read, same⟩ := Option.map_eq_some_iff.mp delivered
  obtain ⟨executed, answer⟩ :=
    (ordered.workers index).delivered_answers number (List.getElem?_eq_some_iff.mp read).1
  refine ⟨executed, ?_⟩
  rw [answerTo_begins (ordered.executed_commands index) number executed, answer, read]
  exact same.symm

def sequentialReading (runtimes : Fin n → Runtime Payload Pools) (calls : List (Call Payload)) (number : Nat) :
    Option Reading := do
  let call ← calls[number]?
  let responses ← (List.finRange n).mapM fun index =>
    (runtimes index).answerTo (calls.map (·.command)) number
  handleResponse call.command.type true (responses.map Response.body)

theorem Ordered.read_sequential (ordered : Ordered runtimes s) {number : Nat} {reading : Reading}
    (read : (number, reading) ∈ s.reads) : sequentialReading runtimes s.calls number = some reading ∧
      ∀ index, number < (s.workers index).executed.length := by
  obtain ⟨entry, responses, known, handled⟩ := ordered.reads _ read
  obtain ⟨call, called, rfl, length, own⟩ := ordered.handled_own known
  refine ⟨?_, fun index => (own index).1⟩
  have collected : ((List.finRange n).mapM fun index =>
      (runtimes index).answerTo (s.calls.map (·.command)) number) = some responses :=
    (mapM_finRange _ _).mpr ⟨length, fun index => (own index).2⟩
  simp only [sequentialReading, called, collected, Option.bind_eq_bind, Option.bind_some]
  exact handled

end Matching

end TtMlir.Distributed
