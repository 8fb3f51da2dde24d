import TtMlir.Distributed.Protocol

/-!
No state that an interleaving reaches is a dead end: as long as the workers' runtimes
answer, every call can still be answered and the caller can come back. The controller's
states follow one another in the order of their declaration.
-/

namespace TtMlir.Distributed

variable {n : Nat} {Payload Pools : Type} {runtimes : Fin n → Runtime Payload Pools} {configuration : Payload}
  {firstId : UInt64} {s next : State n Payload Pools}

section Stages

def Caller.stage : Caller Payload → ControllerState
  | .connected => .connectedToWorkers
  | .dispatcherLaunched => .dispatcherReady
  | .responseHandlerLaunched | .pushing .configureRuntimeContext _ | .waiting .configureRuntimeContext _ =>
      .responseHandlerReady
  | .configured => .runtimeContextConfigured
  | .idle | .pushing _ _ | .waiting _ _ => .fullyOperational
  | .joiningDispatcher | .joiningResponseHandler | .exiting => .shuttingDown
  | .returned _ => .shutdown

def Caller.early : Caller Payload → Bool
  | .connected | .dispatcherLaunched => true
  | _ => false

/-- The call that the caller is in is the last one. -/
def Caller.Current (caller : Caller Payload) (calls : List (Call Payload)) : Prop :=
  match caller with
  | .pushing _ call => calls.getLast? = some call
  | .waiting _ _ => ∃ call, calls.getLast? = some call ∧ call.awaited = true
  | _ => True

def Runtime.Total (runtime : Runtime Payload Pools) : Prop := ∀ pools command, (runtime.respond pools command).isSome

structure Answering (runtimes : Fin n → Runtime Payload Pools) (s : State n Payload Pools) : Prop where
  stage : s.controllerState = s.caller.stage
  current : s.caller.Current s.calls
  handler : s.responseHandler = .unstarted → s.caller.early = true
  fulfilled : s.fatal = false → ∀ handled ∈ s.handled, ∀ promise, handled.1.promise = some promise →
    (s.fulfilled promise).isSome
  workers : ∀ index, (runtimes index).Total → (s.workers index).Alive

/-- The controller's state stays or becomes the next one. -/
def Follows (s next : State n Payload Pools) : Prop :=
  next.controllerState = s.controllerState ∨ next.controllerState.value = s.controllerState.value + 1

namespace Answering

theorem start (runtimes : Fin n → Runtime Payload Pools) (firstId : UInt64) :
    Answering runtimes (start runtimes firstId) :=
  ⟨rfl, trivial, fun _ => rfl, nofun, fun _ _ => ⟨nofun, nofun⟩⟩

variable (answering : Answering runtimes s)
include answering

theorem launched (late : s.caller.early = false) : s.responseHandler ≠ .unstarted :=
  fun unstarted => Bool.false_ne_true (late.symm.trans (answering.handler unstarted))

theorem setWorker (index : Fin n) {worker : Worker Payload Pools}
    (alive : (s.workers index).Alive → (runtimes index).Total → worker.Alive) (other : Fin n)
    (total : (runtimes other).Total) : (Function.update s.workers index worker other).Alive := by
  by_cases same : other = index
  · subst same
    rw [Function.update_self]
    exact alive (answering.workers other total) total
  · rw [Function.update_of_ne same]
    exact answering.workers other total

theorem push (late : s.caller.early = false) (purpose : Purpose) (type : CommandType) (payload : Option Payload)
    (awaited : Bool)
    (stage : s.controllerState = (Caller.pushing purpose ⟨⟨s.nextCommandId, type, payload⟩, awaited⟩).stage) :
    Answering runtimes (s.pushToResponseQueue purpose type payload awaited) :=
  { answering with
    stage
    current := List.getLast?_concat
    handler := (absurd · (answering.launched late)) }

theorem move (late : s.caller.early = false) (caller : Caller Payload) (state : ControllerState)
    (stage : state = caller.stage) (current : caller.Current s.calls) (commandQueue : List (Command Payload))
    (reads : List (Nat × Reading)) :
    Answering runtimes { s with caller, controllerState := state, commandQueue, reads } :=
  { answering with stage, current, handler := (absurd · (answering.launched late)) }

theorem proceed (calling : Calling s) (moved : s.proceed configuration = some next) :
    Answering runtimes next ∧ Follows s next := by
  have stage := answering.stage
  have current := answering.current
  have move := answering.move
  have push := answering.push
  unfold Follows
  unfold State.proceed at moved
  split at moved
  all_goals
    rename_i place
    rw [place] at stage current move push
  case h_1 =>
    cases moved
    rw [stage]
    exact ⟨⟨rfl, trivial, fun _ => rfl, answering.fulfilled, answering.workers⟩, .inr rfl⟩
  case h_2 =>
    cases moved
    rw [stage]
    exact ⟨⟨rfl, trivial, nofun, answering.fulfilled, answering.workers⟩, .inr rfl⟩
  case h_3 =>
    cases moved
    exact ⟨push rfl _ _ _ _ stage, .inl rfl⟩
  case h_4 =>
    cases moved
    rw [stage]
    exact ⟨move rfl .idle _ rfl trivial _ s.reads, .inr rfl⟩
  case h_5 purpose call =>
    cases moved
    have waits := (calling.pushing _ _ place).2
    refine ⟨move rfl _ _ ?_ ?_ _ s.reads, .inl rfl⟩
    · cases awaited : call.awaited
      · cases purpose <;> first | exact stage | simp_all
      · cases purpose <;> exact stage
    · cases awaited : call.awaited
      · trivial
      · exact ⟨call, current, awaited⟩
  case h_6 purpose promise =>
    obtain ⟨reading, known, rfl⟩ := Option.map_eq_some_iff.mp moved
    cases purpose
    · exact ⟨move rfl .configured _ rfl trivial _ _, by rw [stage]; exact .inr rfl⟩
    · exact ⟨move rfl .idle _ stage trivial _ _, .inl rfl⟩
    · exact ⟨move rfl .joiningDispatcher _ rfl trivial _ _, by rw [stage]; exact .inr rfl⟩
  case h_7 =>
    split at moved <;> cases moved
    exact ⟨move rfl .joiningResponseHandler _ stage trivial _ s.reads, .inl rfl⟩
  case h_8 =>
    split at moved <;> cases moved
    exact ⟨move rfl .exiting _ stage trivial _ s.reads, .inl rfl⟩
  all_goals cases moved

/-- A caller that makes a call is idle, and the controller is operational then. -/
theorem ask (place : s.caller = .idle) (purpose : Purpose) (type : CommandType) (payload : Option Payload)
    (awaited : Bool) (api : purpose ≠ .configureRuntimeContext) :
    Answering runtimes (s.pushToResponseQueue purpose type payload awaited) := by
  have stage := answering.stage
  have push := answering.push
  rw [place] at stage push
  refine push rfl purpose type payload awaited ?_
  cases purpose
  · exact absurd rfl api
  · exact stage
  · exact stage

theorem finish {collect : Collect n} (responses : List Response) :
    Answering runtimes (s.finish collect.entry responses) ∧ Follows s (s.finish collect.entry responses) := by
  unfold State.finish
  split
  · exact ⟨{ answering with fulfilled := nofun }, .inl rfl⟩
  · split
    · exact ⟨{ answering with fulfilled := nofun }, .inl rfl⟩
    · refine ⟨{ answering with handler := nofun, fulfilled := fun running handled member promise named => ?_ }, .inl rfl⟩
      rcases List.mem_append.mp member with earlier | last
      · have before := answering.fulfilled running handled earlier promise named
        cases own : collect.entry.promise with
        | none => simpa only [State.fulfil, own] using before
        | some number =>
            by_cases same : promise = number
            · simp [State.fulfil, own, same]
            · simpa only [State.fulfil, own, Function.update_of_ne same] using before
      · rw [List.mem_singleton.mp last] at named
        change collect.entry.promise = some promise at named
        simp [State.fulfil, named]

theorem control (calling : Calling s) {action : ControllerAction n Payload}
    (moved : s.control configuration action = some next) : Answering runtimes next ∧ Follows s next := by
  have stage := answering.stage
  cases action with
  | call type payload awaited =>
      simp only [State.control, State.call] at moved
      split at moved
      · split at moved <;> cases moved
        exact ⟨answering.ask ‹_› _ _ _ _ nofun, .inl rfl⟩
      · cases moved
  | shutdown =>
      simp only [State.control, State.shutdown] at moved
      split at moved
      · rename_i place
        rw [place] at stage
        rw [stage] at moved
        cases moved
        exact ⟨answering.ask place _ _ _ _ nofun, .inl rfl⟩
      · cases moved
  | proceed => exact answering.proceed calling moved
  | exit exitCode =>
      have move := answering.move
      simp only [State.control, State.exit] at moved
      split at moved <;> cases moved
      rename_i place
      rw [place] at stage move
      exact ⟨move rfl (.returned _) _ rfl trivial _ s.reads, .inr (by rw [stage]; rfl)⟩
  | processCommandQueue =>
      simp only [State.control, State.processCommandQueue] at moved
      split at moved
      · split at moved <;> cases moved
        exact ⟨{ answering with }, .inl rfl⟩
      · obtain ⟨_, -, rfl⟩ := Option.map_eq_some_iff.mp moved
        exact ⟨{ answering with }, .inl rfl⟩
  | write index =>
      simp only [State.control, State.write] at moved
      split at moved
      · split at moved <;> cases moved
        exact ⟨{ answering with
          workers := answering.setWorker index fun alive _ => ⟨alive.executor, alive.sender⟩ }, .inl rfl⟩
      · cases moved
  | processResponseQueue =>
      simp only [State.control, State.processResponseQueue] at moved
      split at moved
      · obtain ⟨responses, -, rfl⟩ := Option.map_eq_some_iff.mp moved
        exact answering.finish responses
      · obtain ⟨_, advanced, rfl⟩ := Option.map_eq_some_iff.mp moved
        exact ⟨{ answering with handler := (absurd · (QueueLoop.advance_started advanced).2.2) }, .inl rfl⟩
  | read index =>
      simp only [State.control, State.read] at moved
      split at moved
      · split at moved
        · cases moved
        · obtain ⟨_, delivered, rfl⟩ := Option.map_eq_some_iff.mp moved
          unfold Worker.deliver at delivered
          split at delivered <;> cases delivered
          exact ⟨{ answering with
            handler := nofun
            workers := answering.setWorker index fun alive _ => ⟨alive.executor, alive.sender⟩ }, .inl rfl⟩
      · cases moved
  | timeout =>
      simp only [State.control, State.timeout] at moved
      split at moved <;> cases moved
      exact ⟨{ answering with fulfilled := nofun }, .inl rfl⟩

end Answering

theorem step_answering (reached : Reaches (step runtimes configuration) (start runtimes firstId) s)
    (answering : Answering runtimes s) {action : Action n Payload}
    (moved : step runtimes configuration action s = some next) : Answering runtimes next ∧ Follows s next := by
  cases action with
  | controller action =>
      simp only [step] at moved
      split at moved
      · cases moved
      · exact answering.control (reached_invariant reached).2 moved
  | worker index thread =>
      obtain ⟨worker, stepped, rfl⟩ := Option.map_eq_some_iff.mp moved
      exact ⟨{ answering with
        workers := answering.setWorker index fun alive total => alive.step total stepped }, .inl rfl⟩

theorem reached_answering (reached : Reaches (step runtimes configuration) (start runtimes firstId) s) :
    Answering runtimes s := by
  induction reached with
  | start => exact Answering.start runtimes firstId
  | step action before moved ih => exact (step_answering before ih moved).1

/-- The controller's state is the one of the caller's place, and a step of any thread keeps it or goes
on to the next: no shutdown of an idle caller is refused, and nothing is skipped or undone. -/
theorem reached_stages (reached : Reaches (step runtimes configuration) (start runtimes firstId) s) :
    s.controllerState = s.caller.stage ∧ ∀ action next, step runtimes configuration action s = some next →
      Follows s next :=
  ⟨(reached_answering reached).stage, fun _ _ moved => (step_answering reached (reached_answering reached) moved).2⟩

/-- While the caller waits for the volume of a tensor. -/
theorem reached_stages_volumes : ∃ s : State 2 Unit Nat, s.calls.length = 2 ∧ s.controllerState = s.caller.stage ∧
    ∀ action next, step volumes () action s = some next → Follows s next := by
  have replayed : (EventLog.replay (step volumes ()) (volumeRun.take 36) (start volumes 7)).map
      (·.calls.length) = some 2 := by
    decide
  obtain ⟨s, run, calls⟩ := Option.map_eq_some_iff.mp replayed
  exact ⟨s, calls, reached_stages (Reaches.of_replay _ run)⟩

end Stages

section Progress

/-- The workers' runtimes give every command a response that the controller can read. -/
structure Serving (runtimes : Fin n → Runtime Payload Pools) : Prop where
  total : ∀ index, (runtimes index).Total
  readable : ∀ (command : Command Payload) awaited (responses : List Response), responses.length = n →
    (∀ (index : Fin n), ∃ response pools after, responses[index.val]? = some response ∧
      (runtimes index).respond pools command = some (after, response)) →
    (handleResponse command.type awaited (responses.map Response.body)).isSome

/-- A bound on the steps of the threads until every call is handled. -/
def State.work (s : State n Payload Pools) : Nat :=
  26 * n * s.commandQueue.length + s.dispatcher.left s.commandQueue +
    s.responseHandler.left s.awaitingResponseQueue +
    ∑ index, (26 * (toward s.dispatcher index).length + (s.workers index).work)

/-- How many steps of its own the caller has before it comes back. -/
def Caller.rank : Caller Payload → Nat
  | .connected => 8
  | .dispatcherLaunched => 7
  | .responseHandlerLaunched => 6
  | .pushing _ _ => 5
  | .waiting _ _ => 4
  | .configured | .joiningDispatcher => 3
  | .joiningResponseHandler => 2
  | .exiting => 1
  | .idle | .returned _ => 0

/-- The caller comes nearer to its end, or a thread to the end of its work. -/
def Nearer (s next : State n Payload Pools) : Prop :=
  next.fatal = false ∧ (next.caller.rank < s.caller.rank ∨ next.caller = s.caller ∧ next.work < s.work)

def CanAdvance (runtimes : Fin n → Runtime Payload Pools) (configuration : Payload) (s : State n Payload Pools) : Prop :=
  ∃ action next, step runtimes configuration action s = some next ∧ Nearer s next

theorem canAdvance_of_control (fine : s.fatal = false) (action : ControllerAction n Payload)
    (moved : s.control configuration action = some next) (nearer : Nearer s next) :
    CanAdvance runtimes configuration s :=
  ⟨.controller action, next, by simp only [step, fine, Bool.false_eq_true, ↓reduceIte, moved], nearer⟩

theorem sum_lt {before after : Fin n → Nat} (index : Fin n) (fewer : after index < before index)
    (same : ∀ other, other ≠ index → after other = before other) : ∑ index, after index < ∑ index, before index := by
  refine Finset.sum_lt_sum (fun other _ => ?_) ⟨index, Finset.mem_univ index, fewer⟩
  by_cases here : other = index
  · exact here ▸ fewer.le
  · exact (same other here).le

theorem dispatch_progress (fine : s.fatal = false) (started : s.dispatcher ≠ .unstarted) (running : s.dispatcher ≠ .stopped)
    (busy : s.stopping = true ∨ s.dispatcher.held ≠ [] ∨ s.commandQueue ≠ []) :
    CanAdvance runtimes configuration s := by
  by_cases idle : s.dispatcher.held = []
  · obtain ⟨dispatcher, rest, advanced⟩ := QueueLoop.advance_exists s.stopping
      (fun command => (⟨command, fun _ => false⟩ : Dispatch n Payload)) s.commandQueue started running idle
    have left := QueueLoop.advance_left (busy.imp_right fun busy => busy.resolve_left (absurd idle ·)) advanced
    obtain ⟨-, items, held, contents⟩ := QueueLoop.advance_contents advanced
    have moved : s.processCommandQueue = some { s with dispatcher, commandQueue := rest } := by
      unfold State.processCommandQueue
      split
      · rename_i place
        rw [place] at idle
        cases idle
      · rw [advanced]
        rfl
    refine canAdvance_of_control fine .processCommandQueue moved ⟨fine, .inr ⟨rfl, ?_⟩⟩
    -- the command that is popped has still to be written to every worker
    have written (index : Fin n) : (toward dispatcher index).length = items.length := by
      simp [toward, held, List.flatMap_map]
    have before (index : Fin n) : (toward s.dispatcher index).length = 0 := by
      simp [toward, idle]
    simp only [State.work, written, before, Finset.sum_add_distrib, Finset.sum_const, Finset.card_univ,
      Fintype.card_fin, smul_eq_mul, ← contents, List.length_append] at left ⊢
    have : 26 * n * (items.length + rest.length) = n * (26 * items.length) + 26 * n * rest.length := by ring
    omega
  · cases place : s.dispatcher with
    | holding dispatch =>
        by_cases written : ∀ index, dispatch.written index = true
        · have moved : s.processCommandQueue = some { s with dispatcher := .testing } := by
            simp only [State.processCommandQueue, place, written, implies_true, ↓reduceIte]
          refine canAdvance_of_control fine .processCommandQueue moved ⟨fine, .inr ⟨rfl, ?_⟩⟩
          simp [State.work, toward, place, written, QueueLoop.left]
        · obtain ⟨index, unwritten⟩ := not_forall.mp written
          have moved : s.write index = some { s with
              dispatcher := .holding { dispatch with written := Function.update dispatch.written index true }
              workers := Function.update s.workers index ((s.workers index).arrive dispatch.command) } := by
            simp only [State.write, place, unwritten, Bool.false_eq_true, ↓reduceIte]
          refine canAdvance_of_control fine (.write index) moved ⟨fine, .inr ⟨rfl, ?_⟩⟩
          simp only [State.work, place, QueueLoop.left]
          refine Nat.add_lt_add_left (sum_lt index ?_ fun other differs => ?_) _
          · simp only [toward, QueueLoop.held_holding, List.flatMap_singleton, Function.update_self, ↓reduceIte,
              Worker.work, Worker.arrive, List.length_append, List.length_singleton, List.length_nil, unwritten,
              Bool.false_eq_true]
            omega
          · simp only [toward, QueueLoop.held_holding, List.flatMap_singleton, Function.update_of_ne differs]
    | _ =>
        rw [place] at idle
        exact absurd rfl idle

theorem answerTo_respond {runtime : Runtime Payload Pools} {commands : List (Command Payload)} {position : Nat}
    {response : Response} (answer : runtime.answerTo commands position = some response) :
    ∃ command pools after, commands[position]? = some command ∧ runtime.respond pools command = some (after, response) := by
  obtain ⟨⟨pools, responses⟩, whole, here⟩ := Option.bind_eq_some_iff.mp answer
  have length := sequential_length whole
  have inside := (List.getElem?_eq_some_iff.mp here).1
  rw [length, List.length_take] at inside
  have below : position < commands.length := by omega
  refine ⟨commands[position], ?_⟩
  rw [← List.take_append_getElem below, Runtime.sequential, List.foldlM_append] at whole
  obtain ⟨⟨before, earlier⟩, first, last⟩ := Option.bind_eq_some_iff.mp whole
  simp only [List.foldlM_cons, List.foldlM_nil, Option.pure_def, Option.bind_fun_some, Option.bind_eq_bind] at last
  obtain ⟨⟨after, own⟩, responded, same⟩ := Option.map_eq_some_iff.mp last
  cases same
  have front := sequential_length first
  rw [List.length_take, Nat.min_eq_left below.le] at front
  change (earlier ++ [own])[position]? = some response at here
  rw [← front, List.getElem?_concat_length] at here
  cases here
  exact ⟨before, after, List.getElem?_eq_getElem below, responded⟩

theorem respond_answers {runtime : Runtime Payload Pools} {pools after : Pools} {command : Command Payload}
    {response : Response} (responded : runtime.respond pools command = some (after, response)) :
    response.isError = false := by
  unfold Runtime.respond at responded
  split at responded
  · cases responded
    rfl
  · obtain ⟨_, -, same⟩ := Option.map_eq_some_iff.mp responded
    cases same
    rfl

/-- The responses collected for an entry are what the runtimes respond to its own command. -/
theorem Ordered.collected (ordered : Ordered runtimes s) {collect : Collect n}
    (place : s.responseHandler = .holding collect) {responses : List Response}
    (all : (List.finRange n).mapM collect.received = some responses) :
    ∃ command, command.type = collect.entry.commandType ∧ ∀ index : Fin n, ∃ response pools after,
      responses[index.val]? = some response ∧ (runtimes index).respond pools command = some (after, response) := by
  obtain ⟨length, each⟩ := (mapM_finRange _ _).mp all
  have here := congrArg (fun entries => entries[s.handled.length]?) ordered.entries
  simp only [place, QueueLoop.held_holding, List.map_cons, List.map_nil, List.append_assoc, List.cons_append,
    List.nil_append, List.getElem?_mapIdx] at here
  rw [List.getElem?_append_right (by simp), List.length_map, Nat.sub_self, List.getElem?_cons_zero] at here
  obtain ⟨call, called, same⟩ := Option.map_eq_some_iff.mp here.symm
  refine ⟨call.command, by rw [← same]; rfl, fun index => ?_⟩
  have received : responses[index.val]? = some responses[index.val] :=
    List.getElem?_eq_getElem (by rw [length]; exact index.isLt)
  have delivered := congrArg (fun responses => responses[s.handled.length]?) (ordered.responses index)
  simp only [place, taken, QueueLoop.held_holding, List.flatMap_singleton, ← each index, received] at delivered
  rw [List.getElem?_append_right (by simp), List.length_map, Nat.sub_self] at delivered
  obtain ⟨response, read, isOwn⟩ := Option.map_eq_some_iff.mp ((List.getElem?_map ..).symm.trans delivered)
  obtain ⟨executed, answer⟩ :=
    (ordered.workers index).delivered_answers _ (List.getElem?_eq_some_iff.mp read).1
  rw [← answerTo_begins (ordered.executed_commands index) _ executed, read] at answer
  obtain ⟨command, pools, after, known, responded⟩ := answerTo_respond answer
  rw [List.getElem?_map, called] at known
  cases known
  cases isOwn
  exact ⟨_, pools, after, received, responded⟩

theorem handle_progress (serving : Serving runtimes) (ordered : Ordered runtimes s) (fine : s.fatal = false)
    (started : s.responseHandler ≠ .unstarted) (running : s.responseHandler ≠ .stopped)
    (busy : s.stopping = true ∨ s.responseHandler.held ≠ [] ∨ s.awaitingResponseQueue ≠ [])
    (ready : ∀ index, s.responseHandler.held ≠ [] →
      s.handled.length < (s.workers index).delivered.length + (s.workers index).outbound.length) :
    CanAdvance runtimes configuration s := by
  by_cases idle : s.responseHandler.held = []
  · obtain ⟨responseHandler, rest, advanced⟩ := QueueLoop.advance_exists s.stopping
      (fun entry => (⟨entry, fun _ => none⟩ : Collect n)) s.awaitingResponseQueue started running idle
    have left := QueueLoop.advance_left (busy.imp_right fun busy => busy.resolve_left (absurd idle ·)) advanced
    have moved : s.processResponseQueue = some { s with responseHandler, awaitingResponseQueue := rest } := by
      unfold State.processResponseQueue
      split
      · rename_i place
        rw [place] at idle
        cases idle
      · rw [advanced]
        rfl
    refine canAdvance_of_control fine .processResponseQueue moved ⟨fine, .inr ⟨rfl, ?_⟩⟩
    simp only [State.work]
    omega
  · cases place : s.responseHandler with
    | holding collect =>
        by_cases all : ∀ index, (collect.received index).isSome = true
        · have collected : (List.finRange n).mapM collect.received =
              some ((List.finRange n).map fun index => (collect.received index).get (all index)) :=
            (mapM_finRange _ _).mpr ⟨by simp, by simp⟩
          generalize (List.finRange n).map (fun index => (collect.received index).get (all index)) = responses at collected
          obtain ⟨command, type, each⟩ := ordered.collected place collected
          have length := ((mapM_finRange _ _).mp collected).1
          obtain ⟨reading, handled⟩ := Option.isSome_iff_exists.mp
            (serving.readable command collect.entry.promise.isSome responses length each)
          rw [type] at handled
          have answered : responses.any Response.isError = false := by
            rw [List.any_eq_false]
            intro response member
            obtain ⟨position, inside, rfl⟩ := List.mem_iff_getElem.mp member
            obtain ⟨own, pools, after, here, responded⟩ := each ⟨position, length ▸ inside⟩
            rw [List.getElem?_eq_getElem inside] at here
            cases here
            simp [respond_answers responded]
          have moved : s.processResponseQueue = some (s.finish collect.entry responses) := by
            simp only [State.processResponseQueue, place, collected, Option.map_some]
          refine canAdvance_of_control fine .processResponseQueue moved ?_
          simp only [State.finish, answered, Bool.false_eq_true, ↓reduceIte, handled]
          exact ⟨fine, .inr ⟨rfl, by simp [State.work, place, QueueLoop.left]⟩⟩
        · obtain ⟨index, unread⟩ := not_forall.mp all
          have unread : collect.received index = none := by simpa using unread
          have here := ready index (by rw [place]; exact List.cons_ne_nil _ _)
          have responses := congrArg List.length (ordered.responses index)
          simp only [place, taken, QueueLoop.held_holding, List.flatMap_singleton, unread, List.length_map,
            List.length_append, Option.toList_none, List.length_nil] at responses
          obtain ⟨response, rest, outbound⟩ : ∃ response rest, (s.workers index).outbound = response :: rest :=
            List.exists_cons_of_length_pos (by omega)
          have moved : s.read index = some { s with
              responseHandler := .holding { collect with received := Function.update collect.received index (some response) }
              workers := Function.update s.workers index { s.workers index with
                outbound := rest
                delivered := (s.workers index).delivered ++ [response] } } := by
            simp only [State.read, place, unread, Worker.deliver, outbound, Option.map_some]
          refine canAdvance_of_control fine (.read index) moved ⟨fine, .inr ⟨rfl, ?_⟩⟩
          simp only [State.work, place, QueueLoop.left]
          refine Nat.add_lt_add_left (sum_lt index ?_ fun other differs => ?_) _
          · simp only [Function.update_self, Worker.work, outbound, List.length_cons]
            omega
          · simp only [Function.update_of_ne differs]
    | _ =>
        rw [place] at idle
        exact absurd rfl idle

/-- While a call is unanswered and the caller waits or is idle, some thread has work. -/
theorem serve_progress (serving : Serving runtimes) (ordered : Ordered runtimes s) (calling : Calling s)
    (answering : Answering runtimes s) (fine : s.fatal = false) (launched : s.caller ≠ .connected)
    (late : s.caller.early = false) (isOpen : s.caller.closing = false) (pushed : s.caller.pending = [])
    (unanswered : s.handled.length ≠ s.calls.length) : CanAdvance runtimes configuration s := by
  have dispatcher := calling.dispatcher
  have handler := calling.handler
  rw [isOpen] at dispatcher handler
  by_cases dispatched : s.dispatcher.held = [] ∧ s.commandQueue = []
  · have arrived (index : Fin n) : (s.workers index).arrived = s.calls.map (·.command) := by
      simpa [toward, dispatched.1, dispatched.2, pushed] using ordered.commands index
    by_cases done : ∀ index, (s.workers index).Done
    · refine handle_progress serving ordered fine (answering.launched late)
        (fun gone => Bool.false_ne_true (handler.stopped gone).1) (.inr ?_) fun index _ => ?_
      · by_contra! idle
        have entries := congrArg List.length ordered.entries
        simp [idle.1, idle.2] at entries
        exact unanswered entries
      · obtain ⟨executed, sent, answered⟩ := done index
        have answers := sequential_length (ordered.workers index).answers
        have all := ordered.handled_le
        simp only [executed, sent, answered, arrived index, List.length_append, List.length_map, List.length_nil] at answers
        omega
    · obtain ⟨index, busy⟩ := not_forall.mp done
      obtain ⟨thread, worker, stepped, less⟩ := Worker.progress (serving.total index) (ordered.workers index)
        (answering.workers index (serving.total index))
        (fun ended => (executed_all ordered calling index ended).trans (arrived index).symm) busy
      refine ⟨.worker index thread, s.setWorker index worker, by rw [step, stepped]; rfl, fine, .inr ⟨rfl, ?_⟩⟩
      refine Nat.add_lt_add_left (sum_lt index ?_ fun other differs => ?_) _
      · simpa [State.setWorker] using less
      · simp only [State.setWorker, Function.update_of_ne differs]
  · exact dispatch_progress fine (calling.started launched) (fun gone => Bool.false_ne_true (dispatcher.stopped gone).1)
      (.inr (by tauto))

/-- Every call is answered, and the caller is back. -/
def Rested (s : State n Payload Pools) : Prop :=
  (s.caller = .idle ∨ ∃ success, s.caller = .returned success) ∧ s.handled.length = s.calls.length

/-- The last call is handled and its caller awaits it, so the promise is fulfilled. -/
theorem waiting_fulfilled (ordered : Ordered runtimes s) (calling : Calling s) (answering : Answering runtimes s)
    (fine : s.fatal = false) {purpose : Purpose} {promise : Nat} (place : s.caller = .waiting purpose promise)
    (all : s.handled.length = s.calls.length) : ∃ reading, s.fulfilled promise = some reading := by
  have last := calling.waiting purpose promise place
  have current := answering.current
  rw [place] at current
  obtain ⟨call, isLast, awaited⟩ := current
  rw [List.getLast?_eq_getElem?, ← last, Nat.add_sub_cancel] at isLast
  obtain ⟨⟨entry, responses⟩, known⟩ : ∃ handled, s.handled[promise]? = some handled :=
    ⟨_, List.getElem?_eq_getElem (by omega)⟩
  obtain ⟨own, called, rfl, -⟩ := ordered.handled_own known
  rw [isLast] at called
  cases called
  exact Option.isSome_iff_exists.mp
    (answering.fulfilled fine _ (List.mem_of_getElem? known) promise (if_pos awaited))

theorem exists_nearer (serving : Serving runtimes)
    (reached : Reaches (step runtimes configuration) (start runtimes firstId) s) (fine : s.fatal = false)
    (busy : ¬ Rested s) : CanAdvance runtimes configuration s := by
  obtain ⟨ordered, calling⟩ := reached_invariant reached
  have answering := reached_answering reached
  have proceed (ready : ∃ next, s.proceed configuration = some next ∧ next.fatal = s.fatal ∧
      next.caller.rank < s.caller.rank) : CanAdvance runtimes configuration s := by
    obtain ⟨next, moved, kept, nearer⟩ := ready
    exact canAdvance_of_control fine .proceed moved ⟨kept.trans fine, .inl nearer⟩
  have serve : _ → _ → _ → _ → _ → CanAdvance runtimes configuration s :=
    serve_progress serving ordered calling answering fine
  have stopping (closing : s.caller.stage = .shuttingDown) : s.stopping = true :=
    decide_eq_true (answering.stage.trans closing)
  have late := answering.launched
  unfold State.proceed at proceed
  cases place : s.caller with
  | connected | dispatcherLaunched | responseHandlerLaunched =>
      rw [place] at proceed
      exact proceed ⟨_, rfl, rfl, Nat.lt_succ_self _⟩
  | configured =>
      rw [place] at proceed
      exact proceed ⟨_, rfl, rfl, Nat.succ_pos 2⟩
  | pushing purpose call =>
      rw [place] at proceed
      refine proceed ⟨_, rfl, rfl, ?_⟩
      dsimp only [State.pushToCommandQueue]
      split
      · exact Nat.lt_succ_self 4
      · exact Nat.succ_pos 4
  | idle =>
      rw [place] at serve
      exact serve nofun rfl rfl rfl fun all => busy ⟨.inl place, all⟩
  | waiting purpose promise =>
      by_cases all : s.handled.length = s.calls.length
      · obtain ⟨reading, ready⟩ := waiting_fulfilled ordered calling answering fine place all
        rw [place] at proceed
        refine proceed ⟨_, Option.map_eq_some_iff.mpr ⟨reading, ready, rfl⟩, ?_⟩
        cases purpose
        · exact ⟨rfl, Nat.lt_succ_self 3⟩
        · exact ⟨rfl, Nat.succ_pos 3⟩
        · exact ⟨rfl, Nat.lt_succ_self 3⟩
      · rw [place] at serve
        exact serve nofun rfl rfl rfl all
  | joiningDispatcher =>
      rw [place] at proceed stopping
      by_cases stopped : s.dispatcher = .stopped
      · rw [stopped] at proceed
        exact proceed ⟨_, rfl, rfl, Nat.lt_succ_self 2⟩
      · exact dispatch_progress fine (calling.started (by rw [place]; nofun)) stopped (.inl (stopping rfl))
  | joiningResponseHandler =>
      rw [place] at proceed stopping late
      by_cases stopped : s.responseHandler = .stopped
      · rw [stopped] at proceed
        exact proceed ⟨_, rfl, rfl, Nat.lt_succ_self 1⟩
      · have entries := congrArg List.length ordered.entries
        have all := calling.answered (by rw [place]; rfl)
        simp only [List.length_append, List.length_map, List.length_mapIdx] at entries
        exact handle_progress serving ordered fine (late rfl) stopped (.inl (stopping rfl)) fun index held =>
          absurd (List.eq_nil_of_length_eq_zero (by omega)) held
  | exiting =>
      have moved : s.exit (some 0) = some { s with controllerState := .shutdown, caller := .returned true } := by
        unfold State.exit
        rw [place]
        rfl
      exact canAdvance_of_control fine (.exit (some 0)) moved ⟨fine, .inl (by rw [place]; exact Nat.succ_pos 0)⟩
  | returned success => exact absurd ⟨.inr ⟨success, place⟩, calling.answered (by rw [place]; rfl)⟩ busy

/-- No reached state is a dead end: while the runtimes answer, some run from it answers every call, to
every worker and in the caller, and brings the caller back. -/
theorem controller_can_finish (serving : Serving runtimes)
    (reached : Reaches (step runtimes configuration) (start runtimes firstId) s) (fine : s.fatal = false) :
    ∃ final, Reaches (step runtimes configuration) s final ∧ final.fatal = false ∧ Rested final := by
  let good (s : State n Payload Pools) : Prop :=
    Reaches (step runtimes configuration) (start runtimes firstId) s ∧ s.fatal = false
  have nearer (s : State n Payload Pools) (good' : good s) (busy : ¬ Rested s) : ∃ action next,
      step runtimes configuration action s = some next ∧ good next ∧
        Prod.Lex (· < ·) (· < ·) (next.caller.rank, next.work) (s.caller.rank, s.work) := by
    obtain ⟨action, next, moved, fine, nearer⟩ := exists_nearer serving good'.1 good'.2 busy
    refine ⟨action, next, moved, ⟨good'.1.step action moved, fine⟩, ?_⟩
    rw [Prod.lex_def]
    exact nearer.imp id fun less => ⟨congrArg Caller.rank less.1, less.2⟩
  obtain ⟨final, run, ⟨-, fine⟩, rested⟩ := Reaches.of_nearer IsWellFounded.wf
    (fun s : State n Payload Pools => (s.caller.rank, s.work)) good Rested nearer ⟨reached, fine⟩
  exact ⟨final, run, fine, rested⟩

end Progress

section Example

/-- Every command gets a table that the controller reads. -/
def answeringAll (_ : Fin 2) : Runtime Unit Nat where
  initial := 0
  execute := fun pools command => some (pools, match command.type with
    | .getWorkerDebugStats => .workerDebugStats "worker" []
    | .getSystemDesc => .systemDesc { chipDescs := [], chipCapabilities := [], chipDescIndices := [], others := [] }
    | .getNumAvailableDevices => .numAvailableDevices 4
    | .getMeshShape => .meshShape [1, 4]
    | .isTensorAllocated => .tensorAllocated true
    | .getTensorVolume => .tensorVolume 12
    | .getTensorRetain => .tensorRetain false
    | .getNumShards => .numShards 4
    | .memcpy => .memcpy (some [])
    | .getTensorDesc => .tensorDesc { shape := [3, 4], dataType := 0, stride := [4, 1], physicalVolume := 12 }
    | .hasLayout => .hasLayout true
    | .isProgramCacheEnabled => .programCacheEnabled true
    | _ => .done)

theorem answeringAll_serving : Serving answeringAll where
  total index pools command := by
    unfold Runtime.respond
    split <;> rfl
  readable command awaited responses length each := by
    obtain ⟨first, pools, after, isFirst, answer⟩ := each ⟨0, Nat.two_pos⟩
    obtain ⟨second, otherPools, otherAfter, isSecond, otherAnswer⟩ := each ⟨1, Nat.one_lt_two⟩
    obtain ⟨a, b, rfl⟩ := List.length_eq_two.mp length
    cases isFirst
    cases isSecond
    unfold Runtime.respond at answer otherAnswer
    cases type : command.type <;> simp only [type, answeringAll, reduceCtorEq, ↓reduceIte, Option.map_some,
      Option.some.injEq, Prod.mk.injEq] at answer otherAnswer <;>
      rw [← answer.2, ← otherAnswer.2] <;> cases awaited <;> rfl

/-- The caller waits for the volume of a tensor, and no thread has seen the call yet. -/
theorem controller_can_finish_volume : ∃ s final : State 2 Unit Nat, s.calls.length = 2 ∧ s.handled.length = 1 ∧
    Reaches (step answeringAll ()) s final ∧ final.fatal = false ∧ Rested final := by
  have replayed : (EventLog.replay (step answeringAll ()) (volumeRun.take 36) (start answeringAll 7)).map
      (fun s => (s.fatal, s.calls.length, s.handled.length)) = some (false, 2, 1) := by
    decide
  obtain ⟨s, run, same⟩ := Option.map_eq_some_iff.mp replayed
  obtain ⟨fine, calls, handled⟩ : s.fatal = false ∧ s.calls.length = 2 ∧ s.handled.length = 1 := by simpa using same
  obtain ⟨final, finishes⟩ := controller_can_finish answeringAll_serving (Reaches.of_replay _ run) fine
  exact ⟨s, final, calls, handled, finishes⟩

end Example

end TtMlir.Distributed
