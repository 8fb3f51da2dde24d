import TtMlir.Distributed.Worker

/-!
The controller of the distributed runtime with its workers, controller.cpp: the caller of the
API, the dispatcher, the handler of the responses, and an ordered socket to each worker. A promise
is named by the number of its call. `calls`, `handled` and `reads` record what happened.
-/

namespace TtMlir.Distributed

inductive ControllerState where
  | uninitialized
  | controllerSocketBound
  | commandLaunched
  | connectedToWorkers
  | dispatcherReady
  | responseHandlerReady
  | runtimeContextConfigured
  | fullyOperational
  | shuttingDown
  | shutdown
  deriving DecidableEq

def ControllerState.value : ControllerState → Nat
  | uninitialized => 0
  | controllerSocketBound => 1
  | commandLaunched => 2
  | connectedToWorkers => 3
  | dispatcherReady => 4
  | responseHandlerReady => 5
  | runtimeContextConfigured => 6
  | fullyOperational => 7
  | shuttingDown => 8
  | shutdown => 9

structure AwaitingResponseQueueEntry where
  commandId : UInt64
  commandType : CommandType
  promise : Option Nat
  deriving DecidableEq

structure Call (Payload : Type) where
  command : Command Payload
  awaited : Bool

def Call.entry {Payload : Type} (call : Call Payload) (number : Nat) : AwaitingResponseQueueEntry where
  commandId := call.command.commandId
  commandType := call.command.type
  promise := if call.awaited then some number else none

structure Dispatch (n : Nat) (Payload : Type) where
  command : Command Payload
  written : Fin n → Bool

structure Collect (n : Nat) where
  entry : AwaitingResponseQueueEntry
  received : Fin n → Option Response

inductive Purpose where
  | configureRuntimeContext
  | api
  | shutdown
  deriving DecidableEq

inductive Caller (Payload : Type) where
  | connected
  | dispatcherLaunched
  | responseHandlerLaunched
  | configured
  | idle
  | pushing (purpose : Purpose) (call : Call Payload)
  | waiting (purpose : Purpose) (promise : Nat)
  | joiningDispatcher
  | joiningResponseHandler
  | exiting
  | returned (success : Bool)

structure State (n : Nat) (Payload Pools : Type) where
  controllerState : ControllerState
  nextCommandId : UInt64
  caller : Caller Payload
  commandQueue : List (Command Payload)
  awaitingResponseQueue : List AwaitingResponseQueueEntry
  dispatcher : QueueLoop (Dispatch n Payload)
  responseHandler : QueueLoop (Collect n)
  workers : Fin n → Worker Payload Pools
  fulfilled : Nat → Option Reading
  fatal : Bool
  calls : List (Call Payload)
  handled : List (AwaitingResponseQueueEntry × List Response)
  reads : List (Nat × Reading)

variable {n : Nat} {Payload Pools : Type}

def start (runtimes : Fin n → Runtime Payload Pools) (firstId : UInt64) : State n Payload Pools where
  controllerState := .connectedToWorkers
  nextCommandId := firstId
  caller := .connected
  commandQueue := []
  awaitingResponseQueue := []
  dispatcher := .unstarted
  responseHandler := .unstarted
  workers := fun worker => (runtimes worker).start
  fulfilled := fun _ => none
  fatal := false
  calls := []
  handled := []
  reads := []

namespace State

variable (s : State n Payload Pools)

def setWorker (index : Fin n) (worker : Worker Payload Pools) : State n Payload Pools :=
  { s with workers := Function.update s.workers index worker }

section CallerThread

def pushToResponseQueue (purpose : Purpose) (type : CommandType) (payload : Option Payload) (awaited : Bool) :
    State n Payload Pools :=
  let call : Call Payload := ⟨⟨s.nextCommandId, type, payload⟩, awaited⟩
  { s with
    nextCommandId := s.nextCommandId + 1
    awaitingResponseQueue := s.awaitingResponseQueue ++ [call.entry s.calls.length]
    calls := s.calls ++ [call]
    caller := .pushing purpose call }

def pushToCommandQueue (purpose : Purpose) (call : Call Payload) : State n Payload Pools :=
  { s with
    commandQueue := s.commandQueue ++ [call.command]
    caller := if call.awaited then .waiting purpose (s.calls.length - 1) else .idle }

def call (type : CommandType) (payload : Option Payload) (awaited : Bool) : Option (State n Payload Pools) :=
  match s.caller with
  | .idle => if awaited ∈ waits type then some (s.pushToResponseQueue .api type payload awaited) else none
  | _ => none

def shutdown : Option (State n Payload Pools) :=
  match s.caller with
  | .idle =>
      if s.controllerState.value < ControllerState.fullyOperational.value then
        some { s with controllerState := .shutdown, caller := .returned false }
      else if s.controllerState ≠ .fullyOperational then
        some { s with controllerState := .shutdown, caller := .returned false }
      else some (s.pushToResponseQueue .shutdown .shutdown none true)
  | _ => none

def resume (purpose : Purpose) : State n Payload Pools :=
  match purpose with
  | .configureRuntimeContext => { s with controllerState := .runtimeContextConfigured, caller := .configured }
  | .api => { s with caller := .idle }
  | .shutdown => { s with controllerState := .shuttingDown, caller := .joiningDispatcher }

/-- The caller's next step inside of a call. -/
def proceed (configuration : Payload) : Option (State n Payload Pools) :=
  match s.caller with
  | .connected => some { s with dispatcher := .testing, controllerState := .dispatcherReady, caller := .dispatcherLaunched }
  | .dispatcherLaunched =>
      some { s with
        responseHandler := .testing
        controllerState := .responseHandlerReady
        caller := .responseHandlerLaunched }
  | .responseHandlerLaunched =>
      some (s.pushToResponseQueue .configureRuntimeContext .configureRuntimeContext (some configuration) true)
  | .configured => some { s with controllerState := .fullyOperational, caller := .idle }
  | .pushing purpose call => some (s.pushToCommandQueue purpose call)
  | .waiting purpose promise =>
      (s.fulfilled promise).map fun reading =>
        ({ s with reads := s.reads ++ [(promise, reading)] } : State n Payload Pools).resume purpose
  | .joiningDispatcher =>
      match s.dispatcher with
      | .stopped => some { s with caller := .joiningResponseHandler }
      | _ => none
  | .joiningResponseHandler =>
      match s.responseHandler with
      | .stopped => some { s with caller := .exiting }
      | _ => none
  | .idle | .exiting | .returned _ => none

/-- The exit code of the workers' processes, or a timeout. -/
def exit (exitCode : Option Int) : Option (State n Payload Pools) :=
  match s.caller with
  | .exiting => some { s with controllerState := .shutdown, caller := .returned (decide (exitCode = some 0)) }
  | _ => none

end CallerThread

section Threads

def stopping : Bool := decide (s.controllerState = .shuttingDown)

def processCommandQueue : Option (State n Payload Pools) :=
  match s.dispatcher with
  | .holding dispatch => if ∀ index, dispatch.written index then some { s with dispatcher := .testing } else none
  | loop =>
      (loop.advance s.stopping (fun command => ⟨command, fun _ => false⟩) s.commandQueue).map
        fun (dispatcher, commandQueue) => { s with dispatcher, commandQueue }

def write (index : Fin n) : Option (State n Payload Pools) :=
  match s.dispatcher with
  | .holding dispatch =>
      if dispatch.written index then none
      else
        some { s with
          dispatcher := .holding { dispatch with written := Function.update dispatch.written index true }
          workers := Function.update s.workers index ((s.workers index).arrive dispatch.command) }
  | _ => none

def read (index : Fin n) : Option (State n Payload Pools) :=
  match s.responseHandler with
  | .holding collect =>
      match collect.received index with
      | some _ => none
      | none =>
          (s.workers index).deliver.map fun (response, worker) =>
            { s with
              responseHandler := .holding { collect with received := Function.update collect.received index (some response) }
              workers := Function.update s.workers index worker }
  | _ => none

def fulfil (entry : AwaitingResponseQueueEntry) (reading : Reading) : Nat → Option Reading :=
  match entry.promise with
  | some promise => Function.update s.fulfilled promise (some reading)
  | none => s.fulfilled

/-- What is done with the responses of all workers; an error ends the process. -/
def finish (entry : AwaitingResponseQueueEntry) (responses : List Response) : State n Payload Pools :=
  if responses.any Response.isError then { s with fulfilled := s.fulfil entry .unset, fatal := true }
  else
    match handleResponse entry.commandType entry.promise.isSome (responses.map Response.body) with
    | none => { s with fatal := true }
    | some reading =>
        { s with
          responseHandler := .testing
          fulfilled := s.fulfil entry reading
          handled := s.handled ++ [(entry, responses)] }

def processResponseQueue : Option (State n Payload Pools) :=
  match s.responseHandler with
  | .holding collect => ((List.finRange n).mapM collect.received).map fun responses => s.finish collect.entry responses
  | loop =>
      (loop.advance s.stopping (fun entry => ⟨entry, fun _ => none⟩) s.awaitingResponseQueue).map
        fun (responseHandler, awaitingResponseQueue) => { s with responseHandler, awaitingResponseQueue }

/-- A write or a read that takes too long ends the process. -/
def timeout : Option (State n Payload Pools) :=
  if s.dispatcher.held.isEmpty && s.responseHandler.held.isEmpty then none else some { s with fatal := true }

end Threads

end State

section System

inductive ControllerAction (n : Nat) (Payload : Type) where
  | call (type : CommandType) (payload : Option Payload) (awaited : Bool)
  | shutdown
  | proceed
  | exit (exitCode : Option Int)
  | processCommandQueue
  | write (index : Fin n)
  | processResponseQueue
  | read (index : Fin n)
  | timeout

inductive Action (n : Nat) (Payload : Type) where
  | controller (action : ControllerAction n Payload)
  | worker (index : Fin n) (thread : Worker.Thread)

def State.control (configuration : Payload) (s : State n Payload Pools) :
    ControllerAction n Payload → Option (State n Payload Pools)
  | .call type payload awaited => s.call type payload awaited
  | .shutdown => s.shutdown
  | .proceed => s.proceed configuration
  | .exit exitCode => s.exit exitCode
  | .processCommandQueue => s.processCommandQueue
  | .write index => s.write index
  | .processResponseQueue => s.processResponseQueue
  | .read index => s.read index
  | .timeout => s.timeout

/-- One step of one thread; after a fatal error only the workers go on. -/
def step (runtimes : Fin n → Runtime Payload Pools) (configuration : Payload) (action : Action n Payload)
    (s : State n Payload Pools) : Option (State n Payload Pools) :=
  match action with
  | .controller action => if s.fatal then none else s.control configuration action
  | .worker index thread => ((s.workers index).step (runtimes index) thread).map (s.setWorker index)

end System

end TtMlir.Distributed
