import TtMlir.Distributed.Messages
import TtMlir.Library.QueueLoop

/-!
A worker of the distributed runtime, command_executor.cpp: one thread receives
commands, the main thread executes them, and one thread sends the responses.
`arrived`, `executed` and `delivered` record what happened and decide nothing.
-/

namespace TtMlir.Distributed

/-- What a worker's device runtime does with a command; `none` ends the process. -/
structure Runtime (Payload Pools : Type) where
  initial : Pools
  execute : Pools → Command Payload → Option (Pools × Body)

variable {Payload Pools : Type}

def Runtime.respond (runtime : Runtime Payload Pools) (pools : Pools) (command : Command Payload) :
    Option (Pools × Response) :=
  if command.type = .shutdown then some (pools, .answer command.commandId .done)
  else (runtime.execute pools command).map fun (after, body) => (after, .answer command.commandId body)

inductive Receiver (Payload : Type) where
  | testing
  | polling
  | holding (command : Command Payload)
  | stopped

inductive Executor (Payload : Type) where
  | testing
  | popping
  | executing (command : Command Payload)
  | answered
  | joiningReceiver
  | joiningSender
  | stopped
  | crashed (command : Command Payload)

structure Worker (Payload Pools : Type) where
  inbound : List (Command Payload)
  receiver : Receiver Payload
  commandQueue : List (Command Payload)
  executor : Executor Payload
  pools : Pools
  responseQueue : List Response
  sender : QueueLoop Response
  shutdownRequested : Bool
  outbound : List Response
  arrived : List (Command Payload)
  executed : List (Command Payload)
  delivered : List Response

def Runtime.start (runtime : Runtime Payload Pools) : Worker Payload Pools where
  inbound := []
  receiver := .testing
  commandQueue := []
  executor := .testing
  pools := runtime.initial
  responseQueue := []
  sender := .testing
  shutdownRequested := false
  outbound := []
  arrived := []
  executed := []
  delivered := []

namespace Worker

variable (worker : Worker Payload Pools)

section Threads

def receiveCommands : Option (Worker Payload Pools) :=
  match worker.receiver with
  | .testing => some { worker with receiver := if worker.shutdownRequested then .stopped else .polling }
  | .polling =>
      match worker.inbound with
      | [] => some { worker with receiver := .testing }
      | command :: rest => some { worker with receiver := .holding command, inbound := rest }
  | .holding command =>
      some { worker with receiver := .testing, commandQueue := worker.commandQueue ++ [command] }
  | .stopped => none

def execute (runtime : Runtime Payload Pools) (command : Command Payload) : Worker Payload Pools :=
  match runtime.respond worker.pools command with
  | none => { worker with executor := .crashed command }
  | some (pools, response) =>
      { worker with
        pools
        responseQueue := worker.responseQueue ++ [response]
        executed := worker.executed ++ [command]
        executor := if command.type = .shutdown then .answered else .testing }

def run (runtime : Runtime Payload Pools) : Option (Worker Payload Pools) :=
  match worker.executor with
  | .testing => some { worker with executor := if worker.shutdownRequested then .stopped else .popping }
  | .popping =>
      match worker.commandQueue with
      | [] => none
      | command :: rest => some { worker with executor := .executing command, commandQueue := rest }
  | .executing command => some (worker.execute runtime command)
  | .answered => some { worker with shutdownRequested := true, executor := .joiningReceiver }
  | .joiningReceiver =>
      match worker.receiver with
      | .stopped => some { worker with executor := .joiningSender }
      | _ => none
  | .joiningSender =>
      match worker.sender with
      | .stopped => some { worker with executor := .testing }
      | _ => none
  | .stopped | .crashed _ => none

def sendResponses : Option (Worker Payload Pools) :=
  match worker.sender with
  | .holding response => some { worker with sender := .testing, outbound := worker.outbound ++ [response] }
  | sender =>
      (sender.advance worker.shutdownRequested id worker.responseQueue).map fun (sender, responseQueue) =>
        { worker with sender, responseQueue }

end Threads

inductive Thread where
  | receiver
  | executor
  | sender

def step (runtime : Runtime Payload Pools) (thread : Thread) : Option (Worker Payload Pools) :=
  match worker.executor, thread with
  | .crashed _, _ => none
  | _, .receiver => worker.receiveCommands
  | _, .executor => worker.run runtime
  | _, .sender => worker.sendResponses

def arrive (command : Command Payload) : Worker Payload Pools :=
  { worker with inbound := worker.inbound ++ [command], arrived := worker.arrived ++ [command] }

def deliver : Option (Response × Worker Payload Pools) :=
  match worker.outbound with
  | [] => none
  | response :: rest => some (response, { worker with outbound := rest, delivered := worker.delivered ++ [response] })

end Worker

section Sequential

/-- The worker's pools and responses after commands one by one. -/
def Runtime.sequential (runtime : Runtime Payload Pools) (commands : List (Command Payload)) :
    Option (Pools × List Response) :=
  commands.foldlM (fun (pools, responses) command =>
    (runtime.respond pools command).map fun (after, response) => (after, responses ++ [response]))
    (runtime.initial, [])

def Runtime.answerTo (runtime : Runtime Payload Pools) (commands : List (Command Payload)) (position : Nat) :
    Option Response :=
  (runtime.sequential (commands.take (position + 1))).bind fun (_, responses) => responses[position]?

end Sequential

end TtMlir.Distributed
