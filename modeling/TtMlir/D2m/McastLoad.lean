import Mathlib.Data.List.Nodup
import Mathlib.Data.List.Range
import TtMlir.Library.Runs

/-!
The lowering of a multicast `remote_load` to DMA and semaphore operations, and a machine that
runs it on every core of a multicast group, in any order. Increments, data and multicast sets
are messages delivered at any later time, data before a set that is sent after it.
-/

namespace TtMlir.McastLoad

abbrev CoreIndex := List Nat

inductive Semaphore where
  | receiversReady
  | senderFinished
  deriving DecidableEq

inductive Op where
  | reserve
  | dmaRead
  | dmaWait
  | dmaWrite (mcastStartIndex mcastShape : List Nat)
  | semaphoreWait (semaphore : Semaphore) (value : Nat)
  | semaphoreSet (semaphore : Semaphore) (value : Nat) (dstCoreIndex mcastShape : List Nat)
  | semaphoreInc (semaphore : Semaphore) (value : Nat) (dstCoreIndex : CoreIndex)
  | push
  deriving DecidableEq

def semaphoreWaitReset (semaphore : Semaphore) (value resetValue : Nat) : List Op :=
  [.semaphoreWait semaphore value, .semaphoreSet semaphore resetValue [] []]

def mcastVolume (mcastShape : List Nat) : Nat := mcastShape.foldl (· * ·) 1

def isSender (coreIndex mcastStartIndex : List Nat) : Bool :=
  (List.range mcastStartIndex.length).all fun i => coreIndex.getD i 0 == mcastStartIndex.getD i 0

def handleMcastRemoteLoad (mcastStartIndex mcastShape : List Nat) (coreIndex : CoreIndex) : List Op :=
  let numReceivers := mcastVolume mcastShape - 1
  [.reserve] ++
    (if isSender coreIndex mcastStartIndex then
      [.dmaRead, .dmaWait] ++ semaphoreWaitReset .receiversReady numReceivers 0 ++
        [.dmaWrite mcastStartIndex mcastShape, .dmaWait,
          .semaphoreSet .senderFinished 1 mcastStartIndex mcastShape]
    else
      [.semaphoreInc .receiversReady 1 mcastStartIndex] ++ semaphoreWaitReset .senderFinished 1 0) ++
    [.push]

def mcastCores : List Nat → List Nat → List CoreIndex
  | first :: start, extent :: shape =>
      (List.range extent).flatMap fun offset => (mcastCores start shape).map ((first + offset) :: ·)
  | _, _ => [[]]

/-- Where a multicast goes: to the region without the core that sends it. With
no destination the operation is local. -/
def mcastTargets (source : CoreIndex) (start shape : List Nat) : List CoreIndex :=
  if start.isEmpty then [] else (mcastCores start shape).filter (· ≠ source)

/-- What travels from the sender to one receiver; iteration and sender are recorded for the proof
only. -/
inductive Message (α : Type) where
  | data (slot : Nat) (value : α) (iteration : Nat)
  | set (semaphore : Semaphore) (value : Nat) (source : CoreIndex) (iteration : Nat)

def Message.isData {α : Type} : Message α → Bool
  | .data .. => true
  | .set .. => false

structure Increment where
  target : CoreIndex
  semaphore : Semaphore
  value : Nat
  source : CoreIndex
  iteration : Nat

/-- One core: where it is in the lowered load, its circular buffer, its semaphores and the messages
on their way to it. `arrivals` records for the proof what has reached a semaphore since it was last
set. -/
structure Core (α : Type) where
  position : Nat
  pushed : Nat
  popped : Nat
  slots : Nat → α
  reading : Bool
  semaphores : Semaphore → Nat
  arrivals : Semaphore → List (CoreIndex × Nat)
  inbox : List (Message α)

structure State (α : Type) where
  cores : CoreIndex → Core α
  increments : List Increment

/-- A multicast group, the depth of its buffers, the iterations of each core and what the sender
reads in them. -/
structure Setup (α : Type) where
  start : List Nat
  shape : List Nat
  depth : Nat
  limit : CoreIndex → Nat
  shard : Nat → α

variable {α : Type}

namespace Core

def slot (setup : Setup α) (core : Core α) : Nat := core.pushed % setup.depth

def writeSlot (slot : Nat) (value : α) (core : Core α) : Core α :=
  { core with slots := Function.update core.slots slot value }

def setLocal (semaphore : Semaphore) (value : Nat) (core : Core α) : Core α :=
  { core with
    semaphores := Function.update core.semaphores semaphore value
    arrivals := Function.update core.arrivals semaphore [] }

def arrive (semaphore : Semaphore) (value : Nat) (tag : CoreIndex × Nat) (core : Core α) : Core α :=
  { core with
    semaphores := Function.update core.semaphores semaphore value
    arrivals := Function.update core.arrivals semaphore (core.arrivals semaphore ++ [tag]) }

def advance (program : List Op) (core : Core α) : Core α :=
  { core with position := if core.position + 1 < program.length then core.position + 1 else 0 }

def enqueue (messages : List (Message α)) (core : Core α) : Core α :=
  { core with inbox := core.inbox ++ messages }

def receive (message : Message α) (core : Core α) : Core α :=
  match message with
  | .data slot value _ => core.writeSlot slot value
  | .set semaphore value source iteration => core.arrive semaphore value (source, iteration)

end Core

namespace Setup

def group (setup : Setup α) : List CoreIndex := mcastCores setup.start setup.shape

def receivers (setup : Setup α) : List CoreIndex := mcastTargets setup.start setup.start setup.shape

def program (setup : Setup α) (index : CoreIndex) : List Op :=
  handleMcastRemoteLoad setup.start setup.shape index

end Setup

namespace State

def modify (s : State α) (index : CoreIndex) (change : Core α → Core α) : State α :=
  { s with cores := Function.update s.cores index (change (s.cores index)) }

def send (s : State α) (targets : List CoreIndex) (message : Message α) : State α :=
  { s with
    cores := fun index =>
      if index ∈ targets then (s.cores index).enqueue [message] else s.cores index }

/-- Before the first iteration: both semaphores are zero on every core, the
circular buffers are empty and hold whatever they hold. -/
def initial (slots : CoreIndex → Nat → α) : State α where
  cores := fun index =>
    { position := 0, pushed := 0, popped := 0, slots := slots index, reading := false,
      semaphores := fun _ => 0, arrivals := fun _ => [], inbox := [] }
  increments := []

end State

/-- One operation of a core; `none` while it blocks. -/
def execOp (setup : Setup α) (index : CoreIndex) (op : Op) (s : State α) : Option (State α) :=
  let core := s.cores index
  match op with
  -- The reserve opens an iteration, so the number of iterations is checked here.
  | .reserve =>
      if core.pushed < setup.limit index ∧ core.pushed < core.popped + setup.depth then some s else none
  | .dmaRead => some (s.modify index fun core => { core with reading := true })
  -- Only reads are waited for: a multicast may still be on its way when the wait returns.
  | .dmaWait => if core.reading then none else some s
  | .dmaWrite start shape =>
      some (s.send (mcastTargets index start shape)
        (.data (core.slot setup) (core.slots (core.slot setup)) core.pushed))
  | .semaphoreWait semaphore value => if core.semaphores semaphore = value then some s else none
  | .semaphoreSet semaphore value start shape =>
      some ((s.modify index (Core.setLocal semaphore value)).send (mcastTargets index start shape)
        (.set semaphore value index core.pushed))
  | .semaphoreInc semaphore value target =>
      some { s with increments := s.increments ++ [⟨target, semaphore, value, index, core.pushed⟩] }
  | .push => some (s.modify index fun core => { core with pushed := core.pushed + 1 })

inductive Action where
  | exec (index : CoreIndex)
  | landRead (index : CoreIndex)
  | deliverIncrement (number : Nat)
  | deliver (index : CoreIndex) (number : Nat)
  | pop (index : CoreIndex)

def exec (setup : Setup α) (index : CoreIndex) (s : State α) : Option (State α) :=
  match (setup.program index)[(s.cores index).position]? with
  | some op => (execOp setup index op s).map fun next => next.modify index (Core.advance (setup.program index))
  | none => none

def landRead (setup : Setup α) (index : CoreIndex) (s : State α) : Option (State α) :=
  if (s.cores index).reading then
    some (s.modify index fun core =>
      { core.writeSlot (core.slot setup) (setup.shard core.pushed) with reading := false })
  else none

def deliverIncrement (number : Nat) (s : State α) : Option (State α) :=
  match s.increments[number]? with
  | some increment =>
      some ({ s with increments := s.increments.eraseIdx number }.modify increment.target fun core =>
        core.arrive increment.semaphore (core.semaphores increment.semaphore + increment.value)
          (increment.source, increment.iteration))
  | none => none

/-- Data may overtake anything, a set may not overtake data. -/
def deliver (index : CoreIndex) (number : Nat) (s : State α) : Option (State α) :=
  let inbox := (s.cores index).inbox
  match inbox[number]? with
  | some message =>
      if message.isData || (inbox.take number).all (!·.isData) then
        some (s.modify index fun core => { core with inbox := inbox.eraseIdx number }.receive message)
      else none
  | none => none

def pop (index : CoreIndex) (s : State α) : Option (State α) :=
  if (s.cores index).popped < (s.cores index).pushed then
    some (s.modify index fun core => { core with popped := core.popped + 1 })
  else none

/-- One step of the group, in any order of its cores, deliveries and consumers. -/
def step (setup : Setup α) (action : Action) (s : State α) : Option (State α) :=
  match action with
  | .exec index => if index ∈ setup.group then exec setup index s else none
  | .landRead index => if index ∈ setup.group then landRead setup index s else none
  | .deliverIncrement number => deliverIncrement number s
  | .deliver index number => if index ∈ setup.group then deliver index number s else none
  | .pop index => if index ∈ setup.group then pop index s else none

end TtMlir.McastLoad
