import Mathlib.Data.List.Basic

/-!
A thread that takes items from a queue until it is told to stop and sees the queue
empty. The flag and the queue are looked at one after the other, so other threads
move in between.
-/

namespace TtMlir

/-- Where the thread is: before the flag, between the flag and the queue, before
the next item, at work on an item. -/
inductive QueueLoop (Work : Type) where
  | unstarted
  | testing
  | checking
  | popping
  | holding (work : Work)
  | stopped

namespace QueueLoop

variable {Item Work : Type}

def advance (stop : Bool) (start : Item → Work) (queue : List Item) : QueueLoop Work → Option (QueueLoop Work × List Item)
  | testing => some (if stop then checking else popping, queue)
  | checking => some (if queue.isEmpty then stopped else popping, queue)
  | popping =>
      match queue with
      | [] => some (testing, [])
      | item :: rest => some (holding (start item), rest)
  | unstarted | holding _ | stopped => none

def held : QueueLoop Work → List Work
  | holding work => [work]
  | _ => []

/-- The thread goes to its end only after the flag, and ends with the queue empty. -/
structure Ending (stop : Bool) (queue : List Item) (loop : QueueLoop Work) : Prop where
  checking : loop = .checking → stop = true
  stopped : loop = .stopped → stop = true ∧ queue = []

variable {stop : Bool} {start : Item → Work} {queue rest : List Item} {loop next : QueueLoop Work}

@[simp] theorem held_holding (work : Work) : (holding work).held = [work] := rfl

@[simp] theorem held_testing : (testing : QueueLoop Work).held = [] := rfl

@[simp] theorem held_stopped : (stopped : QueueLoop Work).held = [] := rfl

@[simp] theorem held_unstarted : (unstarted : QueueLoop Work).held = [] := rfl

theorem advance_contents (moved : loop.advance stop start queue = some (next, rest)) :
    loop.held = [] ∧ ∃ items : List Item, next.held = items.map start ∧ items ++ rest = queue := by
  cases loop with
  | unstarted => cases moved
  | holding work => cases moved
  | stopped => cases moved
  | testing =>
      cases moved
      refine ⟨rfl, [], ?_, rfl⟩
      cases stop <;> rfl
  | checking =>
      cases moved
      refine ⟨rfl, [], ?_, rfl⟩
      cases queue.isEmpty <;> rfl
  | popping =>
      cases queue with
      | nil =>
          cases moved
          exact ⟨rfl, [], rfl, rfl⟩
      | cons item tail =>
          cases moved
          exact ⟨rfl, [item], rfl, rfl⟩

theorem advance_started (moved : loop.advance stop start queue = some (next, rest)) :
    loop ≠ .unstarted ∧ loop ≠ .stopped ∧ next ≠ .unstarted := by
  cases loop with
  | unstarted => cases moved
  | holding work => cases moved
  | stopped => cases moved
  | testing =>
      cases moved
      cases stop <;> exact ⟨nofun, nofun, nofun⟩
  | checking =>
      cases moved
      cases queue <;> exact ⟨nofun, nofun, nofun⟩
  | popping =>
      cases queue <;> cases moved <;> exact ⟨nofun, nofun, nofun⟩

namespace Ending

theorem advance {closing : Bool} (ending : Ending closing queue loop) (closes : stop = true → closing = true)
    (moved : loop.advance stop start queue = some (next, rest)) : Ending closing rest next := by
  cases loop with
  | unstarted => cases moved
  | holding work => cases moved
  | stopped => cases moved
  | testing =>
      cases moved
      cases stop with
      | true => exact ⟨fun _ => closes rfl, nofun⟩
      | false => exact ⟨nofun, nofun⟩
  | checking =>
      cases moved
      cases queue with
      | nil => exact ⟨nofun, fun _ => ⟨ending.checking rfl, rfl⟩⟩
      | cons item tail => exact ⟨nofun, nofun⟩
  | popping =>
      cases queue with
      | nil =>
          cases moved
          exact ⟨nofun, nofun⟩
      | cons item tail =>
          cases moved
          exact ⟨nofun, nofun⟩

theorem push (ending : Ending false queue loop) (queue' : List Item) : Ending false queue' loop :=
  ⟨ending.checking, fun gone => absurd (ending.stopped gone).1 Bool.false_ne_true⟩

theorem close (ending : Ending stop queue loop) : Ending true queue loop :=
  ⟨fun _ => rfl, fun gone => ⟨rfl, (ending.stopped gone).2⟩⟩

theorem testing : Ending stop queue (testing : QueueLoop Work) :=
  ⟨nofun, nofun⟩

theorem holding (work : Work) : Ending stop queue (holding work) :=
  ⟨nofun, nofun⟩

theorem unstarted : Ending stop queue (unstarted : QueueLoop Work) :=
  ⟨nofun, nofun⟩

end Ending

section Progress

/-- A bound on the useful steps left: those to an item, or to the end once the queue is empty. -/
def left (queue : List Item) (loop : QueueLoop Work) : Nat :=
  6 * queue.length + match loop with
    | unstarted | stopped => 0
    | checking => 2
    | testing => 3
    | popping => if queue.isEmpty then 4 else 1
    | holding _ => 5

theorem advance_left (busy : stop = true ∨ queue ≠ []) (moved : loop.advance stop start queue = some (next, rest)) :
    next.left rest < loop.left queue := by
  cases loop with
  | unstarted => cases moved
  | holding work => cases moved
  | stopped => cases moved
  | testing =>
      cases moved
      cases stop with
      | true => simp [left]
      | false => cases queue <;> simp_all [left]
  | checking =>
      cases moved
      cases queue <;> simp [left]
  | popping =>
      cases queue with
      | nil =>
          cases moved
          simp [left]
      | cons item tail =>
          cases moved
          simp only [left, List.length_cons, List.isEmpty_cons, Bool.false_eq_true, ↓reduceIte]
          omega

theorem advance_exists (stop : Bool) (start : Item → Work) (queue : List Item) (started : loop ≠ .unstarted)
    (running : loop ≠ .stopped) (idle : loop.held = []) : ∃ next rest, loop.advance stop start queue = some (next, rest) := by
  cases loop with
  | unstarted => exact absurd rfl started
  | holding work => cases idle
  | stopped => exact absurd rfl running
  | testing => exact ⟨_, _, rfl⟩
  | checking => exact ⟨_, _, rfl⟩
  | popping => cases queue <;> exact ⟨_, _, rfl⟩

theorem left_push (loop : QueueLoop Work) (queue : List Item) (item : Item) : loop.left (queue ++ [item]) ≤ loop.left queue + 6 := by
  cases loop with
  | popping => cases queue <;> simp [left]; omega
  | _ => simp only [left, List.length_append, List.length_singleton]; omega

end Progress

end QueueLoop

end TtMlir
