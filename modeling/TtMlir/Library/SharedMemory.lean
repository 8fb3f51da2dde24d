import Mathlib.Data.List.Basic

/-!
Runs of loads and stores on cells that are placed at addresses. Two cells may
share an address; the loads return what they would with an address for each cell
as long as no load finds its address taken by another cell.
-/

namespace TtMlir.SharedMemory

inductive Event (Cell : Type)
  | load (cell : Cell) (result : Nat)
  | compute (op : Nat) (indices operands : List Nat) (result : Nat)
  | store (cell : Cell) (source : Nat)

def Event.cell? {Cell : Type} : Event Cell → Option Cell
  | .load cell _ | .store cell _ => some cell
  | .compute .. => none

section Run
variable {Cell Address α : Type} [DecidableEq Address] (meaning : Nat → List Nat → List α → α)
  (place : Cell → Address)

def loaded : List (Event Cell) → (Nat → α) → (Address → α) → List α
  | [], _, _ => []
  | .load cell result :: rest, registers, memory =>
      memory (place cell) :: loaded rest (Function.update registers result (memory (place cell))) memory
  | .compute op indices operands result :: rest, registers, memory =>
      loaded rest (Function.update registers result (meaning op indices (operands.map registers))) memory
  | .store cell source :: rest, registers, memory =>
      loaded rest registers (Function.update memory (place cell) (registers source))

end Run

variable {Cell : Type} [DecidableEq Cell]

def StoredFirst : (Cell → Bool) → List (Event Cell) → Prop
  | _, [] => True
  | stored, .load cell _ :: rest => stored cell = true ∧ StoredFirst stored rest
  | stored, .compute .. :: rest => StoredFirst stored rest
  | stored, .store cell _ :: rest => StoredFirst (fun other => decide (other = cell) || stored other) rest

/-- A store spoils the cells that it clashes with until they are stored again, and no
spoiled cell is loaded. -/
def Unspoiled (clashes : Cell → Cell → Bool) : (Cell → Bool) → List (Event Cell) → Prop
  | _, [] => True
  | spoiled, .load cell _ :: rest => spoiled cell = false ∧ Unspoiled clashes spoiled rest
  | spoiled, .compute .. :: rest => Unspoiled clashes spoiled rest
  | spoiled, .store cell _ :: rest =>
      Unspoiled clashes (fun other => !decide (other = cell) && (spoiled other || clashes other cell)) rest

instance StoredFirst.decidable (stored : Cell → Bool) (events : List (Event Cell)) :
    Decidable (StoredFirst stored events) :=
  match events with
  | [] => .isTrue trivial
  | .load _ _ :: rest => @instDecidableAnd _ _ _ (StoredFirst.decidable stored rest)
  | .compute .. :: rest => StoredFirst.decidable stored rest
  | .store _ _ :: rest => StoredFirst.decidable _ rest

instance Unspoiled.decidable (clashes : Cell → Cell → Bool) (spoiled : Cell → Bool)
    (events : List (Event Cell)) : Decidable (Unspoiled clashes spoiled events) :=
  match events with
  | [] => .isTrue trivial
  | .load _ _ :: rest => @instDecidableAnd _ _ _ (Unspoiled.decidable clashes spoiled rest)
  | .compute .. :: rest => Unspoiled.decidable clashes spoiled rest
  | .store _ _ :: rest => Unspoiled.decidable clashes _ rest

theorem loaded_placed {Address α : Type} [DecidableEq Address] {place : Cell → Address}
    {clashes : Cell → Cell → Bool} {known : Cell → Prop}
    (apart : ∀ first second, known first → known second → place first = place second →
      first = second ∨ clashes first second = true)
    (meaning : Nat → List Nat → List α → α) (events : List (Event Cell)) (registers : Nat → α)
    (inside : ∀ event ∈ events, ∀ cell ∈ event.cell?, known cell) {stored spoiled : Cell → Bool}
    (storedFirst : StoredFirst stored events) (undisturbed : Unspoiled clashes spoiled events)
    {own : Cell → α} {shared : Address → α}
    (same : ∀ cell, known cell → stored cell = true → spoiled cell = false → shared (place cell) = own cell) :
    loaded meaning place events registers shared = loaded meaning id events registers own := by
  induction events generalizing registers stored spoiled own shared with
  | nil => rfl
  | cons event rest ih =>
      obtain ⟨here, later⟩ := List.forall_mem_cons.mp inside
      cases event with
      | load cell result =>
          have value := same cell (here cell rfl) storedFirst.1 undisturbed.1
          simp only [loaded, value, id]
          exact congrArg _ (ih _ later storedFirst.2 undisturbed.2 same)
      | compute op indices operands result => exact ih _ later storedFirst undisturbed same
      | store cell source =>
          refine ih _ later storedFirst undisturbed fun other isKnown wasStored clean => ?_
          by_cases isCell : other = cell
          · simp [isCell]
          simp only [isCell, decide_false, Bool.false_or] at wasStored
          simp only [isCell, decide_false, Bool.not_false, Bool.true_and, Bool.or_eq_false_iff] at clean
          -- an address that the store takes from the other cell spoils it
          have elsewhere : place other ≠ place cell := by
            intro sameAddress
            rcases apart other cell isKnown (here cell rfl) sameAddress with equal | clash
            · exact isCell equal
            · rw [clash] at clean
              cases clean.2
          rw [Function.update_of_ne elsewhere, id, Function.update_of_ne isCell]
          exact same other isKnown wasStored clean.1

end TtMlir.SharedMemory
