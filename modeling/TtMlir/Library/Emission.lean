import Mathlib.Data.List.Basic

/-!
Rewriters that turn one value into a chain of ops: an emission holds the ops emitted so far and
the type of the current value. `Emits` is the triple of a step: the types it starts from and ends
at, and a condition that every op keeps.
-/

namespace TtMlir

structure EmittedOp (Kind Ty : Type) where
  kind : Kind
  input : Ty
  result : Ty
deriving DecidableEq

def Chained {Kind Ty : Type} : Ty → List (EmittedOp Kind Ty) → Ty → Prop
  | source, [], target => source = target
  | source, op :: rest, target => op.input = source ∧ Chained op.result rest target

structure Emission (Kind Ty : Type) (source : Ty) where
  ops : List (EmittedOp Kind Ty)
  current : Ty
  chained : Chained source ops current

namespace Emission
variable {Kind Ty : Type} {source : Ty}

theorem chained_append (ops : List (EmittedOp Kind Ty)) (op : EmittedOp Kind Ty) (start : Ty)
    (chained : Chained start ops op.input) : Chained start (ops ++ [op]) op.result := by
  induction ops generalizing start with
  | nil => exact ⟨chained.symm, rfl⟩
  | cons first rest ih => exact ⟨chained.1, ih first.result chained.2⟩

def start (source : Ty) : Emission Kind Ty source := ⟨[], source, rfl⟩

def emit (emission : Emission Kind Ty source) (kind : Kind) (result : Ty) : Emission Kind Ty source :=
  ⟨emission.ops ++ [⟨kind, emission.current, result⟩], result,
    chained_append emission.ops ⟨kind, emission.current, result⟩ source emission.chained⟩

@[simp] theorem emit_current (emission : Emission Kind Ty source) (kind : Kind) (result : Ty) :
    (emission.emit kind result).current = result := rfl

def AllOps (legal : EmittedOp Kind Ty → Prop) (emission : Emission Kind Ty source) : Prop :=
  ∀ op ∈ emission.ops, legal op

theorem all_start (legal : EmittedOp Kind Ty → Prop) : AllOps legal (start source) := by
  intro op member
  cases member

theorem all_emit {legal : EmittedOp Kind Ty → Prop} {emission : Emission Kind Ty source} {kind : Kind} {result : Ty}
    (before : AllOps legal emission) (allowed : legal ⟨kind, emission.current, result⟩) :
    AllOps legal (emission.emit kind result) := by
  intro op member
  rcases List.mem_append.mp member with old | new
  · exact before op old
  · rw [List.mem_singleton.mp new]
    exact allowed

/-- From a current type with `before`, the step succeeds with a current type
with `after`, and emits allowed ops only. -/
def Emits (legal : EmittedOp Kind Ty → Prop) (before : Ty → Prop)
    (step : Emission Kind Ty source → Option (Emission Kind Ty source)) (after : Ty → Prop) : Prop :=
  ∀ emission, AllOps legal emission → before emission.current →
    ∃ next, step emission = some next ∧ AllOps legal next ∧ after next.current

section Rules
variable {legal : EmittedOp Kind Ty → Prop} {before middle after : Ty → Prop}
  {first second step : Emission Kind Ty source → Option (Emission Kind Ty source)}

theorem emits_nothing (before : Ty → Prop) :
    Emits legal before (fun emission : Emission Kind Ty source => some emission) before := by
  intro emission allowed holds
  exact ⟨emission, rfl, allowed, holds⟩

theorem emits_one (kind : Kind) {type result : Ty}
    (stepped : ∀ emission, emission.current = type → step emission = some (emission.emit kind result))
    (allowed : legal ⟨kind, type, result⟩) :
    Emits legal (fun current => current = type) step (fun current => current = result) := by
  intro emission legalBefore holds
  refine ⟨emission.emit kind result, stepped emission holds, all_emit legalBefore ?_, rfl⟩
  rw [holds]
  exact allowed

theorem emits_then (firstEmits : Emits legal before first middle) (secondEmits : Emits legal middle second after) :
    Emits legal before (fun emission => first emission >>= second) after := by
  intro emission allowed holds
  obtain ⟨next, stepped, allowedNext, reached⟩ := firstEmits emission allowed holds
  obtain ⟨last, steppedLast, allowedLast, done⟩ := secondEmits next allowedNext reached
  refine ⟨last, ?_, allowedLast, done⟩
  show first emission >>= second = some last
  rw [stepped]
  exact steppedLast

theorem emits_if {condition : Prop} [Decidable condition]
    (whenTrue : condition → Emits legal before first after) (whenFalse : ¬condition → Emits legal before second after) :
    Emits legal before (fun emission => if condition then first emission else second emission) after := by
  intro emission allowed holds
  by_cases decided : condition
  · simpa only [if_pos decided] using whenTrue decided emission allowed holds
  · simpa only [if_neg decided] using whenFalse decided emission allowed holds

theorem emits_weaken {weakAfter : Ty → Prop} (emits : Emits legal before step after)
    (weaken : ∀ type, after type → weakAfter type) : Emits legal before step weakAfter := by
  intro emission allowed holds
  obtain ⟨next, stepped, allowedNext, reached⟩ := emits emission allowed holds
  exact ⟨next, stepped, allowedNext, weaken _ reached⟩

theorem emits_each (emits : ∀ type, before type → Emits legal (fun current => current = type) step after) :
    Emits legal before step after := by
  intro emission allowed holds
  exact emits emission.current holds emission allowed rfl

end Rules
end Emission

end TtMlir
