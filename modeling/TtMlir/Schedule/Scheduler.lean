import Mathlib.Data.List.Sort
import Mathlib.Data.Finset.Card

/-!
The op scheduler. Ops of a function body are offered once the ops that they use are scheduled;
which offered op comes next is the caller's choice. Only uses between schedulable ops are recorded.
-/

namespace TtMlir.Schedule

/-- What the scheduler distinguishes about an op. -/
inductive OpKind
  | ttnnEmpty | ttnnGetDevice | ttnn
  | ttirEmpty | ttir
  | other
  deriving DecidableEq, Repr

/-- An op, with the positions of the ops that define its operands. -/
structure Operation where
  kind : OpKind
  operands : List Nat
  deriving Repr

/-- A function body: every operand is defined above its use. -/
structure FuncOp where
  ops : List Operation
  dominated : ∀ use (inside : use < ops.length), ∀ definition ∈ ops[use].operands, definition < use

def isTTNNSchedulableOp : OpKind → Bool
  | .ttnn => true
  | _ => false

def isTTIRSchedulableOp : OpKind → Bool
  | .ttir => true
  | _ => false

def isTTSchedulableOp (kind : OpKind) : Bool := isTTNNSchedulableOp kind || isTTIRSchedulableOp kind

namespace FuncOp
variable (func : FuncOp)

def isSchedulable (op : Nat) : Bool := func.ops[op]?.any fun operation => isTTSchedulableOp operation.kind

def operandsOf (op : Nat) : List Nat := (func.ops[op]?.map Operation.operands).getD []

def opsWithinFuncOp : List Nat := (List.range func.ops.length).filter func.isSchedulable

/-- One entry for every use that a schedulable op makes of a schedulable op. -/
def dependencies (use : Nat) : List Nat :=
  if func.isSchedulable use then
    func.opsWithinFuncOp.flatMap fun op => (func.operandsOf use).filter fun definition => definition == op && use != op
  else []

def Uses (definition use : Nat) : Prop := definition ∈ func.operandsOf use

/-- Through any chain of operands. -/
def Depends : Nat → Nat → Prop := Relation.TransGen func.Uses

/-- Through a chain of schedulable ops only. -/
def Recorded : Nat → Nat → Prop := Relation.TransGen fun definition use => definition ∈ func.dependencies use

end FuncOp

structure Scheduler where
  scheduledOpsMap : Finset Nat
  schedule : List Nat

namespace Scheduler
variable (func : FuncOp) (scheduler : Scheduler)

def start : Scheduler := ⟨∅, []⟩

def canSchedule (op : Nat) : Bool := (func.dependencies op).all fun dep => decide (dep ∈ scheduler.scheduledOpsMap)

/-- Some op that uses this one waits for another op as well. -/
def hasBlockedSuccessor (op : Nat) : Bool :=
  func.opsWithinFuncOp.any fun succ =>
    succ != op && (func.dependencies succ).contains op &&
      (func.dependencies succ).any fun dep => dep != op && !decide (dep ∈ scheduler.scheduledOpsMap)

/-- Ops with a blocked successor first, otherwise in body order. -/
def getSchedulableOps : List Nat :=
  let schedulableOps := func.opsWithinFuncOp.filter fun op =>
    !decide (op ∈ scheduler.scheduledOpsMap) && scheduler.canSchedule func op
  if schedulableOps.length ≤ 1 then schedulableOps
  else
    schedulableOps.insertionSort fun a b =>
      scheduler.hasBlockedSuccessor func a = true ∨ scheduler.hasBlockedSuccessor func b = false

def scheduleOp (op : Nat) : Scheduler :=
  { scheduledOpsMap := insert op scheduler.scheduledOpsMap
    schedule := scheduler.schedule ++ [op] }

def hasUnscheduledOps : Bool := decide (scheduler.scheduledOpsMap.card < func.opsWithinFuncOp.length)

/-- Any of the offered ops, again and again. -/
inductive Reachable : Scheduler → Prop
  | start : Reachable start
  | choose {scheduler : Scheduler} {op : Nat} : Reachable scheduler → op ∈ scheduler.getSchedulableOps func →
      Reachable (scheduler.scheduleOp op)

end Scheduler

open Scheduler

section Body
variable (func : FuncOp)

theorem mem_opsWithinFuncOp (op : Nat) : op ∈ func.opsWithinFuncOp ↔ func.isSchedulable op = true := by
  simp only [FuncOp.opsWithinFuncOp, List.mem_filter, List.mem_range, and_iff_right_iff_imp]
  intro schedulable
  by_contra outside
  rw [FuncOp.isSchedulable, List.getElem?_eq_none (by omega)] at schedulable
  cases schedulable

theorem opsWithinFuncOp_sorted : func.opsWithinFuncOp.Pairwise (· < ·) :=
  List.pairwise_lt_range.filter _

theorem opsWithinFuncOp_nodup : func.opsWithinFuncOp.Nodup :=
  (opsWithinFuncOp_sorted func).imp fun before => ne_of_lt before

theorem uses_before {definition use : Nat} (uses : func.Uses definition use) : definition < use := by
  unfold FuncOp.Uses FuncOp.operandsOf at uses
  by_cases inside : use < func.ops.length
  · rw [List.getElem?_eq_getElem inside] at uses
    exact func.dominated use inside definition uses
  · rw [List.getElem?_eq_none (by omega)] at uses
    cases uses

theorem mem_dependencies (definition use : Nat) :
    definition ∈ func.dependencies use ↔
      func.isSchedulable definition = true ∧ func.isSchedulable use = true ∧ func.Uses definition use := by
  unfold FuncOp.dependencies
  split
  · rename_i schedulable
    simp only [List.mem_flatMap, mem_opsWithinFuncOp, List.mem_filter, Bool.and_eq_true, beq_iff_eq, bne_iff_ne,
      schedulable, true_and]
    constructor
    · rintro ⟨op, isSchedulable, uses, rfl, _⟩
      exact ⟨isSchedulable, uses⟩
    · rintro ⟨isSchedulable, uses⟩
      exact ⟨definition, isSchedulable, uses, rfl, (ne_of_lt (uses_before func uses)).symm⟩
  · rename_i other
    simp [other]

theorem dependency_before {definition use : Nat} (dependency : definition ∈ func.dependencies use) : definition < use :=
  uses_before func ((mem_dependencies func definition use).mp dependency).2.2

end Body

section Offer
variable (func : FuncOp) (scheduler : Scheduler)

theorem canSchedule_iff (op : Nat) :
    scheduler.canSchedule func op = true ↔ ∀ dep ∈ func.dependencies op, dep ∈ scheduler.scheduledOpsMap := by
  simp [canSchedule]

theorem mem_getSchedulableOps (op : Nat) :
    op ∈ scheduler.getSchedulableOps func ↔
      func.isSchedulable op = true ∧ op ∉ scheduler.scheduledOpsMap ∧
        ∀ dep ∈ func.dependencies op, dep ∈ scheduler.scheduledOpsMap := by
  unfold getSchedulableOps
  dsimp only
  split
  · simp [mem_opsWithinFuncOp, canSchedule_iff]
  · simp [mem_opsWithinFuncOp, canSchedule_iff]

end Offer

def Ordered (func : FuncOp) (schedule : List Nat) : Prop :=
  schedule.Pairwise fun early late => late ∉ func.dependencies early

/-- What holds of the scheduler after any choices. -/
structure Invariant (func : FuncOp) (scheduler : Scheduler) : Prop where
  scheduled : scheduler.scheduledOpsMap = scheduler.schedule.toFinset
  nodup : scheduler.schedule.Nodup
  schedulable : ∀ op ∈ scheduler.schedule, func.isSchedulable op = true
  closed : ∀ op ∈ scheduler.schedule, ∀ dep ∈ func.dependencies op, dep ∈ scheduler.schedule
  ordered : Ordered func scheduler.schedule

theorem start_invariant (func : FuncOp) : Invariant func start where
  scheduled := rfl
  nodup := List.nodup_nil
  schedulable := by simp [start]
  closed := by simp [start]
  ordered := List.Pairwise.nil

theorem Invariant.mem {func : FuncOp} {scheduler : Scheduler} (invariant : Invariant func scheduler) (op : Nat) :
    op ∈ scheduler.scheduledOpsMap ↔ op ∈ scheduler.schedule := by
  rw [invariant.scheduled, List.mem_toFinset]

theorem Invariant.scheduleOp {func : FuncOp} {scheduler : Scheduler} (invariant : Invariant func scheduler) {op : Nat}
    (offered : op ∈ scheduler.getSchedulableOps func) : Invariant func (scheduler.scheduleOp op) := by
  obtain ⟨schedulable, fresh, ready⟩ := (mem_getSchedulableOps func scheduler op).mp offered
  have new : op ∉ scheduler.schedule := (invariant.mem op).not.mp fresh
  exact {
    scheduled := by
      ext other
      simp [Scheduler.scheduleOp, invariant.mem]
    nodup := List.nodup_append.mpr ⟨invariant.nodup, List.nodup_singleton op, by
      intro earlier member other last
      rw [List.mem_singleton.mp last]
      exact fun same => new (same ▸ member)⟩
    schedulable := by
      intro other member
      rcases List.mem_append.mp member with earlier | last
      · exact invariant.schedulable other earlier
      · rw [List.mem_singleton.mp last]
        exact schedulable
    closed := by
      intro other member dep dependency
      rcases List.mem_append.mp member with earlier | last
      · exact List.mem_append_left _ (invariant.closed other earlier dep dependency)
      · rw [List.mem_singleton.mp last] at dependency
        exact List.mem_append_left _ ((invariant.mem dep).mp (ready dep dependency))
    ordered := by
      refine List.pairwise_append.mpr ⟨invariant.ordered, List.pairwise_singleton _ _, ?_⟩
      intro earlier member other last waits
      -- an op scheduled earlier had all it waits for
      rw [List.mem_singleton.mp last] at waits
      exact new (invariant.closed earlier member op waits) }

theorem reachable_invariant {func : FuncOp} {scheduler : Scheduler} (reachable : Reachable func scheduler) :
    Invariant func scheduler := by
  induction reachable with
  | start => exact start_invariant func
  | choose _ offered ih => exact ih.scheduleOp offered

theorem offers_first (func : FuncOp) (scheduler : Scheduler)
    (unscheduled : scheduler.hasUnscheduledOps func = true) : scheduler.getSchedulableOps func ≠ [] := by
  have missing : ∃ op, func.isSchedulable op = true ∧ op ∉ scheduler.scheduledOpsMap := by
    by_contra none
    push Not at none
    have inside : func.opsWithinFuncOp.toFinset ⊆ scheduler.scheduledOpsMap := by
      intro op member
      exact none op ((mem_opsWithinFuncOp func op).mp (List.mem_toFinset.mp member))
    have counted := Finset.card_le_card inside
    rw [List.toFinset_card_of_nodup (opsWithinFuncOp_nodup func)] at counted
    have fewer := of_decide_eq_true unscheduled
    omega
  let first := Nat.find missing
  obtain ⟨schedulable, fresh⟩ := Nat.find_spec missing
  refine List.ne_nil_of_mem (a := first) ((mem_getSchedulableOps func scheduler first).mpr
    ⟨schedulable, fresh, fun dep dependency => ?_⟩)
  by_contra waiting
  have known := (mem_dependencies func dep first).mp dependency
  exact Nat.find_min missing (dependency_before func dependency) ⟨known.1, waiting⟩

theorem Invariant.perm {func : FuncOp} {scheduler : Scheduler} (invariant : Invariant func scheduler)
    (done : scheduler.hasUnscheduledOps func = false) : scheduler.schedule.Perm func.opsWithinFuncOp := by
  have enough := of_decide_eq_false done
  rw [invariant.scheduled, List.toFinset_card_of_nodup invariant.nodup] at enough
  have inside : scheduler.schedule ⊆ func.opsWithinFuncOp := fun op member =>
    (mem_opsWithinFuncOp func op).mpr (invariant.schedulable op member)
  exact (invariant.nodup.subperm inside).perm_of_length_le (by omega)

section Order
variable {func : FuncOp} {schedule : List Nat} (ordered : Ordered func schedule)
  (closed : ∀ op ∈ schedule, ∀ dep ∈ func.dependencies op, dep ∈ schedule)
include ordered closed

theorem dependency_first {definition use : Nat} (member : use ∈ schedule)
    (dependency : definition ∈ func.dependencies use) : schedule.idxOf definition < schedule.idxOf use := by
  have known := closed use member definition dependency
  by_contra late
  rcases lt_or_eq_of_le (not_lt.mp late) with before | same
  · have waits := List.pairwise_iff_getElem.mp ordered _ _ (List.idxOf_lt_length_of_mem member)
      (List.idxOf_lt_length_of_mem known) before
    rw [List.getElem_idxOf, List.getElem_idxOf] at waits
    exact waits dependency
  · have equal := (List.idxOf_inj member).mp same
    exact absurd (dependency_before func dependency) (by omega)

theorem recorded_first {definition use : Nat} (recorded : func.Recorded definition use) (member : use ∈ schedule) :
    schedule.idxOf definition < schedule.idxOf use := by
  induction recorded with
  | single dependency => exact dependency_first ordered closed member dependency
  | tail _ dependency ih =>
      have known := closed _ member _ dependency
      exact lt_trans (ih known) (dependency_first ordered closed member dependency)

end Order

/-- Any ordered list of ops that are not scheduled, with all that they wait for, can be
chosen in turn. -/
theorem reachable_of_ordered (func : FuncOp) (rest : List Nat) (scheduler : Scheduler)
    (reachable : Reachable func scheduler) (nodup : rest.Nodup) (ordered : Ordered func rest)
    (schedulable : ∀ op ∈ rest, func.isSchedulable op = true) (fresh : ∀ op ∈ rest, op ∉ scheduler.schedule)
    (closed : ∀ op ∈ rest, ∀ dep ∈ func.dependencies op, dep ∈ scheduler.schedule ∨ dep ∈ rest) :
    ∃ final, Reachable func final ∧ final.schedule = scheduler.schedule ++ rest := by
  induction rest generalizing scheduler with
  | nil => exact ⟨scheduler, reachable, (List.append_nil _).symm⟩
  | cons op rest ih =>
      have invariant := reachable_invariant reachable
      obtain ⟨notLater, nodupRest⟩ := List.nodup_cons.mp nodup
      obtain ⟨waitsFor, orderedRest⟩ := List.pairwise_cons.mp ordered
      have offered : op ∈ scheduler.getSchedulableOps func := by
        refine (mem_getSchedulableOps func scheduler op).mpr ⟨schedulable op (List.mem_cons_self ..), ?_, ?_⟩
        · exact (invariant.mem op).not.mpr (fresh op (List.mem_cons_self ..))
        · intro dep dependency
          rw [invariant.mem]
          rcases closed op (List.mem_cons_self ..) dep dependency with known | later
          · exact known
          · rcases List.mem_cons.mp later with same | later
            · exact absurd (dependency_before func dependency) (by omega)
            · exact absurd dependency (waitsFor dep later)
      obtain ⟨final, reached, schedule⟩ :=
        ih (scheduler.scheduleOp op) (.choose reachable offered) nodupRest orderedRest
        (fun other member => schedulable other (List.mem_cons_of_mem _ member))
        (by
          intro other member scheduled
          rcases List.mem_append.mp scheduled with earlier | last
          · exact fresh other (List.mem_cons_of_mem _ member) earlier
          · exact notLater (List.mem_singleton.mp last ▸ member))
        (by
          intro other member dep dependency
          rcases closed other (List.mem_cons_of_mem _ member) dep dependency with known | later
          · exact Or.inl (List.mem_append_left _ known)
          · rcases List.mem_cons.mp later with rfl | later
            · exact Or.inl (List.mem_append_right _ (List.mem_singleton_self dep))
            · exact Or.inr later)
      exact ⟨final, reached, by rw [schedule, Scheduler.scheduleOp, List.append_assoc, List.singleton_append]⟩

theorem reachable_reversed (func : FuncOp) {definition use : Nat} (known : func.isSchedulable definition = true)
    (schedulable : func.isSchedulable use = true) (differs : definition ≠ use)
    (unrecorded : ¬ func.Recorded definition use) :
    ∃ final, Reachable func final ∧ final.hasUnscheduledOps func = false ∧
      final.schedule.idxOf use < final.schedule.idxOf definition := by
  classical
  -- the op and all that recorded chains lead from, then everything else
  let needed := func.opsWithinFuncOp.filter fun op => decide (op = use ∨ func.Recorded op use)
  let others := func.opsWithinFuncOp.filter fun op => decide ¬(op = use ∨ func.Recorded op use)
  have sorted (keep : Nat → Bool) : Ordered func (func.opsWithinFuncOp.filter keep) :=
    ((opsWithinFuncOp_sorted func).filter keep).imp fun before dependency =>
      absurd (dependency_before func dependency) (by omega)
  have mem_order (op : Nat) : op ∈ needed ++ others ↔ func.isSchedulable op = true := by
    simp only [needed, others, List.mem_append, List.mem_filter, mem_opsWithinFuncOp, decide_eq_true_eq]
    tauto
  have apart : ∀ op ∈ needed, ∀ other ∈ others, op ≠ other := by
    intro op inNeeded other inOthers same
    simp only [needed, others, List.mem_filter, decide_eq_true_eq] at inNeeded inOthers
    exact inOthers.2 (same ▸ inNeeded.2)
  have nodup : (needed ++ others).Nodup := List.nodup_append.mpr
    ⟨(opsWithinFuncOp_nodup func).filter _, (opsWithinFuncOp_nodup func).filter _, apart⟩
  have ordered : Ordered func (needed ++ others) := by
    refine List.pairwise_append.mpr ⟨sorted _, sorted _, fun op inNeeded other inOthers dependency => ?_⟩
    simp only [needed, others, List.mem_filter, decide_eq_true_eq] at inNeeded inOthers
    apply inOthers.2
    rcases inNeeded.2 with same | recorded
    · exact Or.inr (.single (same ▸ dependency))
    · exact Or.inr (.head dependency recorded)
  obtain ⟨final, reached, schedule⟩ := reachable_of_ordered func (needed ++ others) start .start nodup ordered
    (fun op member => (mem_order op).mp member) (by simp [start])
    (fun op _ dep dependency => Or.inr ((mem_order dep).mpr ((mem_dependencies func dep op).mp dependency).1))
  rw [start, List.nil_append] at schedule
  have inNeeded : use ∈ needed := by simp [needed, mem_opsWithinFuncOp, schedulable]
  have inOthers : definition ∈ others := by simp [others, mem_opsWithinFuncOp, known, differs, unrecorded]
  refine ⟨final, reached, ?_, ?_⟩
  · have invariant := reachable_invariant reached
    have counted : final.schedule.length = func.opsWithinFuncOp.length := by
      have same : final.schedule.Perm func.opsWithinFuncOp :=
        (List.perm_ext_iff_of_nodup (schedule ▸ nodup) (opsWithinFuncOp_nodup func)).mpr fun op => by
          rw [schedule, mem_order, mem_opsWithinFuncOp]
      exact same.length_eq
    refine decide_eq_false ?_
    rw [invariant.scheduled, List.toFinset_card_of_nodup invariant.nodup]
    omega
  · rw [schedule, List.idxOf_append_of_mem inNeeded,
      List.idxOf_append_of_notMem fun member => apart definition member definition inOthers rfl]
    have := List.idxOf_lt_length_of_mem inNeeded
    omega

/-- Offers until nothing is left, and then an order of all schedulable ops in which each
comes after those it depends on. -/
def Serves (func : FuncOp) (scheduler : Scheduler) : Prop :=
  (scheduler.hasUnscheduledOps func = true →
    scheduler.getSchedulableOps func ≠ [] ∧ ∀ op ∈ scheduler.getSchedulableOps func, op ∉ scheduler.schedule) ∧
  (scheduler.hasUnscheduledOps func = false →
    scheduler.schedule.Perm func.opsWithinFuncOp ∧
      ∀ definition use, func.isSchedulable definition = true → func.isSchedulable use = true →
        func.Depends definition use → scheduler.schedule.idxOf definition < scheduler.schedule.idxOf use)

/-- Whatever is chosen, the scheduler serves the body exactly when every dependence of a
schedulable op on another one is recorded. -/
theorem schedules_iff (func : FuncOp) :
    (∀ scheduler, Reachable func scheduler → Serves func scheduler) ↔
      ∀ definition use, func.isSchedulable definition = true → func.isSchedulable use = true →
        func.Depends definition use → func.Recorded definition use := by
  constructor
  · intro serves definition use known schedulable depends
    by_contra unrecorded
    have before : definition < use := by
      clear known schedulable unrecorded
      induction depends with
      | single uses => exact uses_before func uses
      | tail _ uses ih => exact lt_trans ih (uses_before func uses)
    obtain ⟨final, reached, done, reversed⟩ :=
      reachable_reversed func known schedulable (ne_of_lt before) unrecorded
    have forwards := ((serves final reached).2 done).2 definition use known schedulable depends
    omega
  · intro recorded scheduler reachable
    have invariant := reachable_invariant reachable
    constructor
    · intro unscheduled
      refine ⟨offers_first func scheduler unscheduled, fun op offered => ?_⟩
      exact (invariant.mem op).not.mp ((mem_getSchedulableOps func scheduler op).mp offered).2.1
    · intro done
      have all := invariant.perm done
      refine ⟨all, fun definition use known schedulable depends => ?_⟩
      have member : use ∈ scheduler.schedule := all.mem_iff.mpr ((mem_opsWithinFuncOp func use).mpr schedulable)
      exact recorded_first invariant.ordered invariant.closed
        (recorded definition use known schedulable depends) member

def throughTuple : FuncOp where
  ops := [⟨.ttnn, []⟩, ⟨.other, [0]⟩, ⟨.ttnn, [1]⟩]
  dominated := by decide

/-- Both ops are offered at once, and the one that uses the tuple may go first. -/
theorem tuple_reversed :
    ∃ final, Reachable throughTuple final ∧ final.hasUnscheduledOps throughTuple = false ∧
      throughTuple.Depends 0 2 ∧ final.schedule = [2, 0] ∧ ¬ Serves throughTuple final := by
  have first : Reachable throughTuple (start.scheduleOp 2) := .choose .start (by decide)
  have both : Reachable throughTuple ((start.scheduleOp 2).scheduleOp 0) := .choose first (by decide)
  have depends : throughTuple.Depends 0 2 :=
    .tail (.single (show (0 : Nat) ∈ throughTuple.operandsOf 1 by decide))
      (show (1 : Nat) ∈ throughTuple.operandsOf 2 by decide)
  refine ⟨_, both, by decide, depends, rfl, fun serves => ?_⟩
  have forwards := (serves.2 (by decide)).2 0 2 (by decide) (by decide) depends
  exact absurd forwards (by decide)

end TtMlir.Schedule
