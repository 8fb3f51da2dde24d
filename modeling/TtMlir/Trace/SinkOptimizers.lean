import Mathlib.Data.List.Nodup

/-!
Optimizer steps moved to the end of a block, `sinkAdamWOpsToEnd` in
TTNNTraceHoistTransform.cpp. A step is checked against the later ops that are no steps, as if the
later steps moved too; where one stays, the steps moved from before it pass it.
-/

namespace TtMlir.Trace.SinkOptimizers

variable {Value : Type} [DecidableEq Value]

structure Op (Value : Type) where
  id : Nat
  isAdamW : Bool
  operands : List Value
  deriving DecidableEq, Repr

structure Block (Value : Type) where
  ops : List (Op Value)
  distinct : ops.Nodup

def after (ops : List (Op Value)) (op : Op Value) : List (Op Value) := (ops.dropWhile (· ≠ op)).tail

/-- No later op that is no optimizer step reads one of the operands. -/
def canSink (ops : List (Op Value)) (adamW : Op Value) : Bool :=
  (after ops adamW).all fun later => later.isAdamW || later.operands.all (· ∉ adamW.operands)

def sink (ops : List (Op Value)) (adamW : Op Value) : List (Op Value) :=
  if canSink ops adamW then ops.erase adamW ++ [adamW] else ops

def sinkAdamWOpsToEnd (block : Block Value) : List (Op Value) :=
  (block.ops.filter (·.isAdamW)).foldl sink block.ops

def Before (ops : List (Op Value)) (first second : Op Value) : Prop := [first, second].Sublist ops

def ShareOperand (first second : Op Value) : Prop := ∃ value ∈ first.operands, value ∈ second.operands

/-- Ops with a common operand, one of them an optimizer step, keep their order, and so do the optimizer steps. -/
structure KeepsOrder (block : Block Value) : Prop where
  conflicts : ∀ first second, Before block.ops first second → first.isAdamW ∨ second.isAdamW → ShareOperand first second →
    Before (sinkAdamWOpsToEnd block) first second
  optimizers : (sinkAdamWOpsToEnd block).filter (·.isAdamW) = block.ops.filter (·.isAdamW)

def Sinks (ops : List (Op Value)) (op : Op Value) : Bool := op.isAdamW && canSink ops op

section Lists
variable {ops front back : List (Op Value)} {first second op : Op Value}

theorem after_split (fresh : op ∉ front) : after (front ++ op :: back) op = back := by
  unfold after
  rw [List.dropWhile_append_of_pos]
  · simp
  · intro other member
    simpa using fun same : other = op => fresh (same ▸ member)

theorem canSink_split (fresh : op ∉ front) :
    canSink (front ++ op :: back) op = true ↔
      ∀ later ∈ back, later.isAdamW = false → ∀ value ∈ later.operands, value ∉ op.operands := by
  unfold canSink
  rw [after_split fresh, List.all_eq_true]
  apply forall₂_congr
  intro later _
  cases later.isAdamW with
  | true => simp
  | false => simp

omit [DecidableEq Value] in
theorem before_iff_split : Before ops first second ↔ ∃ front back, ops = front ++ first :: back ∧ second ∈ back := by
  unfold Before
  constructor
  · intro sub
    obtain ⟨upTo, rest, split, member, inner⟩ := List.cons_sublist_iff.mp sub
    obtain ⟨front, back, inside⟩ := List.append_of_mem member
    refine ⟨front, back ++ rest, ?_, ?_⟩
    · rw [split, inside, List.append_assoc, List.cons_append]
    · exact List.mem_append_right _ (List.singleton_sublist.mp inner)
  · rintro ⟨front, back, rfl, member⟩
    exact (List.Sublist.cons_cons first (List.singleton_sublist.mpr member)).trans (List.sublist_append_right _ _)

omit [DecidableEq Value] in
theorem before_append (here : first ∈ front) (later : second ∈ back) : Before (front ++ back) first second :=
  (List.singleton_sublist.mpr here).append (List.singleton_sublist.mpr later)

omit [DecidableEq Value] in
theorem before_asymm (distinct : ops.Nodup) (before : Before ops first second) : ¬ Before ops second first := by
  intro other
  unfold Before at before other
  induction ops with
  | nil => exact nomatch before
  | cons op ops ih =>
      obtain ⟨fresh, later⟩ := List.nodup_cons.mp distinct
      cases before with
      | cons _ inner =>
          cases other with
          | cons _ otherInner => exact ih later inner otherInner
          | cons_cons _ otherInner => exact fresh (inner.subset (by simp))
      | cons_cons _ inner =>
          cases other with
          | cons _ otherInner => exact fresh (otherInner.subset (by simp))
          | cons_cons _ otherInner => exact fresh (List.singleton_sublist.mp inner)

omit [DecidableEq Value] in
theorem filter_last (kind : Op Value → Bool)
    (closed : ∀ first second, Before ops first second → kind first → kind second) :
    ops.filter (fun op => !kind op) ++ ops.filter kind = ops := by
  induction ops with
  | nil => rfl
  | cons op ops ih =>
      have later := ih fun first second before => closed first second (before.cons op)
      cases known : kind op with
      | false =>
          rw [List.filter_cons_of_pos (by simp [known]), List.filter_cons_of_neg (by simp [known]), List.cons_append, later]
      | true =>
          have all : ∀ other ∈ ops, kind other := fun other member =>
            closed op other (List.Sublist.cons_cons op (List.singleton_sublist.mpr member)) known
          rw [List.filter_eq_nil_iff.mpr, List.nil_append, List.filter_eq_self.mpr]
          · exact List.forall_mem_cons.mpr ⟨known, all⟩
          · intro other member
            rcases List.mem_cons.mp member with rfl | inside
            · simp [known]
            · simp [all other inside]

end Lists

section Run
variable {ops done todo : List (Op Value)}

/-- The ops after the steps in `done` have been examined. -/
def examined (ops done : List (Op Value)) : List (Op Value) :=
  ops.filter (fun op => !(decide (op ∈ done) && Sinks ops op)) ++ done.filter (Sinks ops)

theorem sink_examined (distinct : ops.Nodup) {adamW : Op Value}
    (steps : ops.filter (·.isAdamW) = done ++ adamW :: todo) :
    sink (examined ops done) adamW = examined ops (done ++ [adamW]) := by
  have listed : adamW ∈ ops.filter (·.isAdamW) := by simp [steps]
  obtain ⟨member, isStep⟩ := List.mem_filter.mp listed
  have stepsDistinct : (done ++ adamW :: todo).Nodup := by
    rw [← steps]
    exact distinct.filter _
  have notDone : adamW ∉ done := fun inside => (List.nodup_append.mp stepsDistinct).2.2 adamW inside adamW (by simp) rfl
  have doneSteps : ∀ op ∈ done, op.isAdamW := fun op inside => by
    have known : op ∈ ops.filter (·.isAdamW) := by simp [steps, inside]
    exact (List.mem_filter.mp known).2
  obtain ⟨front, back, split⟩ := List.append_of_mem member
  have inner : adamW ∉ front ∧ adamW ∉ back := by
    rw [split] at distinct
    have moved := (List.nodup_cons.mp (List.nodup_middle.mp distinct)).1
    simpa using moved
  -- What remains of the block around the step.
  let keep := fun op => !(decide (op ∈ done) && Sinks ops op)
  have kept : ops.filter keep = front.filter keep ++ adamW :: back.filter keep := by
    rw [split, List.filter_append, List.filter_cons_of_pos (by simp [keep, notDone])]
  have fresh : adamW ∉ front.filter keep := fun inside => inner.1 (List.mem_of_mem_filter inside)
  have whole : examined ops done = front.filter keep ++ adamW :: (back.filter keep ++ done.filter (Sinks ops)) := by
    unfold examined
    rw [kept, List.append_assoc, List.cons_append]
  -- Steps do not count in the check, and no other op has been moved.
  have check : canSink (examined ops done) adamW = canSink ops adamW := by
    rw [Bool.eq_iff_iff, whole, canSink_split fresh, split, canSink_split inner.1]
    constructor
    · intro apart later inside isOther
      apply apart later (List.mem_append_left _ (List.mem_filter.mpr ⟨inside, ?_⟩)) isOther
      have notStep : later ∉ done := fun isDone => absurd (doneSteps later isDone) (by simp [isOther])
      simp [keep, notStep]
    · intro apart later inside isOther
      rcases List.mem_append.mp inside with here | isDone
      · exact apart later (List.mem_of_mem_filter here) isOther
      · exact absurd (doneSteps later (List.mem_of_mem_filter isDone)) (by simp [isOther])
  unfold sink
  rw [check]
  have next (op : Op Value) (other : op ≠ adamW) : (decide (op ∈ done ++ [adamW]) && Sinks ops op) =
      (decide (op ∈ done) && Sinks ops op) := by
    simp [other]
  cases sinks : canSink ops adamW with
  | true =>
      have moved : Sinks ops adamW := by simp [Sinks, isStep, sinks]
      have frontNext : front.filter (fun op => !(decide (op ∈ done ++ [adamW]) && Sinks ops op)) = front.filter keep :=
        List.filter_congr fun op inside => by rw [next op fun same => inner.1 (same ▸ inside)]
      have backNext : back.filter (fun op => !(decide (op ∈ done ++ [adamW]) && Sinks ops op)) = back.filter keep :=
        List.filter_congr fun op inside => by rw [next op fun same => inner.2 (same ▸ inside)]
      have left : ops.filter (fun op => !(decide (op ∈ done ++ [adamW]) && Sinks ops op)) =
          front.filter keep ++ back.filter keep := by
        conv_lhs => arg 2; rw [split]
        rw [List.filter_append, List.filter_cons_of_neg (by simp [moved]), frontNext, backNext]
      rw [if_pos rfl, whole, List.erase_append_right _ fresh, List.erase_cons_head]
      unfold examined
      rw [left, List.filter_append, List.filter_cons_of_pos moved]
      simp
  -- A step that stays is in neither part of what was moved.
  | false =>
      have stays : Sinks ops adamW = false := by simp [Sinks, sinks]
      rw [if_neg (by simp)]
      unfold examined
      rw [List.filter_append, List.filter_cons_of_neg (by simp [stays]), List.filter_nil, List.append_nil]
      congr 1
      apply List.filter_congr
      intro op _
      by_cases same : op = adamW
      · rw [same, stays, Bool.and_false, Bool.and_false]
      · rw [next op same]

theorem foldl_examined (distinct : ops.Nodup) (steps : ops.filter (·.isAdamW) = done ++ todo) :
    todo.foldl sink (examined ops done) = examined ops (ops.filter (·.isAdamW)) := by
  induction todo generalizing done with
  | nil => rw [steps, List.append_nil, List.foldl_nil]
  | cons adamW todo ih =>
      rw [List.foldl_cons, sink_examined distinct steps]
      apply ih
      rw [steps, List.append_assoc]
      rfl

/-- The steps that can be moved stand at the end, in their order, and nothing else moves. -/
theorem sinkAdamWOpsToEnd_eq (block : Block Value) :
    sinkAdamWOpsToEnd block = block.ops.filter (fun op => !Sinks block.ops op) ++ block.ops.filter
      (Sinks block.ops) := by
  have start : examined block.ops [] = block.ops := by simp [examined]
  have run : _ = examined block.ops (block.ops.filter (·.isAdamW)) :=
    foldl_examined block.distinct (List.nil_append _).symm
  rw [start] at run
  unfold sinkAdamWOpsToEnd
  rw [run]
  unfold examined
  rw [List.filter_filter]
  congr 1
  · apply List.filter_congr
    intro op member
    cases isStep : op.isAdamW with
    | true => simp [member, isStep]
    | false => simp [Sinks, isStep]
  · apply List.filter_congr
    intro op _
    cases isStep : op.isAdamW with
    | true => simp
    | false => simp [Sinks, isStep]

/-- Steps keep their order, and conflicts keep theirs, exactly when no step that can be moved stands before one that
cannot. -/
theorem sinkingKeepsOrder_iff (block : Block Value) :
    KeepsOrder block ↔ ∀ first second, Before block.ops first second → first.isAdamW → second.isAdamW →
      canSink block.ops first → canSink block.ops second := by
  have result := sinkAdamWOpsToEnd_eq block
  constructor
  · rintro ⟨_, optimizers⟩ first second before firstStep secondStep firstSinks
    by_contra secondStays
    have inside := before.subset
    have firstMember : first ∈ block.ops := inside (by simp)
    have secondMember : second ∈ block.ops := inside (by simp)
    -- The step that is moved stands behind the one that stays.
    have behind : Before (sinkAdamWOpsToEnd block) second first := by
      rw [result]
      apply before_append
      · exact List.mem_filter.mpr ⟨secondMember, by simp [Sinks, secondStays]⟩
      · exact List.mem_filter.mpr ⟨firstMember, by simp [Sinks, firstStep, firstSinks]⟩
    have steps := behind.filter (·.isAdamW)
    have listed : [second, first].filter (·.isAdamW) = [second, first] := by simp [firstStep, secondStep]
    rw [optimizers, listed] at steps
    exact before_asymm block.distinct before (steps.trans List.filter_sublist)
  · intro closed
    have upward : ∀ first second, Before (block.ops.filter (·.isAdamW)) first second → Sinks block.ops first →
        Sinks block.ops second := by
      intro first second before sinks
      have steps (op : Op Value) (member : op ∈ [first, second]) : op.isAdamW :=
        (List.mem_filter.mp (before.subset member)).2
      have secondStep := steps second (by simp)
      have known := closed first second (before.trans List.filter_sublist) (steps first (by simp)) secondStep
        (by simpa [Sinks, steps first (by simp)] using sinks)
      simp [Sinks, secondStep, known]
    constructor
    · intro first second before someStep shared
      obtain ⟨front, back, split, member⟩ := before_iff_split.mp before
      have inside := before.subset
      have firstMember : first ∈ block.ops := inside (by simp)
      have secondMember : second ∈ block.ops := inside (by simp)
      have fresh : first ∉ front := by
        have distinct := block.distinct
        rw [split] at distinct
        intro here
        exact (List.nodup_append.mp distinct).2.2 first here first (by simp) rfl
      rw [result]
      cases firstSinks : Sinks block.ops first with
      | false =>
          cases secondSinks : Sinks block.ops second with
          | false =>
              have both := before.filter fun op => !Sinks block.ops op
              have listed : [first, second].filter (fun op => !Sinks block.ops op) = [first, second] := by
                simp [firstSinks, secondSinks]
              rw [listed] at both
              exact both.trans (List.sublist_append_left _ _)
          | true =>
              apply before_append
              · exact List.mem_filter.mpr ⟨firstMember, by simp [firstSinks]⟩
              · exact List.mem_filter.mpr ⟨secondMember, secondSinks⟩
      | true =>
          have firstStep : first.isAdamW ∧ canSink block.ops first := by simpa [Sinks] using firstSinks
          cases secondSinks : Sinks block.ops second with
          | false =>
              cases secondStep : second.isAdamW with
              | true =>
                  have known := closed first second before firstStep.1 secondStep firstStep.2
                  simp [Sinks, secondStep, known] at secondSinks
              | false =>
                  -- The check of the first op has found no such op.
                  have free := firstStep.2
                  rw [split, canSink_split fresh] at free
                  obtain ⟨value, reads, alsoReads⟩ := shared
                  exact absurd reads (free second member secondStep value alsoReads)
          | true =>
              have both := before.filter (Sinks block.ops)
              have listed : [first, second].filter (Sinks block.ops) = [first, second] :=
                by simp [firstSinks, secondSinks]
              rw [listed] at both
              exact both.trans (List.sublist_append_right _ _)
    · have last := filter_last (Sinks block.ops) upward
      rw [List.filter_filter, List.filter_filter] at last
      rw [result, List.filter_append, List.filter_filter, List.filter_filter]
      convert last using 2
      · congr 1
        funext op
        exact Bool.and_comm _ _
      · congr 1
        funext op
        exact Bool.and_comm _ _

def stepsAndRead : Block String where
  ops := [⟨0, true, ["param", "m0"]⟩, ⟨1, true, ["param", "m1"]⟩, ⟨2, false, ["m1"]⟩]
  distinct := by decide

/-- The first step is moved behind the second one. -/
theorem stepsAndRead_swapped : (sinkAdamWOpsToEnd stepsAndRead).map (·.id) = [1, 2, 0] ∧ ¬ KeepsOrder stepsAndRead := by
  refine ⟨by decide, fun keeps => ?_⟩
  exact absurd keeps.optimizers (by decide)

end Run

end TtMlir.Trace.SinkOptimizers
