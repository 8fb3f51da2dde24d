import TtMlir.D2m.OpSchedulerBlock
import TtMlir.D2m.OpSchedulerWeights

/-!
What a block computes, before and after its ops are reordered. Where definitions stay
before uses, each op computes what it did, since no load moves across a store.
-/

namespace TtMlir.D2m.OpScheduler

section Machine
variable {Value Memory : Type}

structure Meaning (Value Memory : Type) where
  result : Op → Memory → List Value → Value
  store : Op → Memory → List Value → Memory

structure Machine (Value Memory : Type) where
  memory : Memory
  values : Nat → Value
  stored : List (Op × List Value)

def Machine.assign (machine : Machine Value Memory) (result : Nat) (value : Value) : Machine Value Memory :=
  { machine with values := Function.update machine.values result value }

def execute (meaning : Meaning Value Memory) (machine : Machine Value Memory) (op : Op) : Machine Value Memory :=
  let operands := op.operands.map machine.values
  if op.kind = .store then
    { machine with memory := meaning.store op machine.memory operands, stored := machine.stored ++ [(op, operands)] }
  else machine.assign op.result (meaning.result op machine.memory operands)

def run (meaning : Meaning Value Memory) (ops : List Op) (machine : Machine Value Memory) : Machine Value Memory :=
  ops.foldl (execute meaning) machine

variable (meaning : Meaning Value Memory) {ops others : List Op}

theorem run_append (ops others : List Op) (machine : Machine Value Memory) :
    run meaning (ops ++ others) machine = run meaning others (run meaning ops machine) := List.foldl_append

theorem run_frame (pure : ∀ op ∈ ops, op.kind ≠ .store) (machine : Machine Value Memory) :
    (run meaning ops machine).memory = machine.memory ∧ (run meaning ops machine).stored = machine.stored := by
  induction ops generalizing machine with
  | nil => exact ⟨rfl, rfl⟩
  | cons op ops ih =>
      have step : execute meaning machine op =
          machine.assign op.result (meaning.result op machine.memory (op.operands.map machine.values)) :=
        if_neg (pure op List.mem_cons_self)
      have later := ih (fun other member => pure other (List.mem_cons_of_mem _ member)) (execute meaning machine op)
      rw [step] at later
      rw [run, List.foldl_cons, step]
      exact later

theorem run_values_other (machine : Machine Value Memory) {value : Nat} (other : ∀ op ∈ ops, op.result ≠ value) :
    (run meaning ops machine).values value = machine.values value := by
  induction ops generalizing machine with
  | nil => rfl
  | cons op ops ih =>
      have here : (execute meaning machine op).values value = machine.values value := by
        unfold execute
        split
        · rfl
        · exact Function.update_of_ne (other op List.mem_cons_self).symm _ _
      rw [run, List.foldl_cons, ← here]
      exact ih _ fun op member => other op (List.mem_cons_of_mem _ member)

theorem run_values_own (pure : ∀ op ∈ ops, op.kind ≠ .store) (distinct : (ops.map Op.result).Nodup)
    (defined : DefsFirst ops) (machine : Machine Value Memory) {op : Op} (member : op ∈ ops) :
    (run meaning ops machine).values op.result =
      meaning.result op machine.memory (op.operands.map (run meaning ops machine).values) := by
  obtain ⟨front, back, rfl⟩ := List.append_of_mem member
  have frontPure : ∀ op ∈ front, op.kind ≠ .store := fun op inside => pure op (List.mem_append_left _ inside)
  have split : run meaning (front ++ op :: back) machine =
      run meaning back (execute meaning (run meaning front machine) op) := by
    rw [run, List.foldl_append, List.foldl_cons]
    rfl
  have noLater : ∀ later ∈ back, later.result ≠ op.result := by
    rw [List.map_append, List.map_cons] at distinct
    have apart := (List.nodup_cons.mp (List.nodup_append.mp distinct).2.1).1
    exact fun later inside same => apart (same ▸ List.mem_map_of_mem inside)
  have operands : op.operands.map (run meaning (front ++ op :: back) machine).values =
      op.operands.map (run meaning front machine).values := by
    apply List.map_congr_left
    intro operand used
    rw [run, List.foldl_append]
    refine run_values_other meaning _ fun later inside same => ?_
    have early := defined front op back rfl operand used later (List.mem_append_right _ inside) same
    rw [List.map_append] at distinct
    exact (List.nodup_append.mp distinct).2.2 _ (List.mem_map_of_mem early) _ (List.mem_map_of_mem inside) rfl
  rw [operands, split, run_values_other meaning _ noLater]
  have step : execute meaning (run meaning front machine) op = _ := if_neg (pure op member)
  rw [step, (run_frame meaning frontPure machine).1]
  exact Function.update_self _ _ _

theorem run_perm (perm : ops.Perm others) (pure : ∀ op ∈ ops, op.kind ≠ .store) (distinct : (ops.map Op.result).Nodup)
    (defined : DefsFirst ops) (otherDefined : DefsFirst others) (machine : Machine Value Memory) :
    run meaning ops machine = run meaning others machine := by
  have otherPure : ∀ op ∈ others, op.kind ≠ .store := fun op member => pure op (perm.mem_iff.mpr member)
  have otherDistinct : (others.map Op.result).Nodup := (perm.map _).nodup_iff.mp distinct
  have foreign : ∀ value, (∀ op ∈ ops, op.result ≠ value) →
      (run meaning ops machine).values value = (run meaning others machine).values value := by
    intro value other
    rw [run_values_other meaning machine other,
      run_values_other meaning machine fun op member => other op (perm.mem_iff.mpr member)]
  have agree : ∀ front back, ops = front ++ back → ∀ op ∈ front,
      (run meaning ops machine).values op.result = (run meaning others machine).values op.result := by
    intro front
    induction front using List.reverseRecOn with
    | nil => exact fun _ _ op member => absurd member List.not_mem_nil
    | append_singleton front last ih =>
        intro back split op member
        have whole : ops = front ++ last :: back := by rw [split]; simp
        rcases List.mem_append.mp member with early | same
        · exact ih (last :: back) whole op early
        rw [List.mem_singleton.mp same]
        have own : last ∈ ops := whole ▸ List.mem_append_right _ List.mem_cons_self
        rw [run_values_own meaning pure distinct defined machine own,
          run_values_own meaning otherPure otherDistinct otherDefined machine (perm.mem_iff.mp own)]
        congr 1
        apply List.map_congr_left
        intro operand used
        by_cases inside : ∃ definer ∈ ops, definer.result = operand
        · obtain ⟨definer, here, rfl⟩ := inside
          exact ih (last :: back) whole definer (defined front last back whole _ used definer here rfl)
        · exact foreign operand fun op here same => inside ⟨op, here, same⟩
  have values : (run meaning ops machine).values = (run meaning others machine).values := by
    funext value
    by_cases inside : ∃ definer ∈ ops, definer.result = value
    · obtain ⟨definer, here, rfl⟩ := inside
      exact agree ops [] (List.append_nil _).symm definer here
    · exact foreign value fun op here same => inside ⟨op, here, same⟩
  obtain ⟨memory, stored⟩ := run_frame meaning pure machine
  obtain ⟨otherMemory, otherStored⟩ := run_frame meaning otherPure machine
  cases one : run meaning ops machine
  cases two : run meaning others machine
  simp_all

theorem DefsFirst.append_left {front back : List Op} (defined : DefsFirst (front ++ back)) : DefsFirst front := by
  rintro before op after rfl operand used definer member same
  exact defined before op (after ++ back) (by simp) operand used definer (List.mem_append_left _ member) same

theorem run_reorder {block : ExpressionBlock} {sort : Sorting}
    (defined : DefsFirst (reorderOperationsSethiUllman sort block.ops)) (machine : Machine Value Memory) :
    run meaning (reorderOperationsSethiUllman sort block.ops) machine = run meaning block.ops machine := by
  cases built : buildOpTree block.ops with
  | none => rw [reorderOperationsSethiUllman, built]
  | some root =>
      rw [reorder_eq sort block.nodup built] at defined ⊢
      let computed := block.ops.takeWhile (·.kind ≠ .store)
      let rest := block.ops.dropWhile (·.kind ≠ .store)
      have split : block.ops = computed ++ rest := List.takeWhile_append_dropWhile.symm
      have visited : ∀ op ∈ sort.visits root, op ∈ computed := by
        intro op member
        obtain ⟨node, here, rfl⟩ := OpTreeNode.mem_ops_iff.mp (sort.mem_visits.mp member)
        exact List.mem_reverse.mp (block.mem_computed built node here)
      have nodup := block.nodup
      rw [split] at nodup
      have kept : rest.filter (· ∉ sort.visits root) = rest := by
        rw [List.filter_eq_self]
        exact fun op late => decide_eq_true fun early =>
          (List.nodup_append.mp nodup).2.2 op (visited op early) op late rfl
      have moved : (sort.visits root).dedup ++ block.ops.filter (· ∉ sort.visits root) =
          ((sort.visits root).dedup ++ computed.filter (· ∉ sort.visits root)) ++ rest := by
        conv_lhs => rw [split, List.filter_append, kept]
        rw [List.append_assoc]
      have perm : ((sort.visits root).dedup ++ computed.filter (· ∉ sort.visits root)).Perm computed := by
        have whole : ((sort.visits root).dedup ++ block.ops.filter (· ∉ sort.visits root)).Perm block.ops :=
          reordered_perm (block.unfolds built)
        rw [moved] at whole
        nth_rewrite 1 [split] at whole
        exact (List.perm_append_right_iff rest).mp whole
      have blockDefined := block.defined
      rw [split] at blockDefined
      rw [moved] at defined ⊢
      have pure : ∀ op ∈ computed, op.kind ≠ .store := fun op member =>
        (block.mem_of_computed (List.mem_reverse.mpr member)).2
      have distinct : (computed.map Op.result).Nodup := block.distinct.sublist ((List.takeWhile_sublist _).map _)
      have same := run_perm meaning perm.symm pure distinct blockDefined.append_left defined.append_left machine
      calc run meaning ((sort.visits root).dedup ++ computed.filter (· ∉ sort.visits root) ++ rest) machine
          = run meaning rest (run meaning computed machine) := by rw [run_append, same]
        _ = run meaning block.ops machine := by rw [split, run_append]

end Machine

/-- No op is lost, definitions come before uses, the stores get the same values, and on a tree the
weights are the least numbers of values held at once. -/
structure Reorders (sort : Sorting) (block : ExpressionBlock) : Prop where
  perm : (reorderOperationsSethiUllman sort block.ops).Perm block.ops
  defined : DefsFirst (reorderOperationsSethiUllman sort block.ops)
  stores : ∀ (Value Memory : Type) (meaning : Meaning Value Memory) (machine : Machine Value Memory),
    (run meaning (reorderOperationsSethiUllman sort block.ops) machine).stored = (run meaning block.ops machine).stored
  least : ∀ root, buildOpTree block.ops = some root → root.ops.Nodup → ∀ node ∈ root.nodes,
    IsLeast {count | ∃ order, Evaluates node order ∧ HeldWithin node order count} node.weight

/-- The pass keeps its promise exactly where the children of each node share their ops in order. -/
theorem reorders_iff (sort : Sorting) (block : ExpressionBlock) :
    Reorders sort block ↔ ∀ root, buildOpTree block.ops = some root → SharesInOrder sort root := by
  rw [← defsFirst_reorder_iff]
  constructor
  · exact fun reorders => reorders.defined
  · intro defined
    refine ⟨reorder_perm block sort, defined, fun _ _ meaning machine => ?_, fun root _ distinct node member => ?_⟩
    · rw [run_reorder meaning defined]
    · exact weight_least sort (distinct.sublist (ops_sublist member))

def stableSort : Sorting where
  order weights := (List.range weights.length).insertionSort fun one other => weights.getD one 0 ≥ weights.getD other 0
  perm _ := List.perm_insertionSort _ _
  sorted weights := by
    rw [List.pairwise_map]
    have total : Std.Total fun one other => weights.getD one 0 ≥ weights.getD other 0 := ⟨fun _ _ => Nat.le_total _ _⟩
    have trans : IsTrans Nat fun one other => weights.getD one 0 ≥ weights.getD other 0 :=
      ⟨fun _ _ _ first second => second.trans first⟩
    exact List.pairwise_insertionSort _ _

theorem defsFirst_of_take {ops : List Op}
    (known : ∀ position < ops.length, ∀ op ∈ ops[position]?, ∀ operand ∈ op.operands, ∀ definer ∈ ops,
      definer.result = operand → definer ∈ ops.take position) : DefsFirst ops := by
  rintro front op back rfl
  simpa using known front.length (by simp) op (by simp)

def scaledSum : ExpressionBlock where
  ops := [⟨0, .load, []⟩, ⟨1, .load, []⟩, ⟨2, .compute, [0, 1]⟩, ⟨3, .compute, [0, 2]⟩, ⟨4, .store, [3]⟩]
  distinct := by decide
  defined := defsFirst_of_take (by decide)
  arity := by decide
  loads := by decide
  values := by decide
  stored := by decide

/-- The first load moves again for the product, behind the sum that uses it. -/
theorem scaledSum_used_before : ¬ Reorders stableSort scaledSum := by
  intro reorders
  have order : reorderOperationsSethiUllman stableSort scaledSum.ops =
      [⟨1, .load, []⟩] ++ ⟨2, .compute, [0, 1]⟩ ::
        [⟨0, .load, []⟩, ⟨3, .compute, [0, 2]⟩, ⟨4, .store, [3]⟩] := by decide
  have early := reorders.defined _ _ _ order 0 (by decide) ⟨0, .load, []⟩ (by rw [order]; decide) rfl
  exact absurd early (by decide)

end TtMlir.D2m.OpScheduler
