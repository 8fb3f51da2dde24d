import Mathlib.Data.List.TakeWhile
import TtMlir.D2m.OpSchedulerOrder

/-!
The trees that are built from blocks, and the reordered block: which ops it has, when each
comes after its operands, and that it then stores what the block stored.
-/

namespace TtMlir.D2m.OpScheduler

/-- A block of loads, of compute ops that form an expression, and of stores of its values. -/
structure ExpressionBlock where
  ops : List Op
  distinct : (ops.map Op.result).Nodup
  defined : DefsFirst ops
  arity : ∀ op ∈ ops, op.kind = .compute → op.operands.length ≤ 3
  /-- Loads take what the loops around the block give. -/
  loads : ∀ op ∈ ops, op.kind = .load → ∀ operand ∈ op.operands, ∀ definer ∈ ops, definer.result ≠ operand
  /-- Stores have no result to be used. -/
  values : ∀ op ∈ ops, ∀ operand ∈ op.operands, ∀ definer ∈ ops, definer.result = operand → definer.kind ≠ .store
  stored : ∀ op ∈ ops, op.kind = .store → ∃ value ∈ op.operands.head?, ∃ definer ∈ ops, definer.result = value

/-- The nodes of a tree are ops of a block, with the operands from the block as children. -/
structure Unfolds (ops : List Op) (root : OpTreeNode) : Prop where
  consistent : Consistent root
  inside : ∀ node ∈ root.nodes, node.op ∈ ops ∧ node.op.kind ≠ .store
  operands : ∀ node ∈ root.nodes, ∀ definer ∈ ops,
    definer.result ∈ node.op.operands ↔ definer ∈ node.children.map OpTreeNode.op

section Trees

theorem assignChildren_op (op : Op) (children : List OpTreeNode) : (assignChildren op children).op = op := by
  unfold assignChildren
  split <;> rfl

theorem assignChildren_children (op : Op) {children : List OpTreeNode} (few : children.length ≤ 3) :
    (assignChildren op children).children = children := by
  unfold assignChildren
  split
  · rfl
  · rfl
  · rfl
  · rename_i one two three
    match children, few with
    | [], _ => rfl
    | [left], _ => exact absurd rfl (one left)
    | [left, right], _ => exact absurd rfl (two left right)
    | [left, middle, right], _ => exact absurd rfl (three left middle right)

theorem operandTree_op {earlier : List Op} {operand : Nat} {tree : OpTreeNode}
    (built : operandTree earlier operand = some tree) : tree.op ∈ earlier ∧ tree.op.result = operand := by
  induction earlier with
  | nil => exact nomatch built
  | cons first earlier ih =>
      unfold operandTree at built
      split at built
      · rename_i same
        have own : tree.op = first := by
          split at built
          · cases built
            rfl
          · cases built
            exact assignChildren_op first _
        rw [own]
        exact ⟨List.mem_cons_self, same⟩
      · obtain ⟨member, same⟩ := ih built
        exact ⟨List.mem_cons_of_mem _ member, same⟩

theorem operandTree_some {earlier : List Op} {definer : Op} (member : definer ∈ earlier) :
    ∃ tree, operandTree earlier definer.result = some tree := by
  induction earlier with
  | nil => exact absurd member List.not_mem_nil
  | cons first earlier ih =>
      unfold operandTree
      split
      · split
        · exact ⟨_, rfl⟩
        · exact ⟨_, rfl⟩
      · rename_i other
        exact ih ((List.mem_cons.mp member).resolve_left fun same => other (by rw [same]))

theorem operandTree_append (between : List Op) {earlier : List Op} {operand : Nat}
    (others : ∀ op ∈ between, op.result ≠ operand) :
    operandTree (between ++ earlier) operand = operandTree earlier operand := by
  induction between with
  | nil => rfl
  | cons first between ih =>
      rw [List.cons_append, operandTree, if_neg (others first List.mem_cons_self)]
      exact ih fun op member => others op (List.mem_cons_of_mem _ member)

theorem mem_of_assignChildren {op : Op} {children : List OpTreeNode} {child : OpTreeNode}
    (member : child ∈ (assignChildren op children).children) : child ∈ children := by
  unfold assignChildren at member
  split at member
  · exact member
  · exact member
  · exact member
  · exact absurd member List.not_mem_nil

/-- Every node of a tree is the tree of its op, with the trees of the operands as children. -/
theorem operandTree_nodes {all : List Op} (distinct : (all.map Op.result).Nodup)
    (earlierOnly : ∀ later op earlier, all = later ++ op :: earlier → ∀ operand ∈ op.operands,
      ∀ other ∈ later ++ [op], other.result ≠ operand)
    (earlier later : List Op) (split : all = later ++ earlier) {operand : Nat} {tree : OpTreeNode}
    (built : operandTree earlier operand = some tree) :
    ∀ node ∈ tree.nodes, operandTree all node.op.result = some node ∧
      node = if node.op.kind = .load then .leaf node.op
        else assignChildren node.op (node.op.operands.filterMap (operandTree all)) := by
  induction earlier generalizing later operand tree with
  | nil => exact nomatch built
  | cons first earlier ih =>
      have moved : all = later ++ [first] ++ earlier := by rw [split]; simp
      have whole := built
      unfold operandTree at built
      split at built
      · rename_i same
        have firstOther : ∀ op ∈ later, op.result ≠ first.result := by
          intro op member equal
          rw [split, List.map_append, List.map_cons] at distinct
          have apart := (List.nodup_append.mp distinct).2.2
          exact apart op.result (List.mem_map_of_mem member) first.result List.mem_cons_self equal
        have found : operandTree all first.result = some tree := by
          rw [split, operandTree_append later firstOther, same, whole]
        have operands : first.operands.filterMap (operandTree earlier) = first.operands.filterMap (operandTree all) := by
          apply List.filterMap_congr
          intro operand member
          rw [moved, operandTree_append _ (earlierOnly later first earlier split operand member)]
        intro node member
        rcases OpTreeNode.mem_nodes_iff.mp member with rfl | ⟨child, own, inside⟩
        · split at built
          · rename_i load
            cases built
            exact ⟨found, (if_pos load).symm⟩
          · rename_i compute
            cases built
            rw [assignChildren_op]
            exact ⟨found, by rw [if_neg compute, operands]⟩
        · split at built
          · cases built
            exact absurd own List.not_mem_nil
          · cases built
            obtain ⟨input, _, tree⟩ := List.mem_filterMap.mp (mem_of_assignChildren own)
            exact ih (later ++ [first]) moved tree node inside
      · exact ih (later ++ [first]) moved built

end Trees

namespace ExpressionBlock
variable (block : ExpressionBlock)

theorem nodup : block.ops.Nodup := block.distinct.of_map _

theorem eq_of_result {op other : Op} (member : op ∈ block.ops) (otherMember : other ∈ block.ops)
    (same : op.result = other.result) : op = other := List.inj_on_of_nodup_map block.distinct member otherMember same

/-- The ops before the first store, the last one first. -/
def computed : List Op := (block.ops.takeWhile (·.kind ≠ .store)).reverse

theorem mem_of_computed {op : Op} (member : op ∈ block.computed) : op ∈ block.ops ∧ op.kind ≠ .store := by
  have here := List.mem_reverse.mp member
  have holds := List.mem_takeWhile_imp (p := fun op : Op => decide (op.kind ≠ .store)) here
  exact ⟨List.takeWhile_subset _ here, of_decide_eq_true holds⟩

theorem computed_distinct : (block.computed.map Op.result).Nodup := by
  rw [computed, List.map_reverse, List.nodup_reverse]
  exact block.distinct.sublist ((List.takeWhile_sublist _).map _)

theorem computed_earlier {later earlier : List Op} {op : Op} (split : block.computed = later ++ op :: earlier) :
    ∀ operand ∈ op.operands, (∀ other ∈ later ++ [op], other.result ≠ operand) ∧
      ∀ definer ∈ block.ops, definer.result = operand → definer ∈ earlier := by
  have forth : block.ops = earlier.reverse ++ op :: (later.reverse ++ block.ops.dropWhile (·.kind ≠ .store)) := by
    have halves := congrArg List.reverse split
    rw [computed, List.reverse_reverse] at halves
    calc block.ops = block.ops.takeWhile (·.kind ≠ .store) ++ block.ops.dropWhile (·.kind ≠ .store) :=
          List.takeWhile_append_dropWhile.symm
      _ = _ := by rw [halves]; simp
  intro operand member
  have before := block.defined _ _ _ forth operand member
  refine ⟨fun other inside same => ?_, fun definer own same => List.mem_reverse.mp (before definer own same)⟩
  have whole : other ∈ block.ops := by
    rw [forth]
    rcases List.mem_append.mp inside with late | only
    · exact List.mem_append_right _ (List.mem_cons_of_mem _ (List.mem_append_left _ (List.mem_reverse.mpr late)))
    · rw [List.mem_singleton.mp only]
      exact List.mem_append_right _ List.mem_cons_self
  have early := List.mem_reverse.mp (before other whole same)
  have distinct := block.computed_distinct.of_map
  rw [split, List.append_cons] at distinct
  exact (List.nodup_append.mp distinct).2.2 other inside other early rfl

theorem rootTree_eq {earlier later : List Op} (split : block.computed = later ++ earlier) (value : Nat) :
    rootTree earlier value = operandTree earlier value := by
  induction earlier generalizing later with
  | nil => rfl
  | cons op earlier ih =>
      unfold rootTree operandTree
      split
      · split
        · rename_i load
          have member : op ∈ block.computed := split ▸ List.mem_append_right _ List.mem_cons_self
          have none : op.operands.filterMap (operandTree earlier) = [] := by
            rw [List.filterMap_eq_nil_iff]
            intro operand inside
            cases built : operandTree earlier operand with
            | none => rfl
            | some tree =>
                obtain ⟨here, same⟩ := operandTree_op built
                have below : tree.op ∈ block.computed :=
                  split ▸ List.mem_append_right _ (List.mem_cons_of_mem _ here)
                exact absurd same (block.loads op (block.mem_of_computed member).1 load operand inside tree.op
                  (block.mem_of_computed below).1)
          rw [buildOpTreeRecursive, none]
          rfl
        · rfl
      · exact ih (split.trans (List.append_cons later op earlier))

section
variable {root : OpTreeNode} (built : buildOpTree block.ops = some root)
include built

theorem buildOpTree_some :
    ∃ value, operandTree block.computed value = some root := by
  obtain ⟨store, _, rest⟩ := Option.bind_eq_some_iff.mp built
  obtain ⟨value, _, tree⟩ := Option.bind_eq_some_iff.mp rest
  exact ⟨value, (block.rootTree_eq (List.nil_append _).symm value).symm.trans tree⟩

theorem tree_nodes :
    ∀ node ∈ root.nodes, operandTree block.computed node.op.result = some node ∧
      node = if node.op.kind = .load then .leaf node.op
        else assignChildren node.op (node.op.operands.filterMap (operandTree block.computed)) := by
  obtain ⟨value, tree⟩ := block.buildOpTree_some built
  exact operandTree_nodes block.computed_distinct
    (fun later op earlier split operand member => (block.computed_earlier split operand member).1)
    block.computed [] (List.nil_append _).symm tree

theorem mem_computed :
    ∀ node ∈ root.nodes, node.op ∈ block.computed := fun node member =>
  (operandTree_op (block.tree_nodes built node member).1).1

theorem unfolds : Unfolds block.ops root := by
  have known := block.tree_nodes built
  have inside := block.mem_computed built
  refine ⟨?_, fun node member => block.mem_of_computed (inside node member), ?_⟩
  · intro node member other otherMember same
    have found := (known node member).1
    rw [same, (known other otherMember).1] at found
    exact (Option.some.inj found).symm
  · intro node member definer own
    obtain ⟨whole, _⟩ := block.mem_of_computed (inside node member)
    by_cases load : node.op.kind = .load
    · have leaf : node.children = [] := by
        rw [(known node member).2, if_pos load]
        rfl
      rw [leaf]
      exact ⟨fun operand => absurd rfl (block.loads node.op whole load _ operand definer own),
        fun none => absurd none List.not_mem_nil⟩
    · have compute : node.op.kind = .compute := by
        have noStore := (block.mem_of_computed (inside node member)).2
        cases kind : node.op.kind with
        | load => exact absurd kind load
        | store => exact absurd kind noStore
        | compute => rfl
      have few : (node.op.operands.filterMap (operandTree block.computed)).length ≤ 3 :=
        (List.length_filterMap_le _ _).trans (block.arity node.op whole compute)
      have children : node.children = node.op.operands.filterMap (operandTree block.computed) := by
        conv_lhs => rw [(known node member).2, if_neg load]
        exact assignChildren_children node.op few
      rw [children, List.mem_map]
      constructor
      · intro operand
        obtain ⟨later, earlier, split⟩ := List.append_of_mem (inside node member)
        have early := (block.computed_earlier split _ operand).2 definer own rfl
        have here : definer ∈ block.computed := split ▸ List.mem_append_right _ (List.mem_cons_of_mem _ early)
        obtain ⟨child, found⟩ := operandTree_some here
        obtain ⟨childHere, same⟩ := operandTree_op found
        exact ⟨child, List.mem_filterMap.mpr ⟨definer.result, operand, found⟩,
          block.eq_of_result (block.mem_of_computed childHere).1 own same⟩
      · rintro ⟨child, listed, rfl⟩
        obtain ⟨operand, used, found⟩ := List.mem_filterMap.mp listed
        rwa [(operandTree_op found).2]

end

end ExpressionBlock

section Order
variable {block : ExpressionBlock} {sort : Sorting} {root : OpTreeNode}

section
variable (unfolds : Unfolds block.ops root)
include unfolds

theorem visits_subset : ∀ op ∈ sort.visits root, op ∈ block.ops := by
  intro op member
  obtain ⟨node, here, rfl⟩ := OpTreeNode.mem_ops_iff.mp (sort.mem_visits.mp member)
  exact (unfolds.inside node here).1

theorem reordered_perm :
    ((sort.visits root).dedup ++ block.ops.filter (· ∉ sort.visits root)).Perm block.ops := by
  have moved : (block.ops.filter (· ∈ sort.visits root)).Perm (sort.visits root).dedup := by
    rw [List.perm_ext_iff_of_nodup (block.nodup.filter _) (List.nodup_dedup _)]
    intro op
    rw [List.mem_filter, List.mem_dedup, decide_eq_true_iff]
    exact ⟨And.right, fun member => ⟨visits_subset unfolds op member, member⟩⟩
  calc (sort.visits root).dedup ++ block.ops.filter (· ∉ sort.visits root)
      |>.Perm (block.ops.filter (· ∈ sort.visits root) ++ block.ops.filter (· ∉ sort.visits root)) :=
        moved.symm.append_right _
    _ |>.Perm block.ops := by
        simpa using List.filter_append_perm (fun op => decide (op ∈ sort.visits root)) block.ops

theorem reordered_nodup :
    ((sort.visits root).dedup ++ block.ops.filter (· ∉ sort.visits root)).Nodup :=
  (reordered_perm unfolds).nodup_iff.mpr block.nodup

theorem defsFirst_of_settled (settled : Settled sort root) :
    DefsFirst ((sort.visits root).dedup ++ block.ops.filter (· ∉ sort.visits root)) := by
  intro front op back split operand used definer member same
  have own : definer ∈ block.ops := (reordered_perm unfolds).mem_iff.mp member
  have unique : ∀ front' back', (sort.visits root).dedup ++ block.ops.filter (· ∉ sort.visits root) =
      front' ++ op :: back' → front = front' := fun _ _ => front_unique (reordered_nodup unfolds) split
  by_cases visited : op ∈ sort.visits root
  · obtain ⟨before, after, order, last⟩ := exists_last_mem visited
    obtain ⟨kept, deduped⟩ := dedup_split before last
    rw [← order] at deduped
    obtain ⟨node, here, rfl⟩ := OpTreeNode.mem_ops_iff.mp (sort.mem_visits.mp visited)
    obtain ⟨child, childOwn, rfl⟩ := List.mem_map.mp ((unfolds.operands node here definer own).mp (same ▸ used))
    have inside : child.op ∈ (sort.visits root).dedup := by
      rw [List.mem_dedup, sort.mem_visits]
      exact op_mem_ops (OpTreeNode.nodes_trans here (child_mem_nodes childOwn))
    rw [unique kept (after.dedup ++ block.ops.filter (· ∉ sort.visits root)) (by rw [deduped]; simp)]
    rw [deduped, List.mem_append, List.mem_cons, List.mem_dedup] at inside
    have apart : child.op ≠ node.op := fun cycle =>
      unfolds.consistent.acyclic here childOwn (cycle ▸ op_mem_ops child.self_mem_nodes)
    exact inside.resolve_right (not_or.mpr ⟨apart, settled node here child childOwn before after order last⟩)
  · have opOwn : op ∈ block.ops := by
      rw [← (reordered_perm unfolds).mem_iff, split]
      exact List.mem_append_right _ List.mem_cons_self
    obtain ⟨before, after, order⟩ := List.append_of_mem opOwn
    have early := block.defined before op after order operand used definer own same
    have kept : block.ops.filter (· ∉ sort.visits root) =
        before.filter (· ∉ sort.visits root) ++ op :: after.filter (· ∉ sort.visits root) := by
      conv_lhs => rw [order]
      rw [List.filter_append, List.filter_cons_of_pos (by simpa using visited)]
    rw [unique ((sort.visits root).dedup ++ before.filter (· ∉ sort.visits root))
      (after.filter (· ∉ sort.visits root)) (by rw [kept]; simp)]
    by_cases moved : definer ∈ sort.visits root
    · exact List.mem_append_left _ (List.mem_dedup.mpr moved)
    · exact List.mem_append_right _ (List.mem_filter.mpr ⟨early, decide_eq_true moved⟩)

theorem settled_of_defsFirst (defined : DefsFirst ((sort.visits root).dedup ++ block.ops.filter (· ∉ sort.visits root))) :
      Settled sort root := by
  intro node member child own front back visited last late
  obtain ⟨kept, split⟩ := dedup_split front last
  rw [← visited] at split
  have childMember := OpTreeNode.nodes_trans member (child_mem_nodes own)
  have childOps := (unfolds.inside child childMember).1
  have used : child.op.result ∈ node.op.operands :=
    (unfolds.operands node member child.op childOps).mpr (List.mem_map_of_mem own)
  have early := defined kept node.op (back.dedup ++ block.ops.filter (· ∉ sort.visits root)) (by rw [split]; simp)
    _ used child.op ((reordered_perm unfolds).mem_iff.mpr childOps) rfl
  have nodup := List.nodup_dedup (sort.visits root)
  rw [split] at nodup
  exact (List.nodup_append.mp nodup).2.2 child.op early child.op
    (List.mem_cons_of_mem _ (List.mem_dedup.mpr late)) rfl

end

/-- Definitions are before uses exactly when the children share what they share in order. -/
theorem defsFirst_reorder_iff (block : ExpressionBlock) (sort : Sorting) :
    DefsFirst (reorderOperationsSethiUllman sort block.ops) ↔
      ∀ root, buildOpTree block.ops = some root → SharesInOrder sort root := by
  cases built : buildOpTree block.ops with
  | none =>
      rw [reorderOperationsSethiUllman, built]
      exact ⟨fun _ _ impossible => (by cases impossible), fun _ => block.defined⟩
  | some root =>
      have unfolds := block.unfolds built
      rw [reorder_eq sort block.nodup built]
      constructor
      · intro defined other same
        cases same
        exact (settled_iff sort unfolds.consistent).mp (settled_of_defsFirst unfolds defined)
      · exact fun shares =>
          defsFirst_of_settled unfolds ((settled_iff sort unfolds.consistent).mpr (shares root rfl))

theorem reorder_perm (block : ExpressionBlock) (sort : Sorting) :
    (reorderOperationsSethiUllman sort block.ops).Perm block.ops := by
  cases built : buildOpTree block.ops with
  | none =>
      rw [reorderOperationsSethiUllman, built]
  | some root =>
      rw [reorder_eq sort block.nodup built]
      exact reordered_perm (block.unfolds built)

end Order

end TtMlir.D2m.OpScheduler
