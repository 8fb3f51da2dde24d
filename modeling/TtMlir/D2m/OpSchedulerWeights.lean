import Mathlib
import TtMlir.D2m.OpSchedulerOrder

/-!
The weight of a node whose tree has no op twice is the least number of values held at once,
over all orders that evaluate the tree, those that go back and forth between the operands
included.
-/

namespace TtMlir.D2m.OpScheduler

def Evaluates (node : OpTreeNode) (order : List Op) : Prop :=
  order.Perm node.ops ∧ ∀ inner ∈ node.nodes, ∀ child ∈ inner.children, ∀ front back,
    order = front ++ inner.op :: back → child.op ∈ front

/-- How many values are held after some ops are done: that of an op takes the place of those of its operands. -/
def OpTreeNode.held : OpTreeNode → List Op → Nat
  | leaf op, done => if op ∈ done then 1 else 0
  | unary op left, done => if op ∈ done then 1 else left.held done
  | binary op left right, done => if op ∈ done then 1 else left.held done + right.held done
  | ternary op left middle right, done =>
      if op ∈ done then 1 else left.held done + middle.held done + right.held done

def HeldWithin (node : OpTreeNode) (order : List Op) (count : Nat) : Prop :=
  ∀ done, done <+: order → node.held done ≤ count

def need : List Nat → Nat
  | [] => 0
  | weight :: weights => max weight (1 + need weights)

section Need

theorem need_le {weights : List Nat} {count : Nat} (positive : ∀ weight ∈ weights, 0 < weight)
    (fits : ∀ front weight back, weights = front ++ weight :: back → weight + front.length ≤ count) :
    need weights ≤ count := by
  induction weights generalizing count with
  | nil => exact Nat.zero_le _
  | cons weight weights ih =>
      have first : weight ≤ count := fits [] weight weights rfl
      have some : 0 < weight := positive weight List.mem_cons_self
      have rest : need weights ≤ count - 1 := by
        refine ih (fun other member => positive other (List.mem_cons_of_mem _ member)) fun front other back split => ?_
        have later := fits (weight :: front) other back (by rw [split]; rfl)
        rw [List.length_cons] at later
        omega
      rw [need]
      omega

theorem need_descending_le {descending weights : List Nat} {count : Nat} (sorted : descending.Pairwise (· ≥ ·))
    (perm : descending.Perm weights) (positive : ∀ weight ∈ weights, 0 < weight)
    (fits : ∀ front weight back, weights = front ++ weight :: back → weight + front.length ≤ count) :
    need descending ≤ count := by
  refine need_le (fun weight member => positive weight (perm.mem_iff.mp member)) fun front weight back split => ?_
  have member : weight ∈ weights := perm.mem_iff.mp (split ▸ List.mem_append_right _ List.mem_cons_self)
  -- the last operand that weighs as much comes no earlier
  obtain ⟨before, last, after, order, heavy, light⟩ :=
    exists_last (show ∃ other ∈ weights, weight ≤ other from ⟨weight, member, le_rfl⟩)
  have many : front.length + 1 ≤ weights.countP (weight ≤ ·) := by
    rw [← perm.countP_eq, split, List.countP_append]
    have allFront : front.countP (weight ≤ ·) = front.length := by
      rw [List.countP_eq_length]
      intro other inside
      rw [split, List.pairwise_append] at sorted
      exact decide_eq_true (sorted.2.2 other inside weight List.mem_cons_self)
    rw [allFront, List.countP_cons_of_pos (by simp)]
    omega
  have few : weights.countP (weight ≤ ·) ≤ before.length + 1 := by
    have none : after.countP (weight ≤ ·) = 0 := by
      rw [List.countP_eq_zero]
      exact fun other inside holds => light other inside (of_decide_eq_true holds)
    rw [order, List.countP_append, List.countP_cons_of_pos (by simpa using heavy), none]
    exact Nat.add_le_add_right List.countP_le_length 1
  have placed := fits before last after order
  omega

end Need

section Weights

theorem sorted_three (left middle right : Nat) :
    ∃ first second third, [left, middle, right].insertionSort (· ≥ ·) = [first, second, third] := by
  match sorted : [left, middle, right].insertionSort (· ≥ ·) with
  | [first, second, third] => exact ⟨first, second, third, rfl⟩
  | [] | [_] | [_, _] | _ :: _ :: _ :: _ :: _ =>
      have length := congrArg List.length sorted
      rw [List.length_insertionSort] at length
      simp at length

theorem ternaryWeight_eq {left middle right : Nat} (positive : 0 < left ∧ 0 < middle ∧ 0 < right) :
    ternaryWeight left middle right = need ([left, middle, right].insertionSort (· ≥ ·)) := by
  obtain ⟨first, second, third, sorted⟩ := sorted_three left middle right
  have member : third ∈ [left, middle, right] := by
    rw [← List.mem_insertionSort (· ≥ ·), sorted]
    simp
  have some : 0 < third := by
    simp only [List.mem_cons, List.not_mem_nil, or_false] at member
    omega
  rw [ternaryWeight, sorted]
  simp only [need, List.getD_cons_zero, List.getD_cons_succ]
  omega

theorem binaryWeight_eq {left right : Nat} (positive : 0 < left ∧ 0 < right) :
    binaryWeight left right = need ([left, right].insertionSort (· ≥ ·)) := by
  have sorted : [left, right].insertionSort (· ≥ ·) = if left ≥ right then [left, right] else [right, left] := by
    simp [List.orderedInsert]
  rw [sorted, binaryWeight]
  split
  · rename_i equal
    rw [if_pos equal.ge, need, need, need]
    omega
  · rename_i other
    split
    · rw [need, need, need]
      omega
    · rw [need, need, need]
      omega

theorem weight_pos (node : OpTreeNode) : 0 < node.weight := by
  induction node with
  | leaf op => exact Nat.one_pos
  | unary op left ih => exact ih
  | binary op left right ihLeft ihRight =>
      rw [OpTreeNode.weight, binaryWeight]
      split <;> omega
  | ternary op left middle right ihLeft ihMiddle ihRight =>
      exact Nat.lt_of_lt_of_le (by omega) (le_max_right _ _)

theorem weight_eq (node : OpTreeNode) :
    node.weight = max 1 (need ((node.children.map OpTreeNode.weight).insertionSort (· ≥ ·))) := by
  have positive := weight_pos node
  cases node with
  | leaf op => rfl
  | unary op left =>
      have some := weight_pos left
      show left.weight = max 1 (max left.weight (1 + 0))
      omega
  | binary op left right =>
      have same : (OpTreeNode.binary op left right).weight = _ := binaryWeight_eq ⟨weight_pos left, weight_pos right⟩
      rw [same] at positive ⊢
      exact (max_eq_right positive).symm
  | ternary op left middle right =>
      have same : (OpTreeNode.ternary op left middle right).weight = _ :=
        ternaryWeight_eq ⟨weight_pos left, weight_pos middle, weight_pos right⟩
      rw [same] at positive ⊢
      exact (max_eq_right positive).symm

end Weights

section Held
variable {node : OpTreeNode} {done other order : List Op}

theorem held_eq (node : OpTreeNode) (done : List Op) :
    node.held done = if node.op ∈ done then 1 else (node.children.map (·.held done)).sum := by
  cases node with
  | leaf op => rfl
  | unary op left => simp [OpTreeNode.held, OpTreeNode.op, OpTreeNode.children]
  | binary op left right => simp [OpTreeNode.held, OpTreeNode.op, OpTreeNode.children]
  | ternary op left middle right => simp [OpTreeNode.held, OpTreeNode.op, OpTreeNode.children, Nat.add_assoc]

theorem held_congr (same : ∀ op ∈ node.ops, (op ∈ done ↔ op ∈ other)) : node.held done = node.held other := by
  induction node using OpTreeNode.children_induction with
  | step node ih =>
      rw [node.ops_eq] at same
      have children : node.children.map (·.held done) = node.children.map (·.held other) :=
        List.map_congr_left fun child member => ih child member fun op inside =>
          same op (List.mem_cons_of_mem _ (List.mem_flatMap.mpr ⟨child, member, inside⟩))
      have own := same node.op List.mem_cons_self
      rw [held_eq, held_eq, children]
      simp only [own]

theorem held_pos_iff : 0 < node.held done ↔ ∃ op ∈ node.ops, op ∈ done := by
  induction node using OpTreeNode.children_induction with
  | step node ih =>
      rw [held_eq, node.ops_eq]
      split
      · rename_i own
        exact ⟨fun _ => ⟨node.op, List.mem_cons_self, own⟩, fun _ => Nat.one_pos⟩
      · rename_i pending
        rw [Nat.pos_iff_ne_zero, ne_eq, List.sum_eq_zero_iff (M := Nat)]
        simp only [List.mem_map, forall_exists_index, and_imp, forall_apply_eq_imp_iff₂, not_forall, List.mem_cons,
          List.mem_flatMap]
        constructor
        · rintro ⟨child, member, some⟩
          obtain ⟨op, inside, began⟩ := (ih child member).mp (Nat.pos_of_ne_zero some)
          exact ⟨op, .inr ⟨child, member, inside⟩, began⟩
        · rintro ⟨op, rfl | ⟨child, member, inside⟩, began⟩
          · exact absurd began pending
          · exact ⟨child, member, ((ih child member).mpr ⟨op, inside, began⟩).ne'⟩

end Held

section Least

theorem ops_eq_map (node : OpTreeNode) : node.ops = node.nodes.map OpTreeNode.op := by
  induction node using OpTreeNode.children_induction with
  | step node ih =>
      rw [node.ops_eq, node.nodes_eq, List.map_cons, List.map_flatMap]
      congr 1
      exact List.flatMap_congr ih

theorem consistent_of_nodup {node : OpTreeNode} (distinct : node.ops.Nodup) : Consistent node := by
  rw [ops_eq_map] at distinct
  exact fun one here other there same => List.inj_on_of_nodup_map distinct here there same

theorem Evaluates.filter {node inner : OpTreeNode} {order : List Op} (evaluates : Evaluates node order)
    (distinct : node.ops.Nodup) (member : inner ∈ node.nodes) :
    Evaluates inner (order.filter (· ∈ inner.ops)) := by
  obtain ⟨perm, first⟩ := evaluates
  constructor
  · rw [List.perm_ext_iff_of_nodup ((perm.nodup_iff.mpr distinct).filter _) (distinct.sublist (ops_sublist member))]
    intro op
    rw [List.mem_filter, decide_eq_true_iff, perm.mem_iff]
    exact ⟨And.right, fun inside => ⟨ops_subset member op inside, inside⟩⟩
  · intro user userMember child own front back split
    obtain ⟨before, after, whole, rfl, rest⟩ := List.filter_eq_append_iff.mp split
    obtain ⟨more, others, rfl, skipped, _, _⟩ := List.filter_eq_cons_iff.mp rest
    have early := first user (OpTreeNode.nodes_trans member userMember) child own (before ++ more) others
      (by rw [whole]; simp)
    have inside := op_mem_ops (OpTreeNode.nodes_trans userMember (child_mem_nodes own))
    rcases List.mem_append.mp early with here | between
    · exact List.mem_filter.mpr ⟨here, decide_eq_true inside⟩
    · exact absurd (decide_eq_true inside) (skipped _ between)

theorem Evaluates.descendants {node inner : OpTreeNode} {order : List Op} (evaluates : Evaluates node order)
    (member : inner ∈ node.nodes) {op : Op} (inside : op ∈ inner.ops) (other : op ≠ inner.op) {front back : List Op}
    (split : order = front ++ inner.op :: back) : op ∈ front := by
  induction inner using OpTreeNode.children_induction generalizing front back with
  | step inner ih =>
      rw [inner.ops_eq] at inside
      obtain ⟨child, own, below⟩ := List.mem_flatMap.mp ((List.mem_cons.mp inside).resolve_left other)
      have early := evaluates.2 inner member child own front back split
      by_cases same : op = child.op
      · rwa [same]
      · obtain ⟨before, after, rfl⟩ := List.append_of_mem early
        have whole : order = before ++ child.op :: (after ++ inner.op :: back) := by
          rw [split]
          simp
        exact List.mem_append_left _
          (ih child own (OpTreeNode.nodes_trans member (child_mem_nodes own)) below same whole)

theorem exists_step {items : List Op} {property : List Op → Prop} (none : ¬ property [])
    (reached : ∃ done, done <+: items ∧ property done) :
    ∃ done op, done ++ [op] <+: items ∧ property (done ++ [op]) ∧ ¬ property done := by
  obtain ⟨done, start, holds⟩ := reached
  induction done using List.reverseRecOn with
  | nil => exact absurd holds none
  | append_singleton done op ih =>
      by_cases before : property done
      · exact ih ((List.prefix_append done [op]).trans start) before
      · exact ⟨done, op, start, holds, before⟩

theorem exists_child_held {node child : OpTreeNode} {order : List Op} (distinct : node.ops.Nodup)
    (evaluates : Evaluates node order) (own : child ∈ node.children)
    (reached : ∃ done, done <+: order.filter (· ∈ child.ops) ∧ child.weight ≤ child.held done) :
    ∃ done, done <+: order ∧ child.weight ≤ child.held done ∧ node.op ∉ done := by
  have consistent := consistent_of_nodup distinct
  have start : ¬ child.weight ≤ child.held [] := by
    have none : child.held [] = 0 := Nat.eq_zero_of_not_pos fun some => by simpa using held_pos_iff.mp some
    have := weight_pos child
    omega
  have spread : ∃ done, done <+: order ∧ child.weight ≤ child.held done := by
    obtain ⟨part, begun, heavy⟩ := reached
    obtain ⟨done, whole, rfl⟩ := List.prefix_filter_iff.mp begun
    refine ⟨done, whole, heavy.trans_eq (held_congr fun op inside => ?_)⟩
    rw [List.mem_filter, decide_eq_true_iff, and_iff_left inside]
  obtain ⟨done, op, begun, heavy, light⟩ := exists_step start spread
  have inside : op ∈ child.ops := by
    by_contra outside
    refine light (heavy.trans_eq (held_congr fun other member => ?_))
    have apart : other ≠ op := fun same => outside (same ▸ member)
    simp [apart]
  have below : op ∈ node.ops := ops_subset (child_mem_nodes own) op inside
  have apart : op ≠ node.op := fun same => consistent.acyclic node.self_mem_nodes own (same ▸ inside)
  refine ⟨done ++ [op], begun, heavy, fun finished => ?_⟩
  obtain ⟨rest, whole⟩ := begun
  rcases List.mem_append.mp finished with early | same
  · obtain ⟨front, back, rfl⟩ := List.append_of_mem early
    have again := evaluates.descendants node.self_mem_nodes below apart
      (show order = front ++ node.op :: (back ++ op :: rest) by rw [← whole]; simp)
    have once := evaluates.1.nodup_iff.mpr distinct
    rw [← whole, List.append_assoc] at once
    exact (List.nodup_append.mp once).2.2 op (List.mem_append_left _ again) op (by simp) rfl
  · exact apart (List.mem_singleton.mp same).symm

theorem exists_held {node : OpTreeNode} {order : List Op} (distinct : node.ops.Nodup)
    (evaluates : Evaluates node order) :
    ∃ done, done <+: order ∧ node.weight ≤ node.held done := by
  induction node using OpTreeNode.children_induction generalizing order with
  | step node ih =>
      have timed : ∀ child ∈ node.children,
          ∃ done, done <+: order ∧ child.weight ≤ child.held done ∧ node.op ∉ done := by
        intro child own
        have member := child_mem_nodes own
        exact exists_child_held distinct evaluates own
          (ih child own (distinct.sublist (ops_sublist member)) (evaluates.filter distinct member))
      choose! time begun heavy pending using timed
      by_contra never
      push Not at never
      have light : ∀ done, done <+: order → node.held done ≤ node.weight - 1 := fun done start => by
        have := never done start
        omega
      -- the children in the order in which they take the most
      let byTime := node.children.mergeSort fun one other => decide ((time one).length ≤ (time other).length)
      have perm : byTime.Perm node.children := List.mergeSort_perm _ _
      have ordered : byTime.Pairwise fun one other => (time one).length ≤ (time other).length := by
        have sorted : byTime.Pairwise fun one other => decide ((time one).length ≤ (time other).length) = true :=
          List.pairwise_mergeSort
            (fun _ _ _ first second => decide_eq_true ((of_decide_eq_true first).trans (of_decide_eq_true second)))
            (fun _ _ => by simpa using Nat.le_total _ _) node.children
        exact sorted.imp of_decide_eq_true
      have fits : ∀ front weight back, byTime.map OpTreeNode.weight = front ++ weight :: back →
          weight + front.length ≤ node.weight - 1 := by
        intro front weight back split
        obtain ⟨before, rest, listed, rfl, mapped⟩ := List.map_eq_append_iff.mp split
        obtain ⟨child, after, rfl, rfl, _⟩ := List.map_eq_cons_iff.mp mapped
        have own : child ∈ node.children := perm.mem_iff.mp (listed ▸ List.mem_append_right _ List.mem_cons_self)
        have started : ∀ count ∈ before.map (·.held (time child)), 1 ≤ count := by
          intro count member
          obtain ⟨other, inside, rfl⟩ := List.mem_map.mp member
          have otherOwn : other ∈ node.children := perm.mem_iff.mp (listed ▸ List.mem_append_left _ inside)
          have sooner : (time other).length ≤ (time child).length := by
            rw [listed, List.pairwise_append] at ordered
            exact ordered.2.2 other inside child List.mem_cons_self
          have part : time other <+: time child :=
            List.prefix_of_prefix_length_le (begun other otherOwn) (begun child own) sooner
          obtain ⟨op, known, done⟩ := held_pos_iff.mp ((weight_pos other).trans_le (heavy other otherOwn))
          exact held_pos_iff.mpr ⟨op, known, part.subset done⟩
        have total : (byTime.map (·.held (time child))).sum = node.held (time child) := by
          rw [held_eq, if_neg (pending child own)]
          exact (perm.map _).sum_eq
        rw [listed, List.map_append, List.map_cons, List.sum_append, List.sum_cons] at total
        have count := List.length_le_sum_of_one_le _ started
        rw [List.length_map] at count ⊢
        have bound := light _ (begun child own)
        have own := heavy child own
        omega
      have needs : need ((node.children.map OpTreeNode.weight).insertionSort (· ≥ ·)) ≤ node.weight - 1 := by
        refine need_descending_le (List.pairwise_insertionSort _ _) ?_ ?_ fits
        · exact (List.perm_insertionSort _ _).trans (perm.symm.map _)
        · intro weight member
          obtain ⟨child, _, rfl⟩ := List.mem_map.mp member
          exact weight_pos child
      have last : node.held order = 1 := by
        rw [held_eq, if_pos (evaluates.1.mem_iff.mpr (op_mem_ops node.self_mem_nodes))]
      have several := light order (List.prefix_refl _)
      have weighed := weight_eq node
      omega

theorem held_flatMap_le (sort : Sorting) {children : List OpTreeNode}
    (bounds : ∀ child ∈ children, ∀ done, done <+: sort.visits child → child.held done ≤ child.weight)
    (apart : children.Pairwise fun one other => ∀ op ∈ one.ops, op ∉ other.ops)
    {done : List Op} (start : done <+: children.flatMap sort.visits) :
    (children.map (·.held done)).sum ≤ need (children.map OpTreeNode.weight) := by
  induction children generalizing done with
  | nil => exact Nat.zero_le _
  | cons child children ih =>
      obtain ⟨first, rest⟩ := List.pairwise_cons.mp apart
      have later := fun other member => bounds other (List.mem_cons_of_mem _ member)
      rw [List.map_cons, List.map_cons, List.sum_cons, need]
      obtain ⟨remaining, whole⟩ := start
      rw [List.flatMap_cons] at whole
      rcases List.append_eq_append_iff.mp whole with ⟨undone, within, _⟩ | ⟨more, rfl, begun⟩
      · -- nothing of the later operands is done yet
        have within : done <+: sort.visits child := ⟨undone, within.symm⟩
        have none : (children.map (·.held done)).sum = 0 := by
          rw [List.sum_eq_zero_iff (M := Nat)]
          intro count member
          obtain ⟨other, inside, rfl⟩ := List.mem_map.mp member
          refine Nat.eq_zero_of_not_pos fun some => ?_
          obtain ⟨op, own, finished⟩ := held_pos_iff.mp some
          exact first other inside op (sort.mem_visits.mp (within.subset finished)) own
        have bound := bounds child List.mem_cons_self done within
        omega
      · have one : child.held (sort.visits child ++ more) = 1 := by
          rw [held_eq, if_pos (List.mem_append_left _ (sort.mem_visits.mpr (op_mem_ops child.self_mem_nodes)))]
        have same : children.map (·.held (sort.visits child ++ more)) = children.map (·.held more) := by
          apply List.map_congr_left
          intro other member
          refine held_congr fun op own => ?_
          rw [List.mem_append, or_iff_right fun visited => first other member op (sort.mem_visits.mp visited) own]
        have bound := ih later rest ⟨remaining, begun.symm⟩
        rw [one, same]
        omega

theorem visits_heldWithin (sort : Sorting) {node : OpTreeNode} (distinct : node.ops.Nodup) :
    HeldWithin node (sort.visits node) node.weight := by
  induction node using OpTreeNode.children_induction with
  | step node ih =>
      intro done start
      rw [held_eq]
      split
      · exact weight_pos node
      rename_i pending
      rw [sort.visits_eq, List.prefix_concat_iff] at start
      have begun : done <+: (sort.arranged node).flatMap sort.visits := by
        rcases start with rfl | begun
        · exact absurd (List.mem_append_right _ (List.mem_singleton_self _)) pending
        · exact begun
      have perm := sort.arranged_perm node
      have apart : (sort.arranged node).Pairwise fun one other => ∀ op ∈ one.ops, op ∉ other.ops := by
        have split := distinct
        rw [node.ops_eq, List.nodup_cons, ← (perm.flatMap_right OpTreeNode.ops).nodup_iff, List.nodup_flatMap] at split
        exact split.2.2.imp fun disjoint op one other => disjoint one other
      have bounds : ∀ child ∈ sort.arranged node, ∀ done, done <+: sort.visits child → child.held done ≤ child.weight :=
        fun child member =>
          have own := perm.mem_iff.mp member
          ih child own (distinct.sublist (ops_sublist (child_mem_nodes own)))
      have descending : (sort.arranged node).map OpTreeNode.weight =
          (node.children.map OpTreeNode.weight).insertionSort (· ≥ ·) :=
        ((perm.map _).trans (List.perm_insertionSort _ _).symm).eq_of_pairwise' (sort.arranged_weights node)
          (List.pairwise_insertionSort _ _)
      have bound := held_flatMap_le sort bounds apart begun
      rw [(perm.map (·.held done)).sum_eq, descending] at bound
      rw [weight_eq]
      exact bound.trans (le_max_right _ _)

theorem visits_evaluates (sort : Sorting) {node : OpTreeNode} (distinct : node.ops.Nodup) :
    Evaluates node (sort.visits node) := by
  refine ⟨sort.visits_perm node, fun inner member child own front back split => ?_⟩
  have once := (sort.visits_perm node).nodup_iff.mpr distinct
  obtain ⟨before, after, whole, _⟩ := last_visit sort (consistent_of_nodup distinct) member
  rw [sort.visits_eq inner] at whole
  have again : sort.visits node = (before ++ (sort.arranged inner).flatMap sort.visits) ++ inner.op :: after := by
    rw [whole]
    simp
  rw [front_unique once split again]
  refine List.mem_append_right _ (List.mem_flatMap.mpr ⟨child, (sort.arranged_perm inner).mem_iff.mpr own, ?_⟩)
  exact sort.mem_visits.mpr (op_mem_ops child.self_mem_nodes)

theorem weight_least (sort : Sorting) {node : OpTreeNode} (distinct : node.ops.Nodup) :
    IsLeast {count | ∃ order, Evaluates node order ∧ HeldWithin node order count} node.weight := by
  constructor
  · exact ⟨sort.visits node, visits_evaluates sort distinct, visits_heldWithin sort distinct⟩
  · rintro count ⟨order, evaluates, within⟩
    obtain ⟨done, start, heavy⟩ := exists_held distinct evaluates
    exact heavy.trans (within done start)

end Least

end TtMlir.D2m.OpScheduler
