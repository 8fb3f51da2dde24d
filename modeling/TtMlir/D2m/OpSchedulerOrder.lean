import TtMlir.D2m.OpScheduler

/-!
When the reordered block has definitions before uses: exactly when each child of a node is
visited again from a later one or has no op in common with the later ones, since only the last
visit of an op counts.
-/

namespace TtMlir.D2m.OpScheduler

def DefsFirst (ops : List Op) : Prop :=
  ∀ front op back, ops = front ++ op :: back → ∀ operand ∈ op.operands,
    ∀ definer ∈ ops, definer.result = operand → definer ∈ front

/-- Each child, in the order of the visits, is reached again from a later child or shares no op with the later ones. -/
def SharesInOrder (sort : Sorting) (root : OpTreeNode) : Prop :=
  ∀ node ∈ root.nodes, ∀ front child back, sort.arranged node = front ++ child :: back →
    child.op ∈ back.flatMap OpTreeNode.ops ∨ ∀ op ∈ child.ops, op ∉ back.flatMap OpTreeNode.ops

def Consistent (root : OpTreeNode) : Prop :=
  ∀ node ∈ root.nodes, ∀ other ∈ root.nodes, node.op = other.op → node = other

def Settled (sort : Sorting) (root : OpTreeNode) : Prop :=
  ∀ node ∈ root.nodes, ∀ child ∈ node.children, ∀ front back,
    sort.visits root = front ++ node.op :: back → node.op ∉ back → child.op ∉ back

section Lists
variable {α : Type}

theorem exists_last {property : α → Prop} {items : List α} (some : ∃ item ∈ items, property item) :
    ∃ front item back, items = front ++ item :: back ∧ property item ∧ ∀ later ∈ back, ¬ property later := by
  induction items with
  | nil => simp at some
  | cons first items ih =>
      by_cases more : ∃ item ∈ items, property item
      · obtain ⟨front, item, back, rfl, holds, last⟩ := ih more
        exact ⟨first :: front, item, back, rfl, holds, last⟩
      · obtain ⟨item, member, holds⟩ := some
        rcases List.mem_cons.mp member with rfl | later
        · exact ⟨[], item, items, rfl, holds, fun other here has => more ⟨other, here, has⟩⟩
        · exact absurd ⟨item, later, holds⟩ more

theorem exists_last_mem {item : α} {items : List α} (member : item ∈ items) :
    ∃ front back, items = front ++ item :: back ∧ item ∉ back := by
  obtain ⟨front, last, back, split, rfl, none⟩ := exists_last ⟨item, member, rfl⟩
  exact ⟨front, back, split, fun later => none item later rfl⟩

theorem dedup_split [DecidableEq α] (front : List α) {back : List α} {item : α} (last : item ∉ back) :
    ∃ kept, (front ++ item :: back).dedup = kept ++ item :: back.dedup := by
  rw [List.dedup_append, List.dedup_cons_of_notMem last]
  obtain ⟨kept, _, split⟩ := List.sublist_suffix_of_union front (item :: back.dedup)
  exact ⟨kept, split.symm⟩

theorem front_unique {items front front' back back' : List α} {item : α} (nodup : items.Nodup)
    (split : items = front ++ item :: back) (split' : items = front' ++ item :: back') : front = front' := by
  have fresh : item ∉ front' ++ back' := by
    rw [split'] at nodup
    exact (List.nodup_cons.mp (List.nodup_middle.mp nodup)).1
  rw [List.mem_append, not_or] at fresh
  exact ((List.append_cons_inj_of_notMem fresh.1 fresh.2).mp (split'.symm.trans split)).1.symm

end Lists

section Trees
variable {root node : OpTreeNode}

theorem ops_sublist (member : node ∈ root.nodes) : node.ops.Sublist root.ops := by
  induction root using OpTreeNode.children_induction with
  | step root ih =>
      rcases OpTreeNode.mem_nodes_iff.mp member with rfl | ⟨child, own, inside⟩
      · exact List.Sublist.refl _
      · rw [root.ops_eq]
        have listed := List.sublist_flatten_of_mem (List.mem_map_of_mem (f := OpTreeNode.ops) own)
        exact ((ih child own inside).trans listed).cons _

theorem ops_subset (member : node ∈ root.nodes) : ∀ op ∈ node.ops, op ∈ root.ops := (ops_sublist member).subset

theorem child_mem_nodes {child : OpTreeNode} (member : child ∈ node.children) : child ∈ node.nodes :=
  OpTreeNode.mem_nodes_of_child member child.self_mem_nodes

theorem op_mem_ops (member : node ∈ root.nodes) : node.op ∈ root.ops := OpTreeNode.mem_ops_iff.mpr ⟨node, member, rfl⟩

theorem child_length {child : OpTreeNode} (own : child ∈ node.children) : child.ops.length < node.ops.length := by
  rw [node.ops_eq, List.length_cons, List.flatMap]
  exact Nat.lt_succ_of_le (List.sublist_flatten_of_mem (List.mem_map_of_mem own)).length_le

theorem Consistent.of_mem (consistent : Consistent root) (member : node ∈ root.nodes) : Consistent node :=
  fun one here other there same =>
    consistent one (OpTreeNode.nodes_trans member here) other (OpTreeNode.nodes_trans member there) same

theorem Consistent.mem_nodes (consistent : Consistent root) (member : node ∈ root.nodes) {inner : OpTreeNode}
    (inside : inner ∈ root.nodes) (own : inner.op ∈ node.ops) : inner ∈ node.nodes := by
  obtain ⟨same, here, equal⟩ := OpTreeNode.mem_ops_iff.mp own
  rwa [← consistent same (OpTreeNode.nodes_trans member here) inner inside equal]

theorem Consistent.acyclic (consistent : Consistent root) (member : node ∈ root.nodes) {child : OpTreeNode}
    (own : child ∈ node.children) : node.op ∉ child.ops := by
  intro cycle
  have inside := consistent.mem_nodes (OpTreeNode.nodes_trans member (child_mem_nodes own)) member cycle
  exact absurd (ops_sublist inside).length_le (Nat.not_le.mpr (child_length own))

theorem exists_edge {inside : Op → Prop} (out : ¬ inside node.op) (reaches : ∃ op ∈ node.ops, inside op) :
    ∃ inner ∈ node.nodes, ∃ child ∈ inner.children, ¬ inside inner.op ∧ inside child.op := by
  induction node using OpTreeNode.children_induction with
  | step node ih =>
      obtain ⟨op, member, holds⟩ := reaches
      rw [node.ops_eq] at member
      rcases List.mem_cons.mp member with rfl | below
      · exact absurd holds out
      obtain ⟨child, own, deeper⟩ := List.mem_flatMap.mp below
      by_cases here : inside child.op
      · exact ⟨node, node.self_mem_nodes, child, own, out, here⟩
      · obtain ⟨inner, found, edge⟩ := ih child own here ⟨op, deeper, holds⟩
        exact ⟨inner, OpTreeNode.mem_nodes_of_child own found, edge⟩

end Trees

section Visits
variable (sort : Sorting) {root : OpTreeNode}

theorem last_visit (consistent : Consistent root) {node : OpTreeNode} (member : node ∈ root.nodes) :
    ∃ front back, sort.visits root = front ++ sort.visits node ++ back ∧ node.op ∉ back := by
  induction root using OpTreeNode.children_induction with
  | step root ih =>
      rcases OpTreeNode.mem_nodes_iff.mp member with rfl | ⟨child, own, inside⟩
      · exact ⟨[], [], by simp⟩
      have reached : ∃ child ∈ sort.arranged root, node.op ∈ child.ops :=
        ⟨child, (sort.arranged_perm root).mem_iff.mpr own, op_mem_ops inside⟩
      obtain ⟨front, last, back, split, here, none⟩ := exists_last reached
      have lastOwn : last ∈ root.children := by
        rw [← (sort.arranged_perm root).mem_iff, split]
        exact List.mem_append_right _ List.mem_cons_self
      have lastMember := child_mem_nodes lastOwn
      obtain ⟨before, after, visited, gone⟩ := ih last lastOwn (consistent.of_mem lastMember)
        (consistent.mem_nodes lastMember member here)
      refine ⟨front.flatMap sort.visits ++ before, after ++ (back.flatMap sort.visits ++ [root.op]), ?_, ?_⟩
      · rw [sort.visits_eq, split, List.flatMap_append, List.flatMap_cons, visited]
        simp
      · simp only [List.mem_append, List.mem_flatMap, List.mem_singleton]
        rintro (late | ⟨later, member, visit⟩ | same)
        · exact gone late
        · exact none later member ((sort.mem_visits).mp visit)
        · exact consistent.acyclic root.self_mem_nodes own (same ▸ op_mem_ops inside)

theorem flatMap_visits_mem {op : Op} {items : List OpTreeNode} :
    op ∈ items.flatMap sort.visits ↔ op ∈ items.flatMap OpTreeNode.ops := by
  simp only [List.mem_flatMap, sort.mem_visits]

theorem settled_children (consistent : Consistent root) {node : OpTreeNode} (member : node ∈ root.nodes)
    (shares : SharesInOrder sort root) (settled : ∀ child ∈ node.children, Settled sort child)
    (done children : List OpTreeNode) (split : sort.arranged node = done ++ children) :
    ∀ inner ∈ root.nodes, ∀ child ∈ inner.children, ∀ front back,
      children.flatMap sort.visits = front ++ inner.op :: back → inner.op ∉ back → child.op ∉ back := by
  induction children generalizing done with
  | nil =>
      intro inner _ child _ front back empty
      exact absurd empty (by simp)
  | cons first children ih =>
      intro inner inside child own front back listed gone
      have firstOwn : first ∈ node.children := by
        rw [← (sort.arranged_perm node).mem_iff, split]
        exact List.mem_append_right _ List.mem_cons_self
      have firstMember := OpTreeNode.nodes_trans member (child_mem_nodes firstOwn)
      rw [List.flatMap_cons] at listed
      rcases List.append_eq_append_iff.mp listed with ⟨more, _, rest⟩ | ⟨more, visited, rest⟩
      · exact ih (done ++ [first]) (by rw [split]; simp) inner inside child own more back rest gone
      cases more with
      | nil => exact ih (done ++ [first]) (by rw [split]; simp) inner inside child own [] back rest.symm gone
      | cons op more =>
          obtain ⟨rfl, backed⟩ := List.cons.inj rest
          have whole : back = more ++ children.flatMap sort.visits := backed
          subst whole
          rw [List.mem_append, not_or] at gone
          have reached : inner.op ∈ first.ops := by
            rw [← sort.mem_visits, visited]
            exact List.mem_append_right _ List.mem_cons_self
          have here := consistent.mem_nodes firstMember inside reached
          rw [List.mem_append, not_or]
          refine ⟨settled first firstOwn inner here child own front more visited gone.1, ?_⟩
          rw [flatMap_visits_mem] at gone ⊢
          rcases shares node member done first children split with again | apart
          · obtain ⟨later, laterMember, laterOps⟩ := List.mem_flatMap.mp again
            have laterOwn : later ∈ node.children := by
              rw [← (sort.arranged_perm node).mem_iff, split]
              exact List.mem_append_right _ (List.mem_cons_of_mem _ laterMember)
            have under := consistent.mem_nodes
                (OpTreeNode.nodes_trans member (child_mem_nodes laterOwn)) firstMember laterOps
            exact absurd (List.mem_flatMap.mpr ⟨later, laterMember, ops_subset under _ reached⟩) gone.2
          · exact apart child.op (op_mem_ops (OpTreeNode.nodes_trans here (child_mem_nodes own)))

theorem settled_of_shares (consistent : Consistent root) (shares : SharesInOrder sort root) {node : OpTreeNode}
    (member : node ∈ root.nodes) : Settled sort node := by
  induction node using OpTreeNode.children_induction with
  | step node ih =>
      intro inner inside child own front back visited gone
      have settled := settled_children sort consistent member shares
        (fun child here => ih child here (OpTreeNode.nodes_trans member (child_mem_nodes here))) []
        (sort.arranged node) (List.nil_append _).symm inner (OpTreeNode.nodes_trans member inside) child own
      rw [sort.visits_eq] at visited
      rcases List.append_eq_append_iff.mp visited with ⟨more, _, rest⟩ | ⟨more, listed, rest⟩
      · -- the node itself comes last, with nothing after it
        cases more with
        | nil =>
            have empty : back = [] := (List.cons.inj rest).2.symm
            simp [empty]
        | cons op more => exact absurd rest (by simp)
      · cases more with
        | nil =>
            have empty : back = [] := (List.cons.inj rest).2
            simp [empty]
        | cons op more =>
            obtain ⟨rfl, backed⟩ := List.cons.inj rest
            have whole : back = more ++ [node.op] := backed
            subst whole
            rw [List.mem_append, not_or] at gone ⊢
            refine ⟨settled front more listed gone.1, fun same => ?_⟩
            have below : inner.op ∈ node.children.flatMap OpTreeNode.ops := by
              rw [← (sort.arranged_perm node).flatMap_right _ |>.mem_iff, ← flatMap_visits_mem, listed]
              exact List.mem_append_right _ List.mem_cons_self
            obtain ⟨above, aboveOwn, here⟩ := List.mem_flatMap.mp below
            have under := (consistent.of_mem member).mem_nodes (child_mem_nodes aboveOwn) inside here
            rw [List.mem_singleton] at same
            exact consistent.acyclic member aboveOwn
              (same ▸ op_mem_ops (OpTreeNode.nodes_trans under (child_mem_nodes own)))

theorem settled_iff (consistent : Consistent root) : Settled sort root ↔ SharesInOrder sort root := by
  constructor
  · intro settled node member front child back split
    by_contra both
    rw [not_or] at both
    obtain ⟨notAgain, meets⟩ := both
    push Not at meets
    obtain ⟨shared, sharedChild, sharedLater⟩ := meets
    have own : child ∈ node.children := by
      rw [← (sort.arranged_perm node).mem_iff, split]
      exact List.mem_append_right _ List.mem_cons_self
    obtain ⟨before, after, visited, gone⟩ := last_visit sort consistent member
    rw [sort.visits_eq node, split, List.flatMap_append, List.flatMap_cons] at visited
    -- everything that comes after the visit of the child
    let later := back.flatMap sort.visits ++ [node.op] ++ after
    by_cases again : child.op ∈ later
    · have late : child.op ∈ after := by
        rcases List.mem_append.mp again with inside | late
        · rcases List.mem_append.mp inside with inside | same
          · exact absurd ((flatMap_visits_mem sort).mp inside) notAgain
          · have cycle := op_mem_ops child.self_mem_nodes
            rw [List.mem_singleton.mp same] at cycle
            exact absurd cycle (consistent.acyclic member own)
        · exact late
      refine settled node member child own (before ++ (front.flatMap sort.visits ++
        (sort.visits child ++ back.flatMap sort.visits))) after ?_ gone late
      rw [visited]
      simp
    · have reaches : ∃ op ∈ child.ops, op ∈ later :=
        ⟨shared, sharedChild, List.mem_append_left _
          (List.mem_append_left _ ((flatMap_visits_mem sort).mpr sharedLater))⟩
      obtain ⟨inner, inside, leaf, leafOwn, out, here⟩ := exists_edge again reaches
      have visit : inner.op ∈ before ++ (front.flatMap sort.visits ++ sort.visits child) :=
        List.mem_append_right _ (List.mem_append_right _ (sort.mem_visits.mpr (op_mem_ops inside)))
      obtain ⟨first, second, halves, last⟩ := exists_last_mem visit
      refine settled inner (OpTreeNode.nodes_trans member (OpTreeNode.nodes_trans (child_mem_nodes own) inside)) leaf
        leafOwn first (second ++ later) ?_ ?_ (List.mem_append_right _ here)
      · calc sort.visits root
            = before ++ (front.flatMap sort.visits ++ sort.visits child) ++ later := by rw [visited]; simp [later]
          _ = first ++ inner.op :: (second ++ later) := by rw [halves]; simp
      · rw [List.mem_append, not_or]
        exact ⟨last, out⟩
  · exact fun shares => settled_of_shares sort consistent shares root.self_mem_nodes

end Visits

end TtMlir.D2m.OpScheduler
