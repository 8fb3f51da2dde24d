import Mathlib

/-!
Reordering of the ops in an innermost loop, OpScheduler.cpp. The op of the first stored value
is unfolded to a tree along its operands, with a node for each use of an op, the nodes get
Sethi-Ullman weights, and the ops move to the front in the order of a traversal, heavier operands
first.
-/

namespace TtMlir.D2m.OpScheduler

inductive Kind
  | load | store | compute
  deriving DecidableEq, Repr

/-- An op of the block; the operands are results of ops, in the block or before it. A store has its value first. -/
structure Op where
  result : Nat
  kind : Kind
  operands : List Nat
  deriving DecidableEq, Repr

inductive OpTreeNode
  | leaf (op : Op)
  | unary (op : Op) (left : OpTreeNode)
  | binary (op : Op) (left right : OpTreeNode)
  | ternary (op : Op) (left middle right : OpTreeNode)
  deriving DecidableEq, Repr

namespace OpTreeNode

def op : OpTreeNode → Op
  | leaf op | unary op _ | binary op _ _ | ternary op _ _ _ => op

def children : OpTreeNode → List OpTreeNode
  | leaf _ => []
  | unary _ left => [left]
  | binary _ left right => [left, right]
  | ternary _ left middle right => [left, middle, right]

def ops : OpTreeNode → List Op
  | leaf op => [op]
  | unary op left => op :: left.ops
  | binary op left right => op :: (left.ops ++ right.ops)
  | ternary op left middle right => op :: (left.ops ++ middle.ops ++ right.ops)

def nodes : OpTreeNode → List OpTreeNode
  | leaf op => [leaf op]
  | unary op left => unary op left :: left.nodes
  | binary op left right => binary op left right :: (left.nodes ++ right.nodes)
  | ternary op left middle right => ternary op left middle right :: (left.nodes ++ middle.nodes ++ right.nodes)

end OpTreeNode

section Build

/-- Operands beyond the third drop all of them. -/
def assignChildren (op : Op) : List OpTreeNode → OpTreeNode
  | [left] => .unary op left
  | [left, right] => .binary op left right
  | [left, middle, right] => .ternary op left middle right
  | _ => .leaf op

def operandTree : List Op → Nat → Option OpTreeNode
  | [], _ => none
  | definingOp :: earlier, operand =>
      if definingOp.result = operand then
        if definingOp.kind = .load then some (.leaf definingOp)
        else some (assignChildren definingOp (definingOp.operands.filterMap (operandTree earlier)))
      else operandTree earlier operand

def buildOpTreeRecursive (earlier : List Op) (op : Op) : OpTreeNode :=
  assignChildren op (op.operands.filterMap (operandTree earlier))

def rootTree : List Op → Nat → Option OpTreeNode
  | [], _ => none
  | op :: earlier, storedValue =>
      if op.result = storedValue then some (buildOpTreeRecursive earlier op) else rootTree earlier storedValue

def buildOpTree (ops : List Op) : Option OpTreeNode :=
  (ops.find? (·.kind = .store)).bind fun finalStore => finalStore.operands.head?.bind fun storedValue =>
    rootTree (ops.takeWhile (·.kind ≠ .store)).reverse storedValue

end Build

section Weights

def binaryWeight (left right : Nat) : Nat := if left = right then left + 1 else max left right

def ternaryWeight (left middle right : Nat) : Nat :=
  let weights := [left, middle, right].insertionSort (· ≥ ·)
  let innerMax := max (weights.getD 1 0) (1 + weights.getD 2 0)
  max (weights.getD 0 0) (1 + innerMax)

def OpTreeNode.weight : OpTreeNode → Nat
  | leaf _ => 1
  | unary _ left => left.weight
  | binary _ left right => binaryWeight left.weight right.weight
  | ternary _ left middle right => ternaryWeight left.weight middle.weight right.weight

end Weights

section Reorder

/-- A sort by descending weight: where equal weights come is left to the library. -/
structure Sorting where
  order : List Nat → List Nat
  perm : ∀ weights, (order weights).Perm (List.range weights.length)
  sorted : ∀ weights, ((order weights).map (weights.getD · 0)).Pairwise (· ≥ ·)

def Sorting.arrange {β : Type} (sort : Sorting) (weights : List Nat) (items : List β) : List β :=
  (sort.order weights).filterMap (items[·]?)

/-- The ops moved so far and the block around the insertion point. -/
structure State where
  movedOps : List Op
  before : List Op
  after : List Op

def State.moveBefore (state : State) (op : Op) : State :=
  ⟨op :: state.movedOps, state.before.erase op ++ [op], state.after.erase op⟩

/-- An op moves when it is a leaf or its children have moved. -/
def State.settle (state : State) (op : Op) (children : List OpTreeNode) : State :=
  if op.kind = .load ∨ ∀ child ∈ children, child.op ∈ state.movedOps then state.moveBefore op else state

def applySeethiUllmanOrdering (sort : Sorting) : OpTreeNode → State → State
  | .leaf op, state => state.settle op []
  | .unary op left, state => (applySeethiUllmanOrdering sort left state).settle op [left]
  | .binary op left right, state =>
      let children := sort.arrange [left.weight, right.weight]
        [applySeethiUllmanOrdering sort left, applySeethiUllmanOrdering sort right]
      (children.foldl (fun state child => child state) state).settle op [left, right]
  | .ternary op left middle right, state =>
      let children := sort.arrange [left.weight, middle.weight, right.weight]
        [applySeethiUllmanOrdering sort left, applySeethiUllmanOrdering sort middle, applySeethiUllmanOrdering sort right]
      (children.foldl (fun state child => child state) state).settle op [left, middle, right]

def reorderOperationsSethiUllman (sort : Sorting) (ops : List Op) : List Op :=
  match buildOpTree ops with
  | none => ops
  | some root =>
      let state := applySeethiUllmanOrdering sort root ⟨[], [], ops⟩
      state.before ++ state.after

end Reorder

section Visits

namespace OpTreeNode

theorem children_induction {property : OpTreeNode → Prop}
    (step : ∀ node : OpTreeNode, (∀ child ∈ node.children, property child) → property node) (node : OpTreeNode) :
    property node := by
  induction node with
  | leaf op => exact step _ (by simp [children])
  | unary op left ih => exact step _ (by simpa [children] using ih)
  | binary op left right ihLeft ihRight => exact step _ (by simpa [children] using ⟨ihLeft, ihRight⟩)
  | ternary op left middle right ihLeft ihMiddle ihRight =>
      exact step _ (by simpa [children] using ⟨ihLeft, ihMiddle, ihRight⟩)

theorem ops_eq (node : OpTreeNode) : node.ops = node.op :: node.children.flatMap ops := by
  cases node <;> simp [ops, op, children]

theorem nodes_eq (node : OpTreeNode) : node.nodes = node :: node.children.flatMap nodes := by
  cases node <;> simp [nodes, children]

theorem self_mem_nodes (node : OpTreeNode) : node ∈ node.nodes := by
  rw [nodes_eq]
  exact List.mem_cons_self

theorem mem_nodes_of_child {node child inner : OpTreeNode} (member : child ∈ node.children)
    (inside : inner ∈ child.nodes) :
    inner ∈ node.nodes := by
  rw [nodes_eq]
  exact List.mem_cons_of_mem _ (List.mem_flatMap.mpr ⟨child, member, inside⟩)

theorem mem_nodes_iff {node inner : OpTreeNode} :
    inner ∈ node.nodes ↔ inner = node ∨ ∃ child ∈ node.children, inner ∈ child.nodes := by
  rw [nodes_eq, List.mem_cons, List.mem_flatMap]

theorem nodes_trans {node middle inner : OpTreeNode} (member : middle ∈ node.nodes) (inside : inner ∈ middle.nodes) :
    inner ∈ node.nodes := by
  induction node using children_induction with
  | step node ih =>
      rcases mem_nodes_iff.mp member with rfl | ⟨child, here, deeper⟩
      · exact inside
      · exact mem_nodes_of_child here (ih child here deeper)

theorem mem_ops_iff {node : OpTreeNode} {op : Op} : op ∈ node.ops ↔ ∃ inner ∈ node.nodes, inner.op = op := by
  induction node using children_induction with
  | step node ih =>
      rw [ops_eq, nodes_eq]
      simp only [List.mem_cons, List.mem_flatMap]
      constructor
      · rintro (rfl | ⟨child, member, inside⟩)
        · exact ⟨node, .inl rfl, rfl⟩
        · obtain ⟨inner, here, same⟩ := (ih child member).mp inside
          exact ⟨inner, .inr ⟨child, member, here⟩, same⟩
      · rintro ⟨inner, rfl | ⟨child, member, here⟩, same⟩
        · exact .inl same.symm
        · exact .inr ⟨child, member, (ih child member).mpr ⟨inner, here, same⟩⟩

end OpTreeNode

namespace Sorting
variable {β γ : Type} (sort : Sorting)

theorem arrange_map (weights : List Nat) (items : List β) (function : β → γ) :
    sort.arrange weights (items.map function) = (sort.arrange weights items).map function := by
  simp only [arrange, List.getElem?_map, List.map_filterMap]

theorem arrange_perm {weights : List Nat} {items : List β} (length : weights.length = items.length) :
    (sort.arrange weights items).Perm items := by
  have all := (sort.perm weights).filterMap (items[·]?)
  rw [length] at all
  have found : (List.range items.length).map (items[·]?) = items.map some := by
    apply List.ext_getElem (by simp)
    intro position _ here
    have inside : position < items.length := by simpa using here
    simp [inside]
  have identity : (List.range items.length).filterMap (items[·]?) = items := by
    calc (List.range items.length).filterMap (items[·]?)
        = ((List.range items.length).map (items[·]?)).filterMap id := by rw [List.filterMap_map]; rfl
      _ = items := by rw [found, List.filterMap_map]; exact List.filterMap_some
  rwa [identity] at all

theorem arrange_weights (weights : List Nat) :
    sort.arrange weights weights = (sort.order weights).map (weights.getD · 0) := by
  rw [arrange, ← List.filterMap_eq_map]
  apply List.filterMap_congr
  intro position member
  have inside : position < weights.length := List.mem_range.mp ((sort.perm weights).mem_iff.mp member)
  simp [inside]

def arranged (node : OpTreeNode) : List OpTreeNode :=
  sort.arrange (node.children.map OpTreeNode.weight) node.children

theorem arranged_perm (node : OpTreeNode) : (sort.arranged node).Perm node.children :=
  sort.arrange_perm (List.length_map _)

def visits (sort : Sorting) : OpTreeNode → List Op
  | .leaf op => [op]
  | .unary op left => sort.visits left ++ [op]
  | .binary op left right =>
      (sort.arrange [left.weight, right.weight] [sort.visits left, sort.visits right]).flatten ++ [op]
  | .ternary op left middle right =>
      (sort.arrange [left.weight, middle.weight, right.weight]
        [sort.visits left, sort.visits middle, sort.visits right]).flatten ++ [op]

theorem arranged_weights (node : OpTreeNode) :
    ((sort.arranged node).map OpTreeNode.weight).Pairwise (· ≥ ·) := by
  rw [arranged, ← arrange_map, arrange_weights]
  exact sort.sorted _

theorem arranged_unary (op : Op) (left : OpTreeNode) : sort.arranged (.unary op left) = [left] :=
  List.perm_singleton.mp (sort.arranged_perm (.unary op left))

theorem visits_eq (node : OpTreeNode) :
    sort.visits node = (sort.arranged node).flatMap sort.visits ++ [node.op] := by
  cases node with
  | leaf op =>
      have none : sort.arranged (.leaf op) = [] := List.perm_nil.mp (sort.arranged_perm (.leaf op))
      rw [none]
      rfl
  | unary op left =>
      rw [arranged_unary]
      simp [visits, OpTreeNode.op]
  | binary op left right =>
      exact congrArg (·.flatten ++ [op]) (sort.arrange_map [left.weight, right.weight] [left, right] sort.visits)
  | ternary op left middle right =>
      exact congrArg (·.flatten ++ [op])
        (sort.arrange_map [left.weight, middle.weight, right.weight] [left, middle, right] sort.visits)

theorem visits_perm (node : OpTreeNode) : (sort.visits node).Perm node.ops := by
  induction node using OpTreeNode.children_induction with
  | step node ih =>
      rw [sort.visits_eq, node.ops_eq]
      calc (sort.arranged node).flatMap sort.visits ++ [node.op]
          |>.Perm (node.op :: (sort.arranged node).flatMap sort.visits) := List.perm_append_singleton _ _
        _ |>.Perm (node.op :: node.children.flatMap sort.visits) :=
            ((sort.arranged_perm node).flatMap_right _).cons _
        _ |>.Perm (node.op :: node.children.flatMap OpTreeNode.ops) := (List.Perm.flatMap_left node.children ih).cons _

theorem mem_visits {node : OpTreeNode} {op : Op} : op ∈ sort.visits node ↔
    op ∈ node.ops := (sort.visits_perm node).mem_iff

end Sorting

end Visits

section Moves
variable (sort : Sorting)

theorem foldl_moved (visits : List Op) (state : State) :
    (visits.foldl State.moveBefore state).movedOps = visits.reverse ++ state.movedOps := by
  induction visits generalizing state with
  | nil => rfl
  | cons op visits ih => simp [ih, State.moveBefore]

theorem apply_children (node : OpTreeNode) (state : State) :
    applySeethiUllmanOrdering sort node state =
      ((sort.arranged node).foldl (fun state child => applySeethiUllmanOrdering sort child state) state).settle
        node.op node.children := by
  cases node with
  | leaf op =>
      have none : sort.arranged (.leaf op) = [] := List.perm_nil.mp (sort.arranged_perm (.leaf op))
      rw [none]
      rfl
  | unary op left =>
      rw [sort.arranged_unary]
      rfl
  | binary op left right =>
      have functions := sort.arrange_map [left.weight, right.weight] [left, right] (applySeethiUllmanOrdering sort)
      rw [List.map_cons, List.map_cons, List.map_nil] at functions
      rw [applySeethiUllmanOrdering, functions, List.foldl_map]
      rfl
  | ternary op left middle right =>
      have functions := sort.arrange_map [left.weight, middle.weight, right.weight] [left, middle, right]
        (applySeethiUllmanOrdering sort)
      rw [List.map_cons, List.map_cons, List.map_cons, List.map_nil] at functions
      rw [applySeethiUllmanOrdering, functions, List.foldl_map]
      rfl

theorem apply_eq (node : OpTreeNode) (state : State) :
    applySeethiUllmanOrdering sort node state = (sort.visits node).foldl State.moveBefore state := by
  induction node using OpTreeNode.children_induction generalizing state with
  | step node ih =>
      have inner : ∀ (children : List OpTreeNode) (state : State), (∀ child ∈ children, child ∈ node.children) →
          children.foldl (fun state child => applySeethiUllmanOrdering sort child state) state =
            (children.flatMap sort.visits).foldl State.moveBefore state := by
        intro children
        induction children with
        | nil => exact fun _ _ => rfl
        | cons child children later =>
            intro state own
            rw [List.foldl_cons, ih child (own child List.mem_cons_self), List.flatMap_cons, List.foldl_append]
            exact later _ fun child member => own child (List.mem_cons_of_mem _ member)
      rw [apply_children, inner _ _ fun child member => (sort.arranged_perm node).mem_iff.mp member, sort.visits_eq,
        List.foldl_append]
      refine if_pos (.inr fun child member => ?_)
      rw [foldl_moved]
      refine List.mem_append_left _ (List.mem_reverse.mpr (List.mem_flatMap.mpr ⟨child, ?_, ?_⟩))
      · exact (sort.arranged_perm node).mem_iff.mpr member
      · rw [sort.mem_visits, child.ops_eq]
        exact List.mem_cons_self

theorem dedup_concat (visits : List Op) (op : Op) : (visits ++ [op]).dedup = visits.dedup.erase op ++ [op] := by
  induction visits with
  | nil => rfl
  | cons first visits ih =>
      rw [List.cons_append]
      by_cases again : first ∈ visits
      · rw [List.dedup_cons_of_mem (List.mem_append_left _ again), List.dedup_cons_of_mem again, ih]
      · by_cases same : first = op
        · subst same
          have gone : first ∉ visits.dedup := fun member => again (List.mem_dedup.mp member)
          rw [List.dedup_cons_of_mem (by simp), ih, List.dedup_cons_of_notMem again, List.erase_cons_head,
            List.erase_of_not_mem gone]
        · rw [List.dedup_cons_of_notMem (by simp [again, same]), ih, List.dedup_cons_of_notMem again,
            List.erase_cons_tail (by simpa using same)]
          rfl

theorem foldl_before (visits : List Op) (state : State) (empty : state.before = []) :
    (visits.foldl State.moveBefore state).before = visits.dedup := by
  induction visits using List.reverseRecOn with
  | nil => exact empty
  | append_singleton visits op ih =>
      rw [List.foldl_append, dedup_concat, ← ih]
      rfl

theorem foldl_after (visits : List Op) (state : State) (distinct : state.after.Nodup) :
    (visits.foldl State.moveBefore state).after = state.after.filter (· ∉ visits) := by
  induction visits generalizing state with
  | nil => simp
  | cons op visits ih =>
      rw [List.foldl_cons, ih _ (distinct.erase op)]
      rw [State.moveBefore, distinct.erase_eq_filter, List.filter_filter]
      apply List.filter_congr
      intro other _
      rw [Bool.eq_iff_iff]
      simp [and_comm]

/-- The ops of the tree come first, each where it is visited last, and then the others as they stood. -/
theorem reorder_eq {ops : List Op} (distinct : ops.Nodup) {root : OpTreeNode} (built : buildOpTree ops = some root) :
    reorderOperationsSethiUllman sort ops =
      (sort.visits root).dedup ++ ops.filter (· ∉ sort.visits root) := by
  rw [reorderOperationsSethiUllman, built]
  dsimp only
  rw [apply_eq, foldl_before _ _ rfl, foldl_after _ _ distinct]

end Moves

end TtMlir.D2m.OpScheduler
