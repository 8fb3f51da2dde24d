import TtMlir.Ttnn.CollapseGroups
import TtMlir.Ttnn.RepeatReshape

/-!
Permutes with a thin last dim in front of a reshape, `rewriteThinLastDimPermute` in
TTNNMemoryManagement.cpp. The widest dim that is a group of its own in the reshape is moved
last before the reshape and back after it.
-/

namespace TtMlir.Ttnn.ThinPermute

open CollapseGroups

/-- Rows narrower than this are padded. -/
def kMinWideRowElems : Nat := 32

/-- The better of the dim found so far and the dim of a group, each as its place in the permute and in the reshape. -/
def widerDim (permuteShape : List Nat) (best : Option (Nat × Nat)) (entry : (Nat × Nat) × Nat) : Option (Nat × Nat) :=
  let permuteDim := entry.1.1
  if entry.1.2 ≠ permuteDim + 1 then best
  else if permuteShape.getD permuteDim 0 < kMinWideRowElems then best
  else
    match best with
    | none => some (permuteDim, entry.2)
    | some (widest, _) => if permuteShape.getD widest 0 < permuteShape.getD permuteDim 0 then some (permuteDim, entry.2) else best

def findWidestPassThroughDim (permuteShape : List Nat) (groups : List (Nat × Nat)) : Option (Nat × Nat) :=
  groups.zipIdx.foldl (widerDim permuteShape) none

inductive Layout where
  | rowMajor
  | tile
  deriving DecidableEq

/-- The ops of a chain with the shapes of their results. -/
inductive ChainOp where
  | toLayout (layout : Layout)
  | permute (axes shape : List Nat)
  | reshape (shape : List Nat)
  deriving DecidableEq

/-- A permute with a reshape of its result, as the verifiers have them. -/
structure PermuteReshape where
  inShape : List Nat
  permutation : List Nat
  zShape : List Nat
  /-- The layout of the input, where it has one. -/
  inputLayout : Option Layout
  inputFromToLayout : Bool
  reshapeLayout : Layout
  permutes : Permutes inShape.length permutation
  volume : zShape.prod = (gather inShape permutation).prod

def eraseAndPush (values : List Nat) (position : Nat) : List Nat := values.eraseIdx position ++ [values.getD position 0]

def rewriteThinLastDimPermute (op : PermuteReshape) : Option (List ChainOp) :=
  let yShape := gather op.inShape op.permutation
  if yShape.length < 2 ∨ kMinWideRowElems ≤ yShape.getLastD 0 ∨ op.inShape.getLastD 0 < kMinWideRowElems then none
  else do
    let groups ← computeCollapseGroups yShape op.zShape
    let (permuteDim, reshapeDim) ← findWidestPassThroughDim yShape groups
    let zRank := op.zShape.length
    let backPerm := List.range reshapeDim ++ (zRank - 1) :: List.range' reshapeDim (zRank - 1 - reshapeDim)
    let inRows := if op.inputFromToLayout = false ∧ op.inputLayout = some .tile then [.toLayout .rowMajor] else []
    return inRows ++ [.permute (eraseAndPush op.permutation permuteDim) (eraseAndPush yShape permuteDim),
      .reshape (eraseAndPush op.zShape reshapeDim), .toLayout op.reshapeLayout, .permute backPerm op.zShape]

section Chain
variable {α : Type}

def ChainOp.apply (tensor : Tensor α) : ChainOp → Tensor α
  | .toLayout _ => tensor
  | .permute axes _ => tensor.permute axes
  | .reshape shape => tensor.reshape shape

def runChain (chain : List ChainOp) (tensor : Tensor α) : Tensor α := chain.foldl ChainOp.apply tensor

/-- The verifiers accept the chain on a shape. -/
def Verified : List Nat → List ChainOp → Prop
  | _, [] => True
  | shape, .toLayout _ :: chain => Verified shape chain
  | shape, .permute axes result :: chain =>
      Permutes shape.length axes ∧ result = gather shape axes ∧ Verified result chain
  | shape, .reshape result :: chain => shape.prod = result.prod ∧ Verified result chain

def PermuteReshape.value (op : PermuteReshape) (tensor : Tensor α) : Tensor α :=
  (tensor.permute op.permutation).reshape op.zShape

end Chain

section Groups
variable {src dst permuteShape : List Nat} {s permuteDim reshapeDim : Nat} {groups : List (Nat × Nat)}

theorem widerDim_cases (best : Option (Nat × Nat)) (entry : (Nat × Nat) × Nat) :
    widerDim permuteShape best entry = best ∨
      (entry.1.2 = entry.1.1 + 1 ∧ widerDim permuteShape best entry = some (entry.1.1, entry.2)) := by
  unfold widerDim
  grind

theorem foldl_widerDim (entries : List ((Nat × Nat) × Nat)) (best : Option (Nat × Nat))
    (found : entries.foldl (widerDim permuteShape) best = some (permuteDim, reshapeDim)) :
    best = some (permuteDim, reshapeDim) ∨ ((permuteDim, permuteDim + 1), reshapeDim) ∈ entries := by
  induction entries generalizing best with
  | nil => exact .inl found
  | cons entry entries ih =>
      rcases ih _ found with earlier | later
      · rcases @widerDim_cases permuteShape best entry with same | ⟨single, here⟩
        · exact .inl (same ▸ earlier)
        · obtain ⟨⟨first, past⟩, place⟩ := entry
          rw [here, Option.some.injEq, Prod.mk.injEq] at earlier
          dsimp only at earlier single
          rw [single, earlier.1, earlier.2]
          exact .inr List.mem_cons_self
      · exact .inr (List.mem_cons_of_mem _ later)

theorem findWidestPassThroughDim_group
    (found : findWidestPassThroughDim permuteShape groups = some (permuteDim, reshapeDim)) :
    groups[reshapeDim]? = some (permuteDim, permuteDim + 1) := by
  rcases foldl_widerDim _ _ found with none | member
  · exact nomatch none
  · exact List.mem_zipIdx_iff_getElem?.mp member

theorem ranges_le (ranges : Ranges src s groups dst) : s ≤ src.length := by
  induction groups generalizing s dst with
  | nil =>
      cases dst with
      | nil => exact Nat.le_of_eq ranges
      | cons dim dst => exact ranges.elim
  | cons group groups ih =>
      cases dst with
      | nil => exact ranges.elim
      | cons dim dst =>
          have later := ih ranges.2.2.2
          have some := ranges.2.1
          omega

theorem drop_cut (src : List Nat) {first second : Nat} (order : first ≤ second) :
    src.drop first = (src.drop first).take (second - first) ++ src.drop second := by
  have cut := List.take_append_drop (second - first) (src.drop first)
  rw [List.drop_drop, Nat.add_sub_cancel' order] at cut
  exact cut.symm

theorem ranges_prod (ranges : Ranges src s groups dst) : (src.drop s).prod = dst.prod := by
  induction groups generalizing s dst with
  | nil =>
      cases dst with
      | nil =>
          have done : s = src.length := ranges
          rw [done, List.drop_length]
      | cons dim dst => exact ranges.elim
  | cons group groups ih =>
      cases dst with
      | nil => exact ranges.elim
      | cons dim dst =>
          obtain ⟨_, some, product, later⟩ := ranges
          rw [drop_cut src (Nat.le_of_lt some), List.prod_append, product, ih later, List.prod_cons]

theorem ranges_split (ranges : Ranges src s groups dst)
    (single : groups[reshapeDim]? = some (permuteDim, permuteDim + 1)) :
    ∃ before extent after before' after', src.drop s = before ++ extent :: after ∧ s + before.length = permuteDim ∧
      dst = before' ++ extent :: after' ∧ before'.length = reshapeDim ∧ after.prod = after'.prod := by
  induction groups generalizing s dst reshapeDim with
  | nil => exact nomatch single
  | cons group groups ih =>
      cases dst with
      | nil => exact ranges.elim
      | cons dim dst =>
          obtain ⟨start, some, product, later⟩ := ranges
          have cut := drop_cut src (Nat.le_of_lt some)
          have bound := ranges_le later
          cases reshapeDim with
          | zero =>
              rw [List.getElem?_cons_zero, Option.some.injEq] at single
              subst single
              dsimp only at start bound later product
              subst start
              have here := List.drop_eq_getElem_cons bound
              rw [Nat.add_sub_cancel_left, here, List.take_succ_cons, List.take_zero, List.prod_singleton] at product
              -- The group of one dim is the first one: nothing is in front.
              exact ⟨[], src[permuteDim], src.drop (permuteDim + 1), [], dst, here, rfl,
                by rw [product]; rfl, rfl, ranges_prod later⟩
          | succ reshapeDim =>
              rw [List.getElem?_cons_succ] at single
              obtain ⟨before, extent, after, before', after', srcSplit, place, dstSplit, length, volume⟩ :=
                ih later single
              have count : ((src.drop s).take (group.2 - s)).length = group.2 - s := by
                rw [List.length_take, List.length_drop]
                omega
              -- The dims of this group come in front of the cut of the later ones.
              refine ⟨(src.drop s).take (group.2 - s) ++ before, extent, after, dim :: before', after', ?_, ?_, ?_,
                ?_, volume⟩
              · rw [List.append_assoc, ← srcSplit]
                exact cut
              · rw [List.length_append, count]
                omega
              · rw [dstSplit, List.cons_append]
              · rw [List.length_cons, length]

end Groups

section Rewrite
variable {op : PermuteReshape} {chain : List ChainOp}

theorem eraseAndPush_append (front back : List Nat) (value : Nat) :
    eraseAndPush (front ++ value :: back) front.length = front ++ (back ++ [value]) := by
  unfold eraseAndPush
  rw [List.eraseIdx_append_of_length_le (Nat.le_refl _), Nat.sub_self, List.eraseIdx_cons_zero, getD_middle,
    List.append_assoc]

theorem eraseAndPush_gather (values : List Nat) (position : Nat) (inside : position < values.length) :
    eraseAndPush values position = gather values (moveLast values.length position) := by
  have split : values = values.take position ++ values.getD position 0 :: values.drop (position + 1) :=
    split_getD 0 values position inside
  have front : (values.take position).length = position := by
    rw [List.length_take]
    omega
  generalize values.take position = before at *
  generalize values.drop (position + 1) = after at *
  generalize values.getD position 0 = value at *
  subst front
  rw [split, eraseAndPush_append, List.length_append, List.length_cons, gather_moveLast]

theorem rewrite_spec (found : rewriteThinLastDimPermute op = some chain) :
    ∃ before extent after before' after' inRows, gather op.inShape op.permutation = before ++ extent :: after ∧
      op.zShape = before' ++ extent :: after' ∧ after.prod = after'.prod ∧
        (inRows = [] ∨ inRows = [.toLayout .rowMajor]) ∧
      chain = inRows ++ [.permute (eraseAndPush op.permutation before.length) (before ++ (after ++ [extent])),
        .reshape (before' ++ (after' ++ [extent])), .toLayout op.reshapeLayout,
        .permute (moveBack (before'.length + (after'.length + 1)) before'.length) op.zShape] := by
  unfold rewriteThinLastDimPermute at found
  dsimp only at found
  split at found
  · exact nomatch found
  · simp only [Option.bind_eq_bind, Option.bind_eq_some_iff, Option.pure_def, Option.some.injEq] at found
    obtain ⟨groups, collapsed, ⟨permuteDim, reshapeDim⟩, wide, rfl⟩ := found
    have ranges : Ranges (gather op.inShape op.permutation) 0 groups op.zShape :=
      (collapseFrom_sound [] rfl collapsed).2
    obtain ⟨before, extent, after, before', after', srcSplit, place, dstSplit, length, volume⟩ :=
      ranges_split ranges (findWidestPassThroughDim_group wide)
    rw [List.drop_zero] at srcSplit
    rw [Nat.zero_add] at place
    subst place length
    refine ⟨before, extent, after, before', after', if op.inputFromToLayout = false ∧
      op.inputLayout = some .tile then [.toLayout .rowMajor] else [],
      srcSplit, dstSplit, volume, ?_, ?_⟩
    · split
      · exact .inr rfl
      · exact .inl rfl
    · have count : (before' ++ extent :: after').length = before'.length + (after'.length + 1) := by
        rw [List.length_append, List.length_cons]
      rw [srcSplit, dstSplit, eraseAndPush_append, eraseAndPush_append, count]
      rfl

theorem moved_permutation {before after : List Nat} {extent : Nat}
    (split : gather op.inShape op.permutation = before ++ extent :: after) :
    Permutes op.inShape.length (moveLast op.inShape.length before.length) ∧
      op.inShape.length = before.length + (after.length + 1) ∧
      eraseAndPush op.permutation before.length = gather op.permutation (moveLast op.inShape.length before.length) := by
  have count := congrArg List.length split
  rw [gather_length, op.permutes.length, List.length_append, List.length_cons] at count
  have inside : before.length < op.inShape.length := by omega
  have moved := eraseAndPush_gather op.permutation before.length (by rwa [op.permutes.length])
  rw [op.permutes.length] at moved
  exact ⟨moveLast_permutes inside, count, moved⟩

theorem rewriteThinLastDimPermute_same (found : rewriteThinLastDimPermute op = some chain) :
    Verified op.inShape chain ∧ ∀ (α : Type) (tensor : Tensor α), tensor.shape = op.inShape →
      (runChain chain tensor).Same (op.value tensor) := by
  obtain ⟨before, extent, after, before', after', inRows, split, final, volume, rows, rfl⟩ := rewrite_spec found
  obtain ⟨moves, rank, moved⟩ := moved_permutation split
  have both := op.permutes.gather moves
  rw [moved]
  constructor
  · -- The verifier: the shapes of the permutes and the volume of the reshape.
    have volumes := op.volume
    rw [split, final, List.prod_append, List.prod_append, List.prod_cons, List.prod_cons, volume] at volumes
    have below : ∀ axis ∈ moveLast op.inShape.length before.length, axis < op.permutation.length := by
      intro axis member
      rw [op.permutes.length]
      exact (moves.mem axis).mp member
    have inner : Verified op.inShape [.permute (gather op.permutation (moveLast op.inShape.length before.length))
        (before ++ (after ++ [extent])),
        .reshape (before' ++ (after' ++ [extent])), .toLayout op.reshapeLayout,
        .permute (moveBack (before'.length + (after'.length + 1)) before'.length) op.zShape] := by
      refine ⟨both, ?_, ?_, ?_, ?_, trivial⟩
      · rw [← gather_gather _ _ _ below, split, rank, gather_moveLast]
      · rw [List.prod_append, List.prod_append, List.prod_append, List.prod_append, List.prod_singleton, volume,
          Nat.mul_comm after'.prod extent]
        exact volumes.symm
      · have count : (before' ++ (after' ++ [extent])).length = before'.length + (after'.length + 1) := by
          rw [List.length_append, List.length_append, List.length_singleton]
        rw [count]
        exact moveBack_permutes (by omega)
      · rw [final, gather_moveBack]
    rcases rows with rfl | rfl
    · exact inner
    · exact inner
  · intro α tensor input
    have runs : runChain (inRows ++
        [.permute (gather op.permutation (moveLast op.inShape.length before.length)) (before ++ (after ++ [extent])),
        .reshape (before' ++ (after' ++ [extent])), .toLayout op.reshapeLayout,
        .permute (moveBack (before'.length + (after'.length + 1)) before'.length) op.zShape]) tensor =
          ((tensor.permute (gather op.permutation (moveLast op.inShape.length before.length))).reshape
            (before' ++ (after' ++ [extent]))).permute
            (moveBack (before'.length + (after'.length + 1)) before'.length) := by
      rcases rows with rfl | rfl <;> rfl
    -- Two permutes are one, by the gathered permutation.
    have twice := tensor.permute_permute op.permutes moves
    have shape : (tensor.permute op.permutation).shape = before ++ extent :: after := by
      rw [← split, ← input]
      rfl
    have same := Tensor.reshape_moveLast before after before' after' extent _ shape volume
    rw [← rank, twice] at same
    unfold PermuteReshape.value
    rw [runs, final]
    exact same

/-- Both rewrites keep what the chain computes, for all contents. -/
theorem layoutRewrites_same :
    (∀ (op : PermuteReshape) (chain : List ChainOp), rewriteThinLastDimPermute op = some chain →
      Verified op.inShape chain ∧ ∀ (α : Type) (tensor : Tensor α), tensor.shape = op.inShape →
        (runChain chain tensor).Same (op.value tensor)) ∧
      ∀ (op replacement : RepeatReshape.RepeatOp), RepeatReshape.matchAndRewrite op = some replacement →
        replacement.users = op.users ∧ ∀ (α : Type) (tensor : Tensor α) (shape : List Nat), tensor.shape = op.inputShape →
          ((tensor.repeated replacement.repeatDims).reshape shape).Same ((tensor.repeated op.repeatDims).reshape shape) :=
  ⟨fun _ _ found => rewriteThinLastDimPermute_same found, fun _ _ found => RepeatReshape.matchAndRewrite_same found⟩

def wideColumn : PermuteReshape where
  inShape := [2, 3, 64]
  permutation := [2, 0, 1]
  zShape := [64, 6]
  inputLayout := some .tile
  inputFromToLayout := false
  reshapeLayout := .tile
  permutes := by decide
  volume := by decide

def repeatedRow : RepeatReshape.RepeatOp where
  inputShape := [1, 1, 1, 64]
  repeatDims := [8, 1, 1, 1]
  users := [.reshape [1, 1, 1, 512]]
  ranks := rfl
  positive := by decide
  volumes := by simp

theorem wideColumn_same :
    (Verified [2, 3, 64] [.toLayout .rowMajor, .permute [0, 1, 2] [2, 3, 64], .reshape [6, 64], .toLayout .tile, .permute [1, 0] [64, 6]] ∧
      (runChain [.toLayout .rowMajor, .permute [0, 1, 2] [2, 3, 64], .reshape [6, 64], .toLayout .tile, .permute [1, 0] [64, 6]]
        ⟨[2, 3, 64], flatten [2, 3, 64]⟩).Same (wideColumn.value ⟨[2, 3, 64], flatten [2, 3, 64]⟩)) ∧
      repeatedRow.adjusted.users = repeatedRow.users ∧
        ((Tensor.repeated ⟨[1, 1, 1, 64], flatten [1, 1, 1, 64]⟩ repeatedRow.adjusted.repeatDims).reshape [1, 1, 1, 512]).Same
          ((Tensor.repeated ⟨[1, 1, 1, 64], flatten [1, 1, 1, 64]⟩ repeatedRow.repeatDims).reshape [1, 1, 1, 512]) := by
  have permute := layoutRewrites_same.1 wideColumn
    [.toLayout .rowMajor, .permute [0, 1, 2] [2, 3, 64], .reshape [6, 64], .toLayout .tile, .permute [1, 0] [64, 6]]
      (by decide)
  have repeated := layoutRewrites_same.2 repeatedRow repeatedRow.adjusted rfl
  exact ⟨⟨permute.1, permute.2 Nat _ rfl⟩, repeated.1, repeated.2 Nat _ [1, 1, 1, 512] rfl⟩

end Rewrite

end TtMlir.Ttnn.ThinPermute
