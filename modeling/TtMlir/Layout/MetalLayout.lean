import TtMlir.Library.Countdown
import TtMlir.Library.Strides
import TtMlir.Library.TieBreak
import TtMlir.Memory.Device

/-!
`MetalLayoutAttr`: the logical dims collapse interval by interval into physical
dims, each stage of a collapse rounded up to the alignment of its dim. Shapes
are unbounded integers.
-/

namespace TtMlir.Layout

open Memory

structure MetalLayoutAttr where
  logicalShape : List Int
  dimAlignments : List Int
  collapsedIntervals : List (Int × Int)
  deriving DecidableEq, Repr

/-- `TileType::getDefaultShape`. -/
def defaultTileShape : List Int := [32, 32]

def startsBefore (a b : Int × Int) : Prop := a.1 < b.1

instance : DecidableRel startsBefore := fun a b => inferInstanceAs (Decidable (a.1 < b.1))

/-- Python-like negative indexing. -/
def fromEnd (rank : Nat) (index : Int) : Int := if index < 0 then rank + index else index

/-- Intervals sorted by start, then one for every dim past the last end; an empty one for a rank-1
tensor. -/
def normalizeIntervals (ties : TieBreak (Int × Int)) (inputIntervals : List (Int × Int)) (inputRank : Nat) :
    List (Int × Int) :=
  let intervals := inputIntervals.map fun interval => (fromEnd inputRank interval.1, fromEnd inputRank interval.2)
  let sorted := ties.sort startsBefore intervals
  let coveredUpTo := sorted.foldl (fun covered interval => max covered interval.2) 0
  let uncovered := (List.range (inputRank - coveredUpTo).toNat).map fun i : Nat =>
    (coveredUpTo + (i : Int), coveredUpTo + (i : Int) + 1)
  let normalized := sorted ++ uncovered
  if inputRank = 1 ∧ normalized.length = 1 then (0, 0) :: normalized else normalized

def collapseStage (shape alignments : List Int) (dim : Nat) (collapsedDim : Int) : Int :=
  alignUp (shape.getD dim 0 * collapsedDim) (alignments.getD dim 1)

def collapseInterval (shape alignments : List Int) (interval : Int × Int) : Option (List Int) :=
  let start := fromEnd shape.length interval.1
  let stop := fromEnd shape.length interval.2
  if 0 ≤ start ∧ start < shape.length ∧ start ≤ stop ∧ stop ≤ shape.length then
    if stop - start = 1 then some [alignUp (shape.getD start.toNat 0) (alignments.getD start.toNat 1)]
    else if stop > start then
      let innermost := alignUp (shape.getD (stop - 1).toNat 0) (alignments.getD (stop - 1).toNat 1)
      some [countdown (fun i => collapseStage shape alignments (start.toNat + i)) (stop - 1 - start).toNat innermost]
    else some []
  else none

/-- `none` where an assertion of the source fails. -/
def applyCollapsedIntervalsAndAlignments (shape : List Int) (normalizedIntervals : List (Int × Int))
    (alignments : List Int) : Option (List Int) := do
  if shape.length ≠ alignments.length then none
  else
    let collapsed ← normalizedIntervals.mapM (collapseInterval shape alignments)
    let currentIdx := (normalizedIntervals.getLast?.map fun interval => fromEnd shape.length interval.2).getD 0
    -- dims past the last interval, the last one first
    let remaining := ((List.range (shape.length - currentIdx).toNat).map fun i =>
      alignUp (shape.getD (shape.length - 1 - i) 0) (alignments.getD (shape.length - 1 - i) 1))
    some (collapsed.flatten ++ remaining)

def divideByTile (physicalShape : List Int) (dim : Nat) (tileDim : Int) : Option (List Int) :=
  if physicalShape.getD dim 0 % tileDim = 0 then some (physicalShape.modify dim (· / tileDim)) else none

namespace MetalLayoutAttr
variable (ties : TieBreak (Int × Int)) (layout : MetalLayoutAttr)

def getNormalizedIntervals : List (Int × Int) :=
  normalizeIntervals ties layout.collapsedIntervals layout.logicalShape.length

def untiledPhysicalShape : Option (List Int) := do
  let physicalShape ← applyCollapsedIntervalsAndAlignments layout.logicalShape (layout.getNormalizedIntervals ties)
    layout.dimAlignments
  if layout.logicalShape = [] ∧ physicalShape = [] then some defaultTileShape
  else if layout.logicalShape.length = 1 ∧ physicalShape.length = 1 then some (defaultTileShape.getD 0 0 :: physicalShape)
  else some physicalShape

/-- Tiled in its last two dims, unless the tile shape is empty. -/
def getPhysicalShape (tileShape : List Int) : Option (List Int) := do
  let physicalShape ← layout.untiledPhysicalShape ties
  match tileShape with
  | [] => some physicalShape
  | [tileY, tileX] =>
      if 2 ≤ physicalShape.length then
        let tiled ← divideByTile physicalShape (physicalShape.length - 2) tileY
        divideByTile tiled (physicalShape.length - 1) tileX
      else none
  | _ => none

/-- The grid followed by the shard, which has to come out even. -/
def getDeviceShape (gridShape tileShape : List Int) : Option (List Int) := do
  let physicalShape ← layout.getPhysicalShape ties tileShape
  let shardShape ← (List.range physicalShape.length).mapM fun i => do
    let gridDim ← gridShape[i]?
    if physicalShape.getD i 0 % gridDim = 0 then some (physicalShape.getD i 0 / gridDim) else none
  some (gridShape ++ shardShape)

/-- Strides of one interval, innermost dim first: the stride before the interval
times the collapsed size so far. -/
def hostDim (dim : Nat) (state : List Int × Int × Int) : List Int × Int × Int :=
  let (strides, currentStride, collapsedSize) := state
  let nextSize := alignUp (collapsedSize * layout.logicalShape.getD dim 0) (layout.dimAlignments.getD dim 1)
  (strides.set dim currentStride, currentStride / collapsedSize * nextSize, nextSize)

def hostInterval (interval : Int × Int) (state : List Int × Int) : List Int × Int :=
  let start := interval.1.toNat
  let after := countdown (fun i => layout.hostDim (start + i)) (interval.2 - interval.1).toNat (state.1, state.2, 1)
  (after.1, after.2.1)

/-- `none` where the final stride is below the logical volume, which the source asserts it is not. -/
def getHostStrideAndVolume : Option (List Int × Int) :=
  let (strides, stride) := (layout.getNormalizedIntervals ties).foldr layout.hostInterval
    (List.replicate layout.logicalShape.length 0, 1)
  let currentStride := if layout.logicalShape.length = 1 then stride * defaultTileShape.getD 0 0 else stride
  if currentStride ≥ layout.logicalShape.prod then some (strides, currentStride) else none

end MetalLayoutAttr

/-- The intervals cover the dims from `first` on, in order. -/
def PartitionFrom (rank : Nat) : Int → List (Int × Int) → Prop
  | first, [] => first = rank
  | first, (start, stop) :: rest => start = first ∧ start ≤ stop ∧ start < rank ∧ PartitionFrom rank stop rest

instance PartitionFrom.decidable (rank : Nat) :
    (first : Int) → (intervals : List (Int × Int)) → Decidable (PartitionFrom rank first intervals)
  | first, [] => inferInstanceAs (Decidable (first = rank))
  | _, (_, stop) :: rest =>
      let _ := PartitionFrom.decidable rank stop rest
      inferInstanceAs (Decidable (_ ∧ _ ∧ _ ∧ _))

/-- Positive extents and alignments, and intervals that partition the dims in order. -/
structure MetalLayoutAttr.WellFormed (ties : TieBreak (Int × Int)) (layout : MetalLayoutAttr) : Prop where
  sameRank : layout.dimAlignments.length = layout.logicalShape.length
  dims : ∀ dim ∈ layout.logicalShape, 0 < dim
  alignments : ∀ alignment ∈ layout.dimAlignments, 0 < alignment
  partition : PartitionFrom layout.logicalShape.length 0 (layout.getNormalizedIntervals ties)

section
variable {rank : Nat} {first : Int} {intervals : List (Int × Int)}
  (partition : PartitionFrom rank first intervals)
include rank first intervals partition

theorem PartitionFrom.first_le : first ≤ rank := by
  cases intervals with
  | nil => exact le_of_eq partition
  | cons interval rest =>
      obtain ⟨same, _, inside, _⟩ := partition
      omega

theorem PartitionFrom.bounds :
    ∀ interval ∈ intervals, first ≤ interval.1 ∧ interval.1 ≤ interval.2 ∧ interval.2 ≤ rank := by
  induction intervals generalizing first with
  | nil => exact fun _ member => nomatch member
  | cons interval rest ih =>
      obtain ⟨start, stop⟩ := interval
      obtain ⟨same, ordered, _, tail⟩ := partition
      intro other member
      rcases List.mem_cons.mp member with here | later
      · rw [here]
        exact ⟨same.ge, ordered, tail.first_le⟩
      · obtain ⟨beyond, bounds⟩ := ih tail other later
        exact ⟨by omega, bounds⟩

theorem PartitionFrom.pairwise : intervals.Pairwise fun early late => early.2 ≤ late.1 := by
  induction intervals generalizing first with
  | nil => exact List.Pairwise.nil
  | cons interval rest ih =>
      obtain ⟨_, _, _, tail⟩ := partition
      exact List.Pairwise.cons (fun late member => (tail.bounds late member).1) (ih tail)

theorem PartitionFrom.adjacent (idx : Nat) (inside : idx + 1 < intervals.length) :
    (intervals.getD idx (0, 0)).2 = (intervals.getD (idx + 1) (0, 0)).1 := by
  induction intervals generalizing first idx with
  | nil => cases inside
  | cons interval rest ih =>
      obtain ⟨start, stop⟩ := interval
      obtain ⟨_, _, _, tail⟩ := partition
      cases idx with
      | zero =>
          cases rest with
          | nil => simp at inside
          | cons next rest => exact tail.1.symm
      | succ idx => exact ih tail idx (by simpa using inside)

end

section Stages
variable (shape alignments : List Int)

def intervalSize (start count : Nat) : Int :=
  countdown (fun i => collapseStage shape alignments (start + i)) count 1

variable (sameRank : alignments.length = shape.length) (dims : ∀ dim ∈ shape, 0 < dim)
  (positive : ∀ alignment ∈ alignments, 0 < alignment)
include sameRank dims positive

theorem collapseStage_le (dim : Nat) (inside : dim < shape.length) (size : Int) (sizePos : 0 < size) :
    shape.getD dim 0 * size ≤ collapseStage shape alignments dim size ∧ 0 < collapseStage shape alignments dim size := by
  have extent : 0 < shape.getD dim 0 := by
    rw [List.getD_eq_getElem _ _ inside]
    exact dims _ (List.getElem_mem inside)
  have alignment : 0 < alignments.getD dim 1 := by
    rw [List.getD_eq_getElem _ _ (sameRank ▸ inside)]
    exact positive _ (List.getElem_mem _)
  constructor
  · exact alignUp_le _ _ alignment
  · exact alignUp_pos _ _ (Int.mul_pos extent sizePos) alignment

theorem intervalSize_pos (start count : Nat) (inside : start + count ≤ shape.length) :
    0 < intervalSize shape alignments start count := by
  refine countdown_invariant (fun _ size => 0 < size) Int.one_pos ?_
  intro i below size sizePos
  exact (collapseStage_le shape alignments sameRank dims positive (start + i) (by omega) size sizePos).2

end Stages

theorem collapseInterval_eq (shape alignments : List Int) (start stop : Nat) (ordered : start ≤ stop)
    (inside : start < shape.length) (bounded : stop ≤ shape.length) :
    collapseInterval shape alignments (start, stop) =
      some (if start = stop then [] else [intervalSize shape alignments start (stop - start)]) := by
  have noWrapStart : fromEnd shape.length (start : Int) = start := if_neg (by omega)
  have noWrapStop : fromEnd shape.length (stop : Int) = stop := if_neg (by omega)
  have inBounds : 0 ≤ (start : Int) ∧ (start : Int) < shape.length ∧ (start : Int) ≤ stop ∧
      (stop : Int) ≤ shape.length := by
    omega
  simp only [collapseInterval, noWrapStart, noWrapStop, if_pos inBounds]
  obtain ⟨count, rfl⟩ := Nat.exists_eq_add_of_le ordered
  match count with
  | 0 => simp
  | 1 => simp [intervalSize, countdown, collapseStage]
  | count + 2 =>
      have many : ¬ ((start + (count + 2) : Nat) : Int) - start = 1 := by omega
      have some' : ((start + (count + 2) : Nat) : Int) > start := by omega
      have last : (((start + (count + 2) : Nat) : Int) - 1).toNat = start + (count + 1) := by omega
      have inner : (((start + (count + 2) : Nat) : Int) - 1 - start).toNat = count + 1 := by omega
      have nonempty : start ≠ start + (count + 2) := by omega
      have length : start + (count + 2) - start = count + 2 := by omega
      rw [if_neg many, if_pos some', if_neg nonempty, length, last, inner, Int.toNat_natCast]
      simp only [intervalSize, countdown, collapseStage, mul_one]

def collapsedSizes (shape alignments : List Int) (intervals : List (Int × Int)) : List Int :=
  intervals.flatMap fun interval =>
    if interval.1 = interval.2 then []
    else [intervalSize shape alignments interval.1.toNat (interval.2 - interval.1).toNat]

theorem mapM_collapseInterval (shape alignments : List Int) (intervals : List (Int × Int)) (first : Int)
    (nonneg : 0 ≤ first) (partition : PartitionFrom shape.length first intervals) :
    ∃ collapsed, intervals.mapM (collapseInterval shape alignments) = some collapsed ∧
      collapsed.flatten = collapsedSizes shape alignments intervals := by
  induction intervals generalizing first with
  | nil => exact ⟨[], rfl, rfl⟩
  | cons interval rest ih =>
      obtain ⟨start, stop⟩ := interval
      obtain ⟨same, ordered, inside, tail⟩ := partition
      have bounded := tail.first_le
      obtain ⟨collapsed, maps, flat⟩ := ih stop (by omega) tail
      obtain ⟨low, rfl⟩ := Int.eq_ofNat_of_zero_le (show 0 ≤ start by omega)
      obtain ⟨high, rfl⟩ := Int.eq_ofNat_of_zero_le (show 0 ≤ stop by omega)
      have here := collapseInterval_eq shape alignments low high (by omega) (by omega) (by omega)
      refine ⟨_, by simp only [List.mapM_cons, here, maps]; rfl, ?_⟩
      have difference : ((high : Int) - low).toNat = high - low := by omega
      simp only [List.flatten_cons, flat, collapsedSizes, List.flatMap_cons, Nat.cast_inj, difference,
        Int.toNat_natCast]

theorem PartitionFrom.last {rank : Nat} {first : Int} {intervals : List (Int × Int)}
    (partition : PartitionFrom rank first intervals) (nonempty : intervals ≠ []) :
    ∃ start, intervals.getLast? = some (start, (rank : Int)) := by
  induction intervals generalizing first with
  | nil => exact absurd rfl nonempty
  | cons interval rest ih =>
      obtain ⟨start, stop⟩ := interval
      obtain ⟨_, _, _, tail⟩ := partition
      cases rest with
      | nil =>
          have ends : stop = rank := tail
          exact ⟨start, by rw [ends]; rfl⟩
      | cons next rest =>
          obtain ⟨last, isLast⟩ := ih tail (List.cons_ne_nil _ _)
          exact ⟨last, by rw [List.getLast?_cons_cons]; exact isLast⟩

theorem applyCollapsed_eq (shape alignments : List Int) (intervals : List (Int × Int))
    (sameRank : alignments.length = shape.length) (nonempty : 0 < shape.length)
    (partition : PartitionFrom shape.length 0 intervals) :
    applyCollapsedIntervalsAndAlignments shape intervals alignments =
      some (collapsedSizes shape alignments intervals) := by
  obtain ⟨collapsed, maps, flat⟩ := mapM_collapseInterval shape alignments intervals 0 (le_refl _) partition
  have some' : intervals ≠ [] := by
    intro none
    rw [none] at partition
    have : (0 : Int) = shape.length := partition
    omega
  obtain ⟨start, last⟩ := partition.last some'
  have noWrap : fromEnd shape.length (shape.length : Int) = shape.length := if_neg (by omega)
  simp only [applyCollapsedIntervalsAndAlignments, sameRank, ne_eq, not_true_eq_false, ↓reduceIte, maps, last,
    Option.map_some, noWrap, Option.getD_some, sub_self, Int.toNat_zero, List.range_zero, List.map_nil, List.append_nil]
  exact congrArg some flat

structure PackedFrom (layout : MetalLayoutAttr) (dim : Nat) (strides : List Int) (current : Int) : Prop where
  length : strides.length = layout.logicalShape.length
  packed : Strides.Packed (layout.logicalShape.drop dim) (strides.drop dim) current
  covers : (layout.logicalShape.drop dim).prod ≤ current

section Host
variable (layout : MetalLayoutAttr) (sameRank : layout.dimAlignments.length = layout.logicalShape.length)
  (dims : ∀ dim ∈ layout.logicalShape, 0 < dim) (positive : ∀ alignment ∈ layout.dimAlignments, 0 < alignment)
include sameRank dims positive

theorem hostInterval_packed (start stop : Nat) (ordered : start ≤ stop) (inside : stop ≤ layout.logicalShape.length)
    (strides : List Int) (current : Int) (currentPos : 0 < current) (packed : PackedFrom layout stop strides current) :
    let after := layout.hostInterval (start, stop) (strides, current)
    PackedFrom layout start after.1 after.2 ∧
      after.2 = current * intervalSize layout.logicalShape layout.dimAlignments start (stop - start) := by
  have count : ((stop : Int) - start).toNat = stop - start := by omega
  simp only [MetalLayoutAttr.hostInterval, Int.toNat_natCast, count]
  let size := collapseStage layout.logicalShape layout.dimAlignments
  have reached := @countdown_invariant _ (fun i => layout.hostDim (start + i)) (stop - start)
    (strides, current, 1)
    (fun i state => PackedFrom layout (start + i) state.1 state.2.1 ∧ state.2.1 = current * state.2.2 ∧ 0 < state.2.2 ∧
      countdown (fun i => size (start + i)) i state.2.2 = countdown (fun i => size (start + i)) (stop - start) 1)
    ⟨by rw [Nat.add_sub_of_le ordered]; exact packed, (mul_one current).symm, Int.one_pos, rfl⟩ ?_
  · obtain ⟨packedStart, stride, _, size⟩ := reached
    refine ⟨packedStart, stride.trans (congrArg (current * ·) ?_)⟩
    exact size
  · rintro i below ⟨before, stride, collapsed⟩ ⟨⟨length, packedBefore, covers⟩, isStride, collapsedPos, rest⟩
    simp only at length packedBefore covers isStride collapsedPos rest
    have known : start + i < layout.logicalShape.length := by omega
    obtain ⟨room, nextPos⟩ := collapseStage_le layout.logicalShape layout.dimAlignments sameRank dims positive
      (start + i)
      known collapsed collapsedPos
    have next : stride / collapsed * size (start + i) collapsed = current * size (start + i) collapsed := by
      rw [isStride, Int.mul_ediv_cancel _ collapsedPos.ne']
    have swapped : alignUp (collapsed * layout.logicalShape.getD (start + i) 0)
        (layout.dimAlignments.getD (start + i) 1) = size (start + i) collapsed := by
      rw [mul_comm]
      rfl
    simp only [MetalLayoutAttr.hostDim, swapped, next, true_and]
    have extent : 0 < layout.logicalShape.getD (start + i) 0 := by
      rw [List.getD_eq_getElem _ _ known]
      exact dims _ (List.getElem_mem known)
    have grows : layout.logicalShape.getD (start + i) 0 * stride ≤ current * size (start + i) collapsed := by
      calc layout.logicalShape.getD (start + i) 0 * stride
          = current * (layout.logicalShape.getD (start + i) 0 * collapsed) := by rw [isStride]; ring
        _ ≤ current * size (start + i) collapsed := Int.mul_le_mul_of_nonneg_left room currentPos.le
    have present : start + i < (before.set (start + i) stride).length := by
      rw [List.length_set, length]
      exact known
    have placed : (before.set (start + i) stride).getD (start + i) 0 = stride := by
      rw [List.getD_eq_getElem _ _ present, List.getElem_set_self]
    refine ⟨⟨(List.length_set ..).trans length, ?_, ?_⟩, nextPos, rest⟩
    · rw [drop_eq_cons layout.logicalShape (start + i) known, drop_eq_cons _ (start + i) present, placed,
        List.drop_set_of_lt (Nat.lt_succ_self _)]
      exact packedBefore.cons _ _ grows
    · rw [drop_eq_cons layout.logicalShape (start + i) known, List.prod_cons]
      exact le_trans (Int.mul_le_mul_of_nonneg_left covers extent.le) grows

theorem hostIntervals_packed (intervals : List (Int × Int)) (first : Int) (nonneg : 0 ≤ first)
    (partition : PartitionFrom layout.logicalShape.length first intervals) :
    let after := intervals.foldr layout.hostInterval (List.replicate layout.logicalShape.length 0, 1)
    PackedFrom layout first.toNat after.1 after.2 ∧
      after.2 = (collapsedSizes layout.logicalShape layout.dimAlignments intervals).prod ∧ 0 < after.2 := by
  induction intervals generalizing first with
  | nil =>
      have ends : first = layout.logicalShape.length := partition
      have empty : (List.replicate layout.logicalShape.length (0 : Int)).drop layout.logicalShape.length = [] :=
        List.drop_of_length_le List.length_replicate.le
      simp only [List.foldr_nil]
      refine ⟨⟨List.length_replicate, ?_, ?_⟩, rfl, Int.one_pos⟩
      · rw [ends, Int.toNat_natCast, List.drop_length, empty]
        exact Strides.packed_nil 1 Int.one_pos
      · rw [ends, Int.toNat_natCast, List.drop_length]
        exact le_refl _
  | cons interval rest ih =>
      obtain ⟨start, stop⟩ := interval
      obtain ⟨same, ordered, inside, tail⟩ := partition
      have bounded := tail.first_le
      obtain ⟨packed, volume, currentPos⟩ := ih stop (by omega) tail
      obtain ⟨low, rfl⟩ := Int.eq_ofNat_of_zero_le (show 0 ≤ start by omega)
      obtain ⟨high, rfl⟩ := Int.eq_ofNat_of_zero_le (show 0 ≤ stop by omega)
      obtain ⟨after, grown⟩ := hostInterval_packed layout sameRank dims positive low high (by omega) (by omega) _ _
        currentPos packed
      have sizePos := intervalSize_pos layout.logicalShape layout.dimAlignments sameRank dims positive low (high - low)
        (by omega)
      have difference : ((high : Int) - low).toNat = high - low := by omega
      rw [List.foldr_cons, ← same, Int.toNat_natCast]
      refine ⟨after, ?_, ?_⟩
      · rw [grown, volume]
        simp only [collapsedSizes, List.flatMap_cons, List.prod_append, Nat.cast_inj, difference, Int.toNat_natCast]
        split
        · rename_i empty
          rw [empty, Nat.sub_self, List.prod_nil, one_mul]
          exact mul_one _
        · rw [List.prod_cons, List.prod_nil, mul_one, mul_comm]
      · rw [grown]
        exact Int.mul_pos currentPos sizePos

end Host

theorem collapsedSizes_rankOne (shape alignments : List Int) (intervals : List (Int × Int))
    (partition : PartitionFrom 1 0 intervals) : (collapsedSizes shape alignments intervals).length = 1 := by
  induction intervals with
  | nil => cases (show (0 : Int) = (1 : Nat) from partition)
  | cons interval rest ih =>
      obtain ⟨start, stop⟩ := interval
      obtain ⟨same, ordered, inside, tail⟩ := partition
      have bounded := tail.first_le
      rcases (show stop = 0 ∨ stop = 1 by omega) with empty | whole
      · subst empty
        simpa [collapsedSizes, same] using ih tail
      · subst whole
        cases rest with
        | nil => simp [collapsedSizes, same]
        | cons next rest =>
            obtain ⟨_, _, beyond, _⟩ := tail
            omega

/-- The host volume is that of the physical shape, and the host strides give
every logical index an offset of its own below it. -/
theorem hostLayout_agrees (ties : TieBreak (Int × Int)) (layout : MetalLayoutAttr) (wellFormed : layout.WellFormed ties)
    (ranked : 1 ≤ layout.logicalShape.length) :
    ∃ physicalShape strides volume, layout.getPhysicalShape ties [] = some physicalShape ∧
      layout.getHostStrideAndVolume ties = some (strides, volume) ∧ volume = physicalShape.prod ∧
      Strides.Packed layout.logicalShape strides volume := by
  obtain ⟨sameRank, dims, positive, partition⟩ := wellFormed
  have applied := applyCollapsed_eq layout.logicalShape layout.dimAlignments
      (layout.getNormalizedIntervals ties) sameRank
    ranked partition
  obtain ⟨⟨_, packed, covers⟩, volume, stridePos⟩ := hostIntervals_packed layout sameRank dims positive
    (layout.getNormalizedIntervals ties) 0 (le_refl _) partition
  simp only [Int.toNat_zero, List.drop_zero] at packed covers
  have nonempty : layout.logicalShape ≠ [] := List.length_pos_iff.mp ranked
  generalize folded : (layout.getNormalizedIntervals ties).foldr layout.hostInterval
    (List.replicate layout.logicalShape.length 0, 1) = host at packed covers volume stridePos
  obtain ⟨strides, stride⟩ := host
  simp only at packed covers volume stridePos
  by_cases rankOne : layout.logicalShape.length = 1
  · rw [rankOne] at partition
    have single := collapsedSizes_rankOne layout.logicalShape layout.dimAlignments _ partition
    refine ⟨32 :: collapsedSizes layout.logicalShape layout.dimAlignments (layout.getNormalizedIntervals ties), strides,
      stride * 32, ?_, ?_, ?_, packed.mono (by omega)⟩
    · simp only [MetalLayoutAttr.getPhysicalShape, MetalLayoutAttr.untiledPhysicalShape, applied, Option.bind_some,
        nonempty, false_and, ↓reduceIte, rankOne, single, and_self, bind]
      rfl
    · simp only [MetalLayoutAttr.getHostStrideAndVolume, folded, if_pos rankOne]
      exact if_pos (le_trans covers (by change stride ≤ stride * 32; omega))
    · rw [List.prod_cons, ← volume, mul_comm]
  · refine ⟨collapsedSizes layout.logicalShape layout.dimAlignments (layout.getNormalizedIntervals ties), strides,
      stride, ?_, ?_, volume, packed⟩
    · simp only [MetalLayoutAttr.getPhysicalShape, MetalLayoutAttr.untiledPhysicalShape, applied, Option.bind_some,
        nonempty, false_and, ↓reduceIte, rankOne, bind]
    · simp only [MetalLayoutAttr.getHostStrideAndVolume, folded, if_neg rankOne]
      exact if_pos covers

/-- 5 x 43 rows in one interval: the stride of the outer dim is the aligned 64, not 43. -/
theorem hostLayout_agrees_padded :
    let layout : MetalLayoutAttr := ⟨[5, 43, 7], [1, 32, 32], [(0, 2)]⟩
    layout.getHostStrideAndVolume (TieBreak.insertion _) = some ([2048, 32, 1], 10240) ∧
    ∃ physicalShape strides volume, layout.getPhysicalShape (TieBreak.insertion _) [] = some physicalShape ∧
      layout.getHostStrideAndVolume (TieBreak.insertion _) = some (strides, volume) ∧ volume = physicalShape.prod ∧
      Strides.Packed layout.logicalShape strides volume := by
  intro layout
  constructor
  · decide
  · exact hostLayout_agrees _ layout ⟨by decide, by decide, by decide, by decide⟩ (by decide)

end TtMlir.Layout
