import TtMlir.Layout.MetalLayout
import TtMlir.Library.MapM

/-!
Alignments for a selected grid: every collapse interval is padded at its first
dim until the grid, and the tiles in the last two intervals, divide it.
-/

namespace TtMlir.Layout

open Memory

/-- Alignments that only round the last two intervals up to tiles; `none` where
an assertion of the source fails. -/
def computeTileAlignments (logicalShape : List Int) (normalizedIntervals : List (Int × Int)) : Option (List Int) := do
  let logicalRank := logicalShape.length
  let collapsedRank := normalizedIntervals.length
  match logicalRank with
  | 0 => some []
  | 1 => some [defaultTileShape.getD 1 0]
  | _ =>
      let (_, lastEnd) ← normalizedIntervals[collapsedRank - 1]?
      let (_, secondEnd) ← if 2 ≤ collapsedRank then normalizedIntervals[collapsedRank - 2]? else none
      let alignments := (List.replicate logicalRank 1).set (lastEnd - 1).toNat (defaultTileShape.getD 1 0)
      let alignments := alignments.set (secondEnd - 1).toNat (defaultTileShape.getD 0 0)
      if alignments.getD (logicalRank - 1) 0 % defaultTileShape.getD 1 0 = 0 ∧
          alignments.getD (logicalRank - 2) 0 % defaultTileShape.getD 0 0 = 0 then some alignments
      else none

/-- Precondition of the source: a nonempty interval. -/
def computeCollapsedIntervalSize (logicalShape alignments : List Int) (intervalStart intervalEnd : Nat) : Int :=
  let innermost := alignUp (logicalShape.getD (intervalEnd - 1) 0) (alignments.getD (intervalEnd - 1) 1)
  countdown (fun i => collapseStage logicalShape alignments (intervalStart + i)) (intervalEnd - 1 - intervalStart) innermost

/-- Extent of the tile in a physical dim: 1 outside the last two, and without a tile. -/
def tileExtent (tileShape : List Int) (rank dim : Nat) : Int :=
  if rank ≤ dim + 2 then tileShape.getD (dim + 2 - rank) 1 else 1

def lcm (a b : Int) : Int := (Int.lcm a b : Nat)

section Interval
variable (logicalShape : List Int) (intervalStart intervalEnd alignmentDim : Nat)

def alignToThreshold (gridAwareThreshold : Int) (alignments : List Int) : List Int :=
  if computeCollapsedIntervalSize logicalShape alignments intervalStart intervalEnd > gridAwareThreshold
  then alignments.set alignmentDim (lcm (alignments.getD alignmentDim 1) gridAwareThreshold)
  else alignments

/-- The multiples of the base alignment that are left, with the alignments and size of the one
before. -/
def searchAlignment (physicalDivisor baseAlignment : Int) : Nat → Int → List Int × Int → List Int × Int
  | 0, _, state => state
  | remaining + 1, candidate, (alignments, _) =>
      let alignments := alignments.set alignmentDim candidate
      let collapsedSize := computeCollapsedIntervalSize logicalShape alignments intervalStart intervalEnd
      if collapsedSize % physicalDivisor = 0 then (alignments, collapsedSize)
      else searchAlignment physicalDivisor baseAlignment remaining (candidate + baseAlignment) (alignments, collapsedSize)

/-- `none` where the source asserts that the search succeeded. -/
def alignToDivisor (physicalDivisor : Int) (alignments : List Int) : Option (List Int) :=
  let collapsedSize := computeCollapsedIntervalSize logicalShape alignments intervalStart intervalEnd
  if collapsedSize % physicalDivisor = 0 then some alignments
  else
    let baseAlignment := alignments.getD alignmentDim 1
    let maxAlignment := lcm baseAlignment physicalDivisor
    let (found, collapsedSize) := searchAlignment logicalShape intervalStart intervalEnd alignmentDim physicalDivisor
      baseAlignment (maxAlignment / baseAlignment).toNat baseAlignment (alignments, collapsedSize)
    if collapsedSize % physicalDivisor = 0 then some found else none

end Interval

def firstDim (intervals : List (Int × Int)) (idx : Nat) : Nat := (intervals.getD idx (0, 0)).1.toNat

def pastDim (intervals : List (Int × Int)) (idx : Nat) : Nat := (intervals.getD idx (0, 0)).2.toNat

/-- One round of the loop over the intervals, which asserts that they are nonempty. -/
def alignInterval (logicalShape : List Int) (normalizedIntervals : List (Int × Int)) (selectedGrid tileShape : List Int)
    (alignments : List Int) (intervalIdx : Nat) : Option (List Int) :=
  let tensorGridRank := normalizedIntervals.length
  let gridDim := selectedGrid.getD intervalIdx 0
  let intervalStart := firstDim normalizedIntervals intervalIdx
  let intervalEnd := pastDim normalizedIntervals intervalIdx
  if gridDim ≤ 1 then some alignments
  else if intervalStart < intervalEnd then
    let alignmentDim := if intervalStart + 1 = intervalEnd then intervalEnd - 1 else intervalStart
    let gridAwareThreshold := gridDim * tileExtent defaultTileShape tensorGridRank intervalIdx
    let physicalDivisor := gridDim * tileExtent tileShape tensorGridRank intervalIdx
    alignToDivisor logicalShape intervalStart intervalEnd alignmentDim physicalDivisor
      (alignToThreshold logicalShape intervalStart intervalEnd alignmentDim gridAwareThreshold alignments)
  else none

namespace MetalLayoutAttr
variable (ties : TieBreak (Int × Int)) (layout : MetalLayoutAttr)

def computeSelectedGridDimAlignments (selectedGrid tileShape : List Int) : Option (List Int) := do
  let normalizedIntervals := layout.getNormalizedIntervals ties
  if selectedGrid.length ≠ normalizedIntervals.length then none
  else
    let alignments ← computeTileAlignments layout.logicalShape normalizedIntervals
    (List.range normalizedIntervals.length).foldlM
      (alignInterval layout.logicalShape normalizedIntervals selectedGrid tileShape) alignments

/-- The alignments of TTNN tensors only round to tiles. -/
def ttnnDimAlignments (rank : Nat) : List Int :=
  if rank = 1 then [defaultTileShape.getD 1 0]
  else ((List.replicate rank 1).set (rank - 1) (defaultTileShape.getD 1 0)).set (rank - 2) (defaultTileShape.getD 0 0)

def layoutWithOptimalGrid (selectedGrid : List Int) (ttnnMode : Bool) (tileShape : List Int) : Option MetalLayoutAttr := do
  let newDimAlignments ← if ttnnMode then some (ttnnDimAlignments layout.logicalShape.length)
    else layout.computeSelectedGridDimAlignments ties selectedGrid tileShape
  some { layout with dimAlignments := newDimAlignments }

/-- Device shape and layout of the rebuilt tensor; `tileShape` is that of the
element type, empty for a scalar one. -/
def tensorWithOptimalGrid (tileShape : List Int) (ttnnMode : Bool) (optimalGrid paddingTileShape : List Int) :
    Option (List Int × MetalLayoutAttr) := do
  let layoutTileShape := if paddingTileShape = [] then tileShape else paddingTileShape
  let newLayout ← layout.layoutWithOptimalGrid ties optimalGrid ttnnMode layoutTileShape
  let deviceShape ← newLayout.getDeviceShape ties optimalGrid tileShape
  some (deviceShape, newLayout)

end MetalLayoutAttr

section Sizes
variable (shape : List Int)

theorem computeCollapsedIntervalSize_eq (alignments : List Int) (start stop : Nat) (ordered : start < stop) :
    computeCollapsedIntervalSize shape alignments start stop = intervalSize shape alignments start (stop - start) := by
  obtain ⟨count, rfl⟩ := Nat.exists_eq_add_of_lt ordered
  have last : start + count + 1 - 1 = start + count := rfl
  have inner : start + count - start = count := Nat.add_sub_cancel_left _ _
  have length : start + count + 1 - start = count + 1 := by omega
  simp only [computeCollapsedIntervalSize, intervalSize, last, inner, length, countdown, collapseStage, mul_one]

theorem intervalSize_peel (alignments : List Int) (start count : Nat) :
    intervalSize shape alignments start (count + 1) =
      collapseStage shape alignments start (intervalSize shape alignments (start + 1) count) := by
  rw [intervalSize, countdown_peel, intervalSize, Nat.add_zero]
  congr 1
  exact countdown_congr _ _ _ _ fun i _ _ => by rw [Nat.add_right_comm, Nat.add_assoc]

theorem intervalSize_congr (alignments other : List Int) (start count : Nat)
    (same : ∀ dim, start ≤ dim → dim < start + count → other.getD dim 1 = alignments.getD dim 1) :
    intervalSize shape other start count = intervalSize shape alignments start count := by
  refine countdown_congr _ _ _ _ fun i below size => ?_
  rw [collapseStage, collapseStage, same (start + i) (by omega) (by omega)]

theorem intervalSize_set (alignments : List Int) (start count : Nat) (alignment : Int)
    (inside : start < alignments.length) :
    intervalSize shape (alignments.set start alignment) start (count + 1) =
      alignUp (shape.getD start 0 * intervalSize shape alignments (start + 1) count) alignment := by
  have placed : (alignments.set start alignment).getD start 1 = alignment := by
    rw [List.getD_eq_getElem _ _ (by rw [List.length_set]; exact inside), List.getElem_set_self]
  rw [intervalSize_peel, collapseStage, placed]
  congr 2
  refine intervalSize_congr shape alignments _ _ _ fun dim beyond _ => ?_
  rw [List.getD_eq_getElem?_getD, List.getElem?_set_ne (by omega), ← List.getD_eq_getElem?_getD]

theorem dvd_intervalSize (alignments : List Int) (tileDim : Int) (start count : Nat)
    (innermost : tileDim ∣ alignments.getD (start + count) 1)
    (others : ∀ dim, start ≤ dim → dim < start + count → alignments.getD dim 1 = 1) :
    tileDim ∣ intervalSize shape alignments start (count + 1) := by
  induction count generalizing start with
  | zero => exact Dvd.dvd.trans innermost (dvd_alignUp _ _)
  | succ count ih =>
      rw [intervalSize_peel, collapseStage, others start (Nat.le_refl _) (by omega), alignUp_one]
      refine Dvd.dvd.mul_left (ih (start + 1) ?_ ?_) _
      · rw [Nat.add_assoc, Nat.add_comm 1 count]
        exact innermost
      · exact fun dim beyond below => others dim (by omega) (by omega)

end Sizes

theorem searchAlignment_finds (shape : List Int) (start stop : Nat) (divisor base last : Int) (alignments : List Int)
    (basePos : 0 < base)
    (divides : divisor ∣ computeCollapsedIntervalSize shape (alignments.set start last) start stop) (remaining : Nat)
    (candidate : Int) (candidatePos : 0 < candidate) (state : List Int × Int) (steps : Nat) (inTime : steps < remaining)
    (reaches : candidate + steps * base = last) (only : ∃ alignment, state.1 = alignments.set start alignment) :
    ∃ alignment, 0 < alignment ∧
      searchAlignment shape start stop start divisor base remaining candidate state =
        (alignments.set start alignment,
          computeCollapsedIntervalSize shape (alignments.set start alignment) start stop) ∧
      divisor ∣ computeCollapsedIntervalSize shape (alignments.set start alignment) start stop := by
  induction remaining generalizing candidate state steps with
  | zero => cases inTime
  | succ remaining ih =>
      obtain ⟨tried, size⟩ := state
      obtain ⟨alignment, same⟩ := only
      simp only at same
      subst same
      simp only [searchAlignment, List.set_set]
      by_cases found : computeCollapsedIntervalSize shape (alignments.set start candidate) start stop % divisor = 0
      · rw [if_pos found]
        exact ⟨candidate, candidatePos, rfl, Int.dvd_of_emod_eq_zero found⟩
      · rw [if_neg found]
        have onward : steps ≠ 0 := by
          intro done
          rw [done, Nat.cast_zero, zero_mul, add_zero] at reaches
          rw [reaches] at found
          exact found (Int.emod_eq_zero_of_dvd divides)
        refine ih (candidate + base) (by omega) _ (steps - 1) (by omega) ?_ ⟨candidate, rfl⟩
        rw [← reaches, Nat.cast_sub (Nat.one_le_iff_ne_zero.mpr onward)]
        ring

theorem lcm_pos (a b : Int) (aPos : 0 < a) (bPos : 0 < b) : 0 < lcm a b :=
  Int.natCast_pos.mpr (Nat.lcm_pos (Int.natAbs_pos.mpr aPos.ne') (Int.natAbs_pos.mpr bPos.ne'))

theorem searchAlignment_succeeds (shape : List Int) (start stop : Nat) (ordered : start < stop) (divisor base : Int)
    (alignments : List Int) (inside : start < alignments.length) (basePos : 0 < base) (divisorPos : 0 < divisor)
    (size : Int) :
    ∃ alignment, 0 < alignment ∧
      searchAlignment shape start stop start divisor base (lcm base divisor / base).toNat base (alignments, size) =
        (alignments.set start alignment,
          computeCollapsedIntervalSize shape (alignments.set start alignment) start stop) ∧
      divisor ∣ computeCollapsedIntervalSize shape (alignments.set start alignment) start stop := by
  obtain ⟨rounds, isMultiple⟩ : base ∣ lcm base divisor := Int.dvd_lcm_left base divisor
  have lastPos := lcm_pos base divisor basePos divisorPos
  have roundsPos : 0 < rounds := by
    rw [isMultiple] at lastPos
    exact pos_of_mul_pos_right lastPos basePos.le
  have count : lcm base divisor / base = rounds := by
    rw [isMultiple, Int.mul_ediv_cancel_left _ basePos.ne']
  refine searchAlignment_finds shape start stop divisor base (lcm base divisor) alignments basePos ?_ _ base basePos _
    (rounds.toNat - 1) ?_ ?_ ⟨alignments[start], (List.set_getElem_self inside).symm⟩
  · obtain ⟨extra, rfl⟩ := Nat.exists_eq_add_of_lt ordered
    have length : start + extra + 1 - start = extra + 1 := by omega
    rw [computeCollapsedIntervalSize_eq shape _ _ _ ordered, length, intervalSize_set shape _ _ _ _ inside]
    exact Dvd.dvd.trans (Int.dvd_lcm_right base divisor) (dvd_alignUp _ _)
  · rw [count]
    omega
  · have cast : ((rounds.toNat - 1 : Nat) : Int) = rounds - 1 := by omega
    rw [cast, isMultiple]
    ring

section Align
variable (shape : List Int) (intervals : List (Int × Int)) (grid tileShape alignments : List Int) (idx : Nat)

def sizeOf (intervals : List (Int × Int)) (alignments : List Int) (idx : Nat) : Int :=
  intervalSize shape alignments (firstDim intervals idx) (pastDim intervals idx - firstDim intervals idx)

/-- The alignments after at most the first dim of an interval was realigned. -/
def Realigned (dim : Nat) (before after : List Int) : Prop :=
  after = before ∨ ∃ alignment, 0 < alignment ∧ after = before.set dim alignment

theorem Realigned.trans {dim : Nat} {first second third : List Int} (one : Realigned dim first second)
    (two : Realigned dim second third) : Realigned dim first third := by
  rcases two with rfl | ⟨alignment, positive, rfl⟩
  · exact one
  · rcases one with rfl | ⟨_, _, rfl⟩
    · exact Or.inr ⟨alignment, positive, rfl⟩
    · exact Or.inr ⟨alignment, positive, List.set_set ..⟩

section
variable {dim : Nat} {before after : List Int} (realigned : Realigned dim before after)
include dim realigned

theorem Realigned.length :
    after.length = before.length := by
  rcases realigned with rfl | ⟨_, _, rfl⟩
  · rfl
  · exact List.length_set ..

theorem Realigned.positive (positive : ∀ alignment ∈ before, 0 < alignment) : ∀ alignment ∈ after, 0 < alignment := by
  rcases realigned with rfl | ⟨raised, raisedPos, rfl⟩
  · exact positive
  · intro alignment member
    rcases List.mem_or_eq_of_mem_set member with old | new
    · exact positive alignment old
    · exact new ▸ raisedPos

theorem Realigned.other (other : Nat)
    (different : other ≠ dim) : after.getD other 1 = before.getD other 1 := by
  rcases realigned with rfl | ⟨_, _, rfl⟩
  · rfl
  · rw [List.getD_eq_getElem?_getD, List.getElem?_set_ne (Ne.symm different), ← List.getD_eq_getElem?_getD]

end

theorem alignToThreshold_realigned (start stop : Nat) (threshold : Int) (thresholdPos : 0 < threshold)
    (inside : start < alignments.length) (positive : ∀ alignment ∈ alignments, 0 < alignment) :
    Realigned start alignments (alignToThreshold shape start stop start threshold alignments) := by
  unfold alignToThreshold
  split
  · refine Or.inr ⟨_, lcm_pos _ _ ?_ thresholdPos, rfl⟩
    rw [List.getD_eq_getElem _ _ inside]
    exact positive _ (List.getElem_mem inside)
  · exact Or.inl rfl

theorem alignToDivisor_succeeds (start stop : Nat) (ordered : start < stop) (divisor : Int) (divisorPos : 0 < divisor)
    (inside : start < alignments.length) (positive : ∀ alignment ∈ alignments, 0 < alignment) :
    ∃ after, alignToDivisor shape start stop start divisor alignments = some after ∧ Realigned start alignments after ∧
      divisor ∣ computeCollapsedIntervalSize shape after start stop := by
  unfold alignToDivisor
  by_cases divides : computeCollapsedIntervalSize shape alignments start stop % divisor = 0
  · exact ⟨alignments, if_pos divides, Or.inl rfl, Int.dvd_of_emod_eq_zero divides⟩
  · have basePos : 0 < alignments.getD start 1 := by
      rw [List.getD_eq_getElem _ _ inside]
      exact positive _ (List.getElem_mem inside)
    obtain ⟨alignment, alignmentPos, search, found⟩ := searchAlignment_succeeds shape start stop ordered divisor
      (alignments.getD start 1) alignments inside basePos divisorPos
      (computeCollapsedIntervalSize shape alignments start stop)
    refine ⟨alignments.set start alignment, ?_, Or.inr ⟨alignment, alignmentPos, rfl⟩, found⟩
    simp only [if_neg divides, search]
    exact if_pos (Int.emod_eq_zero_of_dvd found)

theorem alignInterval_succeeds (ordered : firstDim intervals idx < pastDim intervals idx)
    (inside : firstDim intervals idx < alignments.length)
    (positive : ∀ alignment ∈ alignments, 0 < alignment) (gridPos : 0 < grid.getD idx 0)
    (tilePos : 0 < tileExtent tileShape intervals.length idx)
    (defaultPos : 0 < tileExtent defaultTileShape intervals.length idx)
    (tiled : tileExtent tileShape intervals.length idx ∣ sizeOf shape intervals alignments idx) :
    ∃ after, alignInterval shape intervals grid tileShape alignments idx = some after ∧
      Realigned (firstDim intervals idx) alignments after ∧
      grid.getD idx 0 * tileExtent tileShape intervals.length idx ∣ sizeOf shape intervals after idx := by
  have single : (if firstDim intervals idx + 1 = pastDim intervals idx then pastDim intervals idx - 1
      else firstDim intervals idx) = firstDim intervals idx := by
    split <;> omega
  simp only [alignInterval, single]
  by_cases small : grid.getD idx 0 ≤ 1
  · rw [if_pos small, show grid.getD idx 0 = 1 by omega, one_mul]
    exact ⟨alignments, rfl, Or.inl rfl, tiled⟩
  · rw [if_neg small, if_pos ordered]
    have raised := alignToThreshold_realigned shape alignments (firstDim intervals idx) (pastDim intervals idx) _
      (Int.mul_pos gridPos defaultPos) inside positive
    obtain ⟨after, succeeds, realigned, divides⟩ := alignToDivisor_succeeds shape _ (firstDim intervals idx)
      (pastDim intervals idx) ordered _ (Int.mul_pos gridPos tilePos) (raised.length ▸ inside)
        (raised.positive positive)
    refine ⟨after, succeeds, raised.trans realigned, ?_⟩
    rw [sizeOf, ← computeCollapsedIntervalSize_eq shape after _ _ ordered]
    exact divides

end Align

/-- Nonempty intervals that partition the dims in order, the last one a single dim. -/
structure Collapses (rank : Nat) (intervals : List (Int × Int)) : Prop where
  partition : PartitionFrom rank 0 intervals
  nonempty : ∀ interval ∈ intervals, interval.1 < interval.2
  lastSingle : ∀ interval ∈ intervals.getLast?, interval.2 = interval.1 + 1

namespace Collapses
variable {rank : Nat} {intervals : List (Int × Int)} (collapses : Collapses rank intervals)
include collapses

theorem bounds (idx : Nat) (inside : idx < intervals.length) :
    firstDim intervals idx < pastDim intervals idx ∧ pastDim intervals idx ≤ rank := by
  have member := List.getElem_mem inside
  have ordered := collapses.nonempty _ member
  obtain ⟨nonneg, _, bounded⟩ := collapses.partition.bounds _ member
  simp only [firstDim, pastDim, List.getD_eq_getElem _ _ inside]
  omega

theorem adjacent (idx : Nat) (inside : idx + 1 < intervals.length) :
    pastDim intervals idx = firstDim intervals (idx + 1) :=
  congrArg Int.toNat (collapses.partition.adjacent idx inside)

theorem disjoint (idx other : Nat) (inside : idx < intervals.length) (otherInside : other < intervals.length)
    (different : other ≠ idx) (dim : Nat) (beyond : firstDim intervals other ≤ dim)
    (below : dim < pastDim intervals other) : dim ≠ firstDim intervals idx := by
  have ordered := collapses.bounds idx inside
  have apart (early late : Nat) (earlyIn : early < intervals.length) (lateIn : late < intervals.length)
      (before : early < late) : pastDim intervals early ≤ firstDim intervals late := by
    have follows := List.pairwise_iff_getElem.mp collapses.partition.pairwise early late earlyIn lateIn before
    simp only [firstDim, pastDim, List.getD_eq_getElem _ _ earlyIn, List.getD_eq_getElem _ _ lateIn]
    omega
  rcases Nat.lt_or_gt_of_ne different with before | after
  · have := apart other idx otherInside inside before
    omega
  · have := apart idx other inside otherInside after
    omega

theorem ends (ranked : 2 ≤ rank) : 2 ≤ intervals.length ∧ firstDim intervals (intervals.length - 1) = rank - 1 ∧
    pastDim intervals (intervals.length - 1) = rank ∧ pastDim intervals (intervals.length - 2) = rank - 1 := by
  have some' : intervals ≠ [] := by
    intro none
    have partition := collapses.partition
    rw [none] at partition
    have starts : (0 : Int) = rank := partition
    omega
  obtain ⟨start, last⟩ := collapses.partition.last some'
  have single : (rank : Int) = start + 1 := collapses.lastSingle _ last
  have many : 2 ≤ intervals.length := by
    by_contra few
    match intervals, some' with
    | [interval], _ =>
        have first : interval.1 = 0 := collapses.partition.1
        cases last
        omega
    | _ :: _ :: rest, _ => exact few (by simp)
  have located : intervals.getD (intervals.length - 1) (0, 0) = (start, (rank : Int)) := by
    rw [List.getD_eq_getElem?_getD, ← List.getLast?_eq_getElem?, last]
    rfl
  have next := collapses.adjacent (intervals.length - 2) (by omega)
  rw [show intervals.length - 2 + 1 = intervals.length - 1 by omega] at next
  have firstLast : firstDim intervals (intervals.length - 1) = rank - 1 := by
    simp only [firstDim, located]
    omega
  refine ⟨many, firstLast, ?_, next.trans firstLast⟩
  simp only [pastDim, located, Int.toNat_natCast]

end Collapses

def tileAlignments (rank : Nat) : List Int := ((List.replicate rank 1).set (rank - 1) 32).set (rank - 2) 32

theorem tileAlignments_getD (rank dim : Nat) (ranked : 2 ≤ rank) (inside : dim < rank) :
    (tileAlignments rank).getD dim 1 = if rank ≤ dim + 2 then 32 else 1 := by
  simp only [tileAlignments, List.getD_eq_getElem?_getD, List.getElem?_set, List.length_set, List.length_replicate,
    List.getElem?_replicate]
  by_cases second : rank - 2 = dim
  · rw [if_pos second, if_pos (by omega), if_pos (by omega)]
    rfl
  · by_cases last : rank - 1 = dim
    · rw [if_neg second, if_pos last, if_pos (by omega), if_pos (by omega)]
      rfl
    · rw [if_neg second, if_neg last, if_pos inside, if_neg (by omega)]
      rfl

theorem computeTileAlignments_eq (shape : List Int) (intervals : List (Int × Int)) (ranked : 2 ≤ shape.length)
    (collapses : Collapses shape.length intervals) :
    computeTileAlignments shape intervals = some (tileAlignments shape.length) := by
  obtain ⟨many, _, lastEnd, secondEnd⟩ := collapses.ends ranked
  have located (idx : Nat) (inside : idx < intervals.length) :
      intervals[idx]? = some ((intervals.getD idx (0, 0)).1, (intervals.getD idx (0, 0)).2) := by
    rw [List.getD_eq_getElem _ _ inside, List.getElem?_eq_getElem inside]
  have bounds (idx : Nat) (inside : idx < intervals.length) : ((intervals.getD idx (0, 0)).2 - 1).toNat =
      pastDim intervals idx - 1 := by
    have := collapses.bounds idx inside
    simp only [pastDim]
    omega
  have divides (dim : Nat) (known : dim < shape.length) (late : shape.length ≤ dim + 2) :
      (tileAlignments shape.length).getD dim 0 % 32 = 0 := by
    have length : dim < (tileAlignments shape.length).length := by
      simp only [tileAlignments, List.length_set, List.length_replicate]
      exact known
    have value := tileAlignments_getD shape.length dim ranked known
    rw [if_pos late, List.getD_eq_getElem _ _ length] at value
    rw [List.getD_eq_getElem _ _ length, value]
    rfl
  obtain ⟨rank, isRank⟩ := Nat.exists_eq_add_of_le' ranked
  have matched : computeTileAlignments shape intervals =
      (if (tileAlignments shape.length).getD (shape.length - 1) 0 % 32 = 0 ∧
        (tileAlignments shape.length).getD (shape.length - 2) 0 % 32 = 0 then some (tileAlignments shape.length)
      else none) := by
    simp only [computeTileAlignments, located _ (show intervals.length - 1 < intervals.length by omega),
      located _ (show intervals.length - 2 < intervals.length by omega), if_pos many, Option.bind_some, bind,
      bounds _ (show intervals.length - 1 < intervals.length by omega),
      bounds _ (show intervals.length - 2 < intervals.length by omega), lastEnd, secondEnd, isRank]
    rfl
  rw [matched]
  exact if_pos ⟨divides _ (by omega) (by omega), divides _ (by omega) (by omega)⟩

/-- A 32x32 tile, or none. -/
def TileOrNone (tileShape : List Int) : Prop := tileShape = [] ∨ tileShape = defaultTileShape

theorem tileExtent_cases (tileShape : List Int) (tile : TileOrNone tileShape) (rank dim : Nat) (inside : dim < rank) :
    tileExtent tileShape rank dim = 1 ∨ tileExtent tileShape rank dim = 32 ∧ rank ≤ dim + 2 := by
  simp only [tileExtent]
  split
  · rename_i late
    rcases tile with rfl | rfl
    · exact Or.inl rfl
    · refine Or.inr ⟨?_, late⟩
      match dim + 2 - rank, (show dim + 2 - rank < 2 by omega) with
      | 0, _ => rfl
      | 1, _ => rfl
  · exact Or.inl rfl

theorem tileExtent_pos (tileShape : List Int) (tile : TileOrNone tileShape) (rank dim : Nat) (inside : dim < rank) :
    0 < tileExtent tileShape rank dim := by
  rcases tileExtent_cases tileShape tile rank dim inside with one | ⟨tiled, _⟩
  · rw [one]
    exact Int.one_pos
  · rw [tiled]
    omega

section Loop
variable (shape : List Int) (intervals : List (Int × Int)) (ranked : 2 ≤ shape.length)
  (collapses : Collapses shape.length intervals) (tileShape : List Int) (tile : TileOrNone tileShape)
include ranked collapses tile

theorem tileAlignments_tiled (idx : Nat) (inside : idx < intervals.length) :
    tileExtent tileShape intervals.length idx ∣ sizeOf shape intervals (tileAlignments shape.length) idx := by
  rcases tileExtent_cases tileShape tile intervals.length idx inside with one | ⟨tiled, late⟩
  · rw [one]
    exact one_dvd _
  · obtain ⟨many, lastStart, lastEnd, secondEnd⟩ := collapses.ends ranked
    obtain ⟨ordered, _⟩ := collapses.bounds idx inside
    -- the interval ends at one of the last two dims, and reaches no other tile dim
    have ending : pastDim intervals idx = shape.length ∧ firstDim intervals idx = shape.length - 1 ∨
        pastDim intervals idx = shape.length - 1 := by
      rcases (show idx = intervals.length - 1 ∨ idx = intervals.length - 2 by omega) with rfl | rfl
      · exact Or.inl ⟨lastEnd, lastStart⟩
      · exact Or.inr secondEnd
    have count : pastDim intervals idx - firstDim intervals idx =
        pastDim intervals idx - firstDim intervals idx - 1 + 1 := by
      omega
    rw [tiled, sizeOf, count]
    apply dvd_intervalSize
    · rw [tileAlignments_getD _ _ ranked (by omega), if_pos (by omega)]
    · intro dim beyond below
      rw [tileAlignments_getD _ _ ranked (by omega), if_neg (by omega)]

theorem alignIntervals_succeed (grid : List Int) (sameRank : grid.length = intervals.length)
    (positive : ∀ extent ∈ grid, 0 < extent) :
    ∃ alignments, (List.range intervals.length).foldlM (alignInterval shape intervals grid tileShape)
        (tileAlignments shape.length) = some alignments ∧ alignments.length = shape.length ∧
      (∀ alignment ∈ alignments, 0 < alignment) ∧
      ∀ idx < intervals.length,
        grid.getD idx 0 * tileExtent tileShape intervals.length idx ∣ sizeOf shape intervals alignments idx := by
  have gridPos (idx : Nat) (inside : idx < intervals.length) : 0 < grid.getD idx 0 := by
    rw [List.getD_eq_getElem _ _ (sameRank ▸ inside)]
    exact positive _ (List.getElem_mem _)
  obtain ⟨alignments, runs, length, alignmentsPos, divides⟩ := @foldlM_range_invariant _
    (alignInterval shape intervals grid tileShape) intervals.length (tileAlignments shape.length)
    (fun round alignments => alignments.length = shape.length ∧ (∀ alignment ∈ alignments, 0 < alignment) ∧
      ∀ idx < intervals.length, (if idx < round then grid.getD idx 0 else 1) *
        tileExtent tileShape intervals.length idx ∣ sizeOf shape intervals alignments idx)
    ⟨by simp [tileAlignments], by
      intro alignment member
      obtain ⟨dim, known, rfl⟩ := List.getElem_of_mem member
      have known' : dim < shape.length := by simpa [tileAlignments] using known
      rw [← List.getD_eq_getElem _ 1 known, tileAlignments_getD _ _ ranked known']
      split <;> omega, by
      intro idx inside
      rw [if_neg (Nat.not_lt_zero _), one_mul]
      exact tileAlignments_tiled shape intervals ranked collapses tileShape tile idx inside⟩ (by
    rintro round inside before ⟨length, beforePos, divides⟩
    obtain ⟨ordered, bounded⟩ := collapses.bounds round inside
    have untouched := divides round inside
    rw [if_neg (Nat.lt_irrefl _), one_mul] at untouched
    obtain ⟨after, succeeds, realigned, evenly⟩ := alignInterval_succeeds shape intervals grid tileShape before round
      ordered (by omega) beforePos (gridPos round inside) (tileExtent_pos tileShape tile _ _ inside)
      (tileExtent_pos defaultTileShape (Or.inr rfl) _ _ inside) untouched
    refine ⟨after, succeeds, realigned.length.trans length, realigned.positive beforePos, fun idx known => ?_⟩
    by_cases here : idx = round
    · rw [here, if_pos (Nat.lt_succ_self _)]
      exact evenly
    · -- realigning one interval leaves the sizes of the others
      have kept : sizeOf shape intervals after idx = sizeOf shape intervals before idx := by
        refine intervalSize_congr shape before after _ _ fun dim beyond below => realigned.other dim ?_
        exact collapses.disjoint round idx inside known here dim beyond (by omega)
      have sameRound : idx < round + 1 ↔ idx < round := by omega
      rw [kept]
      simp only [sameRound]
      exact divides idx known)
  refine ⟨alignments, runs, length, alignmentsPos, fun idx inside => ?_⟩
  have reached := divides idx inside
  rw [if_pos inside] at reached
  exact reached

end Loop

theorem prod_le_intervalSize (shape alignments : List Int) (dims : ∀ dim ∈ shape, 0 ≤ dim)
    (positive : ∀ alignment ∈ alignments, 0 < alignment) (sameRank : alignments.length = shape.length)
    (count start : Nat) (inside : start + count ≤ shape.length) :
    0 ≤ ((shape.drop start).take count).prod ∧
      ((shape.drop start).take count).prod ≤ intervalSize shape alignments start count := by
  induction count generalizing start with
  | zero => simp [intervalSize, countdown]
  | succ count ih =>
      have known : start < shape.length := by omega
      have alignment : 0 < alignments.getD start 1 := by
        rw [List.getD_eq_getElem _ _ (sameRank ▸ known)]
        exact positive _ (List.getElem_mem _)
      have extent : 0 ≤ shape.getD start 0 := by
        rw [List.getD_eq_getElem _ _ known]
        exact dims _ (List.getElem_mem known)
      obtain ⟨nonneg, covers⟩ := ih (start + 1) (by omega)
      rw [drop_eq_cons shape start known, List.take_succ_cons, List.prod_cons, intervalSize_peel]
      constructor
      · exact Int.mul_nonneg extent nonneg
      · exact le_trans (Int.mul_le_mul_of_nonneg_left covers extent) (alignUp_le _ _ alignment)

theorem collapsedSizes_eq (shape alignments : List Int) (rank : Nat) (intervals : List (Int × Int))
    (collapses : Collapses rank intervals) :
    collapsedSizes shape alignments intervals =
      (List.range intervals.length).map (sizeOf shape intervals alignments) := by
  have single (interval : Int × Int) (member : interval ∈ intervals) :
      (if interval.1 = interval.2 then []
        else [intervalSize shape alignments interval.1.toNat (interval.2 - interval.1).toNat]) =
      [intervalSize shape alignments interval.1.toNat (interval.2.toNat - interval.1.toNat)] := by
    have nonempty := collapses.nonempty interval member
    have nonneg := (collapses.partition.bounds interval member).1
    rw [if_neg (ne_of_lt nonempty), show (interval.2 - interval.1).toNat = interval.2.toNat - interval.1.toNat by omega]
  rw [collapsedSizes, List.flatMap_congr single, ← List.map_eq_flatMap]
  apply List.ext_getElem (by simp)
  intro idx inside _
  have known : idx < intervals.length := by simpa using inside
  simp only [List.getElem_map, List.getElem_range, sizeOf, firstDim, pastDim, List.getD_eq_getElem _ _ known]

theorem divideByTile_succeeds (physicalShape : List Int) (dim : Nat) (tileDim : Int)
    (divides : tileDim ∣ physicalShape.getD dim 0) :
    ∃ tiled, divideByTile physicalShape dim tileDim = some tiled ∧ tiled.length = physicalShape.length ∧
      ∀ other < physicalShape.length,
        tiled.getD other 0 = if other =
          dim then physicalShape.getD other 0 / tileDim else physicalShape.getD other 0 := by
  refine ⟨_, if_pos (Int.emod_eq_zero_of_dvd divides), List.length_modify .., fun other inside => ?_⟩
  simp only [List.getD_eq_getElem?_getD, List.getElem?_modify, List.getElem?_eq_getElem inside,
    Option.getD_some, eq_comm (a := dim)]
  split <;> rfl

section Device
variable (ties : TieBreak (Int × Int)) (layout : MetalLayoutAttr) (physicalShape : List Int)
  (untiled : layout.untiledPhysicalShape ties = some physicalShape) (planar : 2 ≤ physicalShape.length)
include untiled planar

theorem getPhysicalShape_tiled (tileShape : List Int) (tile : TileOrNone tileShape)
    (divides : ∀ dim < physicalShape.length,
      tileExtent tileShape physicalShape.length dim ∣ physicalShape.getD dim 0) :
    ∃ tiled, layout.getPhysicalShape ties tileShape = some tiled ∧ tiled.length = physicalShape.length ∧
      ∀ dim < physicalShape.length,
        tiled.getD dim 0 = physicalShape.getD dim 0 / tileExtent tileShape physicalShape.length dim := by
  rcases tile with rfl | rfl
  · refine ⟨physicalShape, ?_, rfl, fun dim _ => ?_⟩
    · simp only [MetalLayoutAttr.getPhysicalShape, untiled, Option.bind_some, bind]
    · have one : tileExtent [] physicalShape.length dim = 1 := by
        simp only [tileExtent, List.getD_nil, ite_self]
      rw [one, Int.ediv_one]
  · have tiledDim (dim : Nat) (late : physicalShape.length ≤ dim + 2) (inside : dim < physicalShape.length) :
        tileExtent defaultTileShape physicalShape.length dim = 32 := by
      rw [tileExtent, if_pos late]
      rcases (show dim + 2 - physicalShape.length = 0 ∨ dim + 2 - physicalShape.length = 1 by omega) with first | second
      · rw [first]
        rfl
      · rw [second]
        rfl
    have evenly (dim : Nat) (late : physicalShape.length ≤ dim + 2) (inside : dim < physicalShape.length) :
        (32 : Int) ∣ physicalShape.getD dim 0 := tiledDim dim late inside ▸ divides dim inside
    obtain ⟨rows, rowsTiled, rowsLength, rowsValue⟩ := divideByTile_succeeds physicalShape (physicalShape.length - 2) 32
      (evenly _ (by omega) (by omega))
    obtain ⟨tiled, isTiled, length, value⟩ := divideByTile_succeeds rows (physicalShape.length - 1) 32 (by
      rw [rowsValue _ (by omega), if_neg (by omega)]
      exact evenly _ (by omega) (by omega))
    refine ⟨tiled, ?_, length.trans rowsLength, fun dim inside => ?_⟩
    · simp only [MetalLayoutAttr.getPhysicalShape, untiled, Option.bind_some, bind, defaultTileShape, if_pos planar,
        rowsTiled, isTiled]
    · rw [value dim (rowsLength ▸ inside), rowsValue dim inside]
      by_cases late : physicalShape.length ≤ dim + 2
      · rw [tiledDim dim late inside]
        rcases (show dim = physicalShape.length - 1 ∨ dim = physicalShape.length - 2 by omega) with last | second
        · rw [if_pos last, if_neg (by omega)]
        · rw [if_neg (by omega), if_pos second]
      · rw [if_neg (by omega), if_neg (by omega), tileExtent, if_neg late, Int.ediv_one]

theorem getDeviceShape_succeeds (tileShape : List Int) (tile : TileOrNone tileShape) (grid : List Int)
    (sameRank : grid.length = physicalShape.length)
    (divides : ∀ dim < physicalShape.length,
      grid.getD dim 0 * tileExtent tileShape physicalShape.length dim ∣ physicalShape.getD dim 0) :
    (layout.getDeviceShape ties grid tileShape).isSome = true := by
  obtain ⟨tiled, isTiled, length, value⟩ :=
    getPhysicalShape_tiled ties layout physicalShape untiled planar tileShape tile
    fun dim inside => Dvd.dvd.trans (Dvd.intro_left _ rfl) (divides dim inside)
  obtain ⟨shardShape, divided⟩ := mapM_total
    (fun i => do
      let gridDim ← grid[i]?
      if tiled.getD i 0 % gridDim = 0 then some (tiled.getD i 0 / gridDim) else none)
    (List.range tiled.length) (by
      intro dim member
      have inside : dim < physicalShape.length := length ▸ List.mem_range.mp member
      have evenly : tiled.getD dim 0 % grid.getD dim 0 = 0 := by
        rw [value dim inside]
        apply Int.emod_eq_zero_of_dvd
        have positive := tileExtent_pos tileShape tile physicalShape.length dim inside
        exact Int.dvd_ediv_of_mul_dvd (mul_comm (grid.getD dim 0) _ ▸ divides dim inside)
      have located : grid[dim]? = some (grid.getD dim 0) := by
        rw [List.getD_eq_getElem _ _ (sameRank ▸ inside), List.getElem?_eq_getElem (sameRank ▸ inside)]
      exact ⟨_, by simp only [located, Option.bind_some, bind, evenly, ↓reduceIte]; rfl⟩)
  simp only [MetalLayoutAttr.getDeviceShape, isTiled, Option.bind_some, bind] at divided ⊢
  rw [divided]
  rfl

end Device

/-- The physical shape under new alignments: evenly divided, and no smaller than
the dims each interval collapses. -/
structure DividesEvenly (ties : TieBreak (Int × Int)) (layout : MetalLayoutAttr) (grid tileShape physicalShape : List Int) :
    Prop where
  untiled : layout.getPhysicalShape ties [] = some physicalShape
  sameRank : physicalShape.length = grid.length
  divides : ∀ dim < grid.length, grid.getD dim 0 * tileExtent tileShape grid.length dim ∣ physicalShape.getD dim 0
  covers : ∀ dim < grid.length, ((layout.logicalShape.drop (firstDim (layout.getNormalizedIntervals ties) dim)).take
    (pastDim (layout.getNormalizedIntervals ties) dim - firstDim (layout.getNormalizedIntervals ties) dim)).prod ≤
      physicalShape.getD dim 0
  device : (layout.getDeviceShape ties grid tileShape).isSome = true

section Selected
variable (ties : TieBreak (Int × Int)) (layout : MetalLayoutAttr) (ranked : 2 ≤ layout.logicalShape.length)
  (dims : ∀ dim ∈ layout.logicalShape, 0 ≤ dim)
  (collapses : Collapses layout.logicalShape.length (layout.getNormalizedIntervals ties))
  (grid : List Int) (sameRank : grid.length = (layout.getNormalizedIntervals ties).length)
  (positive : ∀ extent ∈ grid, 0 < extent)
include ranked dims collapses sameRank positive

theorem computeSelectedGridDimAlignments_succeeds (tileShape : List Int) (tile : TileOrNone tileShape) :
    ∃ alignments, layout.computeSelectedGridDimAlignments ties grid tileShape = some alignments ∧
      alignments.length = layout.logicalShape.length ∧ (∀ alignment ∈ alignments, 0 < alignment) ∧
      ∃ physicalShape, DividesEvenly ties { layout with dimAlignments := alignments } grid tileShape physicalShape := by
  obtain ⟨alignments, runs, length, alignmentsPos, divides⟩ := alignIntervals_succeed layout.logicalShape
    (layout.getNormalizedIntervals ties) ranked collapses tileShape tile grid sameRank positive
  have computed : layout.computeSelectedGridDimAlignments ties grid tileShape = some alignments := by
    simp only [MetalLayoutAttr.computeSelectedGridDimAlignments, sameRank, ne_eq, not_true_eq_false, ↓reduceIte,
      computeTileAlignments_eq _ _ ranked collapses, Option.bind_some, bind]
    exact runs
  obtain ⟨many, _⟩ := collapses.ends ranked
  let sizes := (List.range (layout.getNormalizedIntervals ties).length).map
    (sizeOf layout.logicalShape (layout.getNormalizedIntervals ties) alignments)
  have sizesLength : sizes.length = grid.length := by
    rw [List.length_map, List.length_range, sameRank]
  have size (dim : Nat) (inside : dim < grid.length) :
      sizes.getD dim 0 = sizeOf layout.logicalShape (layout.getNormalizedIntervals ties) alignments dim := by
    rw [List.getD_eq_getElem _ _ (sizesLength ▸ inside), List.getElem_map, List.getElem_range]
  have applied : applyCollapsedIntervalsAndAlignments layout.logicalShape
      (layout.getNormalizedIntervals ties) alignments =
      some sizes := by
    rw [applyCollapsed_eq layout.logicalShape alignments _ length (by omega) collapses.partition,
      collapsedSizes_eq layout.logicalShape alignments _ _ collapses]
  have untiled : MetalLayoutAttr.untiledPhysicalShape ties { layout with dimAlignments := alignments } = some sizes := by
    have notScalar : layout.logicalShape ≠ [] := List.length_pos_iff.mp (by omega)
    have notVector : layout.logicalShape.length ≠ 1 := by omega
    change (applyCollapsedIntervalsAndAlignments layout.logicalShape
      (layout.getNormalizedIntervals ties) alignments).bind
      _ = _
    simp only [applied, Option.bind_some, notScalar, notVector, false_and, ↓reduceIte]
  have evenly (dim : Nat) (inside : dim < grid.length) :
      grid.getD dim 0 * tileExtent tileShape grid.length dim ∣ sizes.getD dim 0 := by
    rw [size dim inside, sameRank]
    exact divides dim (sameRank ▸ inside)
  refine ⟨alignments, computed, length, alignmentsPos, sizes, ?_⟩
  constructor
  · simp only [MetalLayoutAttr.getPhysicalShape, untiled, Option.bind_some, bind]
  · exact sizesLength
  · exact evenly
  · intro dim inside
    rw [size dim inside]
    obtain ⟨ordered, bounded⟩ := collapses.bounds dim (sameRank ▸ inside)
    have covers := (prod_le_intervalSize layout.logicalShape alignments dims alignmentsPos length
      (pastDim (layout.getNormalizedIntervals ties) dim - firstDim (layout.getNormalizedIntervals ties) dim)
      (firstDim (layout.getNormalizedIntervals ties) dim) (by omega)).2
    exact covers
  · refine getDeviceShape_succeeds ties _ sizes untiled (by omega) tileShape tile grid sizesLength.symm ?_
    intro dim inside
    rw [sizesLength]
    exact evenly dim (sizesLength ▸ inside)

/-- The rebuilt tensor has a device shape, whichever of the two tiles it is padded for. -/
theorem tensorWithOptimalGrid_succeeds (elementTile paddingTile : List Int) (element : TileOrNone elementTile)
    (padding : TileOrNone paddingTile) :
    (layout.tensorWithOptimalGrid ties elementTile false grid paddingTile).isSome = true := by
  have layoutTile : TileOrNone (if paddingTile = [] then elementTile else paddingTile) := by
    split
    · exact element
    · exact padding
  obtain ⟨alignments, computed, _, _, physicalShape, evenly⟩ := computeSelectedGridDimAlignments_succeeds ties layout
    ranked dims collapses grid sameRank positive _ layoutTile
  obtain ⟨many, _⟩ := collapses.ends ranked
  have untiled : MetalLayoutAttr.untiledPhysicalShape ties { layout with dimAlignments := alignments } =
      some physicalShape := by
    have found := evenly.untiled
    simp only [MetalLayoutAttr.getPhysicalShape] at found
    rw [← found]
    cases MetalLayoutAttr.untiledPhysicalShape ties { layout with dimAlignments := alignments } <;> rfl
  have device := getDeviceShape_succeeds ties _ physicalShape untiled (by have := evenly.sameRank; omega) elementTile
    element grid evenly.sameRank.symm (by
      intro dim inside
      rw [evenly.sameRank] at inside ⊢
      refine Dvd.dvd.trans ?_ (evenly.divides dim inside)
      apply Int.mul_dvd_mul_left
      -- padding for a tile also suits scalar elements
      rcases padding with rfl | rfl
      · exact dvd_refl _
      · rcases element with rfl | rfl
        · have one : tileExtent [] grid.length dim = 1 := by simp only [tileExtent, List.getD_nil, ite_self]
          rw [one]
          exact one_dvd _
        · exact dvd_refl _)
  obtain ⟨deviceShape, found⟩ := Option.isSome_iff_exists.mp device
  simp only [MetalLayoutAttr.tensorWithOptimalGrid, MetalLayoutAttr.layoutWithOptimalGrid, computed, found,
    Bool.false_eq_true, ↓reduceIte, Option.bind_some, bind, Option.isSome_some]

end Selected

instance (rank : Nat) (intervals : List (Int × Int)) : Decidable (Collapses rank intervals) :=
  decidable_of_iff (PartitionFrom rank 0 intervals ∧ (∀ interval ∈ intervals, interval.1 < interval.2) ∧
      ∀ interval ∈ intervals.getLast?, interval.2 = interval.1 + 1)
    ⟨fun ⟨partition, nonempty, lastSingle⟩ => ⟨partition, nonempty, lastSingle⟩,
      fun collapses => ⟨collapses.partition, collapses.nonempty, collapses.lastSingle⟩⟩

/-- Whatever grid is selected, the alignments for it make it and the tiles divide
the physical shape, and the tensor can be rebuilt. -/
theorem selectedGrid_dividesEvenly (ties : TieBreak (Int × Int)) (layout : MetalLayoutAttr)
    (ranked : 2 ≤ layout.logicalShape.length) (dims : ∀ dim ∈ layout.logicalShape, 0 ≤ dim)
    (collapses : Collapses layout.logicalShape.length (layout.getNormalizedIntervals ties))
    (grid : List Int) (sameRank : grid.length = (layout.getNormalizedIntervals ties).length)
    (positive : ∀ extent ∈ grid, 0 < extent) :
    (∀ tileShape, TileOrNone tileShape →
      ∃ alignments, layout.computeSelectedGridDimAlignments ties grid tileShape = some alignments ∧
        alignments.length = layout.logicalShape.length ∧ (∀ alignment ∈ alignments, 0 < alignment) ∧
        ∃ physicalShape,
          DividesEvenly ties { layout with dimAlignments := alignments } grid tileShape physicalShape) ∧
    ∀ elementTile paddingTile, TileOrNone elementTile → TileOrNone paddingTile →
      (layout.tensorWithOptimalGrid ties elementTile false grid paddingTile).isSome = true := by
  constructor
  · exact computeSelectedGridDimAlignments_succeeds ties layout ranked dims collapses grid sameRank positive
  · exact tensorWithOptimalGrid_succeeds ties layout ranked dims collapses grid sameRank positive

/-- 9 x 43 rows over eight cores: the collapse is padded from 576 to 768. -/
theorem selectedGrid_dividesEvenly_padded :
    let layout : MetalLayoutAttr := ⟨[9, 43, 7], [1, 32, 32], [(0, 2)]⟩
    layout.computeSelectedGridDimAlignments (TieBreak.insertion _) [8, 1] [32, 32] = some [256, 32, 32] ∧
    (∀ tileShape, TileOrNone tileShape →
      ∃ alignments, layout.computeSelectedGridDimAlignments (TieBreak.insertion _) [8, 1] tileShape = some alignments ∧
        alignments.length = layout.logicalShape.length ∧ (∀ alignment ∈ alignments, 0 < alignment) ∧
        ∃ physicalShape, DividesEvenly (TieBreak.insertion _)
          { layout with dimAlignments := alignments } [8, 1] tileShape
          physicalShape) ∧
    ∀ elementTile paddingTile, TileOrNone elementTile → TileOrNone paddingTile →
      (layout.tensorWithOptimalGrid (TieBreak.insertion _) elementTile false [8, 1] paddingTile).isSome = true := by
  intro layout
  constructor
  · decide
  · exact selectedGrid_dividesEvenly _ layout (by decide) (by decide) (by decide) [8, 1] (by decide)
      (by decide)

end TtMlir.Layout
