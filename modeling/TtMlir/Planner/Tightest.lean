import TtMlir.Library.Gaps
import TtMlir.Planner.Sound

/-!
Where the greedy allocator puts a request, against its policy: the tightest gap
among the conflicting placed requests that holds the request, else on top. The
scan compares a gap with the size of the placed request above it.
-/

namespace TtMlir.Planner

open Gaps

/-- A shortest gap among those that hold a request of the given size. -/
structure TightestGap (ranges : List Gaps.Range) (size : Int) (gap : Gap) : Prop where
  free : gap ∈ freeGaps 0 ranges
  fits : size ≤ gap.length
  shortest : ∀ other ∈ freeGaps 0 ranges, size ≤ other.length → gap.length ≤ other.length

/-- The policy: bottom of a tightest gap, and only without one the highest end. -/
def PlacedTightly (ranges : List Gaps.Range) (size offset : Int) : Prop :=
  (∃ gap, TightestGap ranges size gap ∧ offset = gap.bottom) ∨
    (∀ gap ∈ freeGaps 0 ranges, gap.length < size) ∧ offset = highestEnd 0 ranges

/-- The comparison the scan makes, with the limit `gapBest` starts from. -/
def Admitted (gap : Gap) : Prop := gap.above ≤ gap.length ∧ gap.length < allocSizeMax

/-- No gap holds the request, or the scan admits one of the tightest that do. -/
def AdmitsTightest (ranges : List Gaps.Range) (size : Int) : Prop :=
  (∀ gap ∈ freeGaps 0 ranges, gap.length < size) ∨ ∃ gap, TightestGap ranges size gap ∧ Admitted gap

def scanRange (scan : GapScan) (range : Gaps.Range) : GapScan :=
  let gap := range.1 - scan.offsetPrev
  let better := decide (gap ≥ range.2) && decide (gap < scan.gapBest)
  { gapBest := if better then gap else scan.gapBest
    offsetBest := if better then scan.offsetPrev else scan.offsetBest
    offsetPrev := max scan.offsetPrev range.stop }

/-- What the scan has chosen among some gaps, starting from an earlier choice. -/
def ChosenFrom (gaps : List Gap) (before after : GapScan) : Prop :=
  ((∀ gap ∈ gaps, gap.above ≤ gap.length → before.gapBest ≤ gap.length) ∧
    after.gapBest = before.gapBest ∧ after.offsetBest = before.offsetBest) ∨
  ∃ gap ∈ gaps, gap.above ≤ gap.length ∧ gap.length < before.gapBest ∧
    after.gapBest = gap.length ∧ after.offsetBest = gap.bottom ∧
    ∀ other ∈ gaps, other.above ≤ other.length → gap.length ≤ other.length

theorem scanRange_chosen (scan : GapScan) (range : Gaps.Range) (size : 0 ≤ range.2) :
    ChosenFrom (if scan.offsetPrev ≤ range.1 then [⟨scan.offsetPrev, range.1 - scan.offsetPrev, range.2⟩] else [])
      scan (scanRange scan range) := by
  by_cases below : scan.offsetPrev ≤ range.1
  · rw [if_pos below]
    by_cases better : range.1 - scan.offsetPrev ≥ range.2 ∧ range.1 - scan.offsetPrev < scan.gapBest
    · right
      refine ⟨_, List.mem_cons_self, better.1, better.2, ?_, ?_, by simp⟩ <;>
        simp [scanRange, better.1, better.2]
    · left
      have kept : (decide (range.1 - scan.offsetPrev ≥ range.2) &&
          decide (range.1 - scan.offsetPrev < scan.gapBest)) = false := by simpa using better
      refine ⟨?_, by simp [scanRange, kept], by simp [scanRange, kept]⟩
      intro gap member admitted
      rw [List.mem_singleton.mp member] at admitted ⊢
      simp only at admitted ⊢
      omega
  · rw [if_neg below]
    have kept : decide (range.1 - scan.offsetPrev ≥ range.2) = false := by
      simp only [decide_eq_false_iff_not]
      omega
    exact Or.inl ⟨by simp, by simp [scanRange, kept], by simp [scanRange, kept]⟩

theorem chosen_append (first second : List Gap) (before middle after : GapScan)
    (early : ChosenFrom first before middle) (late : ChosenFrom second middle after) :
    ChosenFrom (first ++ second) before after := by
  simp only [ChosenFrom, List.forall_mem_append]
  rcases early with ⟨earlyNone, earlyGap, earlyOffset⟩ | ⟨gap, gapIn, fits, better, gapBest, offsetBest, least⟩
  · rcases late with ⟨lateNone, lateGap, lateOffset⟩ | ⟨gap, gapIn, fits, better, gapBest, offsetBest, least⟩
    · exact Or.inl ⟨⟨earlyNone, earlyGap ▸ lateNone⟩, lateGap.trans earlyGap, lateOffset.trans earlyOffset⟩
    · refine Or.inr ⟨gap, List.mem_append_right _ gapIn, fits, earlyGap ▸ better, gapBest, offsetBest, ?_, least⟩
      intro other member admitted
      have := earlyNone other member admitted
      omega
  · rcases late with ⟨lateNone, lateGap, lateOffset⟩ | ⟨next, nextIn, nextFits, nextBetter, nextGap, nextOffset,
      nextLeast⟩
    · refine Or.inr ⟨gap, List.mem_append_left _ gapIn, fits, better, lateGap.trans gapBest,
        lateOffset.trans offsetBest, least, ?_⟩
      intro other member admitted
      have := lateNone other member admitted
      omega
    · refine Or.inr ⟨next, List.mem_append_right _ nextIn, nextFits, by omega, nextGap, nextOffset, ?_, nextLeast⟩
      intro other member admitted
      have := least other member admitted
      omega

theorem freeGaps_cons_append (start : Int) (range : Gaps.Range) (rest : List Gaps.Range) :
    freeGaps start (range :: rest) =
      (if start ≤ range.1 then [⟨start, range.1 - start, range.2⟩] else []) ++
        freeGaps (max start range.stop) rest := by
  by_cases below : start ≤ range.1 <;> simp [freeGaps, below]

theorem scanRanges_chosen (ranges : List Gaps.Range) (sizes : ∀ range ∈ ranges, 0 ≤ range.2) (scan : GapScan) :
    (ranges.foldl scanRange scan).offsetPrev = highestEnd scan.offsetPrev ranges ∧
      ChosenFrom (freeGaps scan.offsetPrev ranges) scan (ranges.foldl scanRange scan) := by
  induction ranges generalizing scan with
  | nil => exact ⟨rfl, Or.inl ⟨by simp [freeGaps], rfl, rfl⟩⟩
  | cons range rest ih =>
      obtain ⟨highest, chosen⟩ := ih (fun other member => sizes other (List.mem_cons_of_mem _ member))
        (scanRange scan range)
      refine ⟨highest, ?_⟩
      rw [freeGaps_cons_append]
      exact chosen_append _ _ _ _ _ (scanRange_chosen scan range (sizes range List.mem_cons_self)) chosen

def chosenOffset (scan : GapScan) : Int := if scan.offsetBest < 0 then scan.offsetPrev else scan.offsetBest

theorem chosenOffset_cases (ranges : List Gaps.Range) (sizes : ∀ range ∈ ranges, 0 ≤ range.2) :
    (∃ gap ∈ freeGaps 0 ranges, Admitted gap ∧ chosenOffset (ranges.foldl scanRange {}) = gap.bottom ∧
      ∀ other ∈ freeGaps 0 ranges, Admitted other → gap.length ≤ other.length) ∨
    (∀ gap ∈ freeGaps 0 ranges, ¬ Admitted gap) ∧
      chosenOffset (ranges.foldl scanRange {}) = highestEnd 0 ranges := by
  obtain ⟨highest, chosen⟩ := scanRanges_chosen ranges sizes {}
  rcases chosen with ⟨none, _, offset⟩ | ⟨gap, gapIn, fits, better, _, offset, least⟩
  · right
    refine ⟨fun gap gapIn admitted => ?_, ?_⟩
    · exact absurd admitted.2 (not_lt.mpr (none gap gapIn admitted.1))
    · rw [chosenOffset, offset, highest, if_pos (by decide)]
  · left
    have bounds := freeGaps_bounds 0 ranges sizes gap gapIn
    refine ⟨gap, gapIn, ⟨fits, better⟩, ?_, fun other otherIn admitted => least other otherIn admitted.1⟩
    rw [chosenOffset, offset, if_neg (by omega)]

theorem freeGaps_above (start : Int) (ranges : List Gaps.Range) (gap : Gap)
    (member : gap ∈ freeGaps start ranges) : ∃ range ∈ ranges, range.2 = gap.above := by
  induction ranges generalizing start with
  | nil => simp [freeGaps] at member
  | cons range rest ih =>
      rcases (mem_freeGaps_cons start range rest gap).mp member with ⟨_, rfl⟩ | later
      · exact ⟨range, List.mem_cons_self, rfl⟩
      · obtain ⟨other, otherIn, same⟩ := ih _ later
        exact ⟨other, List.mem_cons_of_mem _ otherIn, same⟩

/-- The scan follows the policy exactly when it admits a tightest gap or there is none. -/
theorem chosenOffset_tight_iff (ranges : List Gaps.Range) (size : Int) (nonneg : 0 ≤ size)
    (larger : ∀ range ∈ ranges, size ≤ range.2) :
    PlacedTightly ranges size (chosenOffset (ranges.foldl scanRange {})) ↔ AdmitsTightest ranges size := by
  have sizes : ∀ range ∈ ranges, 0 ≤ range.2 := fun range member => nonneg.trans (larger range member)
  have bounds (gap : Gap) (member : gap ∈ freeGaps 0 ranges) := freeGaps_bounds 0 ranges sizes gap member
  have holds (gap : Gap) (member : gap ∈ freeGaps 0 ranges) (admitted : Admitted gap) : size ≤ gap.length := by
    obtain ⟨range, rangeIn, same⟩ := freeGaps_above 0 ranges gap member
    exact (larger range rangeIn).trans (same ▸ admitted.1)
  have empty (gap : Gap) (length : gap.length = 0) (above : gap.above = 0) : Admitted gap := by
    refine ⟨by omega, ?_⟩
    rw [length]
    decide
  rcases chosenOffset_cases ranges sizes with ⟨gap, gapIn, admitted, offset, least⟩ | ⟨none, offset⟩
  · rw [offset]
    constructor
    · rintro (⟨tight, isTight, same⟩ | ⟨noFit, _⟩)
      · right
        rcases freeGaps_bottom 0 ranges sizes gap tight gapIn isTight.free same with
          rfl | ⟨length, above⟩ | ⟨length, above⟩
        · exact ⟨gap, isTight, admitted⟩
        · refine ⟨gap, ⟨gapIn, holds gap gapIn admitted, fun other otherIn _ => ?_⟩, admitted⟩
          rw [length]
          exact (bounds other otherIn).2.1
        · exact ⟨tight, isTight, empty tight length above⟩
      · have fits := holds gap gapIn admitted
        have := noFit gap gapIn
        omega
    · rintro (noFit | ⟨tight, isTight, tightAdmitted⟩)
      · have fits := holds gap gapIn admitted
        have := noFit gap gapIn
        omega
      · refine Or.inl ⟨gap, ⟨gapIn, holds gap gapIn admitted, fun other otherIn fits => ?_⟩, rfl⟩
        exact (least tight isTight.free tightAdmitted).trans (isTight.shortest other otherIn fits)
  · rw [offset]
    constructor
    · rintro (⟨tight, isTight, same⟩ | ⟨noFit, _⟩)
      · -- the highest end is the bottom of a gap only where gap and range are empty
        have inside := bounds tight isTight.free
        obtain ⟨range, rangeIn, above⟩ := freeGaps_above 0 ranges tight isTight.free
        have := sizes range rangeIn
        exact absurd (empty tight (by omega) (by omega)) (none tight isTight.free)
      · exact Or.inl noFit
    · rintro (noFit | ⟨tight, isTight, tightAdmitted⟩)
      · exact Or.inr ⟨noFit, rfl⟩
      · exact absurd tightAdmitted (none tight isTight.free)

def conflictRanges (state : GreedyState) (reqIndex : Nat) : List Gaps.Range :=
  (state.allocatedOrderedByOffset.filter fun entry =>
    conflicts (state.problem.request reqIndex) (state.problem.request entry.2)).map
      fun entry => ((state.problem.request entry.2).offset, (state.problem.request entry.2).size)

theorem findOffset_eq (state : GreedyState) (reqIndex : Nat) :
    findOffset state.problem (state.problem.request reqIndex) state.allocatedOrderedByOffset =
      chosenOffset ((conflictRanges state reqIndex).foldl scanRange {}) := by
  have steps (scan : GapScan) (entry : Int × Nat) :
      scanStep state.problem (state.problem.request reqIndex) scan entry =
        if decide (conflicts (state.problem.request reqIndex) (state.problem.request entry.2)) = true then
          scanRange scan ((state.problem.request entry.2).offset, (state.problem.request entry.2).size)
        else scan := by
    simp only [scanStep, scanRange, Gaps.Range.stop, decide_eq_true_eq]
  have folds : state.allocatedOrderedByOffset.foldl (scanStep state.problem (state.problem.request reqIndex)) {} =
      (conflictRanges state reqIndex).foldl scanRange {} := by
    rw [conflictRanges, List.foldl_map, List.foldl_filter, funext fun scan => funext (steps scan)]
  simp only [findOffset, chosenOffset, folds]

theorem conflictRanges_visited (before : Problem) (visited : List Nat) (state : GreedyState) (reqIndex : Nat)
    (plan : GreedyPlan before visited state) :
    (conflictRanges state reqIndex).Perm
        ((visited.filter fun other =>
          conflicts (state.problem.request reqIndex) (state.problem.request other)).map
            fun other => ((state.problem.request other).offset, (state.problem.request other).size)) ∧
      (conflictRanges state reqIndex).Pairwise fun low high => low.1 ≤ high.1 := by
  constructor
  · refine List.Perm.trans (List.Perm.of_eq ?_) ((plan.listed.filter _).map _)
    rw [conflictRanges, List.filter_map, List.map_map]
    rfl
  · rw [conflictRanges, List.pairwise_map]
    refine List.Pairwise.sublist List.filter_sublist ?_
    refine plan.sorted.imp_of_mem fun lowIn highIn ordered => ?_
    rwa [plan.keyed _ lowIn, plan.keyed _ highIn] at ordered

/-- Whenever the greedy allocator places a request, it follows the policy exactly when no
free gap holds the request or its comparison admits one of the tightest that do. -/
theorem greedy_policy_iff (ties : TieBreak Nat) (problem : Problem) (visited rest : List Nat) (reqIndex : Nat)
    (state next : GreedyState) (valid : problem.valid = true)
    (order : ties.drain (bySize problem) problem.enabled = visited ++ reqIndex :: rest)
    (ran : visited.foldlM greedyStep { problem := problem } = some state)
    (placed : greedyStep state reqIndex = some next) :
    ((conflictRanges state reqIndex).Perm
        ((visited.filter fun other =>
          conflicts (state.problem.request reqIndex) (state.problem.request other)).map
            fun other => ((state.problem.request other).offset, (state.problem.request other).size)) ∧
      (conflictRanges state reqIndex).Pairwise fun low high => low.1 ≤ high.1) ∧
    (PlacedTightly (conflictRanges state reqIndex) (state.problem.request reqIndex).size
        (next.problem.request reqIndex).offset ↔
      AdmitsTightest (conflictRanges state reqIndex) (state.problem.request reqIndex).size) := by
  have drained := ties.drain_perm (bySize problem) problem.enabled
  have sorted := ties.drain_pairwise (bySize problem) problem.enabled
  rw [order] at drained sorted
  have visitable := visitable_subset problem _ _ drained.subset (visitable_enabled problem valid)
  obtain ⟨early, late, across⟩ := List.pairwise_append.mp sorted
  have plan := greedyPrefix_plan problem visited [] _ state
    (visitable_subset _ _ _ (by simp) visitable) early (by simp) (greedyPlan_start problem) ran
  rw [List.append_nil] at plan
  have conflicting := conflictRanges_visited problem visited.reverse state reqIndex plan
  refine ⟨⟨conflicting.1.trans (((List.reverse_perm visited).filter _).map _), conflicting.2⟩, ?_⟩
  have sameSize := placed_size _ _ _ _ _ plan.placed
  have inside : reqIndex < state.problem.requests.length := by
    rw [plan.placed.length]
    exact visitable.inside reqIndex (by simp)
  have size : 0 ≤ (state.problem.request reqIndex).size := by
    rw [sameSize]
    exact visitable.size reqIndex (by simp)
  have larger : ∀ range ∈ conflictRanges state reqIndex, (state.problem.request reqIndex).size ≤ range.2 := by
    intro range member
    obtain ⟨other, found, rfl⟩ := List.mem_map.mp (conflicting.1.mem_iff.mp member)
    have otherIn := List.mem_reverse.mp (List.mem_of_mem_filter found)
    have ordered := across other otherIn reqIndex List.mem_cons_self
    simp only [bySize, sameSize] at ordered ⊢
    omega
  have offset : (next.problem.request reqIndex).offset =
      chosenOffset ((conflictRanges state reqIndex).foldl scanRange {}) := by
    rw [← findOffset_eq]
    by_cases fresh : (state.problem.request reqIndex).offset < 0
    · simp only [greedyStep, fresh, ↓reduceIte, Option.some.injEq] at placed
      rw [← placed]
      simp [request_setOffset _ _ _ _ inside, VarRequest.place]
    · simp [greedyStep, fresh] at placed
  rw [offset]
  exact chosenOffset_tight_iff _ _ size larger

def crowded : Problem :=
  (((({} : Problem).define [.place .scratch, .request .scratch 9 0 1]).define
    [.place .scratch, .request .scratch 8 1 3]).define [.place .scratch, .request .scratch 5 2 4]).define
      [.place .scratch, .request .scratch 3 2 3]

def crowdedAfter (count : Nat) : Option GreedyState :=
  ((List.range count).foldlM greedyStep { problem := crowded })

theorem crowded_order : (TieBreak.insertion Nat).drain (bySize crowded) crowded.enabled = [0, 1, 2, 3] := by
  decide

/-- The third request goes to the bottom of the gap of nine below the second. -/
theorem greedy_policy_third : ∃ state next, crowdedAfter 2 = some state ∧ greedyStep state 2 = some next ∧
    PlacedTightly (conflictRanges state 2) 5 (next.problem.request 2).offset := by
  obtain ⟨state, ran⟩ : ∃ state, crowdedAfter 2 = some state := ⟨_, rfl⟩
  obtain ⟨next, stepped⟩ : ∃ next, greedyStep state 2 = some next := by
    cases ran
    exact ⟨_, rfl⟩
  have policy := (greedy_policy_iff (TieBreak.insertion Nat) crowded [0, 1] [3] 2 state next (by decide)
    crowded_order ran stepped).2
  have ranges : conflictRanges state 2 = [(9, 8)] := by
    cases ran
    decide
  have size : (state.problem.request 2).size = 5 := by
    cases ran
    decide
  rw [ranges, size] at policy
  refine ⟨state, next, ran, stepped, ?_⟩
  rw [ranges]
  apply policy.mpr
  exact Or.inr ⟨⟨0, 9, 8⟩, ⟨by decide, by decide, by decide⟩, by decide, by decide⟩

/-- The fourth request fits into the gap of four, which is smaller than the range above it. -/
theorem fourth_on_top : ∃ state next, crowdedAfter 3 = some state ∧ greedyStep state 3 = some next ∧
    ¬ PlacedTightly (conflictRanges state 3) (state.problem.request 3).size
      (next.problem.request 3).offset := by
  obtain ⟨state, ran⟩ : ∃ state, crowdedAfter 3 = some state := ⟨_, rfl⟩
  obtain ⟨next, stepped⟩ : ∃ next, greedyStep state 3 = some next := by
    cases ran
    exact ⟨_, rfl⟩
  have gaps : freeGaps 0 (conflictRanges state 3) = [⟨0, 0, 5⟩, ⟨5, 4, 8⟩] := by
    cases ran
    decide
  have size : (state.problem.request 3).size = 3 := by
    cases ran
    decide
  have offset : (next.problem.request 3).offset = 17 := by
    cases ran
    cases stepped
    decide
  refine ⟨state, next, ran, stepped, ?_⟩
  rw [size, offset]
  rintro (⟨gap, isTight, same⟩ | ⟨noFit, _⟩)
  · have member := isTight.free
    rw [gaps] at member
    simp only [List.mem_cons, List.not_mem_nil, or_false] at member
    rcases member with rfl | rfl <;> simp at same
  · have fits := noFit ⟨5, 4, 8⟩ (by rw [gaps]; simp)
    simp at fits

end TtMlir.Planner
