import TtMlir.Layout.LinearMap
import TtMlir.Library.Lists

/-!
When `collapsedLinearAffineMap` is the row-major linearisation of its intervals. Results are
replaced at the first dim of an interval and none is erased, so a longer interval only fits when it
is the last one and the grid has the rank that is left.
-/

namespace TtMlir.Layout

open MixedRadix

section Groups

theorem groups_split (stop position : Nat) (before after : List (Nat × Nat)) (span : Nat × Nat) :
    groupsFrom stop position (before ++ span :: after) =
      groupsFrom span.1 position before ++ (span.2 - span.1) :: groupsFrom stop span.2 after := by
  induction before generalizing position with
  | nil => rfl
  | cons first before ih => rw [List.cons_append, groupsFrom, ih, groupsFrom, List.append_assoc, List.cons_append]

theorem groups_trivial (stop position : Nat) (spans : List (Nat × Nat)) (follow : SpansFrom stop position spans)
    (trivial : ∀ span ∈ spans, span.2 = span.1 + 1) :
    groupsFrom stop position spans = List.replicate (stop - position) 1 := by
  induction spans generalizing position with
  | nil => rfl
  | cons span rest ih =>
    obtain ⟨low, proper, later⟩ := follow
    have := later.le
    have single := trivial span List.mem_cons_self
    have total : stop - position = (span.1 - position) + 1 + (stop - span.2) := by omega
    rw [groupsFrom, ih span.2 later fun other member => trivial other (List.mem_cons_of_mem _ member), single,
      Nat.add_sub_cancel_left, total, List.replicate_add, List.replicate_succ', single]
    simp

theorem groups_pos (stop position : Nat) (spans : List (Nat × Nat)) (follow : SpansFrom stop position spans) :
    ∀ count ∈ groupsFrom stop position spans, 1 ≤ count := by
  induction spans generalizing position with
  | nil =>
    intro count member
    rw [List.eq_of_mem_replicate member]
  | cons span rest ih =>
    obtain ⟨low, proper, later⟩ := follow
    intro count member
    rcases List.mem_append.mp member with single | rest
    · rw [List.eq_of_mem_replicate single]
    · rcases List.mem_cons.mp rest with rfl | inRest
      · omega
      · exact ih span.2 later count inRest

theorem mem_groups (stop position : Nat) (spans : List (Nat × Nat)) (span : Nat × Nat) (member : span ∈ spans) :
    span.2 - span.1 ∈ groupsFrom stop position spans := by
  obtain ⟨before, after, rfl⟩ := List.append_of_mem member
  rw [groups_split]
  simp

theorem follow_split (stop position : Nat) (before after : List (Nat × Nat)) (span : Nat × Nat)
    (follow : SpansFrom stop position (before ++ span :: after)) :
    SpansFrom span.1 position before ∧ span.1 < span.2 ∧ SpansFrom stop span.2 after := by
  induction before generalizing position with
  | nil => exact ⟨follow.1, follow.2⟩
  | cons first before ih =>
    obtain ⟨low, proper, later⟩ := follow
    obtain ⟨front, rest⟩ := ih first.2 later
    exact ⟨⟨low, proper, front⟩, rest⟩

theorem singles_of_length (groups : List Nat) (positive : ∀ count ∈ groups, 1 ≤ count)
    (length : groups.length = groups.sum) :
    groups = List.replicate groups.length 1 := by
  refine List.eq_replicate_iff.mpr ⟨rfl, ?_⟩
  induction groups with
  | nil => simp
  | cons count groups ih =>
    have atLeast : groups.length ≤ groups.sum := by
      have bound := List.card_nsmul_le_sum groups 1 fun other member => positive other (List.mem_cons_of_mem _ member)
      simpa using bound
    rw [List.length_cons, List.sum_cons] at length
    have here := positive count List.mem_cons_self
    intro other member
    rcases List.mem_cons.mp member with rfl | later
    · omega
    · exact ih (fun other member => positive other (List.mem_cons_of_mem _ member)) (by omega) other later

theorem rowMajor_zero (shape index : List Int) (zero : ∀ digit ∈ index, digit = 0) : rowMajor shape index = 0 := by
  induction shape generalizing index with
  | nil => cases index <;> rfl
  | cons extent shape ih =>
    cases index with
    | nil => rfl
    | cons digit index =>
      rw [rowMajor, zero digit List.mem_cons_self, zero_mul, zero_add]
      exact ih index fun other member => zero other (List.mem_cons_of_mem _ member)

theorem groupValues_zero (groups : List Nat) (shape index : List Int)
    (zero : ∀ digit ∈ index.take groups.sum, digit = 0) :
    groupValues groups shape index = List.replicate groups.length 0 := by
  induction groups generalizing shape index with
  | nil => rfl
  | cons count groups ih =>
    rw [List.sum_cons] at zero
    have front : ∀ digit ∈ index.take count, digit = 0 := fun digit member =>
      zero digit ((List.take_subset_take_left index (Nat.le_add_right count groups.sum)) member)
    have back : ∀ digit ∈ (index.drop count).take groups.sum, digit = 0 := fun digit member => by
      rw [List.take_drop] at member
      exact zero digit (List.mem_of_mem_drop member)
    rw [groupValues, rowMajor_zero _ _ front, ih _ _ back, List.length_cons, List.replicate_succ]

theorem unit_take_zero (rank d count : Nat) (inside : d < rank) (above : count ≤ d) :
    ∀ digit ∈ (unitIndex rank d).take count, digit = 0 := by
  intro digit member
  obtain ⟨i, below, rfl⟩ := List.getElem_of_mem member
  rw [List.length_take] at below
  have same := unitIndex_getD rank d i inside
  rw [List.getD_eq_getElem?_getD, List.getElem?_eq_getElem (by omega), Option.getD_some, if_neg (by omega)] at same
  rw [List.getElem_take, same]

theorem unit_drop (rank d count : Nat) (inside : d < rank) (below : d < count) :
    (unitIndex rank d).drop count = List.replicate (rank - count) 0 := by
  refine List.eq_replicate_iff.mpr ⟨by rw [List.length_drop, unitIndex_length], fun digit member => ?_⟩
  obtain ⟨i, small, rfl⟩ := List.getElem_of_mem member
  rw [List.length_drop] at small
  have same := unitIndex_getD rank d (count + i) inside
  rw [List.getD_eq_getElem?_getD, List.getElem?_eq_getElem (by omega), Option.getD_some, if_neg (by omega)] at same
  rw [List.getElem_drop, same]

end Groups

theorem padFront_evaluate (gridRank : Nat) (results : List Linear) (index : List Int) :
    (padFront gridRank results).map (fun result => result.evaluate index) =
      List.replicate (gridRank - results.length) 0 ++ results.map fun result => result.evaluate index := by
  rw [padFront, List.map_append, List.map_replicate]
  rfl

namespace CollapseInput
variable (input : CollapseInput)

theorem groups_total : input.groups.sum = input.shape.length :=
  (groups_sum input.rank 0 input.spanList input.spanList_follow).trans (Nat.sub_zero _)

theorem linearises_of_results (map : List Linear) (results : ∀ index : List Int, index.length = input.rank →
    map.map (fun result => result.evaluate index) = input.expected index) : input.Linearises map := by
  refine ⟨results, ?_⟩
  have same : Set.EqOn (fun index => input.expected index) (fun index => map.map fun result => result.evaluate index)
      (fun index => Within input.shape index) := fun index within =>
    (results index (within_length _ _ within)).symm
  obtain ⟨maps, injective, onto⟩ := groupValues_bijOn input.groups input.shape input.extents input.groups_total
  have zeros (count : Nat) : Within (List.replicate count 1) (List.replicate count 0) := by
    induction count with
    | zero => exact List.Forall₂.nil
    | succ count ih => exact List.Forall₂.cons ⟨le_rfl, Int.one_pos⟩ ih
  refine Set.BijOn.congr ⟨fun index within => ?_, fun left isLeft right isRight agree => ?_,
    fun value isValue => ?_⟩ same
  · exact List.rel_append (zeros _) (maps within)
  · exact injective isLeft isRight (List.append_cancel_left agree)
  · obtain ⟨front, back⟩ := (within_split (input.gridRank - input.groups.length) _ _).mp isValue
    rw [collapsedExtents, List.take_left' List.length_replicate] at front
    rw [collapsedExtents, List.drop_left' List.length_replicate] at back
    obtain ⟨index, within, reached⟩ := onto back
    refine ⟨index, within, ?_⟩
    have zero : value.take (input.gridRank - input.groups.length) =
        List.replicate (input.gridRank - input.groups.length) 0 := by
      have length := within_length _ _ front
      rw [List.length_replicate] at length
      refine List.eq_replicate_iff.mpr ⟨length, fun digit member => ?_⟩
      obtain ⟨i, below, rfl⟩ := List.getElem_of_mem member
      have bounds := ((within_iff _ _).mp front).2 i (by rw [List.length_replicate]; omega)
      rw [List.getD_eq_getElem?_getD, List.getElem?_eq_getElem below, Option.getD_some,
        List.getD_eq_getElem?_getD, List.getElem?_replicate_of_lt (by omega), Option.getD_some] at bounds
      omega
    change List.replicate _ 0 ++ groupValues input.groups input.shape index = value
    rw [reached, ← zero, List.take_append_drop]

section Entries

theorem lowest_le (span : Nat × Nat) (member : span ∈ input.spanList) :
    lowestDim input.rank input.spanList ≤ span.1 := by
  have follow := input.spanList_follow
  cases spans : input.spanList with
  | nil => simp [spans] at member
  | cons first rest =>
    rw [spans] at follow member
    rcases List.mem_cons.mp member with rfl | later
    · exact le_rfl
    · have := (spans_above input.rank first.2 rest follow.2.2 span later).1
      have := follow.2.1
      exact (show first.1 ≤ span.1 by omega)

theorem span_unique (stop position : Nat) (spans : List (Nat × Nat)) (follow : SpansFrom stop position spans)
    (left right : Nat × Nat) (isLeft : left ∈ spans) (isRight : right ∈ spans) (same : left.1 = right.1) :
      left = right := by
  induction spans generalizing position with
  | nil => simp at isLeft
  | cons first rest ih =>
    obtain ⟨low, proper, later⟩ := follow
    rcases List.mem_cons.mp isLeft with rfl | leftLater
    · rcases List.mem_cons.mp isRight with rfl | rightLater
      · rfl
      · have := (spans_above stop _ rest later right rightLater).1
        omega
    · rcases List.mem_cons.mp isRight with rfl | rightLater
      · have := (spans_above stop _ rest later left leftLater).1
        omega
      · exact ih first.2 later leftLater rightLater

theorem entry_span (span : Nat × Nat) (member : span ∈ input.spanList) :
    input.entry span.1 = collapsed input.shape span := by
  have above := input.lowest_le span member
  rw [entry, if_neg (not_lt.mpr above)]
  cases found : input.spanList.find? fun other => decide (other.1 = span.1) with
  | none => exact absurd (List.find?_eq_none.mp found span member) (by simp)
  | some other =>
    have same : other.1 = span.1 := by simpa using List.find?_some found
    rw [span_unique _ _ _ input.spanList_follow other span (List.mem_of_find?_eq_some found) member same]

theorem entry_other (j : Nat) (above : lowestDim input.rank input.spanList ≤ j)
    (none : ∀ span ∈ input.spanList, span.1 ≠ j) : input.entry j = Linear.dim (input.rank - input.numResults + j) := by
  have absent : (input.spanList.find? fun span => decide (span.1 = j)) = Option.none :=
    List.find?_eq_none.mpr fun span member => by simpa using none span member
  rw [entry, if_neg (not_lt.mpr above), absent]

theorem evaluate_collapsed (span : Nat × Nat) (member : span ∈ input.spanList) (index : List Int) :
    (collapsed input.shape span).evaluate index =
      weighted (fun d => wrapInt (stride input.shape d span.2)) (List.range' span.1 (span.2 - span.1)) index := by
  obtain ⟨-, proper, inside⟩ := spans_above _ _ _ input.spanList_follow span member
  have spec := (collapseDims_spec input.shape index span.1 (span.2 - span.1)
    (show span.1 + (span.2 - span.1) ≤ input.rank by omega)).2
  have stop : span.1 + (span.2 - span.1) = span.2 := by omega
  rw [stop] at spec
  exact spec

theorem evaluate_collapsed_unit (span : Nat × Nat) (member : span ∈ input.spanList) (d : Nat)
    (inside : d < input.rank) :
    (collapsed input.shape span).evaluate (unitIndex input.rank d) =
      if span.1 ≤ d ∧ d < span.2 then wrapInt (stride input.shape d span.2) else 0 := by
  obtain ⟨-, proper, -⟩ := spans_above _ _ _ input.spanList_follow span member
  rw [input.evaluate_collapsed span member, weighted_unit _ _ _ _ _ inside]
  exact if_congr (by omega) rfl rfl

theorem stride_last (shape : List Int) (last : Nat) (positive : 0 < last) : stride shape (last - 1) last = 1 := by
  rw [stride, Nat.sub_add_cancel positive, List.drop_eq_nil_of_le (by rw [List.length_take]; omega), List.prod_nil]

theorem evaluate_single (d : Nat) (member : (d, d + 1) ∈ input.spanList) (index : List Int) :
    (collapsed input.shape (d, d + 1)).evaluate index = index.getD d 0 := by
  rw [input.evaluate_collapsed _ member, Nat.add_sub_cancel_left]
  have one : stride input.shape d (d + 1) = 1 := stride_last input.shape (d + 1) (Nat.succ_pos d)
  simp only [List.range'_one, weighted, List.map_cons, List.map_nil, List.sum_singleton, one]
  exact one_mul _

end Entries

section Expected
variable {input} {before after : List (Nat × Nat)} {span : Nat × Nat}
  (split : input.spanList = before ++ span :: after) (trivial : ∀ other ∈ after, other.2 = other.1 + 1)
include split

theorem span_bounds : SpansFrom span.1 0 before ∧ span.1 < span.2 ∧ span.2 ≤ input.rank ∧ span ∈ input.spanList := by
  have follow := input.spanList_follow
  rw [split] at follow
  obtain ⟨front, proper, back⟩ := follow_split _ _ _ _ _ follow
  exact ⟨front, proper, back.le, split ▸ by simp⟩

include trivial

theorem groups_eq : input.groups =
    groupsFrom span.1 0 before ++ (span.2 - span.1) :: List.replicate (input.rank - span.2) 1 := by
  have follow := input.spanList_follow
  rw [split] at follow
  change groupsFrom input.rank 0 input.spanList = _
  rw [split, groups_split, groups_trivial _ _ _ (follow_split _ _ _ _ _ follow).2.2 trivial]

theorem groups_length : input.groups.length = (groupsFrom span.1 0 before).length + 1 + (input.rank - span.2) := by
  rw [groups_eq split trivial, List.length_append, List.length_cons, List.length_replicate]
  omega

theorem expected_split (index : List Int) (length : index.length = input.rank) : input.expected index =
    List.replicate (input.gridRank - input.groups.length) 0 ++
      (groupValues (groupsFrom span.1 0 before) input.shape index ++
        weighted (fun d => stride input.shape d span.2) (List.range' span.1 (span.2 - span.1)) index ::
          index.drop span.2) := by
  obtain ⟨front, proper, inside, -⟩ := span_bounds split
  have sum := groups_sum span.1 0 before front
  have stop : span.1 + (span.2 - span.1) = span.2 := by omega
  have position := rowMajor_slice input.shape index length span.1 (span.2 - span.1)
    (show span.1 + (span.2 - span.1) ≤ input.rank by omega)
  rw [stop] at position
  have shapeLength : input.shape.length = input.rank := rfl
  have tail := groupValues_singles (input.rank - span.2) (input.shape.drop span.2) (index.drop span.2)
    (by rw [List.length_drop, shapeLength]) (by rw [List.length_drop, length])
  rw [List.take_of_length_le (by rw [List.length_drop, length])] at tail
  rw [expected]
  conv_lhs => rw [groups_eq split trivial]
  rw [groupValues_append, sum, Nat.sub_zero, groupValues, List.take_drop, List.take_drop, stop, position,
    List.drop_drop, List.drop_drop, stop, tail, groups_eq split trivial]

theorem expected_unit (d : Nat) (low : span.1 ≤ d) (high : d < span.2) :
    input.expected (unitIndex input.rank d) =
      List.replicate (input.gridRank - input.groups.length + (groupsFrom span.1 0 before).length) 0 ++
        stride input.shape d span.2 :: List.replicate (input.rank - span.2) 0 := by
  obtain ⟨front, proper, inside, -⟩ := span_bounds split
  have below : d < input.rank := by omega
  rw [expected_split split trivial _ (unitIndex_length _ _), weighted_unit _ _ _ _ _ below, if_pos (by omega),
    unit_drop _ _ _ below high, groupValues_zero, ← List.append_assoc, ← List.replicate_add]
  rw [groups_sum _ _ _ front]
  exact unit_take_zero _ _ _ below (by omega)

end Expected

structure SingleDims : Prop where
  single : ∀ span ∈ input.spanList, span.2 = span.1 + 1
  room : input.rank ≤ input.gridRank

/-- Only the last interval is longer: every dim before it is an interval of its own, and the grid has
exactly the rank that is left. -/
structure LastInterval : Prop where
  shape : ∃ before span, input.spanList = before ++ [span] ∧ span.1 + 1 < span.2 ∧
    (∀ other ∈ before, other.2 = other.1 + 1) ∧
    (∀ d, lowestDim input.rank input.spanList ≤ d → d < span.1 → ∃ other ∈ before, other.1 = d) ∧
    input.gridRank + (span.2 - span.1) = input.rank + 1 ∧ stride input.shape span.1 span.2 < 2 ^ 31

/-- The only longer interval starts at dim 0 and ends with an extent of zero. -/
structure EmptyInterval : Prop where
  shape : ∃ last after, input.spanList = (0, last) :: after ∧ 1 < last ∧ (∀ other ∈ after, other.2 = other.1 + 1) ∧
    input.gridRank + last = input.rank + 1 ∧ input.shape.getD (last - 1) 0 = 0

section Forward
variable {input}

theorem spike_getD (before after position : Nat) (value : Int) :
    (List.replicate before 0 ++ value :: List.replicate after 0).getD position 0 = if position =
      before then value else 0 := by
  rw [List.getD_eq_getElem?_getD]
  rcases lt_trichotomy position before with low | rfl | high
  · rw [List.getElem?_append_left (by simpa using low), List.getElem?_replicate_of_lt low, if_neg (by omega)]
    rfl
  · rw [List.getElem?_append_right (by simp), List.length_replicate, Nat.sub_self, if_pos rfl]
    rfl
  · rw [List.getElem?_append_right (by simp; omega), List.length_replicate, if_neg (by omega)]
    obtain ⟨rest, same⟩ : ∃ rest, position - before = rest + 1 := ⟨position - before - 1, by omega⟩
    rw [same, List.getElem?_cons_succ, List.getElem?_replicate]
    split <;> rfl

theorem padded_getD (pads count position : Nat) (value : Nat → Int) :
    (List.replicate pads 0 ++ (List.range count).map value).getD position 0 =
      if pads ≤ position ∧ position < pads + count then value (position - pads) else 0 := by
  rw [List.getD_eq_getElem?_getD]
  rcases Nat.lt_or_ge position pads with low | high
  · rw [List.getElem?_append_left (by simpa using low), List.getElem?_replicate_of_lt low, if_neg (by omega)]
    rfl
  · rw [List.getElem?_append_right (by simpa using high), List.length_replicate, List.getElem?_map]
    by_cases inside : position - pads < count
    · rw [List.getElem?_range inside, if_pos (by omega)]
      rfl
    · rw [List.getElem?_eq_none (by simpa using inside), if_neg (by omega)]
      rfl

theorem entry_one (j : Nat) (low : j < input.numResults) :
    ∃ d < input.rank, (input.entry j).evaluate (unitIndex input.rank d) = 1 := by
  have clamped : input.numResults ≤ input.rank := min_le_left _ _
  by_cases below : j < lowestDim input.rank input.spanList
  · refine ⟨j, by omega, ?_⟩
    rw [entry, if_pos below, evaluate_dim, unitIndex_getD _ _ _ (by omega), if_pos rfl]
  by_cases begins : ∃ span ∈ input.spanList, span.1 = j
  · obtain ⟨span, member, rfl⟩ := begins
    obtain ⟨-, proper, inside⟩ := spans_above _ _ _ input.spanList_follow span member
    refine ⟨span.2 - 1, by omega, ?_⟩
    rw [input.entry_span span member, input.evaluate_collapsed_unit span member _ (by omega), if_pos (by omega),
      stride_last _ _ (by omega)]
    decide
  · push Not at begins
    refine ⟨input.rank - input.numResults + j, by omega, ?_⟩
    rw [input.entry_other j (by omega) begins, evaluate_dim, unitIndex_getD _ _ _ (by omega), if_pos rfl]

def actual (input : CollapseInput) (index : List Int) : List Int :=
  List.replicate (input.gridRank - input.numResults) 0 ++
    (List.range input.numResults).map fun j => (input.entry j).evaluate index

theorem singleDims_of_length (single : ∀ span ∈ input.spanList, span.2 = span.1 + 1)
    (room : input.groups.length ≤ input.gridRank) : input.SingleDims := by
  refine ⟨single, ?_⟩
  have groups : input.groups = List.replicate input.rank 1 :=
    (groups_trivial _ _ _ input.spanList_follow single).trans (by rw [Nat.sub_zero])
  rwa [groups, List.length_replicate] at room

theorem expected_getD (before after : List (Nat × Nat)) (span : Nat × Nat)
    (split : input.spanList = before ++ span :: after)
    (trivial : ∀ other ∈ after, other.2 = other.1 + 1) (singles : ∀ other ∈ before, other.2 = other.1 + 1)
    (full : input.groups.length = input.gridRank) (index : List Int) (length : index.length = input.rank)
    (position : Nat) :
    (input.expected index).getD position 0 =
      if position < span.1 then index.getD position 0
      else if position = span.1 then
        weighted (fun d => stride input.shape d span.2) (List.range' span.1 (span.2 - span.1)) index
      else index.getD (position + (span.2 - span.1) - 1) 0 := by
  obtain ⟨front, proper, within, -⟩ := span_bounds split
  have shapeLength : input.shape.length = input.rank := rfl
  rw [expected_split split trivial index length, full, Nat.sub_self, List.replicate_zero, List.nil_append,
    groups_trivial _ _ _ front singles, Nat.sub_zero, groupValues_singles _ _ _ (by omega) (by omega)]
  have frontLength : (index.take span.1).length = span.1 := by rw [List.length_take]; omega
  rw [List.getD_eq_getElem?_getD, List.getD_eq_getElem?_getD, List.getD_eq_getElem?_getD]
  rcases lt_trichotomy position span.1 with low | rfl | high
  · rw [List.getElem?_append_left (by omega), List.getElem?_take_of_lt low, if_pos low]
  · rw [List.getElem?_append_right (by omega), frontLength, Nat.sub_self, if_neg (lt_irrefl _), if_pos rfl]
    rfl
  · obtain ⟨rest, same⟩ : ∃ rest, position - span.1 = rest + 1 := ⟨position - span.1 - 1, by omega⟩
    rw [List.getElem?_append_right (by omega), frontLength, same, List.getElem?_cons_succ, List.getElem?_drop,
      if_neg (by omega), if_neg (by omega)]
    congr 2
    omega

theorem lastInterval_of_results (room : input.groups.length ≤ input.gridRank)
    (inside : ∀ span ∈ input.spanList, span.1 < input.numResults)
    (results : ∀ index : List Int, index.length = input.rank → input.actual index = input.expected index)
    (before after : List (Nat × Nat)) (span : Nat × Nat) (split : input.spanList = before ++ span :: after)
    (trivial : ∀ other ∈ after, other.2 = other.1 + 1) (long : span.1 + 1 < span.2) : input.LastInterval := by
  obtain ⟨front, -, within, member⟩ := span_bounds split
  have count := groups_length split trivial
  have clamped : input.numResults ≤ input.rank := min_le_left _ _
  have clampedGrid : input.numResults ≤ input.gridRank := min_le_right _ _
  have here := inside span member
  have same (index : List Int) (length : index.length = input.rank) (position : Nat) :=
    congrArg (fun values => values.getD position 0) (results index length)
  simp only [actual, padded_getD] at same
  -- the last dim of the span places its result
  have placed : input.numResults + (span.2 - span.1) = input.rank + 1 := by
    have place := same (unitIndex input.rank (span.2 - 1)) (unitIndex_length _ _)
        (input.gridRank - input.numResults + span.1)
    rw [if_pos (by omega), Nat.add_sub_cancel_left, input.entry_span span member,
      input.evaluate_collapsed_unit span member _ (by omega), if_pos (by omega),
      expected_unit split trivial _ (by omega) (by omega), spike_getD, stride_last _ _ (by omega)] at place
    have one : wrapInt 1 = 1 := by decide
    rw [one] at place
    split at place
    · omega
    · cases place
  have grid : input.numResults = input.gridRank := by
    rw [numResults] at placed ⊢
    omega
  -- no constants in front, since the first result is none
  have full : input.groups.length = input.gridRank := by
    refine le_antisymm room (not_lt.mp fun less => ?_)
    obtain ⟨d, below, one⟩ := input.entry_one 0 (by omega)
    have place := same (unitIndex input.rank d) (unitIndex_length _ _) 0
    rw [grid, Nat.sub_self, if_pos (by omega), Nat.sub_zero, one, expected, List.getD_eq_getElem?_getD,
      List.getElem?_append_left (by simpa using less), List.getElem?_replicate_of_lt (by omega)] at place
    cases place
  have singles : ∀ other ∈ before, other.2 = other.1 + 1 := by
    have sum := groups_sum span.1 0 before front
    have ones := singles_of_length _ (groups_pos span.1 0 before front) (by omega)
    intro other isOther
    have isGroup := mem_groups span.1 0 before other isOther
    rw [ones] at isGroup
    have := List.eq_of_mem_replicate isGroup
    omega
  have at_unit (d position : Nat) (isDim : d < input.rank) (isResult : position < input.numResults) :
      (input.entry position).evaluate (unitIndex input.rank d) =
        if position < span.1 then if position = d then 1 else 0
        else if position = span.1 then if span.1 ≤ d ∧ d < span.2 then stride input.shape d span.2 else 0
        else if position + (span.2 - span.1) - 1 = d then 1 else 0 := by
    have place := same (unitIndex input.rank d) (unitIndex_length _ _) position
    rw [expected_getD before after span split trivial singles full _ (unitIndex_length _ _), grid, Nat.sub_self,
      if_pos (by omega), Nat.sub_zero, weighted_unit _ _ _ _ _ isDim, unitIndex_getD _ _ _ isDim,
      unitIndex_getD _ _ _ isDim] at place
    rw [place]
    congr 2
    exact if_congr (by omega) rfl rfl
  have last : after = [] := by
    cases after with
    | nil => rfl
    | cons other rest =>
      have isOther : other ∈ input.spanList := split ▸ by simp
      have follow := input.spanList_follow
      rw [split] at follow
      have above := (follow_split _ _ _ _ _ follow).2.2.1
      obtain ⟨-, properOther, insideOther⟩ := spans_above _ _ _ input.spanList_follow other isOther
      have place := at_unit other.1 other.1 (by omega) (inside other isOther)
      have single := trivial other List.mem_cons_self
      rw [input.entry_span other isOther, input.evaluate_collapsed_unit other isOther _ (by omega), if_pos (by omega),
        single, if_neg (by omega), if_neg (by omega), if_neg (by omega)] at place
      have one : stride input.shape other.1 (other.1 + 1) = 1 := stride_last _ (other.1 + 1) (Nat.succ_pos _)
      rw [one] at place
      exact absurd place (by decide)
  subst last
  refine ⟨before, span, split, long, singles, fun d low below => ?_, by omega, ?_⟩
  · by_contra none
    push Not at none
    -- a result left over from the start follows a dim further on
    have other : input.entry d = Linear.dim (input.rank - input.numResults + d) := by
      refine input.entry_other d low fun other isOther => ?_
      rw [split] at isOther
      rcases List.mem_append.mp isOther with early | this
      · exact none other early
      · rw [List.mem_singleton.mp this]
        omega
    have place := at_unit d d (by omega) (by omega)
    rw [other, evaluate_dim, unitIndex_getD _ _ _ (by omega), if_neg (by omega), if_pos below, if_pos rfl] at place
    cases place
  · have place := at_unit span.1 span.1 (by omega) here
    rw [input.entry_span span member, input.evaluate_collapsed_unit span member _ (by omega), if_pos (by omega),
      if_neg (lt_irrefl _), if_pos rfl, if_pos (by omega)] at place
    rw [← place]
    exact Int.bmod_lt (by decide)

theorem stride_pair (shape : List Int) (last : Nat) (long : 1 < last) (inside : last ≤ shape.length) :
    stride shape (last - 2) last = shape.getD (last - 1) 0 := by
  have next : last - 2 + 1 = last - 1 := by omega
  rw [stride, next, slice_cons shape _ _ (by omega) inside, List.prod_cons,
    List.drop_eq_nil_of_le (by rw [List.length_take]; omega), List.prod_nil, mul_one]

def minor (input : CollapseInput) (index : List Int) : List Int :=
  List.replicate (input.gridRank - input.numResults) 0 ++
    (List.range input.numResults).map fun j => index.getD (input.rank - input.numResults + j) 0

theorem emptyInterval_of_results (room : input.groups.length ≤ input.gridRank)
    (results : ∀ index : List Int, index.length = input.rank → input.minor index = input.expected index)
    (before after : List (Nat × Nat)) (span : Nat × Nat) (split : input.spanList = before ++ span :: after)
    (trivial : ∀ other ∈ after, other.2 = other.1 + 1) (long : span.1 + 1 < span.2) : input.EmptyInterval := by
  obtain ⟨front, -, within, member⟩ := span_bounds split
  have count := groups_length split trivial
  have clamped : input.numResults ≤ input.rank := min_le_left _ _
  have clampedGrid : input.numResults ≤ input.gridRank := min_le_right _ _
  let spike := input.gridRank - input.groups.length + (groupsFrom span.1 0 before).length
  have at_unit (d position : Nat) (low : span.1 ≤ d) (high : d < span.2) :
      (if input.gridRank - input.numResults ≤ position ∧
          position < input.gridRank - input.numResults + input.numResults then
        if input.rank - input.numResults + (position - (input.gridRank - input.numResults)) = d then (1 : Int) else 0
      else 0) = if position = spike then stride input.shape d span.2 else 0 := by
    have place := congrArg (fun values => values.getD position 0)
        (results (unitIndex input.rank d) (unitIndex_length _ _))
    simp only [minor, padded_getD, expected_unit split trivial d low high, spike_getD] at place
    rw [← place]
    refine if_congr Iff.rfl ?_ rfl
    rw [unitIndex_getD _ _ _ (by omega)]
  -- the last dim of the span has a result
  have placed : input.rank + 1 ≤ input.numResults + span.2 := by
    have place := at_unit (span.2 - 1) spike (by omega) (by omega)
    rw [if_pos rfl, stride_last _ _ (by omega)] at place
    split at place
    · omega
    · cases place
  -- the dim before it has none, and its extent's neighbour is zero
  have exact : input.numResults + span.2 = input.rank + 1 := by
    refine le_antisymm (not_lt.mp fun more => ?_) placed
    have place := at_unit (span.2 - 2) (spike - 1) (by omega) (by omega)
    rw [if_pos (by omega), if_pos (by omega), if_neg (by omega)] at place
    cases place
  have zero : input.shape.getD (span.2 - 1) 0 = 0 := by
    have place := at_unit (span.2 - 2) spike (by omega) (by omega)
    rw [if_pos rfl, stride_pair _ _ (by omega) within] at place
    rw [← place]
    split
    · rw [if_neg (by omega)]
    · rfl
  have grid : input.numResults = input.gridRank := by
    rw [numResults] at exact ⊢
    omega
  have empty : groupsFrom span.1 0 before = [] := List.length_eq_zero_iff.mp (by omega)
  have first : span.1 = 0 := by
    have sum := groups_sum span.1 0 before front
    rw [empty, List.sum_nil] at sum
    omega
  have none : before = [] := List.eq_nil_iff_forall_not_mem.mpr fun other isOther => by
    have := spans_above span.1 0 before front other isOther
    omega
  refine ⟨span.2, after, ?_, by omega, trivial, by omega, zero⟩
  rw [split, none, ← first]
  rfl

end Forward

section Backward
variable {input}

theorem isFunctionOfDim_of_evaluate (expr : Linear) (rank d : Nat) (inside : d < rank)
    (value : expr.evaluate (unitIndex rank d) ≠ 0) : expr.isFunctionOfDim d = true := by
  by_contra absent
  refine value (List.sum_eq_zero fun term member => ?_)
  obtain ⟨given, isGiven, rfl⟩ := List.mem_map.mp member
  have other : given.1 ≠ d := fun same => absent (List.any_eq_true.mpr ⟨given, isGiven, decide_eq_true same⟩)
  rw [unitIndex_getD _ _ _ inside, if_neg other, mul_zero]

theorem actual_length (input : CollapseInput) (index : List Int) : (input.actual index).length = input.gridRank := by
  have clamped : input.numResults ≤ input.gridRank := min_le_right _ _
  rw [actual, List.length_append, List.length_replicate, List.length_map, List.length_range]
  omega

theorem minor_length (input : CollapseInput) (index : List Int) : (input.minor index).length = input.gridRank := by
  have clamped : input.numResults ≤ input.gridRank := min_le_right _ _
  rw [minor, List.length_append, List.length_replicate, List.length_map, List.length_range]
  omega

theorem expected_length (input : CollapseInput) (room : input.groups.length ≤ input.gridRank) (index : List Int) :
    (input.expected index).length = input.gridRank := by
  rw [expected, List.length_append, List.length_replicate, groupValues_length]
  omega

theorem expected_singles (single : ∀ span ∈ input.spanList, span.2 = span.1 + 1) (index : List Int)
    (length : index.length = input.rank) :
    input.expected index = List.replicate (input.gridRank - input.rank) 0 ++ index := by
  have groups : input.groups = List.replicate input.rank 1 :=
    (groups_trivial _ _ _ input.spanList_follow single).trans (by rw [Nat.sub_zero])
  rw [expected, groups, List.length_replicate, groupValues_singles input.rank _ _ le_rfl (by omega),
    List.take_of_length_le (by omega)]

theorem range_getD (index : List Int) (count : Nat) (length : index.length = count) :
    (List.range count).map (fun j => index.getD j 0) = index := by
  rw [← length]
  exact map_range_getD 0 index

theorem SingleDims.entry_evaluate (dims : input.SingleDims) (j : Nat) (index : List Int) :
    (input.entry j).evaluate index = index.getD j 0 := by
  have all : input.numResults = input.rank := min_eq_left dims.room
  by_cases below : j < lowestDim input.rank input.spanList
  · rw [entry, if_pos below, evaluate_dim]
  by_cases begins : ∃ span ∈ input.spanList, span.1 = j
  · obtain ⟨span, member, rfl⟩ := begins
    have pair : span = (span.1, span.1 + 1) := Prod.ext rfl (dims.single span member)
    rw [input.entry_span span member, pair]
    exact input.evaluate_single span.1 (pair ▸ member) index
  · push Not at begins
    rw [input.entry_other j (by omega) begins, evaluate_dim, all, Nat.sub_self, Nat.zero_add]

theorem SingleDims.actual_eq (dims : input.SingleDims) (index : List Int) (length : index.length = input.rank) :
    input.actual index = input.expected index := by
  have all : input.numResults = input.rank := min_eq_left dims.room
  rw [actual, expected_singles dims.single index length, all]
  simp only [dims.entry_evaluate]
  rw [range_getD index input.rank length]

theorem SingleDims.minor_eq (dims : input.SingleDims) (index : List Int) (length : index.length = input.rank) :
    input.minor index = input.expected index := by
  have all : input.numResults = input.rank := min_eq_left dims.room
  rw [minor, expected_singles dims.single index length, all]
  simp only [Nat.sub_self, Nat.zero_add]
  rw [range_getD index input.rank length]

theorem lowest_le_rank (input : CollapseInput) : lowestDim input.rank input.spanList ≤ input.rank := by
  have follow := input.spanList_follow
  cases spans : input.spanList with
  | nil => exact le_rfl
  | cons first rest =>
    rw [spans] at follow
    exact le_trans (le_of_lt follow.2.1) follow.2.2.le

theorem prod_drop_le (extents : List Int) (positive : ∀ extent ∈ extents, 0 < extent) (count : Nat) :
    0 < (extents.drop count).prod ∧ (extents.drop count).prod ≤ extents.prod := by
  have back : 0 < (extents.drop count).prod := List.prod_pos fun extent member =>
      positive extent (List.mem_of_mem_drop member)
  have front : 0 < (extents.take count).prod := List.prod_pos fun extent member =>
      positive extent (List.mem_of_mem_take member)
  refine ⟨back, ?_⟩
  calc (extents.drop count).prod ≤ (extents.take count).prod * (extents.drop count).prod :=
        le_mul_of_one_le_left back.le (Int.add_one_le_of_lt front)
    _ = extents.prod := by rw [← List.prod_append, List.take_append_drop]

theorem wrapInt_stride (shape : List Int) (positive : ∀ extent ∈ shape, 0 < extent) (first d last : Nat)
    (low : first ≤ d)
    (fits : stride shape first last < 2 ^ 31) :
    wrapInt (stride shape d last) = stride shape d last ∧ 0 < stride shape d last := by
  have bounds := prod_drop_le ((shape.take last).drop (first + 1))
    (fun extent member => positive extent (List.mem_of_mem_take (List.mem_of_mem_drop member))) (d - first)
  have next : first + 1 + (d - first) = d + 1 := by omega
  rw [List.drop_drop, next] at bounds
  change 0 < stride shape d last ∧ stride shape d last ≤ stride shape first last at bounds
  exact ⟨Int.bmod_eq_of_le (by omega) (by omega), bounds.1⟩

theorem weighted_congr (left right : Nat → Int) (dims : List Nat) (index : List Int)
    (same : ∀ d ∈ dims, left d = right d) :
    weighted left dims index = weighted right dims index :=
  congrArg List.sum (List.map_congr_left fun d member => by rw [same d member])

structure LastSpan (input : CollapseInput) (before : List (Nat × Nat)) (span : Nat × Nat) : Prop where
  split : input.spanList = before ++ [span]
  long : span.1 + 1 < span.2
  singles : ∀ other ∈ before, other.2 = other.1 + 1
  dense : ∀ d, lowestDim input.rank input.spanList ≤ d → d < span.1 → ∃ other ∈ before, other.1 = d
  grid : input.gridRank + (span.2 - span.1) = input.rank + 1
  fits : stride input.shape span.1 span.2 < 2 ^ 31

namespace LastSpan
variable {before : List (Nat × Nat)} {span : Nat × Nat} (last : input.LastSpan before span)
include last

theorem bounds : SpansFrom span.1 0 before ∧ span.2 ≤ input.rank ∧ span ∈ input.spanList := by
  obtain ⟨front, -, within, member⟩ := span_bounds last.split
  exact ⟨front, within, member⟩

theorem numResults_eq : input.numResults = input.gridRank := by
  have := last.grid
  have := last.long
  rw [numResults]
  omega

theorem begins (other : Nat × Nat) (member : other ∈ input.spanList) : other.1 ≤ span.1 := by
  rw [last.split] at member
  rcases List.mem_append.mp member with early | this
  · have := spans_above span.1 0 before last.bounds.1 other early
    omega
  · rw [List.mem_singleton.mp this]

theorem full : input.groups.length = input.gridRank := by
  obtain ⟨front, within, -⟩ := last.bounds
  have count := groups_length last.split (by simp)
  rw [groups_trivial span.1 0 before front last.singles, List.length_replicate] at count
  have := last.grid
  have := last.long
  omega

theorem entry_evaluate (positive : ∀ extent ∈ input.shape, 0 < extent) (j : Nat) (index : List Int) :
    (input.entry j).evaluate index =
      if j < span.1 then index.getD j 0
      else if j = span.1 then
        weighted (fun d => stride input.shape d span.2) (List.range' span.1 (span.2 - span.1)) index
      else index.getD (j + (span.2 - span.1) - 1) 0 := by
  obtain ⟨front, within, member⟩ := last.bounds
  have long := last.long
  have grid := last.grid
  have lowest := input.lowest_le span member
  rcases lt_trichotomy j span.1 with low | rfl | high
  · rw [if_pos low]
    by_cases below : j < lowestDim input.rank input.spanList
    · rw [entry, if_pos below, evaluate_dim]
    · obtain ⟨other, isOther, rfl⟩ := last.dense j (not_lt.mp below) low
      have isSpan : other ∈ input.spanList := last.split ▸ List.mem_append_left _ isOther
      have pair : other = (other.1, other.1 + 1) := Prod.ext rfl (last.singles other isOther)
      rw [input.entry_span other isSpan, pair]
      exact input.evaluate_single other.1 (pair ▸ isSpan) index
  · rw [if_neg (lt_irrefl _), if_pos rfl, input.entry_span span member, input.evaluate_collapsed span member]
    refine weighted_congr _ _ _ _ fun d isDim => ?_
    exact (wrapInt_stride input.shape positive span.1 d span.2 (List.mem_range'_1.mp isDim).1 last.fits).1
  · rw [if_neg (by omega), if_neg (by omega), input.entry_other j (by omega) fun other isOther => ?_, evaluate_dim,
      last.numResults_eq]
    · congr 1
      omega
    · have := last.begins other isOther
      omega

theorem actual_eq (positive : ∀ extent ∈ input.shape, 0 < extent) (index : List Int)
    (length : index.length = input.rank) :
    input.actual index = input.expected index := by
  have full := last.full
  refine ext_getD 0 (by rw [actual_length, expected_length _ full.le]) fun position below => ?_
  rw [actual_length] at below
  rw [expected_getD before [] span last.split (by simp) last.singles full index length, actual, padded_getD,
    last.numResults_eq, Nat.sub_self, if_pos (by omega), Nat.sub_zero, last.entry_evaluate positive]

theorem participates (positive : ∀ extent ∈ input.shape, 0 < extent) (d : Nat) (inside : d < input.rank) :
    ∃ j < input.numResults, (input.entry j).isFunctionOfDim d = true := by
  have grid := last.grid
  have long := last.long
  have within := last.bounds.2.1
  have reached (j : Nat) (value : (input.entry j).evaluate (unitIndex input.rank d) ≠ 0) :=
    isFunctionOfDim_of_evaluate (input.entry j) input.rank d inside value
  simp only [last.entry_evaluate positive, unitIndex_getD _ _ _ inside, weighted_unit _ _ _ _ _ inside] at reached
  rw [last.numResults_eq]
  rcases lt_or_ge d span.1 with low | above
  · refine ⟨d, by omega, reached d ?_⟩
    rw [if_pos low, if_pos rfl]
    decide
  rcases lt_or_ge d span.2 with inSpan | high
  · refine ⟨span.1, by omega, reached span.1 ?_⟩
    rw [if_neg (lt_irrefl _), if_pos rfl, if_pos (by omega)]
    exact (wrapInt_stride input.shape positive span.1 d span.2 above last.fits).2.ne'
  · refine ⟨d - (span.2 - span.1) + 1, by omega, reached _ ?_⟩
    rw [if_neg (by omega), if_neg (by omega), if_pos (by omega)]
    decide

end LastSpan

theorem EmptyInterval.minor_eq (dims : input.EmptyInterval) (index : List Int) (length : index.length = input.rank) :
    input.minor index = input.expected index := by
  obtain ⟨last, after, split, long, trivial, grid, zero⟩ := dims.shape
  obtain ⟨-, -, within, -⟩ := span_bounds (split.trans (List.nil_append _).symm)
  have within : last ≤ input.shape.length := within
  have count := groups_length (split.trans (List.nil_append _).symm) trivial
  simp only [groupsFrom, Nat.sub_self, List.replicate_zero, List.length_nil, Nat.zero_add] at count
  have rank : input.rank = input.shape.length := rfl
  have full : input.groups.length = input.gridRank := by omega
  have results : input.numResults = input.gridRank := min_eq_right (by omega)
  refine ext_getD 0 (by rw [minor_length, expected_length _ full.le]) fun position below => ?_
  rw [minor_length] at below
  rw [expected_getD [] after (0, last) split trivial (by simp) full index length, minor, padded_getD, results,
    Nat.sub_self, if_pos (by omega), Nat.sub_zero, if_neg (Nat.not_lt_zero _)]
  by_cases front : position = 0
  · -- every stride but the last one has the zero as a factor
    have strides (d : Nat) (isDim : d ∈ List.range' 0 last) :
        stride input.shape d last = if d = last - 1 then 1 else 0 := by
      have high := (List.mem_range'_1.mp isDim).2
      split
      · rename_i same
        rw [same, stride_last _ _ (by omega)]
      · have factor : input.shape.getD (last - 1) 0 ∈ (input.shape.take last).drop (d + 1) := by
          rw [List.mem_iff_getElem?]
          refine ⟨last - 1 - (d + 1), ?_⟩
          have place : d + 1 + (last - 1 - (d + 1)) = last - 1 := by omega
          rw [List.getElem?_drop, place, List.getElem?_take_of_lt (by omega), List.getD_eq_getElem _ _ (by omega),
            List.getElem?_eq_getElem]
        rw [zero] at factor
        exact List.prod_eq_zero factor
    have split : List.range' 0 last = List.range' 0 (last - 1) ++ [last - 1] := by
      obtain ⟨more, rfl⟩ : ∃ more, last = more + 1 := ⟨last - 1, by omega⟩
      rw [List.range'_concat]
      simp
    have none : weighted (fun d => if d = last - 1 then 1 else 0) (List.range' 0 (last - 1)) index = 0 := by
      refine List.sum_eq_zero fun value member => ?_
      obtain ⟨d, isDim, rfl⟩ := List.mem_map.mp member
      have high := (List.mem_range'_1.mp isDim).2
      have other : d ≠ last - 1 := by omega
      simp [other]
    rw [if_pos front, Nat.sub_zero, weighted_congr _ _ _ _ strides, split, weighted, List.map_append, List.sum_append]
    change _ = weighted (fun d => if d = last - 1 then 1 else 0) (List.range' 0 (last - 1)) index + _
    rw [none, front, List.map_singleton, List.sum_singleton, if_pos rfl, one_mul, zero_add]
    congr 1
    omega
  · rw [if_neg front]
    congr 1
    omega

end Backward

section Exact

theorem last_longer (spans : List (Nat × Nat)) : (∀ span ∈ spans, span.2 = span.1 + 1) ∨
    ∃ before span after, spans = before ++ span :: after ∧ span.2 ≠ span.1 + 1 ∧
      ∀ other ∈ after, other.2 = other.1 + 1 := by
  induction spans with
  | nil => exact Or.inl (by simp)
  | cons span rest ih =>
    rcases ih with single | ⟨before, longer, after, rfl, isLonger, trivial⟩
    · by_cases this : span.2 = span.1 + 1
      · exact Or.inl (List.forall_mem_cons.mpr ⟨this, single⟩)
      · exact Or.inr ⟨[], span, rest, rfl, this, single⟩
    · exact Or.inr ⟨span :: before, longer, after, rfl, isLonger, trivial⟩

theorem evaluate_entries (index : List Int) :
    (padFront input.gridRank ((List.range input.numResults).map input.entry)).map
    (fun result => result.evaluate index) =
      input.actual index := by
  rw [padFront_evaluate, List.length_map, List.length_range, List.map_map]
  rfl

theorem evaluate_minor (index : List Int) :
    (padFront input.gridRank (minorIdentity input.rank input.numResults)).map (fun result => result.evaluate index) =
      input.minor index := by
  rw [padFront_evaluate, minorIdentity, List.length_map, List.length_range, List.map_map]
  refine congrArg (_ ++ ·) (List.map_congr_left fun j _ => ?_)
  exact evaluate_dim _ _

theorem room_of_length (results : List Int) (index : List Int) (length : results.length = input.gridRank)
    (same : results = input.expected index) : input.groups.length ≤ input.gridRank := by
  rw [same, expected, List.length_append, List.length_replicate, groupValues_length] at length
  omega

theorem map_eq_zero (volume : input.shape.prod = 0) :
    collapsedLinearAffineMap input.shape input.gridRank input.collapseIntervals =
      some (padFront input.gridRank (minorIdentity input.rank input.numResults)) := by
  simp only [collapsedLinearAffineMap, volume, ↓reduceIte]
  rfl

/-- The map is the linearisation of the intervals when every interval is a single dim and
the grid has room, when only the last one is longer and fits, and for an empty shape
when what is left of the dims happens to agree. -/
theorem collapsedLinearAffineMap_exact :
    (∃ map, collapsedLinearAffineMap input.shape input.gridRank input.collapseIntervals = some map ∧
      input.Linearises map) ↔
    input.SingleDims ∨ (input.shape.prod ≠ 0 ∧ input.LastInterval) ∨ (input.shape.prod = 0 ∧ input.EmptyInterval) := by
  have proper (before after : List (Nat × Nat)) (span : Nat × Nat) (split : input.spanList = before ++ span :: after)
      (longer : span.2 ≠ span.1 + 1) : span.1 + 1 < span.2 := by
    have := (span_bounds split).2.1
    omega
  constructor
  · rintro ⟨map, isMap, linear⟩
    -- an empty tensor gets the minor identity, every other one the entries of the spans
    by_cases volume : input.shape.prod = 0
    · rw [input.map_eq_zero volume, Option.some.injEq] at isMap
      subst isMap
      have results (index : List Int) (length : index.length = input.rank) : input.minor index = input.expected index :=
        (input.evaluate_minor index).symm.trans (linear.results index length)
      have room := input.room_of_length _ _ (input.minor_length (unitIndex input.rank 0))
          (results _ (unitIndex_length _ _))
      rcases last_longer input.spanList with single | ⟨before, span, after, split, longer, trivial⟩
      · exact Or.inl (singleDims_of_length single room)
      · exact Or.inr (Or.inr ⟨volume, emptyInterval_of_results room results before after span split trivial
          (proper before after span split longer)⟩)
    · obtain ⟨inside, -, -, rfl⟩ := (input.map_eq volume map).mp isMap
      have results (index : List Int) (length : index.length = input.rank) :
          input.actual index = input.expected index :=
        (input.evaluate_entries index).symm.trans (linear.results index length)
      have room := input.room_of_length _ _ (input.actual_length (unitIndex input.rank 0))
          (results _ (unitIndex_length _ _))
      rcases last_longer input.spanList with single | ⟨before, span, after, split, longer, trivial⟩
      · exact Or.inl (singleDims_of_length single room)
      · exact Or.inr (Or.inl ⟨volume, lastInterval_of_results room inside results before after span split trivial
          (proper before after span split longer)⟩)
  · -- conversely each condition makes the computed map linearise
    have found (volume : input.shape.prod ≠ 0) (inside : ∀ span ∈ input.spanList, span.1 < input.numResults)
        (enough : lowestDim input.rank input.spanList ≤ input.numResults)
        (participates : ∀ d < input.rank, ∃ j < input.numResults, (input.entry j).isFunctionOfDim d = true)
        (results : ∀ index : List Int, index.length = input.rank → input.actual index = input.expected index) :
        ∃ map, collapsedLinearAffineMap input.shape input.gridRank input.collapseIntervals = some map ∧
          input.Linearises map :=
      ⟨_, (input.map_eq volume _).mpr ⟨inside, enough, participates, rfl⟩, input.linearises_of_results _
        fun index length => (input.evaluate_entries index).trans (results index length)⟩
    have foundZero (volume : input.shape.prod = 0)
        (results : ∀ index : List Int, index.length = input.rank → input.minor index = input.expected index) :
        ∃ map, collapsedLinearAffineMap input.shape input.gridRank input.collapseIntervals = some map ∧
          input.Linearises map :=
      ⟨_, input.map_eq_zero volume, input.linearises_of_results _
        fun index length => (input.evaluate_minor index).trans (results index length)⟩
    rintro (dims | ⟨volume, ⟨before, span, split, long, singles, dense, grid, fits⟩⟩ | ⟨volume, dims⟩)
    · by_cases volume : input.shape.prod = 0
      · exact foundZero volume dims.minor_eq
      · have all : input.numResults = input.rank := min_eq_left dims.room
        refine found volume (fun span member => ?_) (all ▸ input.lowest_le_rank) (fun d below => ⟨d, by omega, ?_⟩)
          dims.actual_eq
        · have := spans_above _ _ _ input.spanList_follow span member
          omega
        · refine isFunctionOfDim_of_evaluate _ input.rank d below ?_
          rw [dims.entry_evaluate, unitIndex_getD _ _ _ below, if_pos rfl]
          decide
    · have last : input.LastSpan before span := ⟨split, long, singles, dense, grid, fits⟩
      have positive : ∀ extent ∈ input.shape, 0 < extent := by
        refine extents_pos input.shape input.extents (lt_of_le_of_ne (List.prod_nonneg input.extents) (Ne.symm volume))
      obtain ⟨-, within, member⟩ := last.bounds
      have all := last.numResults_eq
      have lowest := input.lowest_le span member
      refine found volume (fun other isOther => ?_) (by omega) (last.participates positive) (last.actual_eq positive)
      have := last.begins other isOther
      omega
    · exact foundZero volume dims.minor_eq

end Exact

end CollapseInput

/-- The doc's own example: the second interval's result goes beyond the four results. -/
def docInput : CollapseInput where
  shape := [2, 3, 4, 5, 6, 7, 8]
  gridRank := 4
  collapseIntervals := [(0, 3), (-3, -1)]
  extents := by decide
  inRank := by decide
  ordered := by decide

theorem collapsedLinearAffineMap_doc :
    ¬∃ map, collapsedLinearAffineMap docInput.shape docInput.gridRank docInput.collapseIntervals = some map ∧
      docInput.Linearises map := by
  have failed : collapsedLinearAffineMap docInput.shape docInput.gridRank docInput.collapseIntervals = none := by decide
  rw [failed]
  simp

end TtMlir.Layout
