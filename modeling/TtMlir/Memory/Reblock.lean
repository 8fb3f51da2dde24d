import TtMlir.Library.MixedRadix
import TtMlir.Memory.Device

/-!
Reblocking a device shape (grid dims, then shard dims) to another of the same
volume. The logical order of elements interleaves grid and shard dims; the
reblock map linearises an output index in that order and delinearises it again
over the input shape.
-/

namespace TtMlir.Memory

def strideIterationOrder (rank : Nat) : List Nat :=
  (List.range rank).reverse.map fun i => i % 2 * (rank / 2) + i / 2

def iterateInAscendingStrideOrder (shape : List Int) : List (Nat × Int) :=
  (strideIterationOrder shape.length).map fun i => (i, shape.getD i 0)

/-- One dim of the flat index; dims of size 1 contribute nothing. -/
def toFlatStep (state : AffineExpr × AffineExpr) (entry : Nat × Int) : AffineExpr × AffineExpr :=
  if entry.2 > 1 then
    (.add (.mul (.dim entry.1) state.2) state.1, .mul state.2 (.const entry.2))
  else state

def outputToFlat (outputShape : List Int) : AffineMap :=
  { numDims := outputShape.length
    results := [((iterateInAscendingStrideOrder outputShape).foldl toFlatStep (.const 0, .const 1)).1] }

/-- The modulo on the outermost grid dim is left out unless the dim has size 1. -/
def toInputStep (state : List AffineExpr × AffineExpr) (entry : Nat × Int) :
    List AffineExpr × AffineExpr :=
  let quotient : AffineExpr := .floorDiv (.dim 0) state.2
  let expr := if ¬ (entry.1 = 0 ∧ entry.2 ≠ 1) then .mod quotient (.const entry.2) else quotient
  (state.1.set entry.1 expr, .mul state.2 (.const entry.2))

def flatToInput (inputShape : List Int) : AffineMap :=
  { numDims := 1
    results := ((iterateInAscendingStrideOrder inputShape).foldl toInputStep
      (List.replicate inputShape.length default, .const 1)).1 }

/-- A failing assertion is `none`. -/
def calculateReblockMap (inputShape outputShape : List Int) : Option AffineMap :=
  if volume inputShape = volume outputShape ∧ inputShape.length % 2 = 0 ∧
      outputShape.length % 2 = 0 then
    if inputShape = outputShape then some (AffineMap.identity inputShape.length)
    else some ((flatToInput inputShape).compose (outputToFlat outputShape))
  else none

def interleave : List Int → List Int → List Int
  | gridDim :: grid, shardDim :: shard => gridDim :: shardDim :: interleave grid shard
  | _, _ => []

def logicalDims (values : List Int) : List Int :=
  interleave (values.take (values.length / 2)) (values.drop (values.length / 2))

def logicalPosition (shape index : List Int) : Int :=
  MixedRadix.rowMajor (logicalDims shape) (logicalDims index)

def box (shape : List Int) : Set (List Int) := {index | Within shape index}

/-! The iteration order visits every dim once, the outermost grid dim last. -/

section Order
variable (rank : Nat)

theorem mem_order (even : rank % 2 = 0) (position : Nat) :
    position ∈ strideIterationOrder rank ↔ position < rank := by
  simp only [strideIterationOrder, List.mem_map, List.mem_reverse, List.mem_range]
  constructor
  · rintro ⟨i, below, rfl⟩
    rcases Nat.mod_two_eq_zero_or_one i with parity | parity <;> rw [parity] <;> omega
  · intro below
    by_cases grid : position < rank / 2
    · refine ⟨2 * position, by omega, ?_⟩
      rw [Nat.mul_mod_right]
      omega
    · refine ⟨2 * (position - rank / 2) + 1, by omega, ?_⟩
      have odd : (2 * (position - rank / 2) + 1) % 2 = 1 := by omega
      rw [odd]
      omega

theorem order_ends_outermost :
    (strideIterationOrder rank).Pairwise fun early _ => early ≠ 0 := by
  rw [strideIterationOrder, List.pairwise_map, List.pairwise_reverse]
  refine List.pairwise_lt_range.imp_of_mem fun {late early} _ earlyIn ordered => ?_
  have below := List.mem_range.mp earlyIn
  rcases Nat.mod_two_eq_zero_or_one early with parity | parity <;> rw [parity] <;> omega

theorem order_nodup (even : rank % 2 = 0) : (strideIterationOrder rank).Nodup := by
  refine List.Nodup.map_on ?_ (List.nodup_reverse.mpr List.nodup_range)
  intro left leftIn right rightIn same
  simp only [List.mem_reverse, List.mem_range] at leftIn rightIn
  rcases Nat.mod_two_eq_zero_or_one left with leftParity | leftParity <;>
    rcases Nat.mod_two_eq_zero_or_one right with rightParity | rightParity <;>
      rw [leftParity, rightParity] at same <;> omega

end Order

def gather (values : List Int) : List Int :=
  (strideIterationOrder values.length).map fun i => values.getD i 0

theorem interleave_getElem? (grid shard : List Int) (same : grid.length = shard.length)
    (position : Nat) :
    (interleave grid shard)[position]? =
      if position % 2 = 0 then grid[position / 2]? else shard[position / 2]? := by
  induction grid generalizing shard position with
  | nil =>
      have none : shard = [] := List.length_eq_zero_iff.mp same.symm
      simp [none, interleave]
  | cons gridDim grid ih =>
      cases shard with
      | nil => simp at same
      | cons shardDim shard =>
          match position with
          | 0 => rfl
          | 1 => rfl
          | position + 2 =>
              have half : (position + 2) / 2 = position / 2 + 1 := by omega
              have parity : (position + 2) % 2 = position % 2 := by omega
              simp only [interleave, List.getElem?_cons_succ, half, parity]
              exact ih shard (by simpa using same) position

theorem gather_eq_logical (values : List Int) (even : values.length % 2 = 0) :
    gather values = (logicalDims values).reverse := by
  have halves : (values.take (values.length / 2)).length = (values.drop (values.length / 2)).length := by
    simp only [List.length_take, List.length_drop]
    omega
  rw [gather, strideIterationOrder, List.map_map, List.map_reverse, List.reverse_inj]
  apply List.ext_getElem?
  intro position
  rw [logicalDims, interleave_getElem? _ _ halves]
  by_cases inside : position < values.length
  · have here : values.length / 2 + position / 2 < values.length := by omega
    rcases Nat.mod_two_eq_zero_or_one position with parity | parity
    · have grid : position / 2 < values.length / 2 := by omega
      have within : position / 2 < values.length := by omega
      simp [inside, parity, grid, within]
    · simp [inside, parity, here, List.getElem?_drop]
  · have above : values.length ≤ position := not_lt.mp inside
    rcases Nat.mod_two_eq_zero_or_one position with parity | parity
    · have grid : ¬ position / 2 < values.length / 2 := by omega
      simp [inside, parity, grid]
    · have here : values.length ≤ values.length / 2 + position / 2 := by omega
      simp [inside, parity, here, List.getElem?_drop]

theorem within_gather (shape index : List Int) (even : shape.length % 2 = 0)
    (length : index.length = shape.length) :
    Within shape index ↔ Within (gather shape) (gather index) := by
  rw [MixedRadix.within_iff, gather, gather, length, Within, List.forall₂_map_left_iff, List.forall₂_map_right_iff,
    List.forall₂_same]
  simp [mem_order shape.length even]

theorem logicalPosition_eq (shape index : List Int) (even : shape.length % 2 = 0)
    (length : index.length = shape.length) :
    logicalPosition shape index = MixedRadix.encode (gather shape) (gather index) := by
  have sameLength : (logicalDims index).length = (logicalDims shape).length := by
    have gathered : (gather index).length = (gather shape).length := by simp [gather, length]
    rwa [gather_eq_logical shape even, gather_eq_logical index (length ▸ even), List.length_reverse,
      List.length_reverse] at gathered
  rw [logicalPosition, MixedRadix.rowMajor_eq_encode _ _ sameLength, gather_eq_logical shape even,
    gather_eq_logical index (length ▸ even)]

theorem gather_injective (left right : List Int) (length : left.length = right.length)
    (even : left.length % 2 = 0) (same : gather left = gather right) : left = right := by
  rw [gather, gather, ← length, List.map_inj_left] at same
  apply List.ext_getElem length
  intro position leftInside rightInside
  have here := same position ((mem_order left.length even position).mpr leftInside)
  simpa [leftInside, rightInside] using here

theorem eq_of_logicalPosition (shape left right : List Int) (even : shape.length % 2 = 0)
    (leftIn : left ∈ box shape) (rightIn : right ∈ box shape)
    (same : logicalPosition shape left = logicalPosition shape right) : left = right := by
  have leftLength := MixedRadix.within_length shape left leftIn
  have rightLength := MixedRadix.within_length shape right rightIn
  rw [logicalPosition_eq shape left even leftLength, logicalPosition_eq shape right even rightLength] at same
  exact gather_injective left right (leftLength.trans rightLength.symm) (leftLength ▸ even)
    (MixedRadix.encode_injective _ _ _ ((within_gather shape left even leftLength).mp leftIn)
      ((within_gather shape right even rightLength).mp rightIn) same)

theorem toFlat_eval (dims : List Int) (entries : List (Nat × Int)) (state : AffineExpr × AffineExpr)
    (within : ∀ entry ∈ entries, 0 ≤ dims.getD entry.1 0 ∧ dims.getD entry.1 0 < entry.2) :
    (entries.foldl toFlatStep state).1.eval dims [] =
      state.1.eval dims [] + state.2.eval dims [] *
        MixedRadix.encode (entries.map Prod.snd) (entries.map fun entry => dims.getD entry.1 0) := by
  induction entries generalizing state with
  | nil => simp [MixedRadix.encode]
  | cons entry rest ih =>
      have here := within entry List.mem_cons_self
      have later := ih (toFlatStep state entry) fun other member => within other (List.mem_cons_of_mem _ member)
      rw [List.foldl_cons, later, List.map_cons, List.map_cons, MixedRadix.encode]
      by_cases large : entry.2 > 1
      · simp only [toFlatStep, large, ↓reduceIte, AffineExpr.eval]
        ring
      · -- a dim of size 1 only has the digit 0
        have unit : entry.2 = 1 := by omega
        have zero : dims.getD entry.1 0 = 0 := by omega
        simp only [toFlatStep, unit, zero, gt_iff_lt, lt_self_iff_false, ↓reduceIte]
        ring

theorem outputToFlat_eval (shape index : List Int) (even : shape.length % 2 = 0)
    (inside : index ∈ box shape) :
    (outputToFlat shape).evaluate index = [logicalPosition shape index] := by
  have length := MixedRadix.within_length shape index inside
  have bounds := ((MixedRadix.within_iff shape index).mp inside).2
  have run := toFlat_eval index (iterateInAscendingStrideOrder shape) (.const 0, .const 1) (by
    intro entry member
    obtain ⟨position, listed, rfl⟩ := List.mem_map.mp member
    exact bounds position ((mem_order shape.length even position).mp listed))
  simp only [AffineExpr.eval, zero_add, one_mul] at run
  rw [logicalPosition_eq shape index even length]
  simp only [AffineMap.evaluate, outputToFlat, List.map_cons, List.map_nil, run]
  simp [iterateInAscendingStrideOrder, gather, length, Function.comp_def]

theorem toInput_other (entries : List (Nat × Int)) (state : List AffineExpr × AffineExpr) (position : Nat)
    (absent : position ∉ entries.map Prod.fst) :
    (entries.foldl toInputStep state).1.getD position default = state.1.getD position default := by
  induction entries generalizing state with
  | nil => rfl
  | cons entry rest ih =>
      simp only [List.map_cons, List.mem_cons, not_or] at absent
      rw [List.foldl_cons, ih _ absent.2]
      simp [toInputStep, Ne.symm absent.1]

theorem toInput_length (entries : List (Nat × Int)) (state : List AffineExpr × AffineExpr) :
    (entries.foldl toInputStep state).1.length = state.1.length := by
  induction entries generalizing state with
  | nil => rfl
  | cons entry rest ih => simp [ih, toInputStep]

theorem toInput_eval (flat stride : Int) (entries : List (Nat × Int))
    (state : List AffineExpr × AffineExpr) (strideIs : state.2.eval [flat] [] = stride)
    (stridePositive : 0 < stride) (nodup : (entries.map Prod.fst).Nodup)
    (inside : ∀ entry ∈ entries, entry.1 < state.1.length) (positive : ∀ entry ∈ entries, 0 < entry.2)
    (outermost : entries.Pairwise fun early _ => early.1 ≠ 0) (nonneg : 0 ≤ flat)
    (below : flat / stride < (entries.map Prod.snd).prod) :
    (entries.map fun entry =>
        ((entries.foldl toInputStep state).1.getD entry.1 default).eval [flat] []) =
      MixedRadix.decode (entries.map Prod.snd) (flat / stride) := by
  induction entries generalizing state stride with
  | nil => rfl
  | cons entry rest ih =>
      have here := positive entry List.mem_cons_self
      rw [List.map_cons, List.nodup_cons] at nodup
      rw [List.pairwise_cons] at outermost
      rw [List.map_cons, List.prod_cons] at below
      have nextStride : (toInputStep state entry).2.eval [flat] [] = stride * entry.2 := by
        simp [toInputStep, AffineExpr.eval, strideIs]
      have split : flat / (stride * entry.2) = flat / stride / entry.2 :=
        (Int.ediv_ediv_of_nonneg stridePositive.le).symm
      have quotientNonneg : 0 ≤ flat / stride := Int.ediv_nonneg nonneg stridePositive.le
      have later := ih (stride * entry.2) (toInputStep state entry) nextStride
        (Int.mul_pos stridePositive here) nodup.2
        (fun other member => by
          simpa [toInputStep] using inside other (List.mem_cons_of_mem _ member))
        (fun other member => positive other (List.mem_cons_of_mem _ member)) outermost.2
        (by rw [split]; exact Int.ediv_lt_of_lt_mul here (by rwa [mul_comm]))
      have now : ((entry :: rest).foldl toInputStep state).1.getD entry.1 default =
          if ¬ (entry.1 = 0 ∧ entry.2 ≠ 1) then .mod (.floorDiv (.dim 0) state.2) (.const entry.2)
          else .floorDiv (.dim 0) state.2 := by
        rw [List.foldl_cons, toInput_other rest _ entry.1 nodup.1]
        simp [toInputStep, inside entry List.mem_cons_self]
      simp only [List.map_cons, MixedRadix.decode, now]
      rw [List.foldl_cons, later, split]
      congr 1
      by_cases last : entry.1 = 0 ∧ entry.2 ≠ 1
      · have none : rest = [] := by
          cases rest with
          | nil => rfl
          | cons other others => exact absurd last.1 (outermost.1 other List.mem_cons_self)
        rw [none, List.map_nil, List.prod_nil, mul_one] at below
        simp only [last, ne_eq, not_false_eq_true, and_self, not_true_eq_false, ↓reduceIte,
          AffineExpr.eval, strideIs, List.getD_cons_zero]
        exact (Int.emod_eq_of_lt quotientNonneg below).symm
      · simp only [last, not_false_eq_true, ↓reduceIte, AffineExpr.eval, strideIs, List.getD_cons_zero]

theorem interleave_prod (grid shard : List Int) (same : grid.length = shard.length) :
    (interleave grid shard).prod = grid.prod * shard.prod := by
  induction grid generalizing shard with
  | nil =>
      have none : shard = [] := List.length_eq_zero_iff.mp same.symm
      simp [none, interleave]
  | cons gridDim grid ih =>
      cases shard with
      | nil => simp at same
      | cons shardDim shard =>
          simp only [interleave, List.prod_cons, ih shard (by simpa using same)]
          ring

theorem gather_prod (shape : List Int) (even : shape.length % 2 = 0) : (gather shape).prod = volume shape := by
  have halves : (shape.take (shape.length / 2)).length = (shape.drop (shape.length / 2)).length := by
    simp only [List.length_take, List.length_drop]
    omega
  rw [gather_eq_logical shape even, List.prod_reverse, logicalDims, interleave_prod _ _ halves,
    List.prod_take_mul_prod_drop, volume_prod]

theorem gather_pos (shape : List Int) (even : shape.length % 2 = 0) (positive : ∀ extent ∈ shape, 0 < extent) :
    ∀ extent ∈ gather shape, 0 < extent := by
  intro extent member
  obtain ⟨position, listed, rfl⟩ := List.mem_map.mp member
  have inside := (mem_order shape.length even position).mp listed
  simpa [inside] using positive shape[position] (List.getElem_mem inside)

theorem flatToInput_eval (shape : List Int) (flat : Int) (even : shape.length % 2 = 0)
    (positive : ∀ extent ∈ shape, 0 < extent) (nonneg : 0 ≤ flat) (below : flat < volume shape) :
    ((flatToInput shape).evaluate [flat]).length = shape.length ∧
      gather ((flatToInput shape).evaluate [flat]) = MixedRadix.decode (gather shape) flat := by
  have length : ((flatToInput shape).evaluate [flat]).length = shape.length := by
    simp [AffineMap.evaluate, flatToInput, toInput_length]
  have dims : (iterateInAscendingStrideOrder shape).map Prod.fst = strideIterationOrder shape.length := by
    simp [iterateInAscendingStrideOrder, Function.comp_def]
  have extents : (iterateInAscendingStrideOrder shape).map Prod.snd = gather shape := by
    simp [iterateInAscendingStrideOrder, gather, Function.comp_def]
  have run := toInput_eval flat 1 (iterateInAscendingStrideOrder shape)
    (List.replicate shape.length default, .const 1) rfl one_pos
    (by rw [dims]; exact order_nodup shape.length even)
    (by
      intro entry member
      obtain ⟨position, listed, rfl⟩ := List.mem_map.mp member
      simpa using (mem_order shape.length even position).mp listed)
    (by
      intro entry member
      exact gather_pos shape even positive _ (extents ▸ List.mem_map.mpr ⟨entry, member, rfl⟩))
    (by
      rw [iterateInAscendingStrideOrder, List.pairwise_map]
      exact order_ends_outermost shape.length)
    nonneg (by rwa [extents, Int.ediv_one, gather_prod shape even])
  rw [extents, Int.ediv_one] at run
  refine ⟨length, ?_⟩
  rw [← run, gather, length]
  simp only [iterateInAscendingStrideOrder, List.map_map]
  refine List.map_congr_left fun position _ => ?_
  simp only [AffineMap.evaluate, flatToInput, Function.comp_apply]
  rw [AffineExpr.eval_getD]
  rfl

/-- A map between boxes that keeps logical positions. -/
structure Reblocks (inputShape outputShape : List Int) (map : AffineMap) : Prop where
  inside : ∀ index ∈ box outputShape, map.evaluate index ∈ box inputShape
  position : ∀ index ∈ box outputShape,
    logicalPosition inputShape (map.evaluate index) = logicalPosition outputShape index

theorem reblocks_identity (shape : List Int) : Reblocks shape shape (AffineMap.identity shape.length) where
  inside index member := by
    rw [AffineMap.evaluate_identity _ _ (MixedRadix.within_length shape index member)]
    exact member
  position index member := by
    rw [AffineMap.evaluate_identity _ _ (MixedRadix.within_length shape index member)]

/-- A device shape: even rank, positive extents. -/
structure DeviceShape (shape : List Int) : Prop where
  even : shape.length % 2 = 0
  positive : ∀ extent ∈ shape, 0 < extent

theorem position_bounds (shape index : List Int) (device : DeviceShape shape) (member : index ∈ box shape) :
    0 ≤ logicalPosition shape index ∧ logicalPosition shape index < volume shape := by
  have length := MixedRadix.within_length shape index member
  rw [logicalPosition_eq shape index device.even length, ← gather_prod shape device.even]
  exact MixedRadix.encode_bounds _ _ ((within_gather shape index device.even length).mp member)

theorem reblocks_compose (inputShape outputShape : List Int) (input : DeviceShape inputShape)
    (output : DeviceShape outputShape) (volumes : volume inputShape = volume outputShape) :
    Reblocks inputShape outputShape ((flatToInput inputShape).compose (outputToFlat outputShape)) := by
  have landing (index : List Int) (member : index ∈ box outputShape) :
      ((flatToInput inputShape).compose (outputToFlat outputShape)).evaluate index ∈ box inputShape ∧
      logicalPosition inputShape
          (((flatToInput inputShape).compose (outputToFlat outputShape)).evaluate index) =
        logicalPosition outputShape index := by
    obtain ⟨nonneg, below⟩ := position_bounds outputShape index output member
    rw [AffineMap.evaluate_compose, outputToFlat_eval outputShape index output.even member]
    obtain ⟨length, digits⟩ := flatToInput_eval inputShape (logicalPosition outputShape index) input.even
      input.positive nonneg (by rwa [volumes])
    have extents := gather_pos inputShape input.even input.positive
    refine ⟨?_, ?_⟩
    · refine (within_gather inputShape _ input.even length).mpr ?_
      rw [digits]
      exact MixedRadix.decode_within _ extents _
    · rw [logicalPosition_eq inputShape _ input.even length, digits]
      exact MixedRadix.encode_decode _ extents _ nonneg (by rwa [gather_prod _ input.even, volumes])
  exact ⟨fun index member => (landing index member).1, fun index member => (landing index member).2⟩

theorem reblocks_calculated (inputShape outputShape : List Int) (input : DeviceShape inputShape)
    (output : DeviceShape outputShape) (volumes : volume inputShape = volume outputShape) :
    ∃ map, calculateReblockMap inputShape outputShape = some map ∧
      Reblocks inputShape outputShape map := by
  simp only [calculateReblockMap, volumes, input.even, output.even, and_self, ↓reduceIte]
  by_cases same : inputShape = outputShape
  · subst same
    exact ⟨_, if_pos rfl, reblocks_identity inputShape⟩
  · exact ⟨_, if_neg same, reblocks_compose inputShape outputShape input output volumes⟩

theorem reblocks_unique (inputShape outputShape : List Int) (left right : AffineMap)
    (input : DeviceShape inputShape) (leftKeeps : Reblocks inputShape outputShape left)
    (rightKeeps : Reblocks inputShape outputShape right) (index : List Int)
    (member : index ∈ box outputShape) : left.evaluate index = right.evaluate index :=
  eq_of_logicalPosition inputShape _ _ input.even (leftKeeps.inside index member)
    (rightKeeps.inside index member)
    ((leftKeeps.position index member).trans (rightKeeps.position index member).symm)

theorem reblocks_trans (inputShape middleShape outputShape : List Int) (first second : AffineMap)
    (firstKeeps : Reblocks inputShape middleShape first)
    (secondKeeps : Reblocks middleShape outputShape second) :
    Reblocks inputShape outputShape (first.compose second) where
  inside index member := by
    rw [AffineMap.evaluate_compose]
    exact firstKeeps.inside _ (secondKeeps.inside index member)
  position index member := by
    rw [AffineMap.evaluate_compose, firstKeeps.position _ (secondKeeps.inside index member),
      secondKeeps.position index member]

theorem reblocks_bijective (inputShape outputShape : List Int) (forward backward : AffineMap)
    (input : DeviceShape inputShape) (output : DeviceShape outputShape)
    (forwardKeeps : Reblocks inputShape outputShape forward)
    (backwardKeeps : Reblocks outputShape inputShape backward) :
    Set.BijOn (fun index => forward.evaluate index) (box outputShape) (box inputShape) := by
  refine ⟨forwardKeeps.inside, ?_, ?_⟩
  · intro left leftIn right rightIn same
    refine eq_of_logicalPosition outputShape left right output.even leftIn rightIn ?_
    rw [← forwardKeeps.position left leftIn, ← forwardKeeps.position right rightIn]
    exact congrArg (logicalPosition inputShape) same
  · intro index member
    refine ⟨backward.evaluate index, backwardKeeps.inside index member, ?_⟩
    have round := reblocks_trans inputShape outputShape inputShape forward backward forwardKeeps backwardKeeps
    have fixed := reblocks_unique inputShape inputShape _ _ input round (reblocks_identity inputShape) index
      member
    rw [AffineMap.evaluate_compose,
      AffineMap.evaluate_identity _ _ (MixedRadix.within_length inputShape index member)] at fixed
    exact fixed

/-- Reblocking permutes the elements without moving any in the logical order;
reblocks compose and cancel accordingly. -/
theorem reblock_bijective (shapeA shapeB shapeC : List Int) (deviceA : DeviceShape shapeA)
    (deviceB : DeviceShape shapeB) (deviceC : DeviceShape shapeC)
    (volumesAB : volume shapeA = volume shapeB) (volumesBC : volume shapeB = volume shapeC) :
    ∃ mapAB mapBA mapBC mapAC,
      calculateReblockMap shapeA shapeB = some mapAB ∧ calculateReblockMap shapeB shapeA = some mapBA ∧
      calculateReblockMap shapeB shapeC = some mapBC ∧ calculateReblockMap shapeA shapeC = some mapAC ∧
      Set.BijOn (fun index => mapAB.evaluate index) (box shapeB) (box shapeA) ∧
      (∀ index ∈ box shapeB,
        logicalPosition shapeA (mapAB.evaluate index) = logicalPosition shapeB index) ∧
      (∀ index ∈ box shapeC, (mapAB.compose mapBC).evaluate index = mapAC.evaluate index) ∧
      ∀ index ∈ box shapeA, (mapAB.compose mapBA).evaluate index = index := by
  obtain ⟨mapAB, calculatedAB, keepsAB⟩ := reblocks_calculated shapeA shapeB deviceA deviceB volumesAB
  obtain ⟨mapBA, calculatedBA, keepsBA⟩ := reblocks_calculated shapeB shapeA deviceB deviceA volumesAB.symm
  obtain ⟨mapBC, calculatedBC, keepsBC⟩ := reblocks_calculated shapeB shapeC deviceB deviceC volumesBC
  obtain ⟨mapAC, calculatedAC, keepsAC⟩ :=
    reblocks_calculated shapeA shapeC deviceA deviceC (volumesAB.trans volumesBC)
  refine ⟨mapAB, mapBA, mapBC, mapAC, calculatedAB, calculatedBA, calculatedBC, calculatedAC,
    reblocks_bijective shapeA shapeB mapAB mapBA deviceA deviceB keepsAB keepsBA, keepsAB.position, ?_, ?_⟩
  · exact reblocks_unique shapeA shapeC _ _ deviceA
      (reblocks_trans shapeA shapeB shapeC mapAB mapBC keepsAB keepsBC) keepsAC
  · intro index member
    rw [reblocks_unique shapeA shapeA _ _ deviceA
      (reblocks_trans shapeA shapeB shapeA mapAB mapBA keepsAB keepsBA) (reblocks_identity shapeA) index member,
      AffineMap.evaluate_identity _ _ (MixedRadix.within_length shapeA index member)]

theorem reblock_bijective_ranks :
    ∃ mapAB mapBA mapBC mapAC,
      calculateReblockMap [2, 3, 4, 5] [1, 8, 1, 15] = some mapAB ∧
      calculateReblockMap [1, 8, 1, 15] [2, 3, 4, 5] = some mapBA ∧
      calculateReblockMap [1, 8, 1, 15] [120, 1] = some mapBC ∧
      calculateReblockMap [2, 3, 4, 5] [120, 1] = some mapAC ∧
      Set.BijOn (fun index => mapAB.evaluate index) (box [1, 8, 1, 15]) (box [2, 3, 4, 5]) ∧
      (∀ index ∈ box [1, 8, 1, 15],
        logicalPosition [2, 3, 4, 5] (mapAB.evaluate index) = logicalPosition [1, 8, 1, 15] index) ∧
      (∀ index ∈ box [120, 1], (mapAB.compose mapBC).evaluate index = mapAC.evaluate index) ∧
      ∀ index ∈ box [2, 3, 4, 5], (mapAB.compose mapBA).evaluate index = index :=
  reblock_bijective [2, 3, 4, 5] [1, 8, 1, 15] [120, 1] ⟨by decide, by decide⟩ ⟨by decide, by decide⟩
    ⟨by decide, by decide⟩ (by decide) (by decide)

end TtMlir.Memory
