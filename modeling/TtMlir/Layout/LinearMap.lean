import TtMlir.Library.RowMajor
import TtMlir.Layout.VerifiedIntervals

/-!
`collapsedLinearAffineMap`: the affine map that collapses intervals of a tensor's
dims onto a grid. A result of the map is linear in the dims; the map starts as the
last dims of the shape and gets its results replaced one by one.
-/

namespace TtMlir.Layout

open MixedRadix

/-- Dims with their multipliers. MLIR folds a multiple by zero away. -/
abbrev Linear := List (Nat × Int)

namespace Linear

def dim (d : Nat) : Linear := [(d, 1)]

def evaluate (expr : Linear) (index : List Int) : Int :=
  (expr.map fun term => term.2 * index.getD term.1 0).sum

def isFunctionOfDim (expr : Linear) (d : Nat) : Bool := expr.any fun term => decide (term.1 = d)

/-- `dim * multiplier + expr` -/
def addMultiple (expr : Linear) (d : Nat) (multiplier : Int) : Linear :=
  if multiplier = 0 then expr else (d, multiplier) :: expr

end Linear

/-- The multiplier is a 32-bit `int`. -/
def wrapInt (value : Int) : Int := value.bmod (2 ^ 32)

def collapseDims (shape : List Int) (dims : List Nat) : Linear × Int :=
  dims.foldr (fun d state => (state.1.addMultiple d state.2, wrapInt (state.2 * shape.getD d 0))) ([], 1)

/-- Erasing beyond the end is an assertion of the vector. -/
def dropResult (map : List Linear) (position : Int) : Option (List Linear) :=
  if 0 ≤ position ∧ position < map.length then some (map.eraseIdx position.toNat) else none

def insertResult (map : List Linear) (result : Linear) (position : Int) : List Linear :=
  map.insertIdx position.toNat result

def applyInterval (shape : List Int) (state : List Linear × Int) (interval : Int × Int) :
    Option (List Linear × Int) :=
  let (start, stop) := resolve shape.length interval
  if start ≥ stop then some state
  else do
    let collapsed := (collapseDims shape (List.range' start.toNat (stop - start).toNat)).1
    let map ← dropResult state.1 start
    some (insertResult map collapsed start, min state.2 start)

def fillLower (minimumDim : Nat) (map : List Linear) : Option (List Linear) :=
  (List.range minimumDim).foldlM (fun map (d : Nat) => do
    let map ← dropResult map d
    some (insertResult map (Linear.dim d) d)) map

def minorIdentity (rank results : Nat) : List Linear :=
  (List.range results).map fun i => Linear.dim (rank - results + i)

def padFront (gridRank : Nat) (map : List Linear) : List Linear :=
  List.replicate (gridRank - map.length) [] ++ map

/-- `none` is a failed assertion. -/
def collapsedLinearAffineMap (shape : List Int) (gridRank : Nat) (collapseIntervals : List (Int × Int)) :
    Option (List Linear) :=
  let numResultsClamped := min shape.length gridRank
  let map := minorIdentity shape.length numResultsClamped
  if shape.prod = 0 then some (padFront gridRank map)
  else do
    let (map, minimumDim) ← collapseIntervals.foldlM (applyInterval shape) (map, (shape.length : Int))
    let map ← fillLower minimumDim.toNat map
    if (List.range shape.length).all fun d => map.any fun result => result.isFunctionOfDim d then
      some (padFront gridRank map)
    else none

section Evaluation

/-- The distance in a row-major interval that ends at `stop` between neighbours along `d`. -/
def stride (shape : List Int) (d stop : Nat) : Int := ((shape.take stop).drop (d + 1)).prod

def weighted (weight : Nat → Int) (dims : List Nat) (index : List Int) : Int :=
  (dims.map fun d => weight d * index.getD d 0).sum

theorem evaluate_dim (d : Nat) (index : List Int) : (Linear.dim d).evaluate index = index.getD d 0 := by
  simp [Linear.evaluate, Linear.dim]

theorem evaluate_addMultiple (expr : Linear) (d : Nat) (multiplier : Int) (index : List Int) :
    (expr.addMultiple d multiplier).evaluate index = multiplier * index.getD d 0 + expr.evaluate index := by
  unfold Linear.addMultiple
  split
  · rename_i zero
    rw [zero, zero_mul, zero_add]
  · rfl

theorem wrapInt_mul (value factor : Int) : wrapInt (wrapInt value * factor) = wrapInt (value * factor) :=
  Int.bmod_mul_bmod ..

theorem slice_cons (shape : List Int) (first stop : Nat) (below : first < stop) (inside : stop ≤ shape.length) :
    (shape.take stop).drop first = shape.getD first 0 :: (shape.take stop).drop (first + 1) := by
  have within : first < (shape.take stop).length := by rw [List.length_take]; omega
  rw [drop_eq_cons _ first within, List.getD_eq_getElem?_getD, List.getElem?_take_of_lt below,
    ← List.getD_eq_getElem?_getD]

theorem collapseDims_spec (shape : List Int) (index : List Int) (first count : Nat)
    (inside : first + count ≤ shape.length) :
    (collapseDims shape (List.range' first count)).2 = wrapInt ((shape.take (first + count)).drop first).prod ∧
      (collapseDims shape (List.range' first count)).1.evaluate index =
        weighted (fun d => wrapInt (stride shape d (first + count))) (List.range' first count) index := by
  induction count generalizing first with
  | zero => simp [collapseDims, wrapInt, weighted, Linear.evaluate]
  | succ count ih =>
    have shift : first + (count + 1) = first + 1 + count := by omega
    obtain ⟨multiplier, value⟩ := ih (first + 1) (by omega)
    rw [List.range'_succ, shift, slice_cons shape first _ (by omega) (by omega), List.prod_cons]
    simp only [collapseDims, List.foldr_cons] at multiplier value ⊢
    constructor
    · rw [multiplier, wrapInt_mul, mul_comm]
    · rw [evaluate_addMultiple, value, multiplier]
      rfl

theorem rowMajor_slice (shape index : List Int) (length : index.length = shape.length) (first count : Nat)
    (inside : first + count ≤ shape.length) :
    rowMajor ((shape.take (first + count)).drop first) ((index.take (first + count)).drop first) =
      weighted (fun d => stride shape d (first + count)) (List.range' first count) index := by
  induction count generalizing first with
  | zero => simp [weighted, rowMajor]
  | succ count ih =>
    have shift : first + (count + 1) = first + 1 + count := by omega
    rw [List.range'_succ, shift, slice_cons shape first _ (by omega) (by omega),
      slice_cons index first _ (by omega) (by omega), rowMajor, ih (first + 1) (by omega), mul_comm]
    rfl

def unitIndex (rank d : Nat) : List Int := (List.range rank).map fun i => if i = d then 1 else 0

theorem unitIndex_length (rank d : Nat) : (unitIndex rank d).length = rank := by simp [unitIndex]

theorem unitIndex_getD (rank d i : Nat) (inside : d < rank) : (unitIndex rank d).getD i 0 = if i = d then 1 else 0 := by
  rw [unitIndex, List.getD_eq_getElem?_getD, List.getElem?_map]
  by_cases below : i < rank
  · simp [List.getElem?_range below]
  · rw [List.getElem?_eq_none (by simpa using below)]
    simp only [Option.map_none, Option.getD_none]
    rw [if_neg (by omega)]

theorem weighted_unit (weight : Nat → Int) (rank d first count : Nat) (inside : d < rank) :
    weighted weight (List.range' first count) (unitIndex rank d) =
      if first ≤ d ∧ d < first + count then weight d else 0 := by
  induction count generalizing first with
  | zero => simp [weighted]
  | succ count ih =>
    have step : weighted weight (List.range' first (count + 1)) (unitIndex rank d) =
        weight first * (unitIndex rank d).getD first 0 +
          weighted weight (List.range' (first + 1) count) (unitIndex rank d) := rfl
    rw [step, ih, unitIndex_getD rank d first inside]
    by_cases here : first = d
    · subst here
      simp
    · rw [if_neg here, mul_zero, zero_add]
      by_cases later : first + 1 ≤ d ∧ d < first + 1 + count
      · rw [if_pos later, if_pos (by omega)]
      · rw [if_neg later, if_neg (by omega)]

end Evaluation

/-- The intervals that are not empty, with negative bounds resolved. -/
def spans (rank : Nat) (intervals : List (Int × Int)) : List (Nat × Nat) :=
  ((intervals.map (resolve rank)).filter fun interval => decide (interval.1 < interval.2)).map fun interval =>
    (interval.1.toNat, interval.2.toNat)

/-- A shape, the rank of a grid, and intervals that are disjoint, in order and within the rank. -/
structure CollapseInput where
  shape : List Int
  gridRank : Nat
  collapseIntervals : List (Int × Int)
  extents : ∀ extent ∈ shape, 0 ≤ extent
  inRank : ∀ interval ∈ collapseIntervals,
    0 ≤ (resolve shape.length interval).1 ∧ (resolve shape.length interval).2 ≤ shape.length
  ordered : ((collapseIntervals.map (resolve shape.length)).filter fun interval =>
    decide (interval.1 < interval.2)).Pairwise fun a b => a.2 ≤ b.1

/-- Consecutive groups of dims from `position` on: an interval is one, and so is a dim outside all intervals. -/
def groupsFrom (stop : Nat) : Nat → List (Nat × Nat) → List Nat
  | position, [] => List.replicate (stop - position) 1
  | position, (first, last) :: rest =>
    List.replicate (first - position) 1 ++ (last - first) :: groupsFrom stop last rest

def SpansFrom (stop : Nat) : Nat → List (Nat × Nat) → Prop
  | position, [] => position ≤ stop
  | position, (first, last) :: rest => position ≤ first ∧ first < last ∧ SpansFrom stop last rest

def groupValues : List Nat → List Int → List Int → List Int
  | [], _, _ => []
  | count :: groups, shape, index =>
    rowMajor (shape.take count) (index.take count) :: groupValues groups (shape.drop count) (index.drop count)

def groupExtents : List Nat → List Int → List Int
  | [], _ => []
  | count :: groups, shape => (shape.take count).prod :: groupExtents groups (shape.drop count)

namespace CollapseInput
variable (input : CollapseInput)

def rank : Nat := input.shape.length

def groups : List Nat := groupsFrom input.rank 0 (spans input.rank input.collapseIntervals)

/-- What the results of the map should be at an index: constants for grid dims in excess, then the groups. -/
def expected (index : List Int) : List Int :=
  List.replicate (input.gridRank - input.groups.length) 0 ++ groupValues input.groups input.shape index

def collapsedExtents : List Int :=
  List.replicate (input.gridRank - input.groups.length) 1 ++ groupExtents input.groups input.shape

/-- Each result is the row-major position in its group, so the map is one to one onto the collapsed
box. -/
structure Linearises (map : List Linear) : Prop where
  results : ∀ index : List Int, index.length = input.rank →
    map.map (fun result => result.evaluate index) = input.expected index
  box : Set.BijOn (fun index => map.map fun result => result.evaluate index)
    (fun index => Within input.shape index) (fun value => Within input.collapsedExtents value)

end CollapseInput

section Groups

theorem SpansFrom.le {stop position : Nat} {spans : List (Nat × Nat)} (follow : SpansFrom stop position spans) :
    position ≤ stop := by
  induction spans generalizing position with
  | nil => exact follow
  | cons span rest ih =>
    obtain ⟨low, proper, later⟩ := follow
    have := ih later
    omega

theorem groups_sum (stop position : Nat) (spans : List (Nat × Nat)) (follow : SpansFrom stop position spans) :
    (groupsFrom stop position spans).sum = stop - position := by
  induction spans generalizing position with
  | nil => simp [groupsFrom]
  | cons span rest ih =>
    obtain ⟨low, proper, later⟩ := follow
    have := later.le
    rw [groupsFrom, List.sum_append, List.sum_cons, ih _ later, List.sum_replicate, smul_eq_mul, mul_one]
    omega

theorem groupValues_length (groups : List Nat) (shape index : List Int) :
    (groupValues groups shape index).length = groups.length := by
  induction groups generalizing shape index with
  | nil => rfl
  | cons count groups ih => rw [groupValues, List.length_cons, List.length_cons, ih]

theorem groupValues_append (front back : List Nat) (shape index : List Int) :
    groupValues (front ++ back) shape index =
      groupValues front shape index ++ groupValues back (shape.drop front.sum) (index.drop front.sum) := by
  induction front generalizing shape index with
  | nil => simp [groupValues]
  | cons count front ih =>
    rw [List.cons_append, groupValues, ih, groupValues, List.cons_append, List.sum_cons, List.drop_drop, List.drop_drop]

theorem groupValues_singles (count : Nat) (shape index : List Int) (shapeInside : count ≤ shape.length)
    (indexInside : count ≤ index.length) : groupValues (List.replicate count 1) shape index = index.take count := by
  induction count generalizing shape index with
  | zero => rfl
  | succ count ih =>
    cases shape with
    | nil => simp at shapeInside
    | cons extent shape =>
      cases index with
      | nil => simp at indexInside
      | cons digit index =>
        rw [List.replicate_succ, groupValues, List.drop_succ_cons, List.drop_zero, List.drop_succ_cons, List.drop_zero,
          ih shape index (by simpa using shapeInside) (by simpa using indexInside)]
        simp [rowMajor]

theorem within_split (count : Nat) (shape digits : List Int) : Within shape digits ↔
    Within (shape.take count) (digits.take count) ∧ Within (shape.drop count) (digits.drop count) := by
  constructor
  · exact fun within => ⟨List.forall₂_take count within, List.forall₂_drop count within⟩
  · rintro ⟨front, back⟩
    have whole : Within (shape.take count ++ shape.drop count) (digits.take count ++ digits.drop count) :=
      List.rel_append front back
    rwa [List.take_append_drop, List.take_append_drop] at whole

theorem extents_pos (shape : List Int) (extents : ∀ extent ∈ shape, 0 ≤ extent) (volume : 0 < shape.prod) :
    ∀ extent ∈ shape, 0 < extent := by
  intro extent member
  refine lt_of_le_of_ne (extents extent member) fun zero => ?_
  have none : shape.prod = 0 := List.prod_eq_zero_iff.mpr (zero ▸ member)
  omega

theorem groupValues_bijOn (groups : List Nat) (shape : List Int) (extents : ∀ extent ∈ shape, 0 ≤ extent)
    (total : groups.sum = shape.length) :
    Set.BijOn (groupValues groups shape) (fun index => Within shape index)
      (fun value => Within (groupExtents groups shape) value) := by
  induction groups generalizing shape with
  | nil =>
    have none : shape = [] := List.length_eq_zero_iff.mp total.symm
    subst none
    refine ⟨fun index _ => List.Forall₂.nil, fun left isLeft right isRight _ => ?_, fun value isValue => ?_⟩
    · cases isLeft
      cases isRight
      rfl
    · cases isValue
      exact ⟨[], List.Forall₂.nil, rfl⟩
  | cons count groups ih =>
    rw [List.sum_cons] at total
    obtain ⟨maps, injective, onto⟩ :=
      ih (shape.drop count) (fun extent member => extents extent (List.mem_of_mem_drop member))
      (by rw [List.length_drop]; omega)
    refine ⟨fun index within => ?_, fun left isLeft right isRight same => ?_, fun value isValue => ?_⟩
    · obtain ⟨front, back⟩ := (within_split count shape index).mp within
      exact List.Forall₂.cons (RowMajor.rowMajor_bounds _ _ front) (maps back)
    · obtain ⟨leftFront, leftBack⟩ := (within_split count shape left).mp isLeft
      obtain ⟨rightFront, rightBack⟩ := (within_split count shape right).mp isRight
      obtain ⟨sameFront, sameBack⟩ := List.cons.inj same
      have fronts := RowMajor.rowMajor_injective _ _ _ leftFront rightFront sameFront
      have backs := injective leftBack rightBack sameBack
      rw [← List.take_append_drop count left, fronts, backs, List.take_append_drop]
    · cases isValue with
      | @cons position _ positions _ here later =>
        obtain ⟨back, isBack, reached⟩ := onto later
        have positive := extents_pos (shape.take count)
          (fun extent member => extents extent (List.mem_of_mem_take member)) (by omega)
        have front := RowMajor.delinearize_within (shape.take count) positive position
        have frontLength := within_length _ _ front
        rw [List.length_take, min_eq_left (by omega)] at frontLength
        refine ⟨RowMajor.delinearize (shape.take count) position ++ back, ?_, ?_⟩
        · refine (within_split count shape _).mpr ?_
          rw [List.take_left' frontLength, List.drop_left' frontLength]
          exact ⟨front, isBack⟩
        · rw [groupValues, List.take_left' frontLength, List.drop_left' frontLength, reached,
            RowMajor.rowMajor_delinearize _ positive, Int.emod_eq_of_lt here.1 here.2]

end Groups

section Run
variable (shape : List Int)

def collapsed (span : Nat × Nat) : Linear := (collapseDims shape (List.range' span.1 (span.2 - span.1))).1

def spanStep (state : List Linear × Int) (span : Nat × Nat) : Option (List Linear × Int) :=
  if span.1 < state.1.length then some (state.1.set span.1 (collapsed shape span), min state.2 span.1) else none

theorem replaceResult (map : List Linear) (position : Nat) (result : Linear) (inside : position < map.length) :
    (map.eraseIdx position).insertIdx position result = map.set position result := by
  induction map generalizing position with
  | nil => simp at inside
  | cons head tail ih =>
    cases position with
    | zero => simp
    | succ position => simp [ih position (by simpa using inside)]

theorem applyInterval_span (state : List Linear × Int) (interval : Int × Int)
    (proper : (resolve shape.length interval).1 < (resolve shape.length interval).2)
    (low : 0 ≤ (resolve shape.length interval).1) :
    applyInterval shape state interval =
      spanStep shape state ((resolve shape.length interval).1.toNat, (resolve shape.length interval).2.toNat) := by
  obtain ⟨start, same⟩ := Int.eq_ofNat_of_zero_le low
  have stop : ((resolve shape.length interval).2 - start).toNat = (resolve shape.length interval).2.toNat - start :=
    by omega
  simp only [applyInterval, spanStep, dropResult, insertResult, collapsed, ge_iff_le, not_le.mpr proper, ↓reduceIte]
  rw [same] at proper ⊢
  simp only [Int.toNat_natCast, Nat.cast_lt, stop]
  by_cases inside : start < state.1.length
  · rw [if_pos ⟨by omega, inside⟩, if_pos inside, Option.bind_eq_bind, Option.bind_some,
      replaceResult state.1 start _ inside]
  · rw [if_neg (fun both => inside both.2), if_neg inside]
    rfl

theorem fold_spans (intervals : List (Int × Int)) (state : List Linear × Int)
    (inRank : ∀ interval ∈ intervals, 0 ≤ (resolve shape.length interval).1) :
    intervals.foldlM (applyInterval shape) state = (spans shape.length intervals).foldlM (spanStep shape) state := by
  induction intervals generalizing state with
  | nil => rfl
  | cons interval rest ih =>
    have later := fun state => ih state fun other member => inRank other (List.mem_cons_of_mem _ member)
    have low := inRank interval List.mem_cons_self
    by_cases proper : (resolve shape.length interval).1 < (resolve shape.length interval).2
    · have first : spans shape.length (interval :: rest) =
          ((resolve shape.length interval).1.toNat,
            (resolve shape.length interval).2.toNat) :: spans shape.length rest := by
        simp [spans, proper]
      rw [first, List.foldlM_cons, List.foldlM_cons, applyInterval_span shape state interval proper low]
      simp only [later]
    · have skipped : spans shape.length (interval :: rest) = spans shape.length rest := by simp [spans, proper]
      have same : applyInterval shape state interval = some state := by
        simp only [applyInterval, ge_iff_le, not_lt.mp proper, ↓reduceIte]
      rw [skipped, List.foldlM_cons, same, Option.bind_eq_bind, Option.bind_some, later]

def lowestDim (rank : Nat) (spans : List (Nat × Nat)) : Nat := (spans.head?.map Prod.fst).getD rank

def spanResult (spans : List (Nat × Nat)) (before : Option Linear) (j : Nat) : Option Linear :=
  match spans.find? fun span => decide (span.1 = j) with
  | some span => before.map fun _ => collapsed shape span
  | none => before

theorem spans_above (stop position : Nat) (spans : List (Nat × Nat)) (follow : SpansFrom stop position spans) :
    ∀ span ∈ spans, position ≤ span.1 ∧ span.1 < span.2 ∧ span.2 ≤ stop := by
  induction spans generalizing position with
  | nil => simp
  | cons first rest ih =>
    obtain ⟨low, proper, later⟩ := follow
    intro span member
    rcases List.mem_cons.mp member with rfl | inRest
    · exact ⟨low, proper, later.le⟩
    · obtain ⟨above, rest⟩ := ih first.2 later span inRest
      exact ⟨by omega, rest⟩

theorem spanSteps (stop position : Nat) (spans : List (Nat × Nat)) (follow : SpansFrom stop position spans)
    (map final : List Linear) (low finalLow : Int) :
    spans.foldlM (spanStep shape) (map, low) = some (final, finalLow) ↔
      (∀ span ∈ spans, span.1 < map.length) ∧ finalLow = spans.foldl (fun low span => min low (span.1 : Int)) low ∧
        final.length = map.length ∧ ∀ j, final[j]? = spanResult shape spans map[j]? j := by
  induction spans generalizing position map low with
  | nil =>
    simp only [List.foldlM_nil, Option.pure_def, Option.some.injEq, Prod.mk.injEq, List.not_mem_nil, false_implies,
      implies_true, List.foldl_nil, true_and, spanResult, List.find?_nil]
    constructor
    · rintro ⟨rfl, rfl⟩
      exact ⟨rfl, rfl, fun _ => rfl⟩
    · rintro ⟨rfl, -, each⟩
      exact ⟨(List.ext_getElem? each).symm, rfl⟩
  | cons span rest ih =>
    obtain ⟨_, proper, later⟩ := follow
    rw [List.foldlM_cons, List.forall_mem_cons, List.foldl_cons]
    by_cases inside : span.1 < map.length
    · have step : spanStep shape (map, low) span = some (map.set span.1 (collapsed shape span), min low span.1) := by
        simp only [spanStep, inside, ↓reduceIte]
      rw [step, Option.bind_eq_bind, Option.bind_some, ih span.2 later, List.length_set]
      have each (j : Nat) : spanResult shape rest (map.set span.1 (collapsed shape span))[j]? j =
          spanResult shape (span :: rest) map[j]? j := by
        by_cases here : span.1 = j
        · have absent : rest.find? (fun other => decide (other.1 = j)) = none :=
            List.find?_eq_none.mpr fun other member => by
              have := (spans_above stop span.2 rest later other member).1
              simp only [decide_eq_true_eq]
              omega
          subst here
          simp [spanResult, absent, List.getElem?_set_self inside, List.getElem?_eq_getElem inside]
        · rw [List.getElem?_set_ne here]
          simp [spanResult, here]
      simp only [inside, true_and, each]
    · have step : spanStep shape (map, low) span = none := by simp only [spanStep, inside, ↓reduceIte]
      rw [step]
      simp [inside]

theorem fillLower_succ (count : Nat) (map : List Linear) : fillLower (count + 1) map =
    (fillLower count map).bind fun map =>
      if count < map.length then some (map.set count (Linear.dim count)) else none := by
  simp only [fillLower, List.range_succ, List.foldlM_append, List.foldlM_cons, List.foldlM_nil, Option.bind_eq_bind]
  congr 1
  funext map
  simp only [dropResult, insertResult, Int.toNat_natCast, Nat.cast_lt]
  by_cases inside : count < map.length
  · rw [if_pos ⟨by omega, inside⟩, if_pos inside, Option.bind_some, Option.bind_some, replaceResult map count _ inside]
    rfl
  · rw [if_neg (fun both => inside both.2), if_neg inside]
    rfl

theorem fillLower_eq (count : Nat) (map final : List Linear) : fillLower count map = some final ↔
    count ≤ map.length ∧ final.length = map.length ∧
      ∀ j, final[j]? = if j < count then some (Linear.dim j) else map[j]? := by
  induction count generalizing final with
  | zero =>
    simp only [fillLower, List.range_zero, List.foldlM_nil, Option.pure_def, Option.some.injEq, Nat.zero_le,
      Nat.not_lt_zero,
      ↓reduceIte, true_and]
    exact ⟨fun same => by subst same; exact ⟨rfl, fun _ => rfl⟩, fun each => (List.ext_getElem? each.2).symm⟩
  | succ count ih =>
    rw [fillLower_succ, Option.bind_eq_some_iff]
    constructor
    · rintro ⟨middle, isMiddle, step⟩
      obtain ⟨enough, length, each⟩ := (ih middle).mp isMiddle
      split at step
      · rename_i inside
        cases step
        refine ⟨by omega, by rw [List.length_set, length], fun j => ?_⟩
        by_cases here : count = j
        · subst here
          rw [List.getElem?_set_self inside, if_pos (by omega)]
        · rw [List.getElem?_set_ne here, each]
          by_cases below : j < count
          · rw [if_pos below, if_pos (by omega)]
          · rw [if_neg below, if_neg (by omega)]
      · cases step
    · rintro ⟨enough, length, each⟩
      let middle := (List.range map.length).map fun j => if j < count then Linear.dim j else map.getD j []
      have middleLength : middle.length = map.length := by simp [middle]
      have middleEach (j : Nat) : middle[j]? = if j < count then some (Linear.dim j) else map[j]? := by
        simp only [middle, List.getElem?_map]
        by_cases inside : j < map.length
        · rw [List.getElem?_range inside, Option.map_some]
          split
          · rfl
          · rw [List.getD_eq_getElem?_getD, List.getElem?_eq_getElem inside, Option.getD_some]
        · rw [List.getElem?_eq_none (by simpa using inside), Option.map_none, if_neg (by omega),
            List.getElem?_eq_none (not_lt.mp inside)]
      refine ⟨middle, (ih middle).mpr ⟨by omega, middleLength, middleEach⟩, ?_⟩
      rw [if_pos (by omega)]
      refine congrArg some (List.ext_getElem? fun j => ?_)
      rw [each]
      by_cases here : count = j
      · subst here
        rw [List.getElem?_set_self (by omega), if_pos (by omega)]
      · rw [List.getElem?_set_ne here, middleEach]
        by_cases below : j < count
        · rw [if_pos below, if_pos (by omega)]
        · rw [if_neg below, if_neg (by omega)]

end Run

namespace CollapseInput
variable (input : CollapseInput)

def spanList : List (Nat × Nat) := spans input.rank input.collapseIntervals

def numResults : Nat := min input.rank input.gridRank

def entry (j : Nat) : Linear :=
  if j < lowestDim input.rank input.spanList then Linear.dim j
  else match input.spanList.find? fun span => decide (span.1 = j) with
    | some span => collapsed input.shape span
    | none => Linear.dim (input.rank - input.numResults + j)

theorem spanList_follow : SpansFrom input.rank 0 input.spanList := by
  have bounds : ∀ interval ∈ (input.collapseIntervals.map (resolve input.rank)).filter
      (fun interval => decide (interval.1 < interval.2)), 0 ≤ interval.1 ∧ interval.1 < interval.2 ∧
        interval.2 ≤ input.rank := by
    intro interval member
    obtain ⟨resolved, proper⟩ := List.mem_filter.mp member
    obtain ⟨given, isGiven, rfl⟩ := List.mem_map.mp resolved
    exact ⟨(input.inRank given isGiven).1, of_decide_eq_true proper, (input.inRank given isGiven).2⟩
  have run (intervals : List (Int × Int)) (position : Nat) (inside : position ≤ input.rank)
      (bounds : ∀ interval ∈ intervals, (position : Int) ≤ interval.1 ∧ interval.1 < interval.2 ∧
        interval.2 ≤ input.rank) (ordered : intervals.Pairwise fun a b => a.2 ≤ b.1) :
      SpansFrom input.rank position (intervals.map fun interval => (interval.1.toNat, interval.2.toNat)) := by
    induction intervals generalizing position with
    | nil => exact inside
    | cons interval rest ih =>
      obtain ⟨low, proper, high⟩ := bounds interval List.mem_cons_self
      obtain ⟨before, later⟩ := List.pairwise_cons.mp ordered
      refine ⟨by omega, by omega, ih _ (by omega) (fun other member => ?_) later⟩
      obtain ⟨_, otherProper, otherHigh⟩ := bounds other (List.mem_cons_of_mem _ member)
      have := before other member
      exact ⟨by omega, otherProper, otherHigh⟩
  exact run _ 0 (Nat.zero_le _) bounds input.ordered

theorem lowest_fold :
    input.spanList.foldl (fun low span => min low (span.1 : Int)) input.rank = lowestDim input.rank input.spanList := by
  have settled (spans : List (Nat × Nat)) (low : Int) (above : ∀ span ∈ spans, low ≤ span.1) :
      spans.foldl (fun low span => min low (span.1 : Int)) low = low := by
    induction spans with
    | nil => rfl
    | cons span rest ih =>
      rw [List.foldl_cons, min_eq_left (above span List.mem_cons_self)]
      exact ih fun other member => above other (List.mem_cons_of_mem _ member)
  have follow := input.spanList_follow
  cases spans : input.spanList with
  | nil => rfl
  | cons first rest =>
    rw [spans] at follow
    obtain ⟨_, proper, later⟩ := follow
    have := later.le
    rw [List.foldl_cons, min_eq_right (by omega)]
    refine settled rest first.1 fun span member => ?_
    have := (spans_above input.rank first.2 rest later span member).1
    omega

theorem minorIdentity_getElem (rank results j : Nat) :
    (minorIdentity rank results)[j]? = if j < results then some (Linear.dim (rank - results + j)) else none := by
  rw [minorIdentity, List.getElem?_map]
  by_cases inside : j < results
  · rw [List.getElem?_range inside, if_pos inside]
    rfl
  · rw [List.getElem?_eq_none (by simpa using inside), if_neg inside]
    rfl

theorem loop_eq (map : List Linear) :
    ((input.collapseIntervals.foldlM (applyInterval input.shape)
        (minorIdentity input.rank input.numResults, (input.rank : Int))).bind fun state =>
      fillLower state.2.toNat state.1) = some map ↔
    (∀ span ∈ input.spanList, span.1 < input.numResults) ∧ lowestDim input.rank input.spanList ≤ input.numResults ∧
      map = (List.range input.numResults).map input.entry := by
  have length : (minorIdentity input.rank input.numResults).length = input.numResults := by simp [minorIdentity]
  rw [fold_spans input.shape _ _ fun interval member => (input.inRank interval member).1, Option.bind_eq_some_iff]
  have steps (final : List Linear) (low : Int) :=
    spanSteps input.shape input.rank 0 input.spanList input.spanList_follow
    (minorIdentity input.rank input.numResults) final input.rank low
  -- below the lowest dim `fillLower` writes, above it the spans and the minor identity
  have each (middle : List Linear) (isMiddle : ∀ j, middle[j]? =
      spanResult input.shape input.spanList (minorIdentity input.rank input.numResults)[j]? j) (j : Nat) :
      (if j < lowestDim input.rank input.spanList then some (Linear.dim j) else middle[j]?) =
        if j < lowestDim input.rank input.spanList ∨ j < input.numResults then some (input.entry j) else none := by
    rw [isMiddle, spanResult, minorIdentity_getElem, entry]
    by_cases low : j < lowestDim input.rank input.spanList
    · rw [if_pos low, if_pos (Or.inl low), if_pos low]
    · rw [if_neg low, if_neg low]
      by_cases inside : j < input.numResults
      · rw [if_pos inside, if_pos (Or.inr inside)]
        cases input.spanList.find? fun span => decide (span.1 = j) <;> rfl
      · rw [if_neg inside, if_neg (by omega)]
        cases input.spanList.find? fun span => decide (span.1 = j) <;> rfl
  have range (j : Nat) : ((List.range input.numResults).map input.entry)[j]? =
      if j < input.numResults then some (input.entry j) else none := by
    rw [List.getElem?_map]
    by_cases inside : j < input.numResults
    · rw [List.getElem?_range inside, if_pos inside]
      rfl
    · rw [List.getElem?_eq_none (by simpa using inside), if_neg inside]
      rfl
  constructor
  · rintro ⟨⟨middle, low⟩, folded, filled⟩
    obtain ⟨inside, rfl, middleLength, isMiddle⟩ := (steps middle low).mp folded
    rw [input.lowest_fold, Int.toNat_natCast] at filled
    obtain ⟨enough, finalLength, isFinal⟩ := (fillLower_eq _ _ _).mp filled
    rw [middleLength, length] at enough
    refine ⟨length ▸ inside, enough, List.ext_getElem? fun j => ?_⟩
    rw [isFinal, each middle isMiddle, range]
    exact if_congr (by omega) rfl rfl
  · rintro ⟨inside, enough, rfl⟩
    let middle := (List.range input.numResults).map fun j =>
      (spanResult input.shape input.spanList (minorIdentity input.rank input.numResults)[j]? j).getD []
    have isMiddle (j : Nat) : middle[j]? =
        spanResult input.shape input.spanList (minorIdentity input.rank input.numResults)[j]? j := by
      simp only [middle, List.getElem?_map, minorIdentity_getElem, spanResult]
      by_cases below : j < input.numResults
      · rw [List.getElem?_range below, if_pos below, Option.map_some, if_pos below]
        cases input.spanList.find? fun span => decide (span.1 = j) <;> rfl
      · rw [List.getElem?_eq_none (by simpa using below), if_neg below]
        cases input.spanList.find? fun span => decide (span.1 = j) <;> rfl
    have middleLength : middle.length = input.numResults := by simp [middle]
    refine ⟨(middle, lowestDim input.rank input.spanList), (steps _ _).mpr
      ⟨fun span member => length.symm ▸ inside span member, input.lowest_fold.symm, middleLength.trans length.symm,
        isMiddle⟩, ?_⟩
    dsimp only
    rw [Int.toNat_natCast, fillLower_eq]
    refine ⟨middleLength ▸ enough, by simp [middleLength], fun j => ?_⟩
    rw [each middle isMiddle, range]
    exact if_congr (by omega) rfl rfl

theorem map_eq (volume : input.shape.prod ≠ 0) (map : List Linear) :
    collapsedLinearAffineMap input.shape input.gridRank input.collapseIntervals = some map ↔
      (∀ span ∈ input.spanList, span.1 < input.numResults) ∧ lowestDim input.rank input.spanList ≤ input.numResults ∧
        (∀ d < input.rank, ∃ j < input.numResults, (input.entry j).isFunctionOfDim d = true) ∧
        map = padFront input.gridRank ((List.range input.numResults).map input.entry) := by
  have run : collapsedLinearAffineMap input.shape input.gridRank input.collapseIntervals =
      ((input.collapseIntervals.foldlM (applyInterval input.shape)
          (minorIdentity input.rank input.numResults, (input.rank : Int))).bind fun state =>
        fillLower state.2.toNat state.1).bind fun map =>
          if (List.range input.rank).all fun d => map.any fun result => result.isFunctionOfDim d then
            some (padFront input.gridRank map)
          else none := by
    simp only [collapsedLinearAffineMap, volume, ↓reduceIte, Option.bind_assoc]
    rfl
  rw [run, Option.bind_eq_some_iff]
  constructor
  · rintro ⟨results, looped, asserted⟩
    obtain ⟨inside, enough, rfl⟩ := (input.loop_eq results).mp looped
    split at asserted
    · rename_i participates
      refine ⟨inside, enough, fun d below => ?_, (Option.some.inj asserted).symm⟩
      have found := List.all_eq_true.mp participates d (List.mem_range.mpr below)
      obtain ⟨result, member, isFunction⟩ := List.any_eq_true.mp found
      obtain ⟨j, low, rfl⟩ := List.mem_map.mp member
      exact ⟨j, List.mem_range.mp low, isFunction⟩
    · cases asserted
  · rintro ⟨inside, enough, participates, rfl⟩
    refine ⟨_, (input.loop_eq _).mpr ⟨inside, enough, rfl⟩, if_pos (List.all_eq_true.mpr fun d member => ?_)⟩
    obtain ⟨j, low, isFunction⟩ := participates d (List.mem_range.mp member)
    exact List.any_eq_true.mpr ⟨_, List.mem_map_of_mem (List.mem_range.mpr low), isFunction⟩

end CollapseInput

end TtMlir.Layout
