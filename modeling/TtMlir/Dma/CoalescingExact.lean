import TtMlir.Dma.Coalescing
import TtMlir.Library.MaximalRuns

/-!
The coalescing factor against what it stands for: the greatest common divisor
of the lengths of the maximal contiguous runs, over all grid coordinates.
`sample` never calls back for an empty shape, so without grid dims no shard is
walked at all.
-/

namespace TtMlir.Dma

open RowMajor MixedRadix

section Runs
variable (map : AffineMap) (shape : List Int) (stride : Int) (numGridDims : Nat)

/-- The shard element at a row-major position does not continue its predecessor's run. -/
def BreaksRun (gridIndex : List Int) (position : Nat) : Prop :=
  map.evaluate (gridIndex ++ delinearize (shape.drop numGridDims) position) ≠
    addStride (map.evaluate (gridIndex ++ delinearize (shape.drop numGridDims) (position - 1 : Nat))) stride

def shardVolume : Nat := (Memory.volume (shape.drop numGridDims)).toNat

def runLengths : Set Nat :=
  {length | ∃ gridIndex, Within (shape.take numGridDims) gridIndex ∧
    ∃ start, MaximalRun (shardVolume shape numGridDims)
      (BreaksRun map shape stride numGridDims gridIndex) start length}

/-- A shard without elements, or a grid with a coordinate and at least one dim, unless the only shard
is one element or one run. -/
def SamplesEveryShard : Prop :=
  0 ∈ shape.drop numGridDims ∨
    (0 ∉ shape.take numGridDims ∧
      (0 < numGridDims ∨ shape.drop numGridDims = [] ∨
        ∀ position, 0 < position → position < shardVolume shape numGridDims →
          ¬ BreaksRun map shape stride numGridDims [] position))

end Runs

theorem mem_sample (shape index : List Int) (nonempty : shape ≠ []) (positive : ∀ extent ∈ shape, 0 < extent) :
    index ∈ sample shape ↔ Within shape index := by
  constructor
  · intro member
    rw [sample, if_neg (by simpa using nonempty)] at member
    obtain ⟨flat, _, rfl⟩ := List.mem_map.mp member
    exact delinearize_within shape positive flat
  · exact sample_complete shape index nonempty

theorem not_within_of_zero (shape index : List Int) (empty : 0 ∈ shape) : ¬ Within shape index := by
  intro within
  have bounds := rowMajor_bounds shape index within
  rw [List.prod_eq_zero empty] at bounds
  omega

theorem exists_within (shape : List Int) (positive : ∀ extent ∈ shape, 0 < extent) :
    ∃ index, Within shape index := ⟨delinearize shape 0, delinearize_within shape positive 0⟩

theorem scanGrid_empty (compiled : CompiledAffineMap) (shardShape : List Int) (stride : Int)
    (gridIndices : List (List Int)) (empty : (Memory.volume shardShape).toNat = 0) :
    gridIndices.foldl (scanGridPoint compiled shardShape stride) 0 = 0 := by
  induction gridIndices with
  | nil => rfl
  | cons gridIndex rest ih =>
      have here : scanGridPoint compiled shardShape stride 0 gridIndex = 0 := by
        simp [scanGridPoint, empty, scanShard]
      rw [List.foldl_cons, here, ih]

section Exact
variable (map : AffineMap) (shape : List Int) (stride : Int) (numGridDims factor : Nat)

theorem calculated_shape (calculated : calculateCoalescingFactor map shape stride numGridDims = some factor) :
    numGridDims ≤ shape.length := by
  unfold calculateCoalescingFactor at calculated
  by_cases wellFormed : map.numDims = shape.length ∧ numGridDims ≤ shape.length ∧ map.numSymbols = 0
  · exact wellFormed.2.1
  · simp [wellFormed] at calculated

theorem shardVolume_empty (empty : 0 ∈ shape.drop numGridDims) : shardVolume shape numGridDims = 0 := by
  rw [shardVolume, Memory.volume_prod, List.prod_eq_zero empty]
  rfl

theorem calculated_empty (empty : 0 ∈ shape.drop numGridDims)
    (calculated : calculateCoalescingFactor map shape stride numGridDims = some factor) : factor = 0 := by
  have volume := shardVolume_empty shape numGridDims empty
  rw [shardVolume] at volume
  have present : (shape.drop numGridDims).isEmpty = false := by
    cases dims : shape.drop numGridDims with
    | nil => simp [dims] at empty
    | cons extent rest => rfl
  unfold calculateCoalescingFactor at calculated
  by_cases wellFormed : map.numDims = shape.length ∧ numGridDims ≤ shape.length ∧ map.numSymbols = 0
  · simp only [wellFormed, and_self, ↓reduceIte, present, Bool.false_eq_true, Option.bind_eq_bind,
      Option.bind_eq_some_iff] at calculated
    obtain ⟨compiled, _, counted⟩ := calculated
    by_cases small : map.results.length ≤ kMaxResults ∧ shape.length ≤ kMaxDims
    · simp only [small, and_self, ↓reduceIte, Option.some.injEq] at counted
      rw [← counted, volume, scanGrid_empty compiled _ stride _ volume]
    · simp [small] at counted
  · simp [wellFormed] at calculated

theorem divides_runLengths (divisor : Nat) :
    (∀ length ∈ runLengths map shape stride numGridDims, divisor ∣ length) ↔
      ∀ gridIndex, Within (shape.take numGridDims) gridIndex →
        divisor ∣ shardVolume shape numGridDims ∧
        ∀ position, 0 < position → position < shardVolume shape numGridDims →
          BreaksRun map shape stride numGridDims gridIndex position → divisor ∣ position := by
  constructor
  · intro runs gridIndex within
    exact (MaximalRun.divides_iff _ _ divisor).mp
      fun start length run => runs length ⟨gridIndex, within, start, run⟩
  · rintro cuts length ⟨gridIndex, within, start, run⟩
    exact (MaximalRun.divides_iff _ _ divisor).mpr (cuts gridIndex within) start length run

end Exact

/-- The factor is the greatest common divisor of the run lengths exactly when every
shard is sampled or need not be. -/
theorem calculateCoalescingFactor_exact_iff (map : AffineMap) (shape : List Int) (stride : Int)
    (numGridDims factor : Nat) (divisors : ∀ expr ∈ map.results, expr.divisorsPositive = true)
    (extents : ∀ extent ∈ shape, 0 ≤ extent)
    (calculated : calculateCoalescingFactor map shape stride numGridDims = some factor) :
    IsGcd (runLengths map shape stride numGridDims) factor ↔
      SamplesEveryShard map shape stride numGridDims := by
  by_cases emptyShard : 0 ∈ shape.drop numGridDims
  case pos =>
    have noElements := shardVolume_empty shape numGridDims emptyShard
    have zero := calculated_empty map shape stride numGridDims factor emptyShard calculated
    refine iff_of_true (fun divisor => ?_) (Or.inl emptyShard)
    rw [divides_runLengths, zero, noElements]
    simp
  case neg =>
    have shardPositive : ∀ extent ∈ shape.drop numGridDims, 0 < extent := fun extent member =>
      (extents extent (List.mem_of_mem_drop member)).lt_of_ne fun zero => emptyShard (zero ▸ member)
    have divides := fun divisor => calculateCoalescingFactor_divides map shape stride numGridDims factor
      divisor divisors shardPositive calculated
    have someElement : 0 < shardVolume shape numGridDims := by
      have := MixedRadix.prod_pos _ shardPositive
      rw [shardVolume, Memory.volume_prod]
      omega
    have conditions : SamplesEveryShard map shape stride numGridDims ↔ 0 ∉ shape.take numGridDims ∧
        (0 < numGridDims ∨ shape.drop numGridDims = [] ∨
          ∀ position, 0 < position → position < shardVolume shape numGridDims →
            ¬ BreaksRun map shape stride numGridDims [] position) := by
      simp [SamplesEveryShard, emptyShard]
    rw [conditions]
    by_cases emptyGrid : 0 ∈ shape.take numGridDims
    case pos =>
      -- no grid coordinate, hence no run: the common divisor is zero, the factor is not
      refine iff_of_false (fun exact => ?_) fun both => both.1 emptyGrid
      have all := (exact 0).mpr fun length ⟨gridIndex, within, _⟩ =>
        absurd within (not_within_of_zero _ _ emptyGrid)
      have factorZero : factor = 0 := Nat.eq_zero_of_zero_dvd all
      have whole := ((divides 0).mp (by simp [factorZero])).1
      have := Nat.eq_zero_of_zero_dvd whole
      rw [shardVolume] at someElement
      omega
    case neg =>
      have gridPositive : ∀ extent ∈ shape.take numGridDims, 0 < extent := fun extent member =>
        (extents extent (List.mem_of_mem_take member)).lt_of_ne fun zero => emptyGrid (zero ▸ member)
      rcases Nat.eq_zero_or_pos numGridDims with rfl | someDim
      · -- no grid dim: nothing is sampled, and the factor stays the volume of the shard
        have whole : ∀ divisor, divisor ∣ factor ↔ divisor ∣ shardVolume shape 0 := by
          intro divisor
          simp only [divides, List.take_zero, sample, List.isEmpty_nil, ↓reduceIte, List.not_mem_nil,
            false_implies, implies_true, and_true]
          rfl
        have single : IsGcd (runLengths map shape stride 0) factor ↔
            ∀ position, 0 < position → position < shardVolume shape 0 →
              ¬ BreaksRun map shape stride 0 [] position := by
          constructor
          · intro exact position after before breaks
            have runs := (divides_runLengths map shape stride 0 _).mp ((exact _).mp ((whole _).mpr dvd_rfl))
            have := Nat.le_of_dvd after ((runs [] (by simp [Within])).2 position after before breaks)
            omega
          · intro unbroken divisor
            rw [whole, divides_runLengths]
            constructor
            · intro here gridIndex within
              have none : gridIndex = [] := by simpa [Within] using within
              exact ⟨here, fun position after before breaks => absurd (none ▸ breaks) (unbroken position after before)⟩
            · intro all
              exact (all [] (by simp [Within])).1
        rw [single]
        constructor
        · intro unbroken
          exact ⟨emptyGrid, Or.inr (Or.inr unbroken)⟩
        · rintro ⟨_, impossible | oneElement | unbroken⟩
          · omega
          · intro position after before
            rw [shardVolume, oneElement] at before
            have before : position < 1 := before
            omega
          · exact unbroken
      · -- every grid coordinate is sampled
        have nonempty : shape.take numGridDims ≠ [] := by
          have inside := calculated_shape map shape stride numGridDims factor calculated
          intro none
          have := congrArg List.length none
          simp only [List.length_take, List.length_nil] at this
          omega
        refine iff_of_true (fun divisor => ?_) ⟨emptyGrid, Or.inl someDim⟩
        rw [divides, divides_runLengths]
        simp only [mem_sample _ _ nonempty gridPositive]
        constructor
        · rintro ⟨whole, cuts⟩ gridIndex within
          exact ⟨whole, cuts gridIndex within⟩
        · intro all
          obtain ⟨some, within⟩ := exists_within _ gridPositive
          exact ⟨(all some within).1, fun gridIndex within => (all gridIndex within).2⟩

/-- `(d0, d1, d2) -> (d2 * 2 + d1)`: a column-major shard under a grid of one. -/
def paddedColumnMajor : AffineMap where
  numDims := 3
  results := [.add (.mul (.dim 2) (.const 2)) (.dim 1)]

theorem calculateCoalescingFactor_exact_padded :
    calculateCoalescingFactor paddedColumnMajor [1, 2, 4] 1 1 = some 1 ∧
      IsGcd (runLengths paddedColumnMajor [1, 2, 4] 1 1) 1 := by
  have calculated : calculateCoalescingFactor paddedColumnMajor [1, 2, 4] 1 1 = some 1 := by decide
  refine ⟨calculated, ?_⟩
  exact (calculateCoalescingFactor_exact_iff paddedColumnMajor [1, 2, 4] 1 1 1 (by decide) (by decide)
    calculated).mpr (Or.inr ⟨by decide, Or.inl (by decide)⟩)

/-- `(d0, d1) -> (d1 * 2 + d0)`. -/
def columnMajor : AffineMap where
  numDims := 2
  results := [.add (.mul (.dim 1) (.const 2)) (.dim 0)]

/-- The documented example: every run has one element, and the factor is eight. -/
theorem columnMajor_factor :
    calculateCoalescingFactor columnMajor [2, 4] 1 0 = some 8 ∧
      ¬ IsGcd (runLengths columnMajor [2, 4] 1 0) 8 := by
  refine ⟨by decide, fun exact => ?_⟩
  have single : MaximalRun (shardVolume [2, 4] 0) (BreaksRun columnMajor [2, 4] 1 0 []) 0 1 := by
    refine ⟨by decide, by decide, Or.inl rfl, Or.inr ?_, by omega⟩
    change columnMajor.evaluate _ ≠ _
    decide
  have divides := (exact 8).mp dvd_rfl 1 ⟨[], List.Forall₂.nil, 0, single⟩
  revert divides
  decide

end TtMlir.Dma
