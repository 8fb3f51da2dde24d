import TtMlir.Dma.CompiledMap
import TtMlir.Library.RowMajor
import TtMlir.Memory.Device

/-!
`calculateCoalescingFactor`: walk every shard in row-major order and take the
greatest common divisor of the lengths of the contiguous runs of addresses.
-/

namespace TtMlir.Dma

open Memory RowMajor MixedRadix

/-- Coordinates `utils::sample` visits; it visits none of an empty shape. -/
def sample (shape : List Int) : List (List Int) :=
  if shape.isEmpty then [] else
    (List.range (volume shape).toNat).map fun flat : Nat => delinearize shape flat

theorem sample_complete (shape index : List Int) (nonempty : shape ≠ []) (within : Within shape index) :
    index ∈ sample shape := by
  have bounds := rowMajor_bounds shape index within
  rw [sample, if_neg (by simpa using nonempty), volume_prod]
  refine List.mem_map.mpr ⟨(rowMajor shape index).toNat, List.mem_range.mpr (by omega), ?_⟩
  rw [Int.toNat_of_nonneg bounds.1, delinearize_rowMajor shape index within]

def addStride (address : List Int) (stride : Int) : List Int :=
  address.modify (address.length - 1) (· + stride)

structure Scan where
  coalescingFactor : Nat
  currentCoalescingFactor : Nat := 0
  nextAddress : List Int := []
  memoryIndex : List Int
  iter : Nat := 0

def scanShard (compiled : CompiledAffineMap) (gridIndex shardShape : List Int) (stride : Int) :
    Nat → Scan → Scan
  | 0, scan => scan
  | remaining + 1, scan =>
      let address := compiled.evaluate (gridIndex ++ scan.memoryIndex)
      let contiguous := decide (scan.iter > 0) && decide (address = scan.nextAddress)
      let next : Scan :=
        { scan with nextAddress := addStride address stride
                    memoryIndex := (advance shardShape scan.memoryIndex).1
                    iter := scan.iter + 1 }
      if scan.iter = 0 ∨ contiguous = true then
        scanShard compiled gridIndex shardShape stride remaining
          { next with currentCoalescingFactor := scan.currentCoalescingFactor + 1 }
      else
        let coalescingFactor := Nat.gcd scan.coalescingFactor scan.currentCoalescingFactor
        -- a factor of one cannot shrink any further: leave the loop
        if coalescingFactor = 1 then { scan with coalescingFactor }
        else
          scanShard compiled gridIndex shardShape stride remaining
            { next with coalescingFactor, currentCoalescingFactor := 1 }

/-- One grid coordinate: walk its shard, then account for the final run. -/
def scanGridPoint (compiled : CompiledAffineMap) (shardShape : List Int) (stride : Int)
    (coalescingFactor : Nat) (gridIndex : List Int) : Nat :=
  if coalescingFactor = 1 then coalescingFactor else
    let scan := scanShard compiled gridIndex shardShape stride (volume shardShape).toNat
      { coalescingFactor, memoryIndex := List.replicate shardShape.length 0 }
    Nat.gcd scan.coalescingFactor scan.currentCoalescingFactor

def kMaxResults : Nat := 16

def kMaxDims : Nat := 16

def calculateCoalescingFactor (map : AffineMap) (shape : List Int) (stride : Int)
    (numGridDims : Nat := 0) : Option Nat :=
  if map.numDims = shape.length ∧ numGridDims ≤ shape.length ∧ map.numSymbols = 0 then
    let gridShape := shape.take numGridDims
    let shardShape := shape.drop numGridDims
    if shardShape.isEmpty then some 1
    else do
      let compiled ← CompiledAffineMap.compile map
      if map.results.length ≤ kMaxResults ∧ map.numDims ≤ kMaxDims then
        some ((sample gridShape).foldl (scanGridPoint compiled shardShape stride) (volume shardShape).toNat)
      else none
  else none

/-! A divisor of the factor divides the start of every contiguous run. -/

section Runs
variable (compiled : CompiledAffineMap) (gridIndex shardShape : List Int) (stride : Int)

def elementAddress (position : Nat) : List Int :=
  compiled.evaluate (gridIndex ++ delinearize shardShape position)

def RunStart (position : Nat) : Prop :=
  0 < position ∧ elementAddress compiled gridIndex shardShape position ≠
    addStride (elementAddress compiled gridIndex shardShape (position - 1)) stride

/-- The elements before `iter` are read: the run started at `start`, and the factor collects the runs
before it. -/
structure Walked (initial start : Nat) (scan : Scan) : Prop where
  index : scan.memoryIndex = delinearize shardShape scan.iter
  previous : 0 < scan.iter →
    scan.nextAddress = addStride (elementAddress compiled gridIndex shardShape (scan.iter - 1)) stride
  current : start + scan.currentCoalescingFactor = scan.iter
  factor : ∀ divisor, divisor ∣ scan.coalescingFactor ↔ divisor ∣ initial ∧
    ∀ position ≤ start, RunStart compiled gridIndex shardShape stride position → divisor ∣ position
  started : start = 0 ∨ RunStart compiled gridIndex shardShape stride start
  unbroken : ∀ position, start < position → position < scan.iter →
    ¬ RunStart compiled gridIndex shardShape stride position

theorem walked_extend (initial start : Nat) (scan : Scan) (positive : ∀ extent ∈ shardShape, 0 < extent)
    (walked : Walked compiled gridIndex shardShape stride initial start scan)
    (goesOn : ¬ RunStart compiled gridIndex shardShape stride scan.iter) :
    Walked compiled gridIndex shardShape stride initial start
      { scan with
        currentCoalescingFactor := scan.currentCoalescingFactor + 1
        nextAddress := addStride (elementAddress compiled gridIndex shardShape scan.iter) stride
        memoryIndex := (advance shardShape scan.memoryIndex).1
        iter := scan.iter + 1 } where
  index := by
    rw [walked.index, advance_delinearize shardShape positive]
    simp
  previous _ := by simp
  current := by
    have current := walked.current
    simp only
    omega
  factor := walked.factor
  started := walked.started
  unbroken position after before := by
    rcases Nat.lt_succ_iff_lt_or_eq.mp before with earlier | rfl
    · exact walked.unbroken position after earlier
    · exact goesOn

theorem walked_divides (initial start : Nat) (scan : Scan)
    (walked : Walked compiled gridIndex shardShape stride initial start scan) (divisor : Nat) :
    divisor ∣ Nat.gcd scan.coalescingFactor scan.currentCoalescingFactor ↔
      divisor ∣ initial ∧ divisor ∣ scan.iter ∧
        ∀ position < scan.iter, RunStart compiled gridIndex shardShape stride position → divisor ∣ position := by
  have ends := walked.current
  rw [Nat.dvd_gcd_iff, walked.factor]
  constructor
  · rintro ⟨⟨whole, earlier⟩, current⟩
    have startDivides : divisor ∣ start := by
      rcases walked.started with rfl | runStart
      · exact dvd_zero divisor
      · exact earlier start le_rfl runStart
    refine ⟨whole, by rw [← ends]; exact dvd_add startDivides current, fun position before runStart => ?_⟩
    by_cases inside : start < position
    · exact absurd runStart (walked.unbroken position inside before)
    · exact earlier position (by omega) runStart
  · rintro ⟨whole, iterDivides, all⟩
    have startDivides : divisor ∣ start := by
      rcases walked.started with rfl | runStart
      · exact dvd_zero divisor
      · by_cases before : start < scan.iter
        · exact all start before runStart
        · rwa [show start = scan.iter by omega]
    refine ⟨⟨whole, fun position before runStart => ?_⟩, ?_⟩
    · by_cases inside : position < scan.iter
      · exact all position inside runStart
      · rwa [show position = scan.iter by omega]
    · exact (Nat.dvd_add_right startDivides).mp (ends ▸ iterDivides)

theorem walked_close (initial start : Nat) (scan : Scan) (positive : ∀ extent ∈ shardShape, 0 < extent)
    (walked : Walked compiled gridIndex shardShape stride initial start scan)
    (breaks : RunStart compiled gridIndex shardShape stride scan.iter) :
    Walked compiled gridIndex shardShape stride initial scan.iter
      { coalescingFactor := Nat.gcd scan.coalescingFactor scan.currentCoalescingFactor
        currentCoalescingFactor := 1
        nextAddress := addStride (elementAddress compiled gridIndex shardShape scan.iter) stride
        memoryIndex := (advance shardShape scan.memoryIndex).1
        iter := scan.iter + 1 } where
  index := by
    rw [walked.index, advance_delinearize shardShape positive]
    simp
  previous _ := by simp
  current := rfl
  factor divisor := by
    rw [walked_divides compiled gridIndex shardShape stride initial start scan walked divisor]
    constructor
    · rintro ⟨whole, iterDivides, all⟩
      refine ⟨whole, fun position before runStart => ?_⟩
      rcases Nat.lt_or_eq_of_le before with earlier | rfl
      · exact all position earlier runStart
      · exact iterDivides
    · rintro ⟨whole, all⟩
      exact ⟨whole, all scan.iter le_rfl breaks, fun position before => all position before.le⟩
  started := Or.inr breaks
  unbroken position after before := by
    have after : scan.iter < position := after
    have before : position < scan.iter + 1 := before
    omega

theorem scanShard_divides (initial start remaining : Nat) (scan : Scan)
    (positive : ∀ extent ∈ shardShape, 0 < extent)
    (walked : Walked compiled gridIndex shardShape stride initial start scan) (divisor : Nat) :
    divisor ∣ Nat.gcd (scanShard compiled gridIndex shardShape stride remaining scan).coalescingFactor
        (scanShard compiled gridIndex shardShape stride remaining scan).currentCoalescingFactor ↔
      divisor ∣ initial ∧ divisor ∣ scan.iter + remaining ∧
        ∀ position < scan.iter + remaining,
          RunStart compiled gridIndex shardShape stride position → divisor ∣ position := by
  induction remaining generalizing start scan with
  | zero => exact walked_divides compiled gridIndex shardShape stride initial start scan walked divisor
  | succ remaining ih =>
      have address : compiled.evaluate (gridIndex ++ scan.memoryIndex) =
          elementAddress compiled gridIndex shardShape scan.iter := by
        rw [walked.index, elementAddress]
      have continues : (scan.iter = 0 ∨ (decide (scan.iter > 0) &&
          decide (elementAddress compiled gridIndex shardShape scan.iter = scan.nextAddress)) = true) ↔
          ¬ RunStart compiled gridIndex shardShape stride scan.iter := by
        by_cases first : scan.iter = 0
        · simp [RunStart, first]
        · have later : 0 < scan.iter := by omega
          simp [RunStart, first, later, walked.previous later]
      rw [scanShard, address]
      by_cases breaks : RunStart compiled gridIndex shardShape stride scan.iter
      · rw [if_neg fun goesOn => continues.mp goesOn breaks]
        by_cases one : Nat.gcd scan.coalescingFactor scan.currentCoalescingFactor = 1
        · have known := walked_divides compiled gridIndex shardShape stride initial start scan walked divisor
          rw [one, Nat.dvd_one] at known
          simp only [one, ↓reduceIte, Nat.gcd_one_left, Nat.dvd_one]
          constructor
          · rintro rfl
            simp
          · rintro ⟨whole, _, all⟩
            exact known.mpr ⟨whole, all scan.iter (by omega) breaks,
              fun position before => all position (by omega)⟩
        · simp only [one, ↓reduceIte]
          have next := ih scan.iter _ (walked_close compiled gridIndex shardShape stride initial start scan
            positive walked breaks)
          rw [Nat.add_right_comm] at next
          exact next
      · rw [if_pos (continues.mpr breaks)]
        have next := ih start _ (walked_extend compiled gridIndex shardShape stride initial start scan
          positive walked breaks)
        rw [Nat.add_right_comm] at next
        exact next

theorem scanGridPoint_divides (coalescingFactor divisor : Nat)
    (positive : ∀ extent ∈ shardShape, 0 < extent)
    (volumeDivides : coalescingFactor ∣ (volume shardShape).toNat) :
    divisor ∣ scanGridPoint compiled shardShape stride coalescingFactor gridIndex ↔
      divisor ∣ coalescingFactor ∧ ∀ position < (volume shardShape).toNat,
        RunStart compiled gridIndex shardShape stride position → divisor ∣ position := by
  by_cases one : coalescingFactor = 1
  · subst one
    simp only [scanGridPoint, ↓reduceIte, Nat.dvd_one]
    constructor
    · rintro rfl
      simp
    · exact And.left
  · have walked : Walked compiled gridIndex shardShape stride coalescingFactor 0
        { coalescingFactor, memoryIndex := List.replicate shardShape.length 0 } := by
      refine ⟨?_, by simp, rfl, by simp [RunStart], Or.inl rfl, by simp⟩
      exact (delinearize_zero shardShape).symm
    rw [scanGridPoint, if_neg one, scanShard_divides compiled gridIndex shardShape stride coalescingFactor 0 _ _
      positive walked divisor]
    simp only [Nat.zero_add]
    constructor
    · rintro ⟨whole, _, all⟩
      exact ⟨whole, all⟩
    · rintro ⟨whole, all⟩
      exact ⟨whole, whole.trans volumeDivides, all⟩

end Runs

theorem scanGrid_divides (compiled : CompiledAffineMap) (shardShape : List Int) (stride : Int)
    (gridIndices : List (List Int)) (coalescingFactor divisor : Nat)
    (positive : ∀ extent ∈ shardShape, 0 < extent)
    (volumeDivides : coalescingFactor ∣ (volume shardShape).toNat) :
    divisor ∣ gridIndices.foldl (scanGridPoint compiled shardShape stride) coalescingFactor ↔
      divisor ∣ coalescingFactor ∧ ∀ gridIndex ∈ gridIndices, ∀ position < (volume shardShape).toNat,
        RunStart compiled gridIndex shardShape stride position → divisor ∣ position := by
  induction gridIndices generalizing coalescingFactor with
  | nil => simp
  | cons gridIndex rest ih =>
      have here := fun divisor => scanGridPoint_divides compiled gridIndex shardShape stride coalescingFactor
        divisor positive volumeDivides
      have shrinks : scanGridPoint compiled shardShape stride coalescingFactor gridIndex ∣ coalescingFactor :=
        ((here _).mp dvd_rfl).1
      rw [List.foldl_cons, ih _ (shrinks.trans volumeDivides), here]
      simp only [List.forall_mem_cons, and_assoc]

/-- The divisors of the factor divide the shard volume and the position of every break in contiguity.
-/
theorem calculateCoalescingFactor_divides (map : AffineMap) (shape : List Int) (stride : Int)
    (numGridDims factor divisor : Nat) (pure : ∀ expr ∈ map.results, expr.divisorsPositive = true)
    (positive : ∀ extent ∈ shape.drop numGridDims, 0 < extent)
    (calculated : calculateCoalescingFactor map shape stride numGridDims = some factor) :
    divisor ∣ factor ↔
      divisor ∣ (volume (shape.drop numGridDims)).toNat ∧
      ∀ gridIndex ∈ sample (shape.take numGridDims),
        ∀ position : Nat, 0 < position → position < (volume (shape.drop numGridDims)).toNat →
          map.evaluate (gridIndex ++ delinearize (shape.drop numGridDims) position) ≠
            addStride (map.evaluate
              (gridIndex ++ delinearize (shape.drop numGridDims) (position - 1 : Nat))) stride →
          divisor ∣ position := by
  unfold calculateCoalescingFactor at calculated
  by_cases wellFormed : map.numDims = shape.length ∧ numGridDims ≤ shape.length ∧ map.numSymbols = 0
  case neg => simp [wellFormed] at calculated
  simp only [wellFormed, and_self, ↓reduceIte] at calculated
  by_cases empty : (shape.drop numGridDims).isEmpty = true
  case pos =>
    have none : shape.drop numGridDims = [] := List.isEmpty_iff.mp empty
    rw [if_pos empty, Option.some.injEq] at calculated
    subst calculated
    simp only [none, volume, List.foldl_nil]
    constructor
    · intro one
      refine ⟨one, fun _ _ position after before => ?_⟩
      have before : position < 1 := before
      omega
    · exact And.left
  case neg =>
    simp only [empty, Bool.false_eq_true, ↓reduceIte, Option.bind_eq_bind, Option.bind_eq_some_iff] at calculated
    obtain ⟨compiled, compiles, counted⟩ := calculated
    by_cases small : map.results.length ≤ kMaxResults ∧ shape.length ≤ kMaxDims
    case neg => simp [small] at counted
    simp only [small, and_self, ↓reduceIte, Option.some.injEq] at counted
    subst counted
    rw [scanGrid_divides compiled _ stride _ _ divisor positive dvd_rfl]
    simp only [RunStart, elementAddress, compiled_evaluate _ map compiled pure compiles, and_imp]
    constructor
    · rintro ⟨whole, all⟩
      exact ⟨whole, fun gridIndex member position after before => all gridIndex member position before after⟩
    · rintro ⟨whole, all⟩
      exact ⟨whole, fun gridIndex member position before after => all gridIndex member position after before⟩

end TtMlir.Dma
