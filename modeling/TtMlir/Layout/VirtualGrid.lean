import Mathlib.Data.List.GetD
import TtMlir.Library.Affine
import TtMlir.Library.Countdown
import TtMlir.Library.RowMajor

/-!
Virtual grids on physical cores: the forward map flattens a virtual grid and
unfolds it over the physical one, the inverse map goes back.
-/

namespace TtMlir.Layout

open MixedRadix RowMajor

def prependResult (map : AffineMap) (result : AffineExpr) : AffineMap :=
  { map with results := result :: map.results }

def extendWithIdentityDimsAndResults (map : AffineMap) (extraDims : Nat) : AffineMap :=
  { map with
    numDims := map.numDims + extraDims
    results := map.results ++ (List.range extraDims).map fun i => .dim (map.numDims + i) }

def linearizeStep (grid : List Int) (i : Nat) (state : AffineExpr × AffineExpr) : AffineExpr × AffineExpr :=
  (.add state.1 (.mul (.dim i) state.2), .mul state.2 (.const (grid.getD i 0)))

def expandStep (grid : List Int) (linearIdx : AffineExpr) (dim : Nat) (state : List AffineExpr × AffineExpr) :
    List AffineExpr × AffineExpr :=
  let sizeExpr : AffineExpr := .const (grid.getD dim 0)
  (.mod (.floorDiv linearIdx state.2) sizeExpr :: state.1, .mul state.2 sizeExpr)

/-- The last dim varies fastest. -/
def createCollapseMap (virtualGrid : List Int) : AffineMap :=
  let last := virtualGrid.length - 1
  let collapsed := countdown (linearizeStep virtualGrid) last (.dim last, .const (virtualGrid.getD last 0))
  { numDims := virtualGrid.length, results := [collapsed.1] }

def create1DtoNDMap (targetGrid : List Int) : AffineMap :=
  let expanded := countdown (expandStep targetGrid (.dim 0)) targetGrid.length ([], .const 1)
  { numDims := 1, results := expanded.1 }

/-- Forward and inverse map; the shard dims pass through the forward one. -/
def createCoreVirtMaps (virtualGrid targetGrid : List Int) : AffineMap × AffineMap :=
  let forwardMap := extendWithIdentityDimsAndResults
    ((create1DtoNDMap targetGrid).compose (createCollapseMap virtualGrid)) virtualGrid.length
  let inverseMap := prependResult ((create1DtoNDMap virtualGrid).compose (createCollapseMap targetGrid)) (.const 0)
  (forwardMap, inverseMap)

def requiresVirtualGrid (gridShape : List Int) (deviceGridShape : Int × Int) : Bool :=
  decide (gridShape.length ≠ 2) || decide (gridShape.getD 0 0 > deviceGridShape.1) ||
    decide (gridShape.getD 1 0 > deviceGridShape.2)

def fitsTarget (targetGridShape : Int × Int) (dimY dimX : Int) : Bool :=
  decide (dimY ≤ targetGridShape.1) && decide (dimX ≤ targetGridShape.2)

def searchFactors (gridVolume : Int) (targetGridShape : Int × Int) : Nat → Option (Int × Int)
  | 0 => none
  | i + 1 =>
      let candidateY : Int := (i : Int) + 1
      let candidateX := gridVolume / candidateY
      if gridVolume % candidateY = 0 then
        if fitsTarget targetGridShape candidateY candidateX then some (candidateY, candidateX)
        else if fitsTarget targetGridShape candidateX candidateY then some (candidateX, candidateY)
        else searchFactors gridVolume targetGridShape i
      else searchFactors gridVolume targetGridShape i

/-- Up to the square root of the volume; `none` where the source returns no grid. -/
def findLegalPhysicalGridForVolume (gridVolume : Int) (targetGridShape : Int × Int) : Option (Int × Int) :=
  searchFactors gridVolume targetGridShape (Int.sqrt gridVolume).toNat

/-- `getPhysicalGridExtent` and `collapseToPhysicalGrid2D`, which assert that there is a grid. -/
def getPhysicalGridExtent (virtualGrid : List Int) (targetGrid : Int × Int) : Option (Int × Int) :=
  findLegalPhysicalGridForVolume virtualGrid.prod targetGrid

/-- The grid dims of an ND grid become two, the shard dims stay. -/
def createNDGridCollapseMap (gridShape : List Int) (physGrid : List Int) (shardRank : Nat) : AffineMap :=
  let gridRank := gridShape.length
  let linearized := countdown (linearizeStep gridShape) gridRank (.const 0, .const 1)
  let expanded := countdown (expandStep physGrid linearized.1) 2 ([], .const 1)
  { numDims := gridRank + shardRank
    results := expanded.1 ++ (List.range shardRank).map fun i => .dim (gridRank + i) }

section Linearize
variable (grid index rest : List Int) (length : index.length = grid.length)
include length

theorem linearize_eval (bound : Nat) (inside : bound ≤ grid.length) (state : AffineExpr × AffineExpr)
    (value : state.1.eval (index ++ rest) [] = rowMajor (grid.drop bound) (index.drop bound))
    (stride : state.2.eval (index ++ rest) [] = (grid.drop bound).prod) :
    (countdown (linearizeStep grid) bound state).1.eval (index ++ rest) [] = rowMajor grid index := by
  have reached := @countdown_invariant _ (linearizeStep grid) bound state
    (fun i current => current.1.eval (index ++ rest) [] = rowMajor (grid.drop i) (index.drop i) ∧
      current.2.eval (index ++ rest) [] = (grid.drop i).prod)
    ⟨value, stride⟩ (by
      rintro i below before ⟨sum, product⟩
      have known : i < grid.length := Nat.lt_of_lt_of_le below inside
      have digit := List.getD_append index rest 0 i (length ▸ known)
      rw [drop_eq_cons grid i known, drop_eq_cons index i (length ▸ known), rowMajor, List.prod_cons]
      simp only [linearizeStep, AffineExpr.eval, digit, sum, product]
      constructor
      · exact add_comm _ _
      · exact mul_comm _ _)
  exact reached.1

end Linearize

theorem expand_eval (grid dims : List Int) (linearIdx : AffineExpr) :
    (countdown (expandStep grid linearIdx) grid.length ([], .const 1)).1.map (·.eval dims []) =
      delinearize grid (linearIdx.eval dims []) := by
  have reached := @countdown_invariant _ (expandStep grid linearIdx) grid.length ([], .const 1)
    (fun i current => current.1.map (·.eval dims []) = delinearize (grid.drop i) (linearIdx.eval dims []) ∧
      current.2.eval dims [] = (grid.drop i).prod)
    (by simp [delinearize, AffineExpr.eval]) (by
      rintro i below before ⟨digits, product⟩
      rw [drop_eq_cons grid i below, delinearize, List.prod_cons]
      simp only [expandStep, List.map_cons, AffineExpr.eval, digits, product, true_and]
      exact mul_comm _ _)
  exact reached.1

theorem createCollapseMap_evaluate (grid index rest : List Int) (nonempty : grid ≠ [])
    (length : index.length = grid.length) :
    (createCollapseMap grid).evaluate (index ++ rest) = [rowMajor grid index] := by
  have last : grid.length - 1 < grid.length := Nat.sub_lt (List.length_pos_iff.mpr nonempty) Nat.one_pos
  have beyond : grid.length - 1 + 1 = grid.length := by omega
  have value := linearize_eval grid index rest length (grid.length - 1) last.le
    (.dim (grid.length - 1), .const (grid.getD (grid.length - 1) 0)) (by
      rw [drop_eq_cons grid _ last, drop_eq_cons index _ (length ▸ last), beyond, List.drop_length,
        List.drop_of_length_le length.le]
      have digit := List.getD_append index rest 0 (grid.length - 1) (by rw [length]; exact last)
      simp only [AffineExpr.eval, rowMajor, List.prod_nil, mul_one, add_zero, digit]) (by
      rw [drop_eq_cons grid _ last, beyond, List.drop_length]
      simp only [AffineExpr.eval, List.prod_cons, List.prod_nil, mul_one])
  simp only [AffineMap.evaluate, createCollapseMap, List.map_cons, List.map_nil, value]

theorem create1DtoNDMap_evaluate (grid : List Int) (flat : Int) :
    (create1DtoNDMap grid).evaluate [flat] = delinearize grid flat :=
  expand_eval grid [flat] (.dim 0)

theorem evaluate_appended (results : List AffineExpr) (index shard : List Int) :
    (results ++ (List.range shard.length).map fun i => AffineExpr.dim (index.length + i)).map
      (·.eval (index ++ shard) []) = results.map (·.eval (index ++ shard) []) ++ shard := by
  rw [List.map_append, List.map_map]
  congr 1
  apply List.ext_getElem (by simp)
  intro position inside _
  have bound : position < shard.length := by simpa using inside
  simp [AffineExpr.eval, bound]

section CoreVirtMaps
variable (virtualGrid physicalGrid index : List Int) (length : index.length = virtualGrid.length)
include length

theorem forward_evaluate (shard : List Int) (nonempty : virtualGrid ≠ []) (rank : shard.length = virtualGrid.length) :
    (createCoreVirtMaps virtualGrid physicalGrid).1.evaluate (index ++ shard) =
      reshape virtualGrid physicalGrid index ++ shard := by
  have appended := evaluate_appended
    ((create1DtoNDMap physicalGrid).compose (createCollapseMap virtualGrid)).results index shard
  rw [rank, length] at appended
  refine appended.trans (congrArg (· ++ shard) ?_)
  change ((create1DtoNDMap physicalGrid).compose (createCollapseMap virtualGrid)).evaluate (index ++ shard) = _
  rw [AffineMap.evaluate_compose, createCollapseMap_evaluate virtualGrid index shard nonempty length,
    create1DtoNDMap_evaluate]
  rfl

end CoreVirtMaps

theorem inverse_evaluate (virtualGrid physicalGrid core : List Int) (nonempty : physicalGrid ≠ [])
    (length : core.length = physicalGrid.length) :
    (createCoreVirtMaps virtualGrid physicalGrid).2.evaluate core =
      0 :: reshape physicalGrid virtualGrid core := by
  have collapsed := createCollapseMap_evaluate physicalGrid core [] nonempty length
  rw [List.append_nil] at collapsed
  have composed : ((create1DtoNDMap virtualGrid).compose (createCollapseMap physicalGrid)).evaluate core =
      reshape physicalGrid virtualGrid core := by
    rw [AffineMap.evaluate_compose, collapsed, create1DtoNDMap_evaluate]
    rfl
  exact congrArg (0 :: ·) composed

theorem createNDGridCollapseMap_evaluate (gridShape index shard : List Int) (height width : Int)
    (length : index.length = gridShape.length) :
    (createNDGridCollapseMap gridShape [height, width] shard.length).evaluate (index ++ shard) =
      reshape gridShape [height, width] index ++ shard := by
  have linear := linearize_eval gridShape index shard length gridShape.length (Nat.le_refl _) (.const 0, .const 1)
    (by rw [List.drop_length, List.drop_of_length_le length.le]; rfl) (by rw [List.drop_length]; rfl)
  have appended := evaluate_appended (countdown (expandStep [height, width]
    (countdown (linearizeStep gridShape) gridShape.length (.const 0, .const 1)).1) 2 ([], .const 1)).1 index shard
  rw [length] at appended
  refine appended.trans (congrArg (· ++ shard) ?_)
  refine (expand_eval [height, width] (index ++ shard) _).trans ?_
  rw [linear]
  rfl

def LegalGrid (gridVolume : Int) (targetGridShape grid : Int × Int) : Prop :=
  0 < grid.1 ∧ 0 < grid.2 ∧ grid.1 * grid.2 = gridVolume ∧ grid.1 ≤ targetGridShape.1 ∧ grid.2 ≤ targetGridShape.2

theorem searchFactors_legal (gridVolume : Int) (target grid : Int × Int) (positive : 0 < gridVolume) (bound : Nat)
    (found : searchFactors gridVolume target bound = some grid) : LegalGrid gridVolume target grid := by
  induction bound with
  | zero => cases found
  | succ i ih =>
      simp only [searchFactors] at found
      split at found
      · rename_i divides
        have split := Int.mul_ediv_cancel' (Int.dvd_of_emod_eq_zero divides)
        have quotient : 0 < gridVolume / ((i : Int) + 1) := by
          by_contra nonpositive
          have := Int.mul_nonpos_of_nonneg_of_nonpos (a := (i : Int) + 1) (by omega) (not_lt.mp nonpositive)
          omega
        split at found
        · rename_i fits
          cases found
          simp only [fitsTarget, Bool.and_eq_true, decide_eq_true_eq] at fits
          exact ⟨by omega, quotient, split, fits⟩
        · split at found
          · rename_i fits
            cases found
            simp only [fitsTarget, Bool.and_eq_true, decide_eq_true_eq] at fits
            exact ⟨quotient, by omega, (mul_comm _ _).trans split, fits⟩
          · exact ih found
      · exact ih found

theorem searchFactors_complete (gridVolume : Int) (target : Int × Int) (small large : Int) (positive : 0 < small)
    (factors : small * large = gridVolume)
    (fits : fitsTarget target small large = true ∨ fitsTarget target large small = true) (bound : Nat)
    (inside : small ≤ bound) : (searchFactors gridVolume target bound).isSome = true := by
  induction bound with
  | zero => omega
  | succ i ih =>
      simp only [searchFactors]
      by_cases here : small = (i : Int) + 1
      · have divides : gridVolume % ((i : Int) + 1) = 0 := by
          rw [← factors, here]
          exact Int.mul_emod_right _ _
        have quotient : gridVolume / ((i : Int) + 1) = large := by
          rw [← factors, here]
          exact Int.mul_ediv_cancel_left _ (by omega)
        rw [if_pos divides, quotient, ← here]
        rcases fits with upright | swapped
        · rw [if_pos upright]
          rfl
        · rw [if_pos swapped]
          split <;> rfl
      · have below := ih (by omega)
        split
        · split
          · rfl
          · split
            · rfl
            · exact below
        · exact below

theorem findLegalPhysicalGridForVolume_isSome (gridVolume : Int) (target : Int × Int) (positive : 0 < gridVolume) :
    (findLegalPhysicalGridForVolume gridVolume target).isSome = true ↔ ∃ grid, LegalGrid gridVolume target grid := by
  constructor
  · intro found
    obtain ⟨grid, isFound⟩ := Option.isSome_iff_exists.mp found
    exact ⟨grid, searchFactors_legal gridVolume target grid positive _ isFound⟩
  · rintro ⟨⟨height, width⟩, heightPos, widthPos, volume, fitsY, fitsX⟩
    have fits : fitsTarget target height width = true := by simp [fitsTarget, fitsY, fitsX]
    -- the smaller factor is at most the root
    have root (small large : Int) (smallPos : 0 < small) (ordered : small ≤ large)
        (factors : small * large = gridVolume) : small ≤ ((Int.sqrt gridVolume).toNat : Int) := by
      have squares : small.toNat * small.toNat ≤ gridVolume.toNat := by
        have product := Int.mul_le_mul_of_nonneg_left ordered smallPos.le
        have square : ((small.toNat * small.toNat : Nat) : Int) = small * small := by
          rw [Nat.cast_mul, Int.toNat_of_nonneg smallPos.le]
        omega
      have bound := Nat.le_sqrt.mpr squares
      simp only [Int.sqrt, Int.toNat_natCast]
      omega
    rcases le_total height width with tall | wide
    · exact searchFactors_complete gridVolume target height width heightPos volume (Or.inl fits) _
        (root height width heightPos tall volume)
    · exact searchFactors_complete gridVolume target width height widthPos ((mul_comm _ _).trans volume) (Or.inr fits) _
        (root width height widthPos wide ((mul_comm _ _).trans volume))

def toPhysicalCore (virtualGrid physicalGrid shard index : List Int) : List Int :=
  ((createCoreVirtMaps virtualGrid physicalGrid).1.evaluate (index ++ shard)).take physicalGrid.length

/-- The virtual index of a core: the inverse map without its device result. -/
def toVirtualIndex (virtualGrid physicalGrid core : List Int) : List Int :=
  ((createCoreVirtMaps virtualGrid physicalGrid).2.evaluate core).tail

/-- The two maps are inverse bijections between the boxes and keep the order of flat indices. -/
structure RoundTrips (virtualGrid physicalGrid : List Int) : Prop where
  forward : ∀ index shard, Within virtualGrid index → shard.length = virtualGrid.length →
    (createCoreVirtMaps virtualGrid physicalGrid).1.evaluate (index ++ shard) =
      toPhysicalCore virtualGrid physicalGrid shard index ++ shard
  inverse : ∀ core, Within physicalGrid core →
    (createCoreVirtMaps virtualGrid physicalGrid).2.evaluate core = 0 :: toVirtualIndex virtualGrid physicalGrid core
  collapse : ∀ index shard, Within virtualGrid index → shard.length = virtualGrid.length →
    (createNDGridCollapseMap virtualGrid physicalGrid shard.length).evaluate (index ++ shard) =
      toPhysicalCore virtualGrid physicalGrid shard index ++ shard
  bijection : ∀ shard, shard.length = virtualGrid.length →
    Set.BijOn (toPhysicalCore virtualGrid physicalGrid shard) {index | Within virtualGrid index}
      {core | Within physicalGrid core}
  inverse_forward : ∀ index shard, Within virtualGrid index → shard.length = virtualGrid.length →
    toVirtualIndex virtualGrid physicalGrid (toPhysicalCore virtualGrid physicalGrid shard index) = index
  forward_inverse : ∀ core shard, Within physicalGrid core → shard.length = virtualGrid.length →
    Within virtualGrid (toVirtualIndex virtualGrid physicalGrid core) ∧
      toPhysicalCore virtualGrid physicalGrid shard (toVirtualIndex virtualGrid physicalGrid core) = core
  order : ∀ index shard, Within virtualGrid index → shard.length = virtualGrid.length →
    rowMajor physicalGrid (toPhysicalCore virtualGrid physicalGrid shard index) = rowMajor virtualGrid index

theorem roundTrips (virtualGrid : List Int) (height width : Int) (nonempty : virtualGrid ≠ [])
    (positive : ∀ extent ∈ virtualGrid, 0 < extent) (heightPos : 0 < height) (widthPos : 0 < width)
    (volume : height * width = virtualGrid.prod) : RoundTrips virtualGrid [height, width] := by
  have physicalPositive : ∀ extent ∈ [height, width], 0 < extent := by
    intro extent member
    simp only [List.mem_cons, List.not_mem_nil, or_false] at member
    rcases member with rfl | rfl
    · exact heightPos
    · exact widthPos
  have volumes : virtualGrid.prod = [height, width].prod := by
    rw [List.prod_cons, List.prod_cons, List.prod_nil, mul_one, volume]
  have cores (index shard : List Int) (length : index.length = virtualGrid.length)
      (rank : shard.length = virtualGrid.length) :
      toPhysicalCore virtualGrid [height, width] shard index = reshape virtualGrid [height, width] index := by
    rw [toPhysicalCore, forward_evaluate virtualGrid _ index length shard nonempty rank]
    rfl
  have indices (core : List Int) (within : Within [height, width] core) :
      toVirtualIndex virtualGrid [height, width] core = reshape [height, width] virtualGrid core := by
    rw [toVirtualIndex, inverse_evaluate virtualGrid _ core (List.cons_ne_nil _ _) (within_length _ _ within)]
    rfl
  have inside (core : List Int) : Within virtualGrid (reshape [height, width] virtualGrid core) :=
    reshape_within _ _ positive core
  constructor
  · intro index shard within rank
    have length := within_length _ _ within
    rw [cores index shard length rank, forward_evaluate virtualGrid _ index length shard nonempty rank]
  · intro core within
    rw [indices core within,
      inverse_evaluate virtualGrid _ core (List.cons_ne_nil _ _) (within_length _ _ within)]
  · intro index shard within rank
    have length := within_length _ _ within
    rw [cores index shard length rank, createNDGridCollapseMap_evaluate virtualGrid index shard height width length]
  · intro shard rank
    refine (reshape_bijOn virtualGrid [height, width] positive physicalPositive volumes).congr ?_
    intro index within
    exact (cores index shard (within_length _ _ within) rank).symm
  · intro index shard within rank
    rw [cores index shard (within_length _ _ within) rank,
      indices _ (reshape_within _ _ physicalPositive index),
      reshape_reshape virtualGrid [height, width] physicalPositive volumes index within]
  · intro core shard within rank
    rw [indices core within]
    refine ⟨inside core, ?_⟩
    rw [cores _ shard (within_length _ _ (inside core)) rank,
      reshape_reshape [height, width] virtualGrid positive volumes.symm core within]
  · intro index shard within rank
    rw [cores index shard (within_length _ _ within) rank,
      rowMajor_reshape virtualGrid [height, width] physicalPositive volumes index within]

/-- A physical grid is found exactly when there is one, and its maps round-trip. -/
theorem virtualGrid_roundTrips (virtualGrid : List Int) (deviceGrid : Int × Int) (rank : 2 ≤ virtualGrid.length)
    (positive : ∀ extent ∈ virtualGrid, 0 < extent) :
    ((getPhysicalGridExtent virtualGrid deviceGrid).isSome = true ↔
      ∃ grid, LegalGrid virtualGrid.prod deviceGrid grid) ∧
    ∀ height width, getPhysicalGridExtent virtualGrid deviceGrid = some (height, width) →
      LegalGrid virtualGrid.prod deviceGrid (height, width) ∧ RoundTrips virtualGrid [height, width] := by
  have volumePos := prod_pos virtualGrid positive
  have nonempty : virtualGrid ≠ [] := List.length_pos_iff.mp (by omega)
  constructor
  · exact findLegalPhysicalGridForVolume_isSome virtualGrid.prod deviceGrid volumePos
  · intro height width found
    have legal := searchFactors_legal virtualGrid.prod deviceGrid (height, width) volumePos _ found
    exact ⟨legal, roundTrips virtualGrid height width nonempty positive legal.1 legal.2.1 legal.2.2.1⟩

/-- 3 x 2 x 4 virtual cores take 4 x 6 physical ones. -/
theorem virtualGrid_roundTrips_fourBySix : getPhysicalGridExtent [3, 2, 4] (8, 8) = some (4, 6) ∧
    LegalGrid 24 (8, 8) (4, 6) ∧ RoundTrips [3, 2, 4] [4, 6] := by
  have found : getPhysicalGridExtent [3, 2, 4] (8, 8) = some (4, 6) := by with_unfolding_all decide
  exact ⟨found, (virtualGrid_roundTrips [3, 2, 4] (8, 8) (by decide) (by decide)).2 4 6 found⟩

end TtMlir.Layout
