import TtMlir.Layout.VirtualGrid

/-!
The virtual grid of a sharded tensor: for ranks other than two the largest grid that
divides the shape and has a physical grid, found by a search over the factors of
every dim; for rank two a height or width sharding. Quotients are exact.
-/

namespace TtMlir.Layout

def getFactors (value : Int) : List Int :=
  let value : Int := value.natAbs
  if value = 1 then [1]
  else
    let limit := (Int.sqrt value).toNat
    let lowFactors := ((List.range limit).reverse.map fun i : Nat => (i : Int) + 1).filter fun i => value % i = 0
    let highFactors := lowFactors.map fun i => value / i
    lowFactors.reverse ++ highFactors

abbrev BestGrid := List Int × Int

def enumerateGrids (targetGridVolume : Int) (isLegalVolume : Int → Bool) :
    List (List Int) → List Int → Int → BestGrid → BestGrid
  | [], candidateGrid, currentVolume, best =>
      if currentVolume > targetGridVolume then best
      else if currentVolume > best.2 ∧ isLegalVolume currentVolume = true then (candidateGrid, currentVolume)
      else best
  | factors :: rest, candidateGrid, currentVolume, best =>
      if currentVolume > targetGridVolume then best
      else factors.foldl (fun best factor =>
        enumerateGrids targetGridVolume isLegalVolume rest (candidateGrid ++ [factor]) (currentVolume * factor) best) best

/-- The dim whose ratio to the product of the others is largest and above one, or dim 0. -/
def findShardedDimIndex (physicalShape : List Int) : Nat :=
  let ratio := fun i : Nat => (List.range physicalShape.length).foldl
    (fun ratio j => if i = j then ratio else ratio / (physicalShape.getD j 0 : ℚ)) (physicalShape.getD i 0 : ℚ)
  ((List.range physicalShape.length).foldl
    (fun (best : ℚ × Nat) i => if ratio i > best.1 then (ratio i, i) else best) (1, 0)).2

/-- The first two dims of the target are the physical grid; the source asserts that there are
two and that they are positive. -/
def targetCores (targetGrid : List Int) : Int × Int := (targetGrid.getD 0 0, targetGrid.getD 1 0)

def isLegalVolume (targetGrid : List Int) (gridVolume : Int) : Bool :=
  (findLegalPhysicalGridForVolume gridVolume (targetCores targetGrid)).isSome

/-- An empty grid says that a height or width sharding would use too few cores. -/
def computeOptimalVirtualGrid (physicalShape targetGrid : List Int) : List Int :=
  let targetGridVolume := targetGrid.prod
  if physicalShape.length ≠ 2 then
    (enumerateGrids targetGridVolume (isLegalVolume targetGrid) (physicalShape.map getFactors) [] 1 ([0], 0)).1
  else
    let shardedDimIndex := findShardedDimIndex physicalShape
    let factors := getFactors (physicalShape.getD shardedDimIndex 0)
    let bestFactor := (factors.reverse.find? fun factor =>
      decide (factor ≤ targetGridVolume) && isLegalVolume targetGrid factor).getD 0
    if bestFactor = 0 ∨ bestFactor ≤ targetGridVolume / 4 then []
    else (List.range physicalShape.length).map fun i => if i = shardedDimIndex then bestFactor else 1

section Factors
variable (value : Int) (positive : 0 < value)
include positive

def lowFactors (value : Int) : List Int :=
  ((List.range (Int.sqrt value).toNat).reverse.map fun i : Nat => (i : Int) + 1).filter fun i => value % i = 0

omit positive in
theorem mem_lowFactors (factor : Int) :
    factor ∈ lowFactors value ↔ 0 < factor ∧ factor ≤ Int.sqrt value ∧ factor ∣ value := by
  have root : 0 ≤ Int.sqrt value := Int.natCast_nonneg _
  simp only [lowFactors, List.mem_filter, List.mem_map, List.mem_reverse, List.mem_range, decide_eq_true_eq,
    Int.dvd_iff_emod_eq_zero]
  constructor
  · rintro ⟨⟨i, below, rfl⟩, divides⟩
    exact ⟨by omega, by omega, divides⟩
  · rintro ⟨low, high, divides⟩
    exact ⟨⟨(factor - 1).toNat, by omega, by omega⟩, divides⟩

omit positive in
theorem lowFactors_descending : (lowFactors value).Pairwise fun a b => b < a := by
  refine List.Pairwise.filter _ (List.pairwise_map.mpr (List.pairwise_reverse.mpr ?_))
  exact List.pairwise_lt_range.imp fun below => by omega

theorem getFactors_eq : getFactors value =
    if value = 1 then [1] else (lowFactors value).reverse ++ (lowFactors value).map fun i => value / i := by
  have same : (value.natAbs : Int) = value := Int.natAbs_of_nonneg positive.le
  simp only [getFactors, same]
  rfl

theorem sqrt_square : Int.sqrt value * Int.sqrt value ≤ value ∧ value < (Int.sqrt value + 1) * (Int.sqrt value + 1) := by
  obtain ⟨nat, rfl⟩ := Int.eq_ofNat_of_zero_le positive.le
  simp only [Int.sqrt, Int.toNat_natCast]
  exact ⟨by exact_mod_cast Nat.sqrt_le nat, by exact_mod_cast Nat.lt_succ_sqrt nat⟩

theorem mem_getFactors (factor : Int) : factor ∈ getFactors value ↔ 0 < factor ∧ factor ∣ value := by
  rw [getFactors_eq value positive]
  split
  · rename_i one
    rw [one, List.mem_singleton]
    constructor
    · rintro rfl
      exact ⟨Int.one_pos, dvd_refl 1⟩
    · rintro ⟨factorPos, divides⟩
      exact le_antisymm (Int.le_of_dvd Int.one_pos divides) factorPos
  · rw [List.mem_append, List.mem_reverse, List.mem_map]
    constructor
    · rintro (low | ⟨low, member, rfl⟩)
      · obtain ⟨factorPos, _, divides⟩ := (mem_lowFactors value factor).mp low
        exact ⟨factorPos, divides⟩
      · obtain ⟨lowPos, _, divides⟩ := (mem_lowFactors value low).mp member
        exact ⟨Int.ediv_pos_of_pos_of_dvd positive lowPos.le divides, Int.ediv_dvd_of_dvd divides⟩
    · rintro ⟨factorPos, divides⟩
      by_cases small : factor ≤ Int.sqrt value
      · exact Or.inl ((mem_lowFactors value factor).mpr ⟨factorPos, small, divides⟩)
      · -- the other factor lies below the root
        have other := Int.ediv_pos_of_pos_of_dvd positive factorPos.le divides
        have product := Int.mul_ediv_cancel' divides
        have below : value / factor ≤ Int.sqrt value := by
          by_contra large
          have root : 0 ≤ Int.sqrt value := Int.natCast_nonneg _
          have := Int.mul_le_mul (show Int.sqrt value + 1 ≤ factor by omega)
            (show Int.sqrt value + 1 ≤ value / factor by omega) (by omega) factorPos.le
          have := (sqrt_square value positive).2
          omega
        refine Or.inr ⟨value / factor, (mem_lowFactors value _).mpr ⟨other, below, Int.ediv_dvd_of_dvd divides⟩, ?_⟩
        exact Int.ediv_eq_of_eq_mul_left other.ne' product.symm

theorem getFactors_ascending : (getFactors value).Pairwise fun a b => a ≤ b := by
  rw [getFactors_eq value positive]
  split
  · exact List.pairwise_singleton _ _
  · refine List.pairwise_append.mpr ⟨?_, ?_, ?_⟩
    · exact List.pairwise_reverse.mpr ((lowFactors_descending value).imp fun below => below.le)
    · refine List.pairwise_map.mpr ((lowFactors_descending value).imp_of_mem fun {a b} aIn bIn below => ?_)
      obtain ⟨aPos, _, _⟩ := (mem_lowFactors value a).mp aIn
      obtain ⟨bPos, _, _⟩ := (mem_lowFactors value b).mp bIn
      apply Int.le_ediv_of_mul_le bPos
      calc value / a * b ≤ value / a * a := Int.mul_le_mul_of_nonneg_left below.le (Int.ediv_nonneg positive.le aPos.le)
        _ ≤ value := Int.ediv_mul_le value aPos.ne'
    · intro low inLow high inHigh
      obtain ⟨_, lowRoot, _⟩ := (mem_lowFactors value low).mp (List.mem_reverse.mp inLow)
      obtain ⟨other, inOther, rfl⟩ := List.mem_map.mp inHigh
      obtain ⟨otherPos, otherRoot, _⟩ := (mem_lowFactors value other).mp inOther
      apply Int.le_ediv_of_mul_le otherPos
      calc low * other ≤ Int.sqrt value * Int.sqrt value :=
            Int.mul_le_mul lowRoot otherRoot otherPos.le (Int.natCast_nonneg _)
        _ ≤ value := (sqrt_square value positive).1

end Factors

def Chosen (grid : List Int) (factors : List (List Int)) : Prop := List.Forall₂ (fun factor list => factor ∈ list) grid factors

/-- What the search of a subtree makes of the best grid: it only grows, and reaches the volume of
every legal grid of the subtree. -/
structure Improves (targetGridVolume : Int) (isLegalVolume : Int → Bool) (factors : List (List Int))
    (candidateGrid : List Int) (currentVolume : Int) (best after : BestGrid) : Prop where
  grows : best.2 ≤ after.2
  covers : ∀ grid, Chosen grid factors → currentVolume * grid.prod ≤ targetGridVolume →
    isLegalVolume (currentVolume * grid.prod) = true → currentVolume * grid.prod ≤ after.2
  source : after = best ∨ ∃ grid, Chosen grid factors ∧ currentVolume * grid.prod ≤ targetGridVolume ∧
    isLegalVolume (currentVolume * grid.prod) = true ∧ after = (candidateGrid ++ grid, currentVolume * grid.prod)

theorem chosen_prod_pos (grid : List Int) (factors : List (List Int)) (chosen : Chosen grid factors)
    (positive : ∀ list ∈ factors, ∀ factor ∈ list, 0 < factor) : 0 < grid.prod := by
  induction chosen with
  | nil => exact Int.one_pos
  | cons member _ ih =>
      rw [List.prod_cons]
      exact Int.mul_pos (positive _ List.mem_cons_self _ member)
        (ih fun list inList => positive list (List.mem_cons_of_mem _ inList))

section Search
variable (targetGridVolume : Int) (isLegalVolume : Int → Bool)

theorem foldl_improves (rest : List (List Int)) (candidateGrid : List Int) (currentVolume : Int)
    (subtree : Int → BestGrid → BestGrid) (factors : List Int)
    (searches : ∀ factor ∈ factors, ∀ best, Improves targetGridVolume isLegalVolume rest (candidateGrid ++ [factor])
      (currentVolume * factor) best (subtree factor best)) (best : BestGrid) :
    Improves targetGridVolume isLegalVolume (factors :: rest) candidateGrid currentVolume best
      (factors.foldl (fun best factor => subtree factor best) best) := by
  induction factors generalizing best with
  | nil =>
      refine ⟨le_rfl, ?_, Or.inl rfl⟩
      rintro grid (_ | ⟨member, _⟩)
      exact absurd member List.not_mem_nil
  | cons factor others ih =>
      have first := searches factor List.mem_cons_self best
      have later := ih (fun other member => searches other (List.mem_cons_of_mem _ member)) (subtree factor best)
      rw [List.foldl_cons]
      refine ⟨first.grows.trans later.grows, ?_, ?_⟩
      · rintro grid (_ | ⟨member, chosen⟩) within legal
        rename_i choice tail
        rw [List.prod_cons, ← mul_assoc] at within legal ⊢
        rcases List.mem_cons.mp member with rfl | inOthers
        · exact (first.covers tail chosen within legal).trans later.grows
        · have covered := later.covers (choice :: tail) (.cons inOthers chosen)
          rw [List.prod_cons, ← mul_assoc] at covered
          exact covered within legal
      · rcases later.source with unchanged | ⟨grid, chosen, within, legal, after⟩
        · rw [unchanged]
          rcases first.source with kept | ⟨grid, chosen, within, legal, after⟩
          · exact Or.inl kept
          · refine Or.inr ⟨factor :: grid, .cons List.mem_cons_self chosen, ?_⟩
            rw [List.prod_cons, ← mul_assoc]
            exact ⟨within, legal, by rw [after, List.append_assoc]; rfl⟩
        · cases chosen with
          | cons inOthers tail =>
              exact Or.inr ⟨_, .cons (List.mem_cons_of_mem _ inOthers) tail, within, legal, after⟩

theorem enumerateGrids_improves (factors : List (List Int)) (positive : ∀ list ∈ factors, ∀ factor ∈ list, 0 < factor)
    (candidateGrid : List Int) (currentVolume : Int) (volumePos : 0 < currentVolume) (best : BestGrid) :
    Improves targetGridVolume isLegalVolume factors candidateGrid currentVolume best
      (enumerateGrids targetGridVolume isLegalVolume factors candidateGrid currentVolume best) := by
  induction factors generalizing candidateGrid currentVolume best with
  | nil =>
      rw [enumerateGrids]
      split
      · rename_i large
        refine ⟨le_rfl, ?_, Or.inl rfl⟩
        rintro grid ⟨⟩ within
        rw [List.prod_nil, mul_one] at within
        omega
      · rename_i fits
        split
        · rename_i better
          refine ⟨better.1.le, ?_, Or.inr ⟨[], .nil, ?_⟩⟩
          · rintro grid ⟨⟩ _ _
            rw [List.prod_nil, mul_one]
          · rw [List.prod_nil, mul_one, List.append_nil]
            exact ⟨not_lt.mp fits, better.2, rfl⟩
        · rename_i worse
          refine ⟨le_rfl, ?_, Or.inl rfl⟩
          rintro grid ⟨⟩ _ legal
          rw [List.prod_nil, mul_one] at legal ⊢
          by_contra larger
          exact worse ⟨not_le.mp larger, legal⟩
  | cons list rest ih =>
      rw [enumerateGrids]
      split
      · rename_i large
        refine ⟨le_rfl, fun grid chosen within => ?_, Or.inl rfl⟩
        have atLeast : currentVolume * 1 ≤ currentVolume * grid.prod :=
          Int.mul_le_mul_of_nonneg_left (chosen_prod_pos grid _ chosen positive) volumePos.le
        omega
      · refine foldl_improves targetGridVolume isLegalVolume rest candidateGrid currentVolume
          (fun factor best => enumerateGrids targetGridVolume isLegalVolume rest (candidateGrid ++ [factor])
            (currentVolume * factor) best) list (fun factor member best => ?_) best
        exact ih (fun other inRest => positive other (List.mem_cons_of_mem _ inRest)) _ _
          (Int.mul_pos volumePos (positive list List.mem_cons_self factor member)) best

end Search

def Divides (grid shape : List Int) : Prop := List.Forall₂ (fun factor dim => 0 < factor ∧ factor ∣ dim) grid shape

/-- There is a physical grid of that volume on the device grid. -/
def Realisable (targetGrid : List Int) (gridVolume : Int) : Prop :=
  ∃ physicalGrid, LegalGrid gridVolume (targetCores targetGrid) physicalGrid

/-- No realisable grid that divides the shape has a larger volume. -/
structure MaximalGrid (shape targetGrid grid : List Int) : Prop where
  divides : Divides grid shape
  realisable : Realisable targetGrid grid.prod
  withinTarget : grid.prod ≤ targetGrid.prod
  maximal : ∀ other, Divides other shape → Realisable targetGrid other.prod → other.prod ≤ grid.prod

structure LargestFactor (targetGrid : List Int) (dim factor : Int) : Prop where
  positive : 0 < factor
  divides : factor ∣ dim
  realisable : Realisable targetGrid factor
  largest : ∀ other, 0 < other → other ∣ dim → Realisable targetGrid other → other ≤ factor

/-- The longer side is cut by its largest factor, unless that is a quarter of the target or less. -/
def SideGrid (targetGrid : List Int) (height width : Int) (grid : List Int) : Prop :=
  ∃ factor, LargestFactor targetGrid (max height width) factor ∧
    grid = if factor ≤ targetGrid.prod / 4 then [] else if width ≤ height then [factor, 1] else [1, factor]

theorem chosen_iff_divides (grid shape : List Int) (positive : ∀ dim ∈ shape, 0 < dim) :
    Chosen grid (shape.map getFactors) ↔ Divides grid shape := by
  rw [Chosen, Divides, List.forall₂_map_right_iff]
  constructor
  · intro chosen
    induction chosen with
    | nil => exact .nil
    | cons member _ ih =>
        have dimPos := positive _ List.mem_cons_self
        exact .cons ((mem_getFactors _ dimPos _).mp member)
          (ih fun dim inRest => positive dim (List.mem_cons_of_mem _ inRest))
  · intro divides
    induction divides with
    | nil => exact .nil
    | cons factor _ ih =>
        have dimPos := positive _ List.mem_cons_self
        exact .cons ((mem_getFactors _ dimPos _).mpr factor)
          (ih fun dim inRest => positive dim (List.mem_cons_of_mem _ inRest))

theorem findShardedDimIndex_two (height width : Int) (heightPos : 0 < height) (widthPos : 0 < width) :
    findShardedDimIndex [height, width] = if width ≤ height then 0 else 1 := by
  have high : (0 : ℚ) < height := by exact_mod_cast heightPos
  have wide : (0 : ℚ) < width := by exact_mod_cast widthPos
  have tall : (1 : ℚ) < height / width ↔ width < height := by
    rw [lt_div_iff₀ wide, one_mul]
    exact Int.cast_lt
  have broad : (1 : ℚ) < width / height ↔ height < width := by
    rw [lt_div_iff₀ high, one_mul]
    exact Int.cast_lt
  simp only [findShardedDimIndex, List.length_cons, List.length_nil, List.range_succ, List.range_zero, List.nil_append,
    List.foldl_append, List.foldl_cons, List.foldl_nil, List.getD_cons_zero, List.getD_cons_succ, zero_add, reduceIte,
    one_ne_zero, zero_ne_one, gt_iff_lt, tall]
  by_cases taller : width < height
  · -- the second ratio is below one
    have small : ¬ (1 : ℚ) < width / height := fun above => absurd (broad.mp above) (by omega)
    have less : ¬ (height : ℚ) / width < width / height :=
      fun under => small (lt_trans (tall.mpr taller) under)
    simp only [if_pos taller, if_neg less, if_pos taller.le]
  · simp only [if_neg taller, broad]
    by_cases wider : height < width
    · rw [if_pos wider, if_neg (by omega)]
    · rw [if_neg wider, if_pos (by omega)]

theorem isLegalVolume_iff (targetGrid : List Int) (gridVolume : Int) (positive : 0 < gridVolume) :
    isLegalVolume targetGrid gridVolume = true ↔ Realisable targetGrid gridVolume :=
  findLegalPhysicalGridForVolume_isSome gridVolume (targetCores targetGrid) positive

section Optimal
variable (targetGrid : List Int) (ranked : 2 ≤ targetGrid.length) (targetPos : ∀ dim ∈ targetGrid, 0 < dim)
include ranked targetPos

theorem realisable_one : Realisable targetGrid 1 := by
  match targetGrid, ranked with
  | height :: width :: _, _ =>
      exact ⟨(1, 1), Int.one_pos, Int.one_pos, rfl, targetPos height (by simp), targetPos width (by simp)⟩

theorem realisable_le (gridVolume : Int) (realisable : Realisable targetGrid gridVolume) :
    gridVolume ≤ targetGrid.prod := by
  obtain ⟨⟨y, x⟩, yPos, xPos, rfl, yFits, xFits⟩ := realisable
  match targetGrid, ranked with
  | height :: width :: rest, _ =>
      have heightPos := targetPos height (by simp)
      have widthPos := targetPos width (by simp)
      have restPos : 0 < rest.prod := MixedRadix.prod_pos rest fun dim member => targetPos dim (by simp [member])
      change y ≤ height at yFits
      change x ≤ width at xFits
      rw [List.prod_cons, List.prod_cons]
      calc y * x ≤ height * width := Int.mul_le_mul yFits xFits xPos.le heightPos.le
        _ = height * (width * 1) := by ring
        _ ≤ height * (width * rest.prod) :=
            Int.mul_le_mul_of_nonneg_left (Int.mul_le_mul_of_nonneg_left restPos widthPos.le) heightPos.le

end Optimal

section Maximal
variable (shape targetGrid : List Int) (positive : ∀ dim ∈ shape, 0 < dim) (ranked : 2 ≤ targetGrid.length)
  (targetPos : ∀ dim ∈ targetGrid, 0 < dim)
include positive ranked targetPos

theorem search_maximal (ndRank : shape.length ≠ 2) :
    MaximalGrid shape targetGrid (computeOptimalVirtualGrid shape targetGrid) := by
  have factorsPos : ∀ list ∈ shape.map getFactors, ∀ factor ∈ list, 0 < factor := by
    intro list member factor inList
    obtain ⟨dim, inShape, rfl⟩ := List.mem_map.mp member
    exact ((mem_getFactors dim (positive dim inShape) factor).mp inList).1
  have search := enumerateGrids_improves targetGrid.prod (isLegalVolume targetGrid)
      (shape.map getFactors) factorsPos [] 1
    Int.one_pos ([0], 0)
  have legal (grid : List Int) (chosen : Chosen grid (shape.map getFactors)) :
      isLegalVolume targetGrid grid.prod = true ↔ Realisable targetGrid grid.prod :=
    isLegalVolume_iff targetGrid grid.prod (chosen_prod_pos grid _ chosen factorsPos)
  rw [computeOptimalVirtualGrid, if_pos ndRank]
  generalize enumerateGrids targetGrid.prod (isLegalVolume targetGrid) (shape.map getFactors) [] 1 ([0], 0) =
    after at search
  obtain ⟨_, covers, source⟩ := search
  simp only [one_mul, List.nil_append] at covers source
  -- the grid of ones is always found, so the result is not the initial one
  have ones : Chosen (List.replicate shape.length 1) (shape.map getFactors) := by
    rw [chosen_iff_divides _ _ positive, Divides, List.forall₂_iff_get]
    refine ⟨List.length_replicate, fun i inOnes inShape => ?_⟩
    simp only [List.get_eq_getElem, List.getElem_replicate]
    exact ⟨Int.one_pos, one_dvd _⟩
  have product : (List.replicate shape.length (1 : Int)).prod = 1 := by simp
  have realisable := realisable_one targetGrid ranked targetPos
  have found : 1 ≤ after.2 := by
    have covered := covers _ ones
    rw [product] at covered
    exact covered (realisable_le targetGrid ranked targetPos 1 realisable)
      ((isLegalVolume_iff targetGrid 1 Int.one_pos).mpr realisable)
  rcases source with initial | ⟨grid, chosen, within, isLegal, rfl⟩
  · rw [initial] at found
    exact absurd found (by decide)
  · refine ⟨(chosen_iff_divides _ _ positive).mp chosen, (legal grid chosen).mp isLegal, within, ?_⟩
    intro other divides otherRealisable
    have otherChosen := (chosen_iff_divides _ _ positive).mpr divides
    exact covers other otherChosen (realisable_le targetGrid ranked targetPos _ otherRealisable)
      ((legal other otherChosen).mpr otherRealisable)

end Maximal

section Side
variable (targetGrid : List Int) (ranked : 2 ≤ targetGrid.length) (targetPos : ∀ dim ∈ targetGrid, 0 < dim)
include ranked targetPos

theorem largest_of_find (dim : Int) (dimPos : 0 < dim) :
    ∃ factor, ((getFactors dim).reverse.find? fun factor =>
        decide (factor ≤ targetGrid.prod) && isLegalVolume targetGrid factor) = some factor ∧
      LargestFactor targetGrid dim factor := by
  have accepted (factor : Int) (factorPos : 0 < factor) (realisable : Realisable targetGrid factor) :
      (decide (factor ≤ targetGrid.prod) && isLegalVolume targetGrid factor) = true := by
    rw [Bool.and_eq_true, decide_eq_true_eq, isLegalVolume_iff targetGrid factor factorPos]
    exact ⟨realisable_le targetGrid ranked targetPos factor realisable, realisable⟩
  have one : (1 : Int) ∈ (getFactors dim).reverse :=
    List.mem_reverse.mpr ((mem_getFactors dim dimPos 1).mpr ⟨Int.one_pos, one_dvd _⟩)
  have some : ((getFactors dim).reverse.find? fun factor =>
      decide (factor ≤ targetGrid.prod) && isLegalVolume targetGrid factor).isSome = true :=
    List.find?_isSome.mpr ⟨1, one, accepted 1 Int.one_pos (realisable_one targetGrid ranked targetPos)⟩
  obtain ⟨factor, found⟩ := Option.isSome_iff_exists.mp some
  refine ⟨factor, found, ?_⟩
  obtain ⟨isAccepted, above, below, split, rejected⟩ := List.find?_eq_some_iff_append.mp found
  have member : factor ∈ getFactors dim := List.mem_reverse.mp (split ▸ by simp)
  obtain ⟨factorPos, divides⟩ := (mem_getFactors dim dimPos factor).mp member
  rw [Bool.and_eq_true, isLegalVolume_iff targetGrid factor factorPos] at isAccepted
  refine ⟨factorPos, divides, isAccepted.2, fun other otherPos otherDivides realisable => ?_⟩
  have inFactors : other ∈ above ++ factor :: below :=
    split ▸ List.mem_reverse.mpr ((mem_getFactors dim dimPos other).mpr ⟨otherPos, otherDivides⟩)
  have descending : (above ++ factor :: below).Pairwise fun a b => b ≤ a :=
    split ▸ List.pairwise_reverse.mpr (getFactors_ascending dim dimPos)
  rcases List.mem_append.mp inFactors with inAbove | inRest
  · have refused := rejected other inAbove
    rw [accepted other otherPos realisable] at refused
    exact absurd refused (by decide)
  · rcases List.mem_cons.mp inRest with rfl | inBelow
    · exact le_rfl
    · exact (List.pairwise_cons.mp (List.pairwise_append.mp descending).2.1).1 other inBelow

theorem side_grid (height width : Int) (heightPos : 0 < height) (widthPos : 0 < width) :
    SideGrid targetGrid height width (computeOptimalVirtualGrid [height, width] targetGrid) := by
  have side : [height, width].getD (findShardedDimIndex [height, width]) 0 = max height width := by
    rw [findShardedDimIndex_two height width heightPos widthPos]
    split
    · rename_i tall
      exact (max_eq_left tall).symm
    · rename_i broad
      exact (max_eq_right (not_le.mp broad).le).symm
  obtain ⟨factor, found, largest⟩ := largest_of_find targetGrid ranked targetPos (max height width)
    (lt_max_of_lt_left heightPos)
  refine ⟨factor, largest, ?_⟩
  have nonzero : factor ≠ 0 := largest.positive.ne'
  simp only [computeOptimalVirtualGrid, List.length_cons, List.length_nil, zero_add, Nat.reduceAdd, ne_eq,
    not_true_eq_false, ↓reduceIte, side, found, Option.getD_some, nonzero, false_or]
  rw [findShardedDimIndex_two height width heightPos widthPos]
  split
  · rfl
  · split <;> rfl

end Side

/-- For every rank but two the returned grid is the largest realisable one that divides the
shape; for rank two it cuts the longer side only. -/
theorem computeOptimalVirtualGrid_optimal (shape targetGrid : List Int) (positive : ∀ dim ∈ shape, 0 < dim)
    (ranked : 2 ≤ targetGrid.length) (targetPos : ∀ dim ∈ targetGrid, 0 < dim) :
    (shape.length ≠ 2 → MaximalGrid shape targetGrid (computeOptimalVirtualGrid shape targetGrid)) ∧
      ∀ height width, shape = [height, width] →
        SideGrid targetGrid height width (computeOptimalVirtualGrid shape targetGrid) := by
  constructor
  · exact search_maximal shape targetGrid positive ranked targetPos
  · rintro height width rfl
    exact side_grid targetGrid ranked targetPos height width (positive height (by simp)) (positive width (by simp))

theorem optimal_threeDims :
    computeOptimalVirtualGrid [20, 3, 1] [8, 8] = [10, 3, 1] ∧
      MaximalGrid [20, 3, 1] [8, 8] (computeOptimalVirtualGrid [20, 3, 1] [8, 8]) := by
  constructor
  · with_unfolding_all decide
  · exact (computeOptimalVirtualGrid_optimal [20, 3, 1] [8, 8] (by decide) (by decide) (by decide)).1 (by decide)

/-- Of a 20 x 3 shape only the rows are cut, although 10 x 3 cores would fit 5 x 6. -/
theorem rank_two_not_maximal :
    computeOptimalVirtualGrid [20, 3] [8, 8] = [20, 1] ∧
      ¬ MaximalGrid [20, 3] [8, 8] (computeOptimalVirtualGrid [20, 3] [8, 8]) := by
  have result : computeOptimalVirtualGrid [20, 3] [8, 8] = [20, 1] := by with_unfolding_all decide
  refine ⟨result, fun maximal => ?_⟩
  rw [result] at maximal
  have divides : Divides [10, 3] [20, 3] :=
    .cons ⟨by decide, by decide⟩ (.cons ⟨by decide, by decide⟩ .nil)
  have realisable : Realisable [8, 8] ([10, 3] : List Int).prod :=
    ⟨(5, 6), by decide, by decide, by decide, by decide, by decide⟩
  exact absurd (maximal.maximal _ divides realisable) (by decide)

end TtMlir.Layout
