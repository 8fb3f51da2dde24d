import TtMlir.Library.StoreLoops

/-!
`D2MDecomposeMasking`: a `d2m.mask` becomes up to six loops over tile regions,
each clamped to the shard of the core that runs it. The regions are cut at
compile time from the logical extents; the clamping happens on every core.
-/

namespace TtMlir.D2m.Masking

open MixedRadix StoreLoops

/-- What a mask op and its operands' device layout fix; the verifier asks for a logical rank of two. -/
structure MaskOp where
  tensorSemantics : Bool
  hasDeviceLayout : Bool
  logicalShape : List Int
  gridShape : List Int
  shardShape : List Int
  kTileHeight : Int
  kTileWidth : Int
  logicalRank : 2 ≤ logicalShape.length
  logicalExtents : ∀ extent ∈ logicalShape, 0 ≤ extent
  gridExtents : ∀ extent ∈ gridShape, 0 ≤ extent
  shardExtents : ∀ extent ∈ shardShape, 0 ≤ extent
  tileHeightPos : 0 < kTileHeight
  tileWidthPos : 0 < kTileWidth

section TileBounds

def lastValid (logical tile : Int) : Int := (logical - 1).tdiv tile

def validInLastTile (logical tile : Int) : Int :=
  if logical.tmod tile = 0 then tile else logical.tmod tile

def hasPartial (logical tile : Int) : Bool := decide (validInLastTile logical tile ≠ tile)

def validTiles (logical tile : Int) : Int := lastValid logical tile + 1

def interiorEnd (logical tile : Int) : Int :=
  if hasPartial logical tile then lastValid logical tile else validTiles logical tile

end TileBounds

def rowEntry (entries : List Int) : Int := entries.getD (entries.length - 2) 0

def colEntry (entries : List Int) : Int := entries.getD (entries.length - 1) 0

namespace MaskOp
variable (op : MaskOp)

def logicalRows : Int := rowEntry op.logicalShape
def logicalCols : Int := colEntry op.logicalShape
def shardTileRows : Int := rowEntry op.shardShape
def shardTileCols : Int := colEntry op.shardShape
def lastValidRow : Int := lastValid op.logicalRows op.kTileHeight
def lastValidCol : Int := lastValid op.logicalCols op.kTileWidth
def validRowsInLastTile : Int := validInLastTile op.logicalRows op.kTileHeight
def validColsInLastTile : Int := validInLastTile op.logicalCols op.kTileWidth
def hasPartialRow : Bool := hasPartial op.logicalRows op.kTileHeight
def hasPartialCol : Bool := hasPartial op.logicalCols op.kTileWidth
def totalTileRows : Int := op.shardTileRows * rowEntry op.gridShape
def totalTileCols : Int := op.shardTileCols * colEntry op.gridShape
def validTileRows : Int := validTiles op.logicalRows op.kTileHeight
def validTileCols : Int := validTiles op.logicalCols op.kTileWidth
def interiorRowEnd : Int := interiorEnd op.logicalRows op.kTileHeight
def interiorColEnd : Int := interiorEnd op.logicalCols op.kTileWidth

end MaskOp

/-- Which of the five bodies a loop emits. -/
inductive EmitBody
  | emitPassthrough
  | emitRowMasked
  | emitColMasked
  | emitCornerMasked
  | emitFill
  deriving DecidableEq, Repr

structure RegionLoop where
  rowGlobalStart : Int
  rowGlobalEnd : Int
  colGlobalStart : Int
  colGlobalEnd : Int
  emitBody : EmitBody
  deriving DecidableEq, Repr

def createGlobalRegionLoop (rowGlobalStart rowGlobalEnd colGlobalStart colGlobalEnd : Int) (emitBody : EmitBody) :
    Option RegionLoop :=
  if rowGlobalStart ≥ rowGlobalEnd ∨ colGlobalStart ≥ colGlobalEnd then none
  else some ⟨rowGlobalStart, rowGlobalEnd, colGlobalStart, colGlobalEnd, emitBody⟩

/-- The six loops, numbered as they are emitted. -/
inductive Region
  | interior
  | lastRow
  | lastCol
  | corner
  | oobRows
  | oobCols
  deriving DecidableEq, Repr

def MaskOp.region (op : MaskOp) : Region → Option RegionLoop
  | .interior => createGlobalRegionLoop 0 op.interiorRowEnd 0 op.interiorColEnd .emitPassthrough
  | .lastRow =>
      if op.hasPartialRow then
        createGlobalRegionLoop op.lastValidRow (op.lastValidRow + 1) 0 op.interiorColEnd .emitRowMasked
      else none
  | .lastCol =>
      if op.hasPartialCol then
        createGlobalRegionLoop 0 op.interiorRowEnd op.lastValidCol (op.lastValidCol + 1) .emitColMasked
      else none
  | .corner =>
      if op.hasPartialRow && op.hasPartialCol then
        createGlobalRegionLoop op.lastValidRow (op.lastValidRow + 1) op.lastValidCol (op.lastValidCol + 1)
          .emitCornerMasked
      else none
  | .oobRows => createGlobalRegionLoop op.validTileRows op.totalTileRows 0 op.totalTileCols .emitFill
  | .oobCols => createGlobalRegionLoop 0 op.validTileRows op.validTileCols op.totalTileCols .emitFill

def MaskOp.regionLoops (op : MaskOp) : List RegionLoop :=
  [Region.interior, .lastRow, .lastCol, .corner, .oobRows, .oobCols].filterMap op.region

def matchAndRewrite (op : MaskOp) : Option (List RegionLoop) :=
  if op.tensorSemantics then none
  else if !op.hasDeviceLayout then none
  else if op.gridShape.length < 2 then none
  else if op.shardShape.length < 2 then none
  else some op.regionLoops

section Core

def computeLocalBounds (globalRegionStart globalRegionEnd coreIdx shardSize : Int) : Int × Int :=
  let globalCoreStart := coreIdx * shardSize
  let clampedStart := min globalRegionStart globalCoreStart
  let globalCoreEnd := globalCoreStart + shardSize
  let clampedEnd := max (min globalRegionEnd globalCoreEnd) globalCoreStart
  (globalRegionStart - clampedStart, clampedEnd - globalCoreStart)

variable (op : MaskOp) (core : List Int)

def coreY : Int := core.getD (op.gridShape.length - 2) 0
def coreX : Int := core.getD (op.gridShape.length - 1) 0

def rowBounds (loop : RegionLoop) : Int × Int :=
  computeLocalBounds loop.rowGlobalStart loop.rowGlobalEnd (coreY op core) op.shardTileRows

def colBounds (loop : RegionLoop) : Int × Int :=
  computeLocalBounds loop.colGlobalStart loop.colGlobalEnd (coreX op core) op.shardTileCols

def createLocalLoop (loop : RegionLoop) : List (List Int) :=
  planeNest (rowBounds op core loop) (colBounds op core loop) (op.shardShape.take (op.shardShape.length - 2))

def tileStores (loops : List RegionLoop) : List (List Int × EmitBody) :=
  loops.flatMap fun loop => (createLocalLoop op core loop).map (·, loop.emitBody)

end Core

section Contents
variable {Element : Type}

abbrev Tile (Element : Type) := Int → Int → Element

def writeRowMaskTile (validRows : Int) : Tile Bool := fun row _ => decide (row < validRows)
def writeColMaskTile (validCols : Int) : Tile Bool := fun _ col => decide (col < validCols)

def tileFill (fillScalar : Element) : Tile Element := fun _ _ => fillScalar

def tileWhere (condition : Tile Bool) (trueTile falseTile : Tile Element) : Tile Element :=
  fun row col => if condition row col then trueTile row col else falseTile row col

def EmitBody.result (rowMask colMask : Tile Bool) (fillScalar : Element) (inputTile : Tile Element) :
    EmitBody → Tile Element
  | emitPassthrough => inputTile
  | emitRowMasked => tileWhere rowMask inputTile (tileFill fillScalar)
  | emitColMasked => tileWhere colMask inputTile (tileFill fillScalar)
  | emitCornerMasked =>
      tileWhere colMask (tileWhere rowMask inputTile (tileFill fillScalar)) (tileFill fillScalar)
  | emitFill => tileFill fillScalar

/-- What a core's freshly allocated buffers happen to hold. -/
structure Allocated (Element : Type) where
  rowMaskCB : Tile Bool
  colMaskCB : Tile Bool
  output : List Int → Tile Element

variable (op : MaskOp)

def rowMaskCB (fresh : Allocated Element) : Tile Bool :=
  if op.hasPartialRow then writeRowMaskTile op.validRowsInLastTile else fresh.rowMaskCB

def colMaskCB (fresh : Allocated Element) : Tile Bool :=
  if op.hasPartialCol then writeColMaskTile op.validColsInLastTile else fresh.colMaskCB

/-- A core's run: its shard is loaded, the loops run in order, and the output buffer is its shard of the result. -/
def runCore (loops : List RegionLoop) (fill : Element) (globalInput : List Int → List Int → Tile Element)
    (fresh : Allocated Element) (core : List Int) : List Int → Tile Element :=
  storeAll ((tileStores op core loops).map fun store =>
    (store.1, store.2.result (rowMaskCB op fresh) (colMaskCB op fresh) fill (globalInput core store.1))) fresh.output

end Contents

section Purpose
variable (op : MaskOp) (loops : List RegionLoop)

def tileRow (core index : List Int) : Int := coreY op core * op.shardTileRows + rowEntry index

def tileCol (core index : List Int) : Int := coreX op core * op.shardTileCols + colEntry index

def globalRow (core index : List Int) (row : Int) : Int := tileRow op core index * op.kTileHeight + row

def globalCol (core index : List Int) (col : Int) : Int := tileCol op core index * op.kTileWidth + col

def WritesEachTileOnce : Prop :=
  ∀ core, Within op.gridShape core →
    (∀ index, Within op.shardShape index → ((tileStores op core loops).map Prod.fst).count index = 1) ∧
    ∀ index ∈ (tileStores op core loops).map Prod.fst, Within op.shardShape index

/-- Inside the logical shape the input is kept, outside it stands the fill value. -/
def MasksPadding : Prop :=
  ∀ (Element : Type) (fill : Element) (globalInput : List Int → List Int → Tile Element)
    (fresh : Allocated Element) (core : List Int), Within op.gridShape core → ∀ index, Within op.shardShape index →
      ∀ row col, (0 ≤ row ∧ row < op.kTileHeight) → (0 ≤ col ∧ col < op.kTileWidth) →
        runCore op loops fill globalInput fresh core index row col =
          if globalRow op core index row < op.logicalRows ∧ globalCol op core index col < op.logicalCols
          then globalInput core index row col else fill

/-- An empty logical extent has no tiles over it, or tiles of extent one in that dim. -/
def EmptyExtentUntiled : Prop :=
  op.logicalRows = 0 ∨ op.logicalCols = 0 →
    (0 ∈ op.gridShape ∨ 0 ∈ op.shardShape) ∨
      (op.logicalRows = 0 ∧ op.kTileHeight = 1) ∨ (op.logicalCols = 0 ∧ op.kTileWidth = 1)

end Purpose

section TileBounds
variable (logical tile : Int)

theorem interiorEnd_partial (partialTile : hasPartial logical tile = true) :
    lastValid logical tile = interiorEnd logical tile ∧ validTiles logical tile = interiorEnd logical tile + 1 := by
  simp [interiorEnd, validTiles, partialTile]

theorem interiorEnd_whole (whole : hasPartial logical tile = false) :
    validTiles logical tile = interiorEnd logical tile := by
  simp [interiorEnd, whole]

/-- The loops keep an element of this tile: the tile is valid and its mask, if any, has the bit set. -/
def Kept (tileIdx place : Int) : Prop :=
  tileIdx < validTiles logical tile ∧
    (hasPartial logical tile = true ∧ tileIdx = lastValid logical tile → place < validInLastTile logical tile)

instance (tileIdx place : Int) : Decidable (Kept logical tile tileIdx place) := inferInstanceAs (Decidable (_ ∧ _))

theorem hasPartial_eq (tilePos : 0 < tile) (extent : 0 ≤ logical) :
    hasPartial logical tile = decide (logical % tile ≠ 0) := by
  have bound := Int.emod_lt_of_pos logical tilePos
  rw [hasPartial, validInLastTile, Int.tmod_eq_emod_of_nonneg extent]
  by_cases whole : logical % tile = 0
  · simp [whole]
  · simp [whole, bound.ne]

theorem lastValid_eq (tilePos : 0 < tile) (positive : 0 < logical) :
    lastValid logical tile = if logical % tile = 0 then logical / tile - 1 else logical / tile := by
  have split := Int.emod_add_mul_ediv logical tile
  have remainder := Int.emod_nonneg logical tilePos.ne'
  have bound := Int.emod_lt_of_pos logical tilePos
  rw [lastValid, Int.tdiv_eq_ediv_of_nonneg (by omega)]
  split
  next whole =>
    refine ((Int.ediv_emod_unique (r := tile - 1) tilePos).mpr ⟨?_, by omega, by omega⟩).1
    rw [Int.mul_sub]
    omega
  next broken =>
    exact ((Int.ediv_emod_unique (r := logical % tile - 1) tilePos).mpr ⟨by omega, by omega, by omega⟩).1

theorem element_lt_iff (tilePos : 0 < tile) (tileIdx place : Int) (placeBounds : 0 ≤ place ∧ place < tile) :
    tileIdx * tile + place < logical ↔
      tileIdx < logical / tile ∨ (tileIdx = logical / tile ∧ place < logical % tile) := by
  have split := Int.emod_add_mul_ediv logical tile
  have bound := Int.emod_lt_of_pos logical tilePos
  have remainder := Int.emod_nonneg logical tilePos.ne'
  rcases lt_trichotomy tileIdx (logical / tile) with before | here | after
  · have gap : (tileIdx + 1) * tile ≤ logical / tile * tile := Int.mul_le_mul_of_nonneg_right before tilePos.le
    rw [Int.add_mul, Int.mul_comm (logical / tile)] at gap
    constructor
    · exact fun _ => Or.inl before
    · omega
  · subst here
    rw [Int.mul_comm (logical / tile)]
    omega
  · have gap : (logical / tile + 1) * tile ≤ tileIdx * tile := Int.mul_le_mul_of_nonneg_right after tilePos.le
    rw [Int.add_mul, Int.mul_comm (logical / tile)] at gap
    omega

/-- The kept elements are the logical ones, except over an empty extent: there the first tile counts as valid. -/
theorem kept_iff (tilePos : 0 < tile) (extent : 0 ≤ logical) (counted : 0 < logical ∨ tile = 1)
    (tileIdx place : Int) (tileIdxBound : 0 ≤ tileIdx) (placeBounds : 0 ≤ place ∧ place < tile) :
    Kept logical tile tileIdx place ↔ tileIdx * tile + place < logical := by
  rcases extent.eq_or_lt with empty | positive
  · -- with tiles of one element the truncated division of -1 is -1, so no tile is valid
    have single : tile = 1 := counted.resolve_left (by omega)
    subst empty single
    have none : validTiles 0 1 = 0 := rfl
    rw [Kept, none]
    omega
  · have remainder := Int.emod_nonneg logical tilePos.ne'
    have modulus : logical.tmod tile = logical % tile := Int.tmod_eq_emod_of_nonneg extent
    rw [element_lt_iff logical tile tilePos tileIdx place placeBounds, Kept, hasPartial_eq logical tile tilePos extent,
      validTiles, lastValid_eq logical tile tilePos positive, validInLastTile, modulus]
    by_cases whole : logical % tile = 0
    · simp only [whole, reduceIte, ne_eq, not_true_eq_false, decide_false]
      omega
    · simp only [whole, reduceIte, ne_eq, not_false_eq_true, decide_true, true_and]
      omega

/-- Over an empty extent the first element of larger tiles is kept although it is not logical. -/
theorem kept_empty (tilePos : 0 < tile) (large : tile ≠ 1) : Kept 0 tile 0 0 := by
  have quotient : lastValid 0 tile = 0 := by
    rw [lastValid, Int.zero_sub, Int.neg_tdiv, Int.tdiv_eq_ediv_of_nonneg (by omega),
      Int.ediv_eq_zero_of_lt (by omega) (by omega), Int.neg_zero]
  refine ⟨by rw [validTiles, quotient]; omega, ?_⟩
  rw [hasPartial_eq 0 tile tilePos le_rfl]
  simp

theorem kept_first (tilePos : 0 < tile) (extent : 0 ≤ logical) (counted : 0 < logical ∨ tile ≠ 1) :
    Kept logical tile 0 0 := by
  rcases extent.eq_or_lt with empty | positive
  · subst empty
    exact kept_empty tile tilePos (counted.resolve_left (by omega))
  · exact (kept_iff logical tile tilePos extent (Or.inl positive) 0 0 le_rfl ⟨le_rfl, tilePos⟩).mpr (by omega)

end TileBounds

def RegionLoop.Covers (loop : RegionLoop) (tileRow tileCol : Int) : Prop :=
  (loop.rowGlobalStart ≤ tileRow ∧ tileRow < loop.rowGlobalEnd) ∧
    loop.colGlobalStart ≤ tileCol ∧ tileCol < loop.colGlobalEnd

theorem createGlobalRegionLoop_eq (rowStart rowEnd colStart colEnd : Int) (body : EmitBody) (loop : RegionLoop) :
    createGlobalRegionLoop rowStart rowEnd colStart colEnd body = some loop ↔
      (rowStart < rowEnd ∧ colStart < colEnd) ∧ loop = ⟨rowStart, rowEnd, colStart, colEnd, body⟩ := by
  unfold createGlobalRegionLoop
  by_cases void : rowStart ≥ rowEnd ∨ colStart ≥ colEnd
  · simp only [void, reduceIte, reduceCtorEq, false_iff]
    omega
  · simp only [void, reduceIte, Option.some.injEq]
    constructor
    · rintro rfl
      exact ⟨by omega, rfl⟩
    · rintro ⟨-, rfl⟩
      rfl

section Regions
variable (op : MaskOp)

def MaskOp.regionAt (tileRow tileCol : Int) : Region :=
  if op.validTileRows ≤ tileRow then .oobRows
  else if op.validTileCols ≤ tileCol then .oobCols
  else
    match op.hasPartialRow && decide (tileRow = op.lastValidRow),
      op.hasPartialCol && decide (tileCol = op.lastValidCol) with
    | false, false => .interior
    | true, false => .lastRow
    | false, true => .lastCol
    | true, true => .corner

theorem rowEnds :
    (op.hasPartialRow = true ∧ op.lastValidRow = op.interiorRowEnd ∧ op.validTileRows = op.interiorRowEnd + 1) ∨
      (op.hasPartialRow = false ∧ op.validTileRows = op.interiorRowEnd) := by
  cases part : op.hasPartialRow with
  | true => exact Or.inl ⟨rfl, interiorEnd_partial _ _ part⟩
  | false => exact Or.inr ⟨rfl, interiorEnd_whole _ _ part⟩

theorem colEnds :
    (op.hasPartialCol = true ∧ op.lastValidCol = op.interiorColEnd ∧ op.validTileCols = op.interiorColEnd + 1) ∨
      (op.hasPartialCol = false ∧ op.validTileCols = op.interiorColEnd) := by
  cases part : op.hasPartialCol with
  | true => exact Or.inl ⟨rfl, interiorEnd_partial _ _ part⟩
  | false => exact Or.inr ⟨rfl, interiorEnd_whole _ _ part⟩

theorem region_unique (region : Region) (loop : RegionLoop) (emitted : op.region region = some loop)
    (tileRow tileCol : Int) (covers : loop.Covers tileRow tileCol) : op.regionAt tileRow tileCol = region := by
  have rows := rowEnds op
  have cols := colEnds op
  cases region with
  | interior =>
      obtain ⟨-, rfl⟩ := (createGlobalRegionLoop_eq ..).mp emitted
      obtain ⟨⟨_, rowBound⟩, _, colBound⟩ := covers
      grind [MaskOp.regionAt]
  | lastRow =>
      rw [MaskOp.region, Option.ite_none_right_eq_some] at emitted
      obtain ⟨partialRow, created⟩ := emitted
      obtain ⟨-, rfl⟩ := (createGlobalRegionLoop_eq ..).mp created
      obtain ⟨⟨_, rowBound⟩, _, colBound⟩ := covers
      grind [MaskOp.regionAt]
  | lastCol =>
      rw [MaskOp.region, Option.ite_none_right_eq_some] at emitted
      obtain ⟨partialCol, created⟩ := emitted
      obtain ⟨-, rfl⟩ := (createGlobalRegionLoop_eq ..).mp created
      obtain ⟨⟨_, rowBound⟩, _, colBound⟩ := covers
      grind [MaskOp.regionAt]
  | corner =>
      rw [MaskOp.region, Option.ite_none_right_eq_some, Bool.and_eq_true] at emitted
      obtain ⟨⟨partialRow, partialCol⟩, created⟩ := emitted
      obtain ⟨-, rfl⟩ := (createGlobalRegionLoop_eq ..).mp created
      obtain ⟨⟨_, rowBound⟩, _, colBound⟩ := covers
      grind [MaskOp.regionAt]
  | oobRows =>
      obtain ⟨-, rfl⟩ := (createGlobalRegionLoop_eq ..).mp emitted
      exact if_pos covers.1.1
  | oobCols =>
      obtain ⟨-, rfl⟩ := (createGlobalRegionLoop_eq ..).mp emitted
      obtain ⟨⟨_, rowBound⟩, colBound, _⟩ := covers
      rw [MaskOp.regionAt, if_neg (not_le.mpr rowBound), if_pos colBound]

theorem region_covers (tileRow tileCol : Int) (rowBounds : 0 ≤ tileRow ∧ tileRow < op.totalTileRows)
    (colBounds : 0 ≤ tileCol ∧ tileCol < op.totalTileCols) :
    ∃ loop, op.region (op.regionAt tileRow tileCol) = some loop ∧ loop.Covers tileRow tileCol := by
  have rows := rowEnds op
  have cols := colEnds op
  have created (rowStart rowEnd colStart colEnd : Int) (body : EmitBody)
      (rowInside : rowStart ≤ tileRow ∧ tileRow < rowEnd) (colInside : colStart ≤ tileCol ∧ tileCol < colEnd) :
      ∃ loop, createGlobalRegionLoop rowStart rowEnd colStart colEnd body = some loop ∧
        loop.Covers tileRow tileCol :=
    ⟨_, (createGlobalRegionLoop_eq ..).mpr ⟨⟨by omega, by omega⟩, rfl⟩, rowInside, colInside⟩
  unfold MaskOp.regionAt
  split
  next below => exact created _ _ _ _ _ ⟨below, rowBounds.2⟩ colBounds
  next rowValid =>
    split
    next right => exact created _ _ _ _ _ ⟨rowBounds.1, by omega⟩ ⟨right, colBounds.2⟩
    next colValid =>
      split
      next rowEdge colEdge =>
        refine created _ _ _ _ _ ⟨rowBounds.1, ?_⟩ ⟨colBounds.1, ?_⟩ <;> grind
      next rowEdge colEdge =>
        rw [Bool.and_eq_true, decide_eq_true_iff] at rowEdge
        rw [MaskOp.region, if_pos rowEdge.1]
        exact created _ _ _ _ _ (by omega) ⟨colBounds.1, by grind⟩
      next rowEdge colEdge =>
        rw [Bool.and_eq_true, decide_eq_true_iff] at colEdge
        rw [MaskOp.region, if_pos colEdge.1]
        exact created _ _ _ _ _ ⟨rowBounds.1, by grind⟩ (by omega)
      next rowEdge colEdge =>
        rw [Bool.and_eq_true, decide_eq_true_iff] at rowEdge colEdge
        rw [MaskOp.region, if_pos (Bool.and_eq_true _ _ ▸ ⟨rowEdge.1, colEdge.1⟩)]
        exact created _ _ _ _ _ (by omega) (by omega)

theorem regionLoops_disjoint : op.regionLoops.Pairwise fun left right =>
    ∀ tileRow tileCol, left.Covers tileRow tileCol → ¬ right.Covers tileRow tileCol := by
  have distinct : [Region.interior, .lastRow, .lastCol, .corner, .oobRows, .oobCols].Pairwise (· ≠ ·) := by decide
  refine List.Pairwise.filterMap op.region ?_ distinct
  intro first second different left leftEmitted right rightEmitted tileRow tileCol inLeft inRight
  exact different ((region_unique op first left leftEmitted tileRow tileCol inLeft).symm.trans
    (region_unique op second right rightEmitted tileRow tileCol inRight))

theorem mem_regionLoops (loop : RegionLoop) : loop ∈ op.regionLoops ↔ ∃ region, op.region region = some loop := by
  rw [MaskOp.regionLoops, List.mem_filterMap]
  exact exists_congr fun region => by cases region <;> simp

end Regions

theorem mem_computeLocalBounds (start stop coreIdx shardSize : Int) (extent : 0 ≤ shardSize) (place : Int) :
    ((computeLocalBounds start stop coreIdx shardSize).1 ≤ place ∧
        place < (computeLocalBounds start stop coreIdx shardSize).2) ↔
      (0 ≤ place ∧ place < shardSize) ∧
        start ≤ coreIdx * shardSize + place ∧ coreIdx * shardSize + place < stop := by
  unfold computeLocalBounds
  dsimp only
  omega

theorem rowEntry_append (outer : List Int) (row col : Int) : rowEntry (outer ++ [row, col]) = row := by
  simp [rowEntry]

theorem colEntry_append (outer : List Int) (row col : Int) : colEntry (outer ++ [row, col]) = col := by
  simp [colEntry]

theorem split_entries (entries : List Int) (rank : 2 ≤ entries.length) :
    ∃ outer row col, entries = outer ++ [row, col] := by
  obtain rfl | ⟨front, col, rfl⟩ := List.eq_nil_or_concat entries
  · simp at rank
  · obtain rfl | ⟨outer, row, rfl⟩ := List.eq_nil_or_concat front
    · simp at rank
    · exact ⟨outer, row, col, by simp⟩

theorem within_split (shape index : List Int) (rank : 2 ≤ shape.length) :
    Within shape index ↔ ∃ outer row col, index = outer ++ [row, col] ∧
      Within (shape.take (shape.length - 2)) outer ∧ (0 ≤ row ∧ row < rowEntry shape) ∧ 0 ≤ col ∧
        col < colEntry shape := by
  obtain ⟨leading, rows, cols, rfl⟩ := split_entries shape rank
  have front : (leading ++ [rows, cols]).take ((leading ++ [rows, cols]).length - 2) = leading := by simp
  rw [rowEntry_append, colEntry_append, front]
  constructor
  · intro within
    have outer := List.forall₂_take_append index leading [rows, cols] within
    have inner := List.forall₂_drop_append index leading [rows, cols] within
    rw [List.forall₂_cons_right_iff] at inner
    obtain ⟨row, rest, rowBounds, tail, dropped⟩ := inner
    rw [List.forall₂_cons_right_iff] at tail
    obtain ⟨col, last, colBounds, nothing, rfl⟩ := tail
    rw [List.forall₂_nil_right_iff] at nothing
    exact ⟨index.take leading.length, row, col, by rw [← nothing, ← dropped, List.take_append_drop], outer,
      rowBounds, colBounds⟩
  · rintro ⟨outer, row, col, rfl, within, rowBounds, colBounds⟩
    exact List.rel_append within (List.Forall₂.cons rowBounds (List.Forall₂.cons colBounds List.Forall₂.nil))

section Stores
variable (op : MaskOp) (core : List Int)

theorem entry_nonneg (shape : List Int) (extents : ∀ extent ∈ shape, 0 ≤ extent) (place : Nat) :
    0 ≤ shape.getD place 0 := by
  rw [List.getD_eq_getElem?_getD]
  cases found : shape[place]? with
  | none => simp
  | some extent => exact extents extent (List.mem_of_getElem? found)

theorem mem_createLocalLoop (rank : 2 ≤ op.shardShape.length) (loop : RegionLoop) (index : List Int) :
    index ∈ createLocalLoop op core loop ↔
      Within op.shardShape index ∧ loop.Covers (tileRow op core index) (tileCol op core index) := by
  have rows : 0 ≤ op.shardTileRows := entry_nonneg _ op.shardExtents _
  have cols : 0 ≤ op.shardTileCols := entry_nonneg _ op.shardExtents _
  rw [createLocalLoop, mem_planeNest, within_split _ _ rank]
  constructor
  · rintro ⟨outer, row, col, rfl, within, rowInside, colInside⟩
    rw [rowBounds, mem_computeLocalBounds _ _ _ _ rows] at rowInside
    rw [colBounds, mem_computeLocalBounds _ _ _ _ cols] at colInside
    refine ⟨⟨outer, row, col, rfl, within, rowInside.1, colInside.1⟩, ?_⟩
    rw [tileRow, tileCol, rowEntry_append, colEntry_append]
    exact ⟨rowInside.2, colInside.2⟩
  · rintro ⟨⟨outer, row, col, rfl, within, rowInside, colInside⟩, covers⟩
    rw [tileRow, tileCol, rowEntry_append, colEntry_append] at covers
    exact ⟨outer, row, col, rfl, within, (mem_computeLocalBounds _ _ _ _ rows _).mpr ⟨rowInside, covers.1⟩,
      (mem_computeLocalBounds _ _ _ _ cols _).mpr ⟨colInside, covers.2⟩⟩

theorem stored_indices (loops : List RegionLoop) :
    (tileStores op core loops).map Prod.fst = loops.flatMap (createLocalLoop op core) := by
  simp [tileStores, List.map_flatMap, Function.comp_def]

theorem stored_nodup (rank : 2 ≤ op.shardShape.length) :
    ((tileStores op core op.regionLoops).map Prod.fst).Nodup := by
  rw [stored_indices, List.nodup_flatMap]
  refine ⟨fun loop _ => planeNest_nodup _ _ _, (regionLoops_disjoint op).imp ?_⟩
  intro left right disjoint index inLeft inRight
  exact disjoint _ _ ((mem_createLocalLoop op core rank left index).mp inLeft).2
    ((mem_createLocalLoop op core rank right index).mp inRight).2

theorem block_bounds (block blocks size offset : Int) (blockBounds : 0 ≤ block ∧ block < blocks)
    (offsetBounds : 0 ≤ offset ∧ offset < size) :
    0 ≤ block * size + offset ∧ block * size + offset < size * blocks := by
  have start : 0 ≤ block * size := Int.mul_nonneg blockBounds.1 (by omega)
  have stop : (block + 1) * size ≤ blocks * size := Int.mul_le_mul_of_nonneg_right blockBounds.2 (by omega)
  rw [Int.add_mul, Int.mul_comm blocks] at stop
  omega

section
variable (gridRank : 2 ≤ op.gridShape.length) (rank : 2 ≤ op.shardShape.length)
include gridRank rank

theorem tile_bounds (inGrid : Within op.gridShape core) (index : List Int) (inShard : Within op.shardShape index) :
    (0 ≤ tileRow op core index ∧ tileRow op core index < op.totalTileRows) ∧
      0 ≤ tileCol op core index ∧ tileCol op core index < op.totalTileCols := by
  have sameRank : core.length = op.gridShape.length := List.Forall₂.length_eq inGrid
  obtain ⟨outer, y, x, rfl, _, yBounds, xBounds⟩ := (within_split _ _ gridRank).mp inGrid
  obtain ⟨inner, row, col, rfl, _, rowBounds, colBounds⟩ := (within_split _ _ rank).mp inShard
  have yEntry : coreY op (outer ++ [y, x]) = y := by rw [coreY, ← sameRank]; exact rowEntry_append outer y x
  have xEntry : coreX op (outer ++ [y, x]) = x := by rw [coreX, ← sameRank]; exact colEntry_append outer y x
  rw [tileRow, tileCol, rowEntry_append, colEntry_append, yEntry, xEntry]
  exact ⟨block_bounds y _ _ row yBounds rowBounds, block_bounds x _ _ col xBounds colBounds⟩

theorem mem_stored (inGrid : Within op.gridShape core) (index : List Int) (inShard : Within op.shardShape index) :
    ∃ loop, op.region (op.regionAt (tileRow op core index) (tileCol op core index)) = some loop ∧
      (index, loop.emitBody) ∈ tileStores op core op.regionLoops := by
  obtain ⟨rowBound, colBound⟩ := tile_bounds op core gridRank rank inGrid index inShard
  obtain ⟨loop, emitted, covers⟩ := region_covers op _ _ rowBound colBound
  refine ⟨loop, emitted, List.mem_flatMap.mpr ⟨loop, (mem_regionLoops op loop).mpr ⟨_, emitted⟩, ?_⟩⟩
  exact List.mem_map_of_mem ((mem_createLocalLoop op core rank loop index).mpr ⟨inShard, covers⟩)

theorem writesEachTileOnce :
    WritesEachTileOnce op op.regionLoops := by
  intro core inGrid
  constructor
  · intro index inShard
    obtain ⟨loop, _, stored⟩ := mem_stored op core gridRank rank inGrid index inShard
    exact List.count_eq_one_of_mem (stored_nodup op core rank) (List.mem_map_of_mem stored)
  · intro index stored
    rw [stored_indices] at stored
    obtain ⟨loop, _, visited⟩ := List.mem_flatMap.mp stored
    exact ((mem_createLocalLoop op core rank loop index).mp visited).1

end

end Stores

section Contents
variable {Element : Type} (op : MaskOp)

theorem result_kept (fillScalar : Element) (fresh : Allocated Element) (inputTile : Tile Element)
    (tileRow tileCol row col : Int) (loop : RegionLoop)
    (emitted : op.region (op.regionAt tileRow tileCol) = some loop) :
    loop.emitBody.result (rowMaskCB op fresh) (colMaskCB op fresh) fillScalar inputTile row col =
      if Kept op.logicalRows op.kTileHeight tileRow row ∧ Kept op.logicalCols op.kTileWidth tileCol col
      then inputTile row col else fillScalar := by
  unfold MaskOp.regionAt at emitted
  split at emitted
  next below =>
    obtain ⟨-, rfl⟩ := (createGlobalRegionLoop_eq ..).mp emitted
    rw [if_neg fun kept => absurd kept.1.1 (not_lt.mpr below)]
    rfl
  next rowValid =>
    split at emitted
    next right =>
      obtain ⟨-, rfl⟩ := (createGlobalRegionLoop_eq ..).mp emitted
      rw [if_neg fun kept => absurd kept.2.1 (not_lt.mpr right)]
      rfl
    next colValid =>
      -- both tile coordinates are valid, so an element is kept when the masks of its edges keep it
      have rowKept : Kept op.logicalRows op.kTileHeight tileRow row ↔
          ((op.hasPartialRow && decide (tileRow = op.lastValidRow)) = true → row < op.validRowsInLastTile) := by
        rw [Bool.and_eq_true, decide_eq_true_iff]
        exact and_iff_right (not_le.mp rowValid)
      have colKept : Kept op.logicalCols op.kTileWidth tileCol col ↔
          ((op.hasPartialCol && decide (tileCol = op.lastValidCol)) = true → col < op.validColsInLastTile) := by
        rw [Bool.and_eq_true, decide_eq_true_iff]
        exact and_iff_right (not_le.mp colValid)
      rw [if_congr (and_congr rowKept colKept) rfl rfl]
      split at emitted
      next rowEdge colEdge =>
        obtain ⟨-, rfl⟩ := (createGlobalRegionLoop_eq ..).mp emitted
        simp [rowEdge, colEdge, EmitBody.result]
      next rowEdge colEdge =>
        rw [MaskOp.region, Option.ite_none_right_eq_some] at emitted
        obtain ⟨partialRow, created⟩ := emitted
        obtain ⟨-, rfl⟩ := (createGlobalRegionLoop_eq ..).mp created
        simp only [rowEdge, colEdge, forall_const, Bool.false_eq_true, false_imp_iff, and_true]
        simp [EmitBody.result, tileWhere, tileFill, rowMaskCB, writeRowMaskTile, partialRow]
      next rowEdge colEdge =>
        rw [MaskOp.region, Option.ite_none_right_eq_some] at emitted
        obtain ⟨partialCol, created⟩ := emitted
        obtain ⟨-, rfl⟩ := (createGlobalRegionLoop_eq ..).mp created
        simp only [rowEdge, colEdge, forall_const, Bool.false_eq_true, false_imp_iff, true_and]
        simp [EmitBody.result, tileWhere, tileFill, colMaskCB, writeColMaskTile, partialCol]
      next rowEdge colEdge =>
        rw [MaskOp.region, Option.ite_none_right_eq_some, Bool.and_eq_true] at emitted
        obtain ⟨⟨partialRow, partialCol⟩, created⟩ := emitted
        obtain ⟨-, rfl⟩ := (createGlobalRegionLoop_eq ..).mp created
        simp only [rowEdge, colEdge, forall_const]
        simp only [EmitBody.result, tileWhere, tileFill, rowMaskCB, colMaskCB, partialRow, partialCol, reduceIte,
          writeRowMaskTile, writeColMaskTile, decide_eq_true_iff]
        by_cases inCol : col < op.validColsInLastTile <;> simp [inCol]

theorem runCore_kept (gridRank : 2 ≤ op.gridShape.length) (rank : 2 ≤ op.shardShape.length) (fillScalar : Element)
    (globalInput : List Int → List Int → Tile Element) (fresh : Allocated Element) (core : List Int)
    (inGrid : Within op.gridShape core) (index : List Int) (inShard : Within op.shardShape index) (row col : Int) :
    runCore op op.regionLoops fillScalar globalInput fresh core index row col =
      if Kept op.logicalRows op.kTileHeight (tileRow op core index) row ∧
          Kept op.logicalCols op.kTileWidth (tileCol op core index) col
      then globalInput core index row col else fillScalar := by
  obtain ⟨loop, emitted, stored⟩ := mem_stored op core gridRank rank inGrid index inShard
  rw [← result_kept op fillScalar fresh _ _ _ row col loop emitted, runCore]
  refine congrFun (congrFun (storeAll_stored _ _ ?_ index _ ?_) row) col
  · rw [List.map_map]
    exact stored_nodup op core rank
  · exact List.mem_map.mpr ⟨_, stored, rfl⟩

end Contents

section Exact
variable (op : MaskOp)

theorem kept_of_untiled (untiled : EmptyExtentUntiled op) (gridTiled : 0 ∉ op.gridShape)
    (shardTiled : 0 ∉ op.shardShape) (tileRow tileCol row col : Int) (rowNonneg : 0 ≤ tileRow) (colNonneg : 0 ≤ tileCol)
    (rowInside : 0 ≤ row ∧ row < op.kTileHeight) (colInside : 0 ≤ col ∧ col < op.kTileWidth) :
    (Kept op.logicalRows op.kTileHeight tileRow row ∧ Kept op.logicalCols op.kTileWidth tileCol col) ↔
      tileRow * op.kTileHeight + row < op.logicalRows ∧ tileCol * op.kTileWidth + col < op.logicalCols := by
  have rows : 0 ≤ op.logicalRows := entry_nonneg _ op.logicalExtents _
  have cols : 0 ≤ op.logicalCols := entry_nonneg _ op.logicalExtents _
  have rowKept (counted) :=
    kept_iff op.logicalRows op.kTileHeight op.tileHeightPos rows counted tileRow row rowNonneg rowInside
  have colKept (counted) :=
    kept_iff op.logicalCols op.kTileWidth op.tileWidthPos cols counted tileCol col colNonneg colInside
  by_cases empty : op.logicalRows = 0 ∨ op.logicalCols = 0
  · have single := (untiled empty).resolve_left (not_or.mpr ⟨gridTiled, shardTiled⟩)
    have rowStart : 0 ≤ tileRow * op.kTileHeight := Int.mul_nonneg rowNonneg op.tileHeightPos.le
    have colStart : 0 ≤ tileCol * op.kTileWidth := Int.mul_nonneg colNonneg op.tileWidthPos.le
    -- the dim of single-element tiles keeps nothing, whatever the other one does
    rcases single with ⟨noRows, single⟩ | ⟨noCols, single⟩
    · rw [rowKept (Or.inr single)]
      constructor <;> intro both <;> omega
    · rw [colKept (Or.inr single)]
      constructor <;> intro both <;> omega
  · rw [rowKept (Or.inl (by omega)), colKept (Or.inl (by omega))]

theorem zero_notMem_of_within (shape index : List Int) (within : Within shape index) : 0 ∉ shape := by
  induction within with
  | nil => exact List.not_mem_nil
  | cons bounds _ ih =>
      rw [List.mem_cons, not_or]
      exact ⟨by omega, ih⟩

theorem masksPadding_of_untiled (gridRank : 2 ≤ op.gridShape.length) (rank : 2 ≤ op.shardShape.length)
    (untiled : EmptyExtentUntiled op) : MasksPadding op op.regionLoops := by
  intro Element fillScalar globalInput fresh core inGrid index inShard row col rowInside colInside
  obtain ⟨rowBound, colBound⟩ := tile_bounds op core gridRank rank inGrid index inShard
  rw [runCore_kept op gridRank rank fillScalar globalInput fresh core inGrid index inShard row col]
  exact if_congr (kept_of_untiled op untiled (zero_notMem_of_within _ _ inGrid) (zero_notMem_of_within _ _ inShard)
    _ _ row col rowBound.1 colBound.1 rowInside colInside) rfl rfl

theorem within_zeros (shape : List Int) (extents : ∀ extent ∈ shape, 0 ≤ extent) (tiled : 0 ∉ shape) :
    Within shape (List.replicate shape.length 0) := by
  induction shape with
  | nil => exact List.Forall₂.nil
  | cons extent rest ih =>
      rw [List.mem_cons, not_or] at tiled
      have here := extents extent List.mem_cons_self
      exact List.Forall₂.cons ⟨le_rfl, by omega⟩
        (ih (fun other member => extents other (List.mem_cons_of_mem _ member)) tiled.2)

/-- The first element of the padded shape is the input's although the logical shape is empty. -/
theorem untiled_of_masksPadding (gridRank : 2 ≤ op.gridShape.length) (rank : 2 ≤ op.shardShape.length)
    (masks : MasksPadding op op.regionLoops) : EmptyExtentUntiled op := by
  intro empty
  by_contra tiled
  obtain ⟨nonempty, large⟩ := not_or.mp tiled
  obtain ⟨gridTiled, shardTiled⟩ := not_or.mp nonempty
  have rows : 0 ≤ op.logicalRows := entry_nonneg _ op.logicalExtents _
  have cols : 0 ≤ op.logicalCols := entry_nonneg _ op.logicalExtents _
  have inGrid := within_zeros op.gridShape op.gridExtents gridTiled
  have inShard := within_zeros op.shardShape op.shardExtents shardTiled
  have first (size : Nat) (place : Nat) : (List.replicate size (0 : Int)).getD place 0 = 0 := by
    simp [List.getD_eq_getElem?_getD, List.getElem?_replicate]
    split <;> rfl
  have tileRowZero : tileRow op (List.replicate op.gridShape.length 0) (List.replicate op.shardShape.length 0) = 0 := by
    simp only [tileRow, coreY, rowEntry, first, Int.zero_mul, Int.add_zero]
  have tileColZero : tileCol op (List.replicate op.gridShape.length 0) (List.replicate op.shardShape.length 0) = 0 := by
    simp only [tileCol, coreX, colEntry, first, Int.zero_mul, Int.add_zero]
  have masked := masks Bool false (fun _ _ _ _ => true) ⟨fun _ _ => false, fun _ _ => false, fun _ _ _ => false⟩
    _ inGrid _ inShard 0 0 ⟨le_rfl, op.tileHeightPos⟩ ⟨le_rfl, op.tileWidthPos⟩
  rw [runCore_kept op gridRank rank _ _ _ _ inGrid _ inShard, tileRowZero, tileColZero, globalRow, globalCol,
    tileRowZero, tileColZero, if_pos, if_neg] at masked
  · cases masked
  · omega
  · exact ⟨kept_first _ _ op.tileHeightPos rows (by omega), kept_first _ _ op.tileWidthPos cols (by omega)⟩

theorem matchAndRewrite_eq (loops : List RegionLoop) (rewritten : matchAndRewrite op = some loops) :
    2 ≤ op.gridShape.length ∧ 2 ≤ op.shardShape.length ∧ loops = op.regionLoops := by
  simp only [matchAndRewrite, Option.ite_none_left_eq_some, Option.some.injEq] at rewritten
  obtain ⟨_, _, gridRank, rank, same⟩ := rewritten
  exact ⟨by omega, by omega, same.symm⟩

/-- Whatever the shapes, every core stores each of its tiles once; the padding is masked
exactly when no tile lies over an empty logical extent. -/
theorem decomposeMasking_exact_iff (loops : List RegionLoop) (rewritten : matchAndRewrite op = some loops) :
    (WritesEachTileOnce op loops ∧ MasksPadding op loops) ↔ EmptyExtentUntiled op := by
  obtain ⟨gridRank, rank, rfl⟩ := matchAndRewrite_eq op loops rewritten
  exact ⟨fun both => untiled_of_masksPadding op gridRank rank both.2, fun untiled =>
    ⟨writesEachTileOnce op gridRank rank, masksPadding_of_untiled op gridRank rank untiled⟩⟩

end Exact

def cutRows : MaskOp where
  tensorSemantics := false
  hasDeviceLayout := true
  logicalShape := [50, 64]
  gridShape := [2, 1]
  shardShape := [1, 2]
  kTileHeight := 32
  kTileWidth := 32
  logicalRank := by decide
  logicalExtents := by decide
  gridExtents := by decide
  shardExtents := by decide
  tileHeightPos := by decide
  tileWidthPos := by decide

theorem decomposeMasking_exact_cutRows : matchAndRewrite cutRows = some cutRows.regionLoops ∧
    WritesEachTileOnce cutRows cutRows.regionLoops ∧ MasksPadding cutRows cutRows.regionLoops :=
  ⟨rfl, (decomposeMasking_exact_iff cutRows _ rfl).mpr fun empty => absurd empty (by decide)⟩

def emptyRows : MaskOp where
  tensorSemantics := false
  hasDeviceLayout := true
  logicalShape := [0, 32]
  gridShape := [1, 1]
  shardShape := [1, 1]
  kTileHeight := 32
  kTileWidth := 32
  logicalRank := by decide
  logicalExtents := by decide
  gridExtents := by decide
  shardExtents := by decide
  tileHeightPos := by decide
  tileWidthPos := by decide

/-- The only tile is copied from the input, although none of its rows is logical. -/
theorem emptyRows_unmasked : matchAndRewrite emptyRows = some emptyRows.regionLoops ∧
    emptyRows.regionLoops = [⟨0, 1, 0, 1, .emitPassthrough⟩] ∧
      ¬ (WritesEachTileOnce emptyRows emptyRows.regionLoops ∧ MasksPadding emptyRows emptyRows.regionLoops) := by
  refine ⟨rfl, by decide, fun both => ?_⟩
  have untiled := untiled_of_masksPadding emptyRows (by decide) (by decide) both.2
  exact absurd (untiled (Or.inl (by decide))) (by decide)

end TtMlir.D2m.Masking
