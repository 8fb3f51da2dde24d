import TtMlir.Dma.Coalescing

/-!
Lowering a DMA of one shard to fully indexed transfers. A transfer names the
byte addresses of its first element on both sides and how many elements follow
contiguously; coalescing must not change which elements are copied where.
-/

namespace TtMlir.Dma

open Memory RowMajor MixedRadix

/-- Grid and shard index to device index, grid row, grid column and byte offset. -/
structure RemoteMemoryMap where
  map : AffineMap
  fourResults : map.results.length = 4
  divisorsPositive : ∀ expr ∈ map.results, expr.divisorsPositive = true

def stridedExpr (shape : List Int) : Nat → AffineExpr → Int → AffineExpr
  | 0, strideExpr, _ => strideExpr
  | i + 1, strideExpr, currentStride =>
      stridedExpr shape i (.add (.mul (.dim i) (.const currentStride)) strideExpr)
        (currentStride * shape.getD i 0)

def canonicalStridedMap (shape : List Int) (elementSizeBytes : Int) : AffineMap :=
  { numDims := shape.length, results := [stridedExpr shape shape.length (.const 0) elementSizeBytes] }

/-- A remote map loses its device index. -/
def applyMap (map : AffineMap) (index : List Int) (isRemote : Bool) : List Int :=
  if isRemote then (map.evaluate index).drop 1 else map.evaluate index

structure Transfer where
  remoteIndices : List Int
  localIndices : List Int
  numElems : Nat
  deriving DecidableEq, Repr

def totalIterCount (iterShape iters : List Int) : Nat → Int → Int → Int
  | 0, total, _ => total
  | i + 1, total, currStride =>
      totalIterCount iterShape iters i (currStride * iters.getD i 0 + total) (currStride * iterShape.getD i 0)

def generateDMAWithCoalescing (iterShape : List Int) (coalescingFactor : Nat)
    (emitDMA : List Int → Nat → Transfer) : List Transfer :=
  if (coalescingFactor : Int) = volume iterShape then
    [emitDMA (List.replicate iterShape.length 0) coalescingFactor]
  else
    (loopNest iterShape).flatMap fun iters =>
      if (totalIterCount iterShape iters iterShape.length 0 1).tmod coalescingFactor = 0 then
        [emitDMA iters coalescingFactor]
      else []

def emitDMA (remoteMemoryMap localMemoryMap : AffineMap) (gridIndices iters : List Int) (cf : Nat) :
    Transfer :=
  { remoteIndices := applyMap remoteMemoryMap (gridIndices ++ iters) true
    localIndices := applyMap localMemoryMap iters false
    numElems := cf }

/-- The transfers a DMA of the shard at `gridIndices` is rewritten to. -/
def lowerDMA (remoteMemoryMap : AffineMap) (gridIndices shardShape : List Int) (elemSizeBytes : Int)
    (coalescingFactor : Nat) : List Transfer :=
  generateDMAWithCoalescing shardShape coalescingFactor
    (emitDMA remoteMemoryMap (canonicalStridedMap shardShape elemSizeBytes) gridIndices)

structure ElementCopy where
  core : List Int
  remoteAddress : Int
  localAddress : Int
  deriving DecidableEq, Repr

def Transfer.elements (elemSizeBytes : Int) (transfer : Transfer) : List ElementCopy :=
  (List.range transfer.numElems).map fun element : Nat =>
    { core := transfer.remoteIndices.take 2
      remoteAddress := transfer.remoteIndices.getD 2 0 + element * elemSizeBytes
      localAddress := transfer.localIndices.getD 0 0 + element * elemSizeBytes }

/-- The shard copied element by element, in row-major order. -/
def elementwise (remoteMemoryMap : AffineMap) (gridIndices shardShape : List Int) (elemSizeBytes : Int) :
    List ElementCopy :=
  (loopNest shardShape).map fun iters =>
    { core := (applyMap remoteMemoryMap (gridIndices ++ iters) true).take 2
      remoteAddress := (applyMap remoteMemoryMap (gridIndices ++ iters) true).getD 2 0
      localAddress := rowMajor shardShape iters * elemSizeBytes }

theorem rowMajor_concat (shape index : List Int) (extent digit : Int) (length : index.length = shape.length) :
    rowMajor (shape ++ [extent]) (index ++ [digit]) = rowMajor shape index * extent + digit := by
  induction shape generalizing index with
  | nil =>
      have none : index = [] := List.length_eq_zero_iff.mp length
      simp [none, rowMajor]
  | cons first shape ih =>
      cases index with
      | nil => simp at length
      | cons start index =>
          simp only [List.cons_append, rowMajor, ih index (by simpa using length), List.prod_append,
            List.prod_singleton]
          ring

theorem totalIterCount_eq (iterShape iters : List Int) (length : iters.length = iterShape.length)
    (dims : Nat) (inside : dims ≤ iterShape.length) (total currStride : Int) :
    totalIterCount iterShape iters dims total currStride =
      total + currStride * rowMajor (iterShape.take dims) (iters.take dims) := by
  induction dims generalizing total currStride with
  | zero => simp [totalIterCount, rowMajor]
  | succ dims ih =>
      have shapeInside : dims < iterShape.length := by omega
      have itersInside : dims < iters.length := by omega
      rw [totalIterCount, ih (by omega), List.take_succ_eq_append_getElem shapeInside,
        List.take_succ_eq_append_getElem itersInside, rowMajor_concat _ _ _ _ (by simp [length]),
        List.getD_eq_getElem?_getD, List.getD_eq_getElem?_getD, List.getElem?_eq_getElem shapeInside,
        List.getElem?_eq_getElem itersInside, Option.getD_some, Option.getD_some]
      ring

theorem stridedExpr_eval (shape index : List Int) (dims : Nat) (strideExpr : AffineExpr) (currentStride : Int) :
    (stridedExpr shape dims strideExpr currentStride).eval index [] =
      totalIterCount shape index dims (strideExpr.eval index []) currentStride := by
  induction dims generalizing strideExpr currentStride with
  | zero => rfl
  | succ dims ih =>
      rw [stridedExpr, ih, totalIterCount]
      simp only [AffineExpr.eval, mul_comm]

theorem totalIterCount_rowMajor (iterShape iters : List Int) (length : iters.length = iterShape.length)
    (total currStride : Int) :
    totalIterCount iterShape iters iterShape.length total currStride =
      total + currStride * rowMajor iterShape iters := by
  rw [totalIterCount_eq iterShape iters length _ le_rfl, List.take_length, ← length, List.take_length]

theorem canonicalStridedMap_evaluate (shape index : List Int) (elementSizeBytes : Int)
    (length : index.length = shape.length) :
    (canonicalStridedMap shape elementSizeBytes).evaluate index = [rowMajor shape index * elementSizeBytes] := by
  simp only [canonicalStridedMap, AffineMap.evaluate, List.map_cons, List.map_nil, stridedExpr_eval,
    totalIterCount_rowMajor shape index length, AffineExpr.eval, zero_add]
  rw [mul_comm]

theorem delinearize_length (shape : List Int) (flat : Int) : (delinearize shape flat).length = shape.length := by
  induction shape with
  | nil => rfl
  | cons extent shape ih => simp [delinearize, ih]

section Block
variable (memoryMap : RemoteMemoryMap) (gridIndices shardShape : List Int) (elemSizeBytes : Int)

def remoteAddress (flat : Nat) : List Int :=
  memoryMap.map.evaluate (gridIndices ++ delinearize shardShape flat)

/-- Every position that `factor` does not divide follows its predecessor contiguously. -/
def Contiguous (factor : Nat) : Prop :=
  ∀ flat : Nat, 0 < flat → flat < shardShape.prod.toNat → ¬ factor ∣ flat →
    remoteAddress memoryMap gridIndices shardShape flat =
      addStride (remoteAddress memoryMap gridIndices shardShape (flat - 1)) elemSizeBytes

def copyAt (flat : Nat) : ElementCopy :=
  { core := ((remoteAddress memoryMap gridIndices shardShape flat).drop 1).take 2
    remoteAddress := ((remoteAddress memoryMap gridIndices shardShape flat).drop 1).getD 2 0
    localAddress := flat * elemSizeBytes }

theorem remoteAddress_four (flat : Nat) : ∃ device gridY gridX offset,
    remoteAddress memoryMap gridIndices shardShape flat = [device, gridY, gridX, offset] := by
  have four : (remoteAddress memoryMap gridIndices shardShape flat).length = 4 := by
    rw [remoteAddress, AffineMap.evaluate, List.length_map, memoryMap.fourResults]
  obtain ⟨device, gridY, gridX, offset, shape⟩ := List.length_eq_four.mp four
  exact ⟨device, gridY, gridX, offset, shape⟩

theorem contiguous_block (factor flat element : Nat) (device gridY gridX offset : Int)
    (contiguous : Contiguous memoryMap gridIndices shardShape elemSizeBytes factor)
    (aligned : factor ∣ flat) (inBlock : element < factor) (inside : flat + element < shardShape.prod.toNat)
    (start : remoteAddress memoryMap gridIndices shardShape flat = [device, gridY, gridX, offset]) :
    remoteAddress memoryMap gridIndices shardShape (flat + element) =
      [device, gridY, gridX, offset + element * elemSizeBytes] := by
  induction element with
  | zero => simpa using start
  | succ element ih =>
      have unaligned : ¬ factor ∣ flat + (element + 1) := by
        rw [Nat.dvd_add_right aligned]
        exact Nat.not_dvd_of_pos_of_lt (Nat.succ_pos element) inBlock
      rw [contiguous (flat + (element + 1)) (by omega) inside unaligned,
        show flat + (element + 1) - 1 = flat + element by omega, ih (by omega) (by omega)]
      simp only [addStride, List.length_cons, List.length_nil, Nat.reduceAdd, Nat.reduceSub]
      simp only [List.modify_succ_cons, List.modify_zero_cons]
      push_cast
      ring_nf

theorem transfer_elements (factor flat : Nat)
    (shardPositive : ∀ extent ∈ shardShape, 0 < extent)
    (contiguous : Contiguous memoryMap gridIndices shardShape elemSizeBytes factor)
    (aligned : factor ∣ flat) (inside : flat + factor ≤ shardShape.prod.toNat) (nonzero : 0 < factor) :
    (emitDMA memoryMap.map (canonicalStridedMap shardShape elemSizeBytes) gridIndices
        (delinearize shardShape flat) factor).elements elemSizeBytes =
      (List.range factor).map fun element =>
        copyAt memoryMap gridIndices shardShape elemSizeBytes (flat + element) := by
  obtain ⟨device, gridY, gridX, offset, start⟩ := remoteAddress_four memoryMap gridIndices shardShape flat
  have position : rowMajor shardShape (delinearize shardShape flat) = flat := by
    rw [rowMajor_delinearize shardShape shardPositive, Int.emod_eq_of_lt (by omega) (by omega)]
  apply List.map_congr_left
  intro element member
  have below : element < factor := List.mem_range.mp member
  have block := contiguous_block memoryMap gridIndices shardShape elemSizeBytes factor flat element device
    gridY gridX offset contiguous aligned below (by omega) start
  have remote : memoryMap.map.evaluate (gridIndices ++ delinearize shardShape flat) =
      [device, gridY, gridX, offset] := start
  simp only [emitDMA, applyMap, ↓reduceIte, Bool.false_eq_true, copyAt, block, remote,
    canonicalStridedMap_evaluate shardShape _ elemSizeBytes (delinearize_length shardShape flat), position]
  simp
  ring

theorem elementwise_eq (shardPositive : ∀ extent ∈ shardShape, 0 < extent) :
    elementwise memoryMap.map gridIndices shardShape elemSizeBytes =
      (List.range shardShape.prod.toNat).map (copyAt memoryMap gridIndices shardShape elemSizeBytes) := by
  rw [elementwise, loopNest_eq shardShape shardPositive, List.map_map]
  apply List.map_congr_left
  intro flat member
  have below := List.mem_range.mp member
  have position : rowMajor shardShape (delinearize shardShape flat) = flat := by
    rw [rowMajor_delinearize shardShape shardPositive, Int.emod_eq_of_lt (by omega) (by omega)]
  simp [applyMap, copyAt, remoteAddress, position]

theorem lowerDMA_elements (factor : Nat) (shardPositive : ∀ extent ∈ shardShape, 0 < extent)
    (contiguous : Contiguous memoryMap gridIndices shardShape elemSizeBytes factor)
    (divides : factor ∣ shardShape.prod.toNat) :
    (lowerDMA memoryMap.map gridIndices shardShape elemSizeBytes factor).flatMap
        (Transfer.elements elemSizeBytes) =
      elementwise memoryMap.map gridIndices shardShape elemSizeBytes := by
  have volumePositive := prod_pos shardShape shardPositive
  obtain ⟨count, blocks⟩ := divides
  have nonzero : 0 < factor := by
    rcases Nat.eq_zero_or_pos factor with rfl | positive
    · omega
    · exact positive
  rw [elementwise_eq memoryMap gridIndices shardShape elemSizeBytes shardPositive]
  unfold lowerDMA generateDMAWithCoalescing
  by_cases whole : (factor : Int) = volume shardShape
  · have single := transfer_elements memoryMap gridIndices shardShape elemSizeBytes factor 0 shardPositive
      contiguous (dvd_zero factor) (by rw [volume_prod] at whole; omega) nonzero
    have start := delinearize_zero shardShape
    rw [if_pos whole, List.flatMap_singleton, ← start]
    rw [volume_prod] at whole
    simpa only [← whole, Int.toNat_natCast, Nat.zero_add, Nat.cast_zero] using single
  · -- each guarded iteration contributes the block that starts at it
    have guarded : ∀ flat ∈ List.range shardShape.prod.toNat,
        (if (totalIterCount shardShape (delinearize shardShape flat) shardShape.length 0 1).tmod factor = 0
          then [emitDMA memoryMap.map (canonicalStridedMap shardShape elemSizeBytes) gridIndices
            (delinearize shardShape flat) factor] else []).flatMap (Transfer.elements elemSizeBytes) =
        (if flat % factor = 0 then (List.range factor).map (flat + ·) else []).map
          (copyAt memoryMap gridIndices shardShape elemSizeBytes) := by
      intro flat member
      have below := List.mem_range.mp member
      have count : totalIterCount shardShape (delinearize shardShape flat) shardShape.length 0 1 = flat := by
        rw [totalIterCount_rowMajor shardShape _ (delinearize_length shardShape flat),
          rowMajor_delinearize shardShape shardPositive, Int.emod_eq_of_lt (by omega) (by omega)]
        ring
      rw [count, ← Int.ofNat_tmod]
      by_cases aligned : flat % factor = 0
      · have fits : flat + factor ≤ shardShape.prod.toNat := by
          obtain ⟨block, rfl⟩ := Nat.dvd_of_mod_eq_zero aligned
          rw [blocks] at below ⊢
          have := Nat.lt_of_mul_lt_mul_left below
          calc factor * block + factor = factor * (block + 1) := by ring
            _ ≤ factor * _ := Nat.mul_le_mul_left factor this
        have elements := transfer_elements memoryMap gridIndices shardShape elemSizeBytes factor flat
          shardPositive contiguous (Nat.dvd_of_mod_eq_zero aligned) fits nonzero
        simp only [aligned, Nat.cast_zero, ↓reduceIte, List.flatMap_singleton, List.map_map, elements,
          Function.comp_def]
      · have unaligned : ((flat % factor : Nat) : Int) ≠ 0 := by exact_mod_cast aligned
        simp only [if_neg aligned, if_neg unaligned, List.flatMap_nil, List.map_nil]
    rw [if_neg whole, loopNest_eq shardShape shardPositive, List.flatMap_map, List.flatMap_assoc,
      List.flatMap_congr guarded, ← List.map_flatMap, blocks, mul_comm, range_blocks count factor nonzero]

end Block

/-- A coalesced DMA copies what copying the shard element by element does: the
same elements between the same addresses, in the same order and each one once. -/
theorem coalesced_transfers_exact (memoryMap : RemoteMemoryMap)
    (gridShape shardShape gridIndices : List Int) (elemSizeBytes : Int) (factor coalescingFactor : Nat)
    (gridNonempty : gridShape ≠ []) (onGrid : Within gridShape gridIndices)
    (shardPositive : ∀ extent ∈ shardShape, 0 < extent)
    (calculated : calculateCoalescingFactor memoryMap.map (gridShape ++ shardShape) elemSizeBytes
      gridShape.length = some factor)
    (divides : coalescingFactor ∣ factor) :
    (lowerDMA memoryMap.map gridIndices shardShape elemSizeBytes coalescingFactor).flatMap
        (Transfer.elements elemSizeBytes) =
      elementwise memoryMap.map gridIndices shardShape elemSizeBytes ∧
    (loopNest shardShape).Nodup ∧ (∀ index, index ∈ loopNest shardShape ↔ Within shardShape index) := by
  have known := (calculateCoalescingFactor_divides memoryMap.map (gridShape ++ shardShape) elemSizeBytes
    gridShape.length factor coalescingFactor memoryMap.divisorsPositive (by simpa using shardPositive)
    calculated).mp divides
  rw [List.drop_left, List.take_left, volume_prod] at known
  obtain ⟨volumeDivides, runs⟩ := known
  have sampled := sample_complete gridShape gridIndices gridNonempty onGrid
  refine ⟨?_, loopNest_nodup shardShape shardPositive, mem_loopNest shardShape⟩
  apply lowerDMA_elements memoryMap gridIndices shardShape elemSizeBytes coalescingFactor shardPositive _
    volumeDivides
  intro flat positive below unaligned
  by_contra breaks
  exact unaligned (runs gridIndices sampled flat positive below breaks)

def stridedRows : RemoteMemoryMap where
  map :=
    { numDims := 4
      results := [.const 0, .dim 0, .dim 1, .add (.mul (.dim 2) (.const 16)) (.mul (.dim 3) (.const 2))] }
  fourResults := rfl
  divisorsPositive := by decide

theorem coalesced_transfers_exact_rows :
    (lowerDMA stridedRows.map [0, 1] [2, 4] 2 2).length = 4 ∧
    (lowerDMA stridedRows.map [0, 1] [2, 4] 2 2).flatMap (Transfer.elements 2) =
      elementwise stridedRows.map [0, 1] [2, 4] 2 :=
  ⟨by decide, (coalesced_transfers_exact stridedRows [1, 2] [2, 4] [0, 1] 2 4 2 (by decide)
    (by simp [Within]) (by decide) (by decide +kernel) (by decide)).1⟩

end TtMlir.Dma
