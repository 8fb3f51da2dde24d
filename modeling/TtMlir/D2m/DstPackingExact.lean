import Mathlib.Algebra.Order.BigOperators.GroupWithZero.List
import TtMlir.D2m.DstPacking

/-!
When the packing of a region covers every output within every op's capacity. Outside the
fallback it does, up to shards without tiles and single tiles; the fallback looks at first outputs
only and keeps the entry of the first op that writes a value.
-/

namespace TtMlir.D2m.Dst

/-- `chunk` is the largest divisor of the shard that fits and leaves two flips. -/
structure LargestChunk (shardSizeTiles maxDstTiles chunk : Int) : Prop where
  positive : 0 < chunk
  divides : chunk ∣ shardSizeTiles
  fits : chunk ≤ maxDstTiles
  twice : 2 * chunk ≤ shardSizeTiles
  largest : ∀ other, 0 < other → other ∣ shardSizeTiles → other ≤ maxDstTiles → 2 * other ≤ shardSizeTiles →
    other ≤ chunk

section Chunks

theorem chunkFrom_spec (shardSizeTiles : Int) (candidate : Nat) (positive : 0 < candidate) :
    ∃ chunk, chunkFrom shardSizeTiles candidate = some chunk ∧ 0 < chunk ∧ chunk ≤ candidate ∧ chunk ∣ shardSizeTiles ∧
      ∀ other : Int, 0 < other → other ≤ candidate → other ∣ shardSizeTiles → other ≤ chunk := by
  induction candidate with
  | zero => exact absurd positive (lt_irrefl 0)
  | succ candidate ih =>
    rw [chunkFrom]
    split
    · rename_i divides
      refine ⟨_, rfl, by omega, by push_cast; exact le_rfl, Int.dvd_of_emod_eq_zero divides, fun other _ below _ => ?_⟩
      exact_mod_cast below
    · rename_i divides
      rcases Nat.eq_zero_or_pos candidate with rfl | more
      · simp at divides
      obtain ⟨chunk, found, chunkPos, below, isDivisor, largest⟩ := ih more
      refine ⟨chunk, found, chunkPos, by push_cast; omega, isDivisor, fun other otherPos otherBelow otherDivides => ?_⟩
      -- the candidate itself does not divide
      have different : other ≠ (candidate + 1 : Int) := fun same =>
        divides (Int.emod_eq_zero_of_dvd (same ▸ otherDivides))
      push_cast at otherBelow
      exact largest other otherPos (by omega) otherDivides

theorem largestChunk (shardSizeTiles maxDstTiles : Int) (several : 2 ≤ shardSizeTiles) (room : 0 < maxDstTiles) :
    ∃ chunk, getLargestLegalChunkSize shardSizeTiles maxDstTiles = .ok chunk ∧
      LargestChunk shardSizeTiles maxDstTiles chunk := by
  have candidatePos : 0 < (min maxDstTiles (shardSizeTiles / 2)).toNat := by omega
  obtain ⟨chunk, found, positive, below, divides, largest⟩ := chunkFrom_spec shardSizeTiles _ candidatePos
  refine ⟨chunk, ?_, positive, divides, by omega, by omega, fun other otherPos otherDivides fits twice => ?_⟩
  · rw [getLargestLegalChunkSize, if_neg (by omega), if_neg (by omega), found]
  · exact largest other otherPos (by omega) otherDivides

end Chunks

section Common

theorem foldl_min_le (bound : Int → Int) (numbers : List Int) (start : Int) :
    numbers.foldl (fun smallest number => min smallest (bound number)) start ≤ start ∧
      (∀ number ∈ numbers, numbers.foldl (fun smallest number => min smallest (bound number)) start ≤ bound number) ∧
      ∀ low, low ≤ start → (∀ number ∈ numbers, low ≤ bound number) →
        low ≤ numbers.foldl (fun smallest number => min smallest (bound number)) start := by
  induction numbers generalizing start with
  | nil => simp
  | cons number rest ih =>
    obtain ⟨below, each, above⟩ := ih (min start (bound number))
    simp only [List.foldl_cons]
    refine ⟨below.trans (min_le_left _ _), fun other member => ?_, fun low lowStart lowEach => ?_⟩
    · rcases List.mem_cons.mp member with rfl | later
      · exact below.trans (min_le_right _ _)
      · exact each other later
    · exact above low (le_min lowStart (lowEach number List.mem_cons_self)) fun other member =>
        lowEach other (List.mem_cons_of_mem _ member)

theorem foldl_gcd_dvd (numbers : List Int) (start : Int) :
    numbers.foldl (fun divisor number => (Int.gcd divisor number : Int)) start ∣ start ∧
      ∀ number ∈ numbers, numbers.foldl (fun divisor number => (Int.gcd divisor number : Int)) start ∣ number := by
  induction numbers generalizing start with
  | nil => simp
  | cons number rest ih =>
    obtain ⟨divides, each⟩ := ih (Int.gcd start number : Int)
    simp only [List.foldl_cons]
    refine ⟨divides.trans (Int.gcd_dvd_left ..), fun other member => ?_⟩
    rcases List.mem_cons.mp member with rfl | later
    · exact divides.trans (Int.gcd_dvd_right ..)
    · exact each other later

theorem commonIters (first : Int) (rest : List Int) (several : ∀ flips ∈ first :: rest, 2 ≤ flips) :
    ∃ common, getLargestCommonNumOuterLoopIters first rest = .ok common ∧ 0 < common ∧
      ∀ flips ∈ first :: rest, common ∣ flips ∧ 2 * common ≤ flips := by
  obtain ⟨belowFirst, belowEach, above⟩ := foldl_min_le (fun flips => flips / 2) rest (first / 2)
  obtain ⟨dividesFirst, dividesEach⟩ := foldl_gcd_dvd rest first
  have firstMulti := several first List.mem_cons_self
  have candidatePos := above 1 (by omega) fun flips member => by
    have := several flips (List.mem_cons_of_mem _ member)
    omega
  have gcdNonneg : 0 ≤ rest.foldl (fun divisor numDstFlips => (Int.gcd divisor numDstFlips : Int)) first := by
    cases rest with
    | nil => exact le_trans (by decide) firstMulti
    | cons flips rest =>
      have run (numbers : List Int) (start : Int) (nonneg : 0 ≤ start) :
          0 ≤ numbers.foldl (fun divisor numDstFlips => (Int.gcd divisor numDstFlips : Int)) start := by
        induction numbers generalizing start with
        | nil => exact nonneg
        | cons number numbers ih => exact ih _ (Int.natCast_nonneg _)
      exact run _ _ (by omega)
  have gcdPos : 0 < rest.foldl (fun divisor numDstFlips => (Int.gcd divisor numDstFlips : Int)) first :=
    lt_of_le_of_ne gcdNonneg fun zero => by
      rw [← zero] at dividesFirst
      have := zero_dvd_iff.mp dividesFirst
      omega
  have some : ((Layout.getFactors
      (rest.foldl (fun divisor numDstFlips => (Int.gcd divisor numDstFlips : Int)) first)).reverse.find?
      fun factor => decide (factor ≤ rest.foldl (fun candidate numDstFlips => min candidate (numDstFlips / 2))
        (first / 2))).isSome =
      true :=
    List.find?_isSome.mpr ⟨1, List.mem_reverse.mpr ((Layout.mem_getFactors _ gcdPos 1).mpr ⟨Int.one_pos, one_dvd _⟩),
      decide_eq_true candidatePos⟩
  obtain ⟨common, found⟩ := Option.isSome_iff_exists.mp some
  refine ⟨common, ?_, ?_⟩
  · simp only [getLargestCommonNumOuterLoopIters]
    rw [if_neg (by omega), found]
  · have member := List.mem_reverse.mp (List.mem_of_find?_eq_some found)
    obtain ⟨commonPos, divides⟩ := (Layout.mem_getFactors _ gcdPos common).mp member
    have small : common ≤ rest.foldl (fun candidate numDstFlips => min candidate (numDstFlips / 2)) (first / 2) := by
      simpa using List.find?_some found
    refine ⟨commonPos, fun flips member => ?_⟩
    rcases List.mem_cons.mp member with rfl | later
    · exact ⟨divides.trans dividesFirst, by omega⟩
    · have := belowEach flips later
      exact ⟨divides.trans (dividesEach flips later), by omega⟩

end Common

theorem tryEmplace_apply (perResult : Nat → Option DSTPackingPerResultInfo) (outputValue output : Nat)
    (info : DSTPackingPerResultInfo) : tryEmplace perResult outputValue info output =
      if perResult output = none ∧ outputValue = output then some info else perResult output := by
  unfold tryEmplace
  by_cases same : outputValue = output
  · subst same
    cases found : perResult outputValue <;> simp [found]
  · split
    · simp [same]
    · rw [Function.update_of_ne (Ne.symm same)]
      simp [same]

namespace Region
variable (region : Region)

def shardVolume (output : Nat) : Option Int := (region.type output).staticShape.map List.prod

theorem shardVolume_nonneg (output : Nat) (volume : Int) (isVolume : region.shardVolume output = some volume) :
    0 ≤ volume := by
  obtain ⟨shape, static, rfl⟩ := Option.map_eq_some_iff.mp isVolume
  exact List.prod_nonneg ((region.type output).extents shape static)

omit region in
theorem quotient_pos (tiles count : Nat) (some : 0 < count) (quotient : Int)
    (found : (if tiles < count then none else Option.some ((tiles / count : Nat) : Int)) = Option.some quotient) :
    0 < quotient := by
  split at found
  · cases found
  · rename_i enough
    have positive := Nat.div_pos (not_lt.mp enough) some
    rw [← Option.some.inj found]
    exact_mod_cast positive

theorem capacity_pos (op : LinalgOp) (capacity : Int) (found : region.getMaxDstTilesForLinalgOp op = some capacity) :
    0 < capacity := by
  have outputs : 0 < op.outputs.length := by simp [LinalgOp.outputs]
  simp only [getMaxDstTilesForLinalgOp, LinalgOp.outputs, reduceCtorEq, ↓reduceIte, Option.bind_eq_bind,
    Option.bind_eq_some_iff] at found
  obtain ⟨perOut, -, found⟩ := found
  exact quotient_pos _ _ outputs capacity found

structure Packed (write : LinalgOp × Nat) (pending : PendingDSTPackingResult) : Prop where
  output : pending.outputValue = write.2
  volume : region.shardVolume write.2 = some pending.shardSizeTiles
  product : pending.numDstFlips * pending.numTilesPerFlip = pending.shardSizeTiles
  positive : 0 < pending.numTilesPerFlip
  flips : 2 ≤ pending.numDstFlips
  capacity : ∃ capacity, region.getMaxDstTilesForLinalgOp write.1 = some capacity ∧ pending.numTilesPerFlip ≤ capacity

section Output
variable (write : LinalgOp × Nat)

theorem packOutput_single (volume : region.shardVolume write.2 = some 1) : region.packOutput write = .ok none := by
  obtain ⟨shape, static, one⟩ := Option.map_eq_some_iff.mp volume
  simp [packOutput, static, one]

theorem packOutput_several (volume : Int) (isVolume : region.shardVolume write.2 = some volume) (several : 2 ≤ volume)
    (capacity : Int) (hasCapacity : region.getMaxDstTilesForLinalgOp write.1 = some capacity) :
    ∃ pending, region.packOutput write = .ok (some pending) ∧ region.Packed write pending := by
  obtain ⟨shape, static, rfl⟩ := Option.map_eq_some_iff.mp isVolume
  obtain ⟨chunk, found, largest⟩ := largestChunk shape.prod capacity several
    (region.capacity_pos write.1 capacity hasCapacity)
  have product := Int.ediv_mul_cancel largest.divides
  have flips : 2 ≤ shape.prod / chunk := (Int.le_ediv_iff_mul_le largest.positive).mpr largest.twice
  refine ⟨⟨write.2, shape.prod, chunk, shape.prod / chunk⟩, ?_, rfl, isVolume, product, largest.positive, flips,
    capacity, hasCapacity, largest.fits⟩
  have notOne : shape.prod ≠ 1 := by omega
  simp only [packOutput, static, notOne, ↓reduceIte, hasCapacity, found, bind, Except.bind]
  rw [if_neg (by omega)]

theorem packOutput_cases :
    (region.packOutput write = .error .reported ∧ (region.shardVolume write.2 = none ∨
        region.shardVolume write.2 ≠ some 1 ∧ region.getMaxDstTilesForLinalgOp write.1 = none)) ∨
      (region.packOutput write = .ok none ∧ region.shardVolume write.2 = some 1) ∨
      (region.packOutput write = .error .assertion ∧ region.shardVolume write.2 = some 0 ∧
        (region.getMaxDstTilesForLinalgOp write.1).isSome) ∨
      ∃ pending, region.packOutput write = .ok (some pending) ∧ region.Packed write pending := by
  cases isVolume : region.shardVolume write.2 with
  | none =>
    have static := Option.map_eq_none_iff.mp isVolume
    exact Or.inl ⟨by simp [packOutput, static], Or.inl rfl⟩
  | some volume =>
    have nonneg := region.shardVolume_nonneg write.2 volume isVolume
    rcases eq_or_ne volume 1 with rfl | notOne
    · exact Or.inr (Or.inl ⟨region.packOutput_single write isVolume, rfl⟩)
    obtain ⟨shape, static, rfl⟩ := Option.map_eq_some_iff.mp isVolume
    cases hasCapacity : region.getMaxDstTilesForLinalgOp write.1 with
    | none =>
      refine Or.inl ⟨?_, Or.inr ⟨by simpa using notOne, rfl⟩⟩
      simp [packOutput, static, notOne, hasCapacity]
    | some capacity =>
      rcases Int.lt_or_le shape.prod 2 with few | several
      · have empty : shape.prod = 0 := by omega
        refine Or.inr (Or.inr (Or.inl ⟨?_, by rw [empty], rfl⟩))
        simp [packOutput, static, hasCapacity, getLargestLegalChunkSize, empty, bind, Except.bind]
      · exact Or.inr (Or.inr (Or.inr (region.packOutput_several write _ isVolume several capacity hasCapacity)))

end Output

section Scan

def Packable (write : LinalgOp × Nat) : Prop :=
  region.shardVolume write.2 = some 1 ∨
    (∃ volume, region.shardVolume write.2 = some volume ∧ 2 ≤ volume) ∧ (region.getMaxDstTilesForLinalgOp write.1).isSome

/-- A shard without tiles comes up before any output that cannot be packed. -/
def ReachesEmptyShard : Prop :=
  ∃ before write after, region.writes = before ++ write :: after ∧ region.shardVolume write.2 = some 0 ∧
    (region.getMaxDstTilesForLinalgOp write.1).isSome ∧ ∀ other ∈ before, region.Packable other

variable {region} in
theorem Packed.several {write : LinalgOp × Nat} {pending : PendingDSTPackingResult}
    (packed : region.Packed write pending) : 2 ≤ pending.shardSizeTiles := by
  rw [← packed.product]
  nlinarith [packed.positive, packed.flips]

theorem packed_of_mem (writes : List (LinalgOp × Nat)) (pendingResults : List PendingDSTPackingResult)
    (each : List.Forall₂ region.Packed writes pendingResults) (write : LinalgOp × Nat) (member : write ∈ writes) :
    ∃ pending ∈ pendingResults, region.Packed write pending := by
  obtain ⟨index, below, rfl⟩ := List.getElem_of_mem member
  have inside : index < pendingResults.length := each.length_eq ▸ below
  exact ⟨pendingResults[index], List.getElem_mem inside, (List.forall₂_iff_get.mp each).2 index below inside⟩

theorem packOutput_packable (write : LinalgOp × Nat) :
    (∃ packed, region.packOutput write = .ok packed) ↔ region.Packable write := by
  constructor
  · rintro ⟨packed, isPacked⟩
    rcases region.packOutput_cases write with ⟨failed, -⟩ | ⟨-, one⟩ | ⟨failed, -⟩ | ⟨pending, -, good⟩
    · cases failed.symm.trans isPacked
    · exact Or.inl one
    · cases failed.symm.trans isPacked
    · obtain ⟨capacity, hasCapacity, -⟩ := good.capacity
      exact Or.inr ⟨⟨_, good.volume, good.several⟩, by rw [hasCapacity]; rfl⟩
  · rintro (one | ⟨⟨volume, isVolume, several⟩, hasCapacity⟩)
    · exact ⟨none, region.packOutput_single write one⟩
    · obtain ⟨capacity, found⟩ := Option.isSome_iff_exists.mp hasCapacity
      obtain ⟨pending, isPacked, -⟩ := region.packOutput_several write volume isVolume several capacity found
      exact ⟨_, isPacked⟩

theorem packOutput_assertion (write : LinalgOp × Nat) :
    region.packOutput write = .error .assertion ↔
      region.shardVolume write.2 = some 0 ∧ (region.getMaxDstTilesForLinalgOp write.1).isSome := by
  constructor
  · intro failed
    rcases region.packOutput_cases write with ⟨other, -⟩ | ⟨other, -⟩ | ⟨-, empty⟩ | ⟨pending, other, -⟩
    · cases failed.symm.trans other
    · cases failed.symm.trans other
    · exact empty
    · cases failed.symm.trans other
  · rintro ⟨empty, hasCapacity⟩
    rcases region.packOutput_cases write with ⟨-, other⟩ | ⟨-, other⟩ | ⟨failed, -⟩ | ⟨pending, -, good⟩
    · rw [empty] at other
      rcases other with dynamic | ⟨-, none⟩
      · cases dynamic
      · rw [none] at hasCapacity
        cases hasCapacity
    · cases empty.symm.trans other
    · exact failed
    · have volume := Option.some.inj (empty.symm.trans good.volume)
      have several := good.several
      omega

theorem scan_assertion :
    region.writes.mapM region.packOutput = .error .assertion ↔ region.ReachesEmptyShard := by
  rw [mapM_eq_error]
  constructor
  · rintro ⟨before, write, after, split, failed, passed⟩
    obtain ⟨empty, hasCapacity⟩ := (region.packOutput_assertion write).mp failed
    exact ⟨before, write, after, split, empty, hasCapacity, fun other member =>
      (region.packOutput_packable other).mp (passed other member)⟩
  · rintro ⟨before, write, after, split, empty, hasCapacity, passed⟩
    exact ⟨before, write, after, split, (region.packOutput_assertion write).mpr ⟨empty, hasCapacity⟩,
      fun other member => (region.packOutput_packable other).mpr (passed other member)⟩

def Scanned (write : LinalgOp × Nat) : Option PendingDSTPackingResult → Prop
  | none => region.shardVolume write.2 = some 1
  | some pending => region.Packed write pending

theorem scan_ok (scanned : List (Option PendingDSTPackingResult))
    (passed : region.writes.mapM region.packOutput = .ok scanned) :
    List.Forall₂ region.Scanned region.writes scanned := by
  refine ((mapM_eq_ok _ _ _).mp passed).imp fun write entry isEntry => ?_
  rcases region.packOutput_cases write with ⟨other, -⟩ | ⟨other, one⟩ | ⟨other, -⟩ | ⟨pending, other, good⟩
  · cases isEntry.symm.trans other
  · cases isEntry.symm.trans other
    exact one
  · cases isEntry.symm.trans other
  · cases isEntry.symm.trans other
    exact good

theorem all_packed (writes : List (LinalgOp × Nat)) (scanned : List (Option PendingDSTPackingResult))
    (each : List.Forall₂ region.Scanned writes scanned)
    (noSingle : (writes.zip scanned).filter (fun entry => entry.2.isNone) = []) :
    List.Forall₂ region.Packed writes (scanned.filterMap id) := by
  induction each with
  | nil => exact .nil
  | @cons write entry writes scanned first rest ih =>
    rw [List.zip_cons_cons, List.filter_cons] at noSingle
    cases entry with
    | none => simp at noSingle
    | some pending => exact .cons first (ih (by simpa using noSingle))

theorem all_single (writes : List (LinalgOp × Nat)) (scanned : List (Option PendingDSTPackingResult))
    (each : List.Forall₂ region.Scanned writes scanned) (noPending : scanned.filterMap id = []) :
    (∀ write ∈ writes, region.shardVolume write.2 = some 1) ∧
      ((writes.zip scanned).filter fun entry => entry.2.isNone).map (fun entry => entry.1.2) = writes.map Prod.snd := by
  induction each with
  | nil => simp
  | @cons write entry writes scanned first rest ih =>
    cases entry with
    | some pending => simp at noPending
    | none =>
      obtain ⟨single, listed⟩ := ih (by simpa using noPending)
      constructor
      · intro other member
        rcases List.mem_cons.mp member with rfl | later
        · exact first
        · exact single other later
      · rw [List.zip_cons_cons, List.filter_cons_of_pos rfl, List.map_cons, listed, List.map_cons]

theorem packed_shrink (write : LinalgOp × Nat) (pending : PendingDSTPackingResult)
    (packed : region.Packed write pending)
    (chunk : Int) (positive : 0 < chunk) (smaller : chunk ≤ pending.numTilesPerFlip)
    (divides : pending.shardSizeTiles % chunk = 0) :
    region.Packed write { pending with numTilesPerFlip := chunk, numDstFlips := pending.shardSizeTiles / chunk } := by
  have product := Int.ediv_mul_cancel (Int.dvd_of_emod_eq_zero divides)
  have twice : 2 * chunk ≤ pending.shardSizeTiles := by
    rw [← packed.product]
    nlinarith [packed.flips]
  obtain ⟨capacity, hasCapacity, fits⟩ := packed.capacity
  exact ⟨packed.output, packed.volume, product, positive, (Int.le_ediv_iff_mul_le positive).mpr twice,
    capacity, hasCapacity, smaller.trans fits⟩

theorem pending_of_single (writes : List (LinalgOp × Nat)) (scanned : List (Option PendingDSTPackingResult))
    (each : List.Forall₂ region.Scanned writes scanned)
    (single : ∀ write ∈ writes, region.shardVolume write.2 = some 1) : scanned.filterMap id = [] := by
  induction each with
  | nil => rfl
  | @cons write entry writes scanned first rest ih =>
    have later := ih fun other member => single other (List.mem_cons_of_mem _ member)
    cases entry with
    | none => simpa using later
    | some pending =>
      have volume := Option.some.inj (first.volume.symm.trans (single write List.mem_cons_self))
      have several := first.several
      omega

theorem normalize_packed (writes : List (LinalgOp × Nat)) (pendingResults : List PendingDSTPackingResult)
    (each : List.Forall₂ region.Packed writes pendingResults) :
    List.Forall₂ region.Packed writes (normalize pendingResults) := by
  have positive : ∀ pending ∈ pendingResults, 0 < pending.numTilesPerFlip := by
    induction each with
    | nil => simp
    | cons packed rest ih =>
      intro pending member
      rcases List.mem_cons.mp member with rfl | later
      · exact packed.positive
      · exact ih pending later
  have bring (chunk : Int) (chunkPos : 0 < chunk)
      (least : ∀ pending ∈ pendingResults, chunk ≤ pending.numTilesPerFlip) :
      List.Forall₂ region.Packed writes (pendingResults.map fun pending =>
        if pending.numTilesPerFlip ≠ chunk ∧ pending.shardSizeTiles % chunk = 0 then
          { pending with numTilesPerFlip := chunk, numDstFlips := pending.shardSizeTiles / chunk }
        else pending) := by
    clear positive
    induction each with
    | nil => exact .nil
    | @cons write pending writes rest packed _ ih =>
      refine .cons ?_ (ih fun other member => least other (List.mem_cons_of_mem _ member))
      dsimp only
      split
      · rename_i smaller
        exact region.packed_shrink write pending packed chunk chunkPos (least pending List.mem_cons_self) smaller.2
      · exact packed
  cases pendingResults with
  | nil => exact each
  | cons first rest =>
    obtain ⟨belowFirst, belowEach, above⟩ := foldl_min_le id (rest.map PendingDSTPackingResult.numTilesPerFlip)
      first.numTilesPerFlip
    rw [List.foldl_map] at belowFirst belowEach above
    refine bring _ ?_ fun pending member => ?_
    · refine above 1 (positive first List.mem_cons_self) fun number member => ?_
      obtain ⟨pending, listed, rfl⟩ := List.mem_map.mp member
      exact positive pending (List.mem_cons_of_mem _ listed)
    · rcases List.mem_cons.mp member with rfl | later
      · exact belowFirst
      · exact belowEach _ (List.mem_map_of_mem later)

end Scan

/-- For every output of every op an entry covers the shard within the op's capacity. -/
def Covers (info : DSTPackingRegionInfo) : Prop :=
  ∀ op ∈ region.linalgOps, ∀ output ∈ op.outputs, ∃ entry volume capacity,
    info.perResult output = some entry ∧ region.shardVolume output = some volume ∧
      region.getMaxDstTilesForLinalgOp op = some capacity ∧
      info.numOuterLoopIters * entry.numDstFlips * entry.numTilesPerFlip = volume ∧
      entry.numTilesPerFlip ≤ capacity ∧ (1 < volume → 2 ≤ entry.numDstFlips)

theorem mem_writes (write : LinalgOp × Nat) :
    write ∈ region.writes ↔ write.1 ∈ region.linalgOps ∧ write.2 ∈ write.1.outputs := by
  rcases write with ⟨op, output⟩
  simp [writes]

section Emplace

/-- Entries of the packings so far: each is the entry of a writer of its value, and no writer
of the value has a smaller chunk. -/
structure Emplaced (common : Int) (seen : List PendingDSTPackingResult)
    (perResult : Nat → Option DSTPackingPerResultInfo) : Prop where
  recorded : ∀ output entry, perResult output = some entry → ∃ writer ∈ seen, writer.outputValue = output ∧
    entry.numDstFlips = writer.numDstFlips / common ∧ entry.numTilesPerFlip = writer.numTilesPerFlip
  smallest : ∀ pending ∈ seen, ∃ entry, perResult pending.outputValue = some entry ∧
    entry.numTilesPerFlip ≤ pending.numTilesPerFlip

variable {common : Int} {seen : List PendingDSTPackingResult} {perResult : Nat → Option DSTPackingPerResultInfo}

section
variable (emplaced : Emplaced common seen perResult) (pending : PendingDSTPackingResult)
include emplaced

theorem Emplaced.update (smaller : ∀ existing, perResult pending.outputValue = some existing →
      pending.numTilesPerFlip ≤ existing.numTilesPerFlip) (tiles : Int) :
    Emplaced common (seen ++ [pending]) (Function.update perResult pending.outputValue
      (some ⟨pending.numDstFlips / common, pending.numTilesPerFlip, tiles⟩)) := by
  constructor
  · intro output entry isEntry
    by_cases same : output = pending.outputValue
    · rw [same, Function.update_self] at isEntry
      cases isEntry
      exact ⟨pending, by simp, same.symm, rfl, rfl⟩
    · rw [Function.update_of_ne same] at isEntry
      obtain ⟨writer, listed, origin⟩ := emplaced.recorded output entry isEntry
      exact ⟨writer, List.mem_append_left _ listed, origin⟩
  · intro other member
    by_cases same : other.outputValue = pending.outputValue
    · refine ⟨_, by rw [same, Function.update_self], ?_⟩
      rcases List.mem_append.mp member with old | new
      · obtain ⟨entry, isEntry, least⟩ := emplaced.smallest other old
        exact (smaller entry (same ▸ isEntry)).trans least
      · rw [List.mem_singleton.mp new]
    · rw [Function.update_of_ne same]
      rcases List.mem_append.mp member with old | new
      · exact emplaced.smallest other old
      · exact absurd (congrArg _ (List.mem_singleton.mp new)) same

theorem Emplaced.keep (existing : DSTPackingPerResultInfo) (isEntry : perResult pending.outputValue = some existing)
    (smaller : existing.numTilesPerFlip ≤ pending.numTilesPerFlip) :
    Emplaced common (seen ++ [pending]) perResult := by
  constructor
  · intro output entry found
    obtain ⟨writer, listed, origin⟩ := emplaced.recorded output entry found
    exact ⟨writer, List.mem_append_left _ listed, origin⟩
  · intro other member
    rcases List.mem_append.mp member with old | new
    · exact emplaced.smallest other old
    · rw [List.mem_singleton.mp new]
      exact ⟨existing, isEntry, smaller⟩

theorem emplacePending_spec (positive : 0 < common) (divides : common ∣ pending.numDstFlips) (twice : 2 * common ≤ pending.numDstFlips) :
    ∃ next, emplacePending common perResult pending = .ok next ∧ Emplaced common (seen ++ [pending]) next := by
  have exact := Int.emod_eq_zero_of_dvd divides
  have flips : 2 ≤ pending.numDstFlips / common := (Int.le_ediv_iff_mul_le positive).mpr twice
  simp only [emplacePending]
  rw [if_neg (by omega)]
  cases isEntry : perResult pending.outputValue with
  | none => exact ⟨_, rfl, emplaced.update pending (fun existing found => by cases isEntry.symm.trans found) _⟩
  | some existing =>
    dsimp only
    split
    · rename_i smaller
      refine ⟨_, rfl, emplaced.update pending (fun other found => ?_) _⟩
      cases isEntry.symm.trans found
      exact smaller.le
    · rename_i larger
      exact ⟨_, rfl, emplaced.keep pending existing isEntry (not_lt.mp larger)⟩

end

theorem emplaceAll (positive : 0 < common) (pendingResults : List PendingDSTPackingResult)
    (fits : ∀ pending ∈ pendingResults, common ∣ pending.numDstFlips ∧ 2 * common ≤ pending.numDstFlips)
    (emplaced : Emplaced common seen perResult) :
    ∃ final, pendingResults.foldlM (emplacePending common) perResult = .ok final ∧
      Emplaced common (seen ++ pendingResults) final := by
  induction pendingResults generalizing seen perResult with
  | nil => exact ⟨perResult, rfl, by simpa using emplaced⟩
  | cons pending rest ih =>
    obtain ⟨divides, twice⟩ := fits pending List.mem_cons_self
    obtain ⟨next, isNext, after⟩ := emplacePending_spec emplaced pending positive divides twice
    obtain ⟨final, isFinal, all⟩ := ih (fun other member => fits other (List.mem_cons_of_mem _ member)) after
    refine ⟨final, ?_, by simpa using all⟩
    rw [List.foldlM_cons, isNext]
    exact isFinal

theorem emplaced_nil : Emplaced common [] fun _ => none :=
  ⟨fun _ _ isEntry => (by cases isEntry), fun _ member => absurd member List.not_mem_nil⟩

theorem covers_emplaced (pendingResults : List PendingDSTPackingResult)
    (each : List.Forall₂ region.Packed region.writes pendingResults) (positive : 0 < common)
    (fits : ∀ pending ∈ pendingResults, common ∣ pending.numDstFlips ∧ 2 * common ≤ pending.numDstFlips)
    (emplaced : Emplaced common pendingResults perResult) (tiles : Int) :
    region.Covers ⟨perResult, tiles, common⟩ := by
  have back (pending : PendingDSTPackingResult) (member : pending ∈ pendingResults) :
      ∃ write, region.Packed write pending := by
    obtain ⟨index, below, rfl⟩ := List.getElem_of_mem member
    have inside : index < region.writes.length := each.length_eq ▸ below
    exact ⟨region.writes[index], List.forall₂_iff_get.mp each |>.2 index inside below⟩
  intro op isOp output isOutput
  obtain ⟨pending, listed, packed⟩ :=
    region.packed_of_mem _ _ each (op, output) ((region.mem_writes _).mpr ⟨isOp, isOutput⟩)
  obtain ⟨capacity, hasCapacity, within⟩ := packed.capacity
  obtain ⟨entry, isEntry, least⟩ := emplaced.smallest pending listed
  obtain ⟨writer, isWriter, same, flips, chunk⟩ := emplaced.recorded _ entry isEntry
  obtain ⟨write, writerPacked⟩ := back writer isWriter
  obtain ⟨divides, twice⟩ := fits writer isWriter
  have sameOutput : write.2 = output := writerPacked.output.symm.trans (same.trans packed.output)
  have quotient := Int.mul_ediv_cancel' divides
  refine ⟨entry, writer.shardSizeTiles, capacity, ?_, ?_, hasCapacity, ?_, least.trans within, fun _ => ?_⟩
  · rw [← isEntry, packed.output]
  · rw [← sameOutput]
    exact writerPacked.volume
  · rw [flips, chunk, quotient, writerPacked.product]
  · rw [flips]
    exact (Int.le_ediv_iff_mul_le positive).mpr twice

end Emplace

section Shared

structure InfoOf (op : LinalgOp) (info : OpInfo) : Prop where
  output : info.outputValue = op.firstOutput
  shape : ∃ col cols, (region.type op.firstOutput).staticShape = some (info.rowDim :: col :: cols) ∧
    info.colProduct = (col :: cols).prod
  shard : info.shardSizeTiles = info.rowDim * info.colProduct
  several : 2 ≤ info.shardSizeTiles
  capacity : region.getMaxDstTilesForLinalgOp op = some info.maxDstTiles

theorem opInfo_spec (op : LinalgOp) (info : OpInfo) (found : region.opInfo op = some info) : region.InfoOf op info := by
  unfold opInfo at found
  split at found
  · rename_i rowDim col cols static
    dsimp only at found
    split at found
    · cases found
    · rename_i several
      obtain ⟨maxDstTiles, hasCapacity, isInfo⟩ := Option.bind_eq_some_iff.mp found
      cases isInfo
      exact ⟨rfl, ⟨col, cols, static, rfl⟩, rfl, not_le.mp several, hasCapacity⟩
  · cases found

variable {region} in
theorem InfoOf.volume {op : LinalgOp} {info : OpInfo} (isInfo : region.InfoOf op info) :
    region.shardVolume info.outputValue = some info.shardSizeTiles := by
  obtain ⟨col, cols, static, product⟩ := isInfo.shape
  rw [shardVolume, isInfo.output, static, isInfo.shard, product, Option.map_some, List.prod_cons]

variable {region} in
theorem InfoOf.colProduct_pos {op : LinalgOp} {info : OpInfo} (isInfo : region.InfoOf op info)
    (rows : 0 < info.rowDim) :
    0 < info.colProduct := by
  have several := isInfo.several
  rw [isInfo.shard] at several
  exact (pos_iff_pos_of_mul_pos (show 0 < info.rowDim * info.colProduct by omega)).mp rows

structure SharedEntry (share : Int) (info : OpInfo) (entry : DSTPackingPerResultInfo) : Prop where
  chunk : ∃ chunk, LargestChunk (share * info.colProduct) info.maxDstTiles chunk ∧
    entry.numTilesPerFlip = min chunk info.colProduct
  product : entry.numDstFlips * entry.numTilesPerFlip = share * info.colProduct
  flips : 2 ≤ entry.numDstFlips

variable {share : Int}

theorem chunkShared_spec (op : LinalgOp) (info : OpInfo) (isInfo : region.InfoOf op info) (rows : 0 < info.rowDim)
    (several : 2 ≤ share) (divides : share ∣ info.rowDim) :
    ∃ entry, chunkShared (info.rowDim / share) info = .ok (some entry) ∧ SharedEntry share info entry := by
  have colPos := isInfo.colProduct_pos rows
  have perIter : info.shardSizeTiles / (info.rowDim / share) = share * info.colProduct := by
    obtain ⟨iters, split⟩ := divides
    have itersPos : 0 < iters := (pos_iff_pos_of_mul_pos (split ▸ rows)).mp (by omega)
    rw [isInfo.shard, split, Int.mul_ediv_cancel_left _ (by omega : share ≠ 0)]
    rw [mul_right_comm, Int.mul_ediv_cancel _ itersPos.ne']
  have enough : 2 ≤ share * info.colProduct := by nlinarith
  obtain ⟨chunk, found, largest⟩ := largestChunk _ info.maxDstTiles enough (region.capacity_pos op _ isInfo.capacity)
  have tilesPos : 0 < min chunk info.colProduct := lt_min largest.positive colPos
  have tilesDivide : min chunk info.colProduct ∣ share * info.colProduct := by
    rcases min_choice chunk info.colProduct with same | same
    · rw [same]
      exact largest.divides
    · rw [same]
      exact Dvd.intro_left share rfl
  have twice : 2 * min chunk info.colProduct ≤ share * info.colProduct := by
    have := largest.twice
    have := min_le_left chunk info.colProduct
    omega
  have flips : 2 ≤ share * info.colProduct / min chunk info.colProduct := (Int.le_ediv_iff_mul_le tilesPos).mpr twice
  refine ⟨⟨share * info.colProduct / min chunk info.colProduct, min chunk info.colProduct, share * info.colProduct⟩, ?_,
    ⟨chunk, largest, rfl⟩, Int.ediv_mul_cancel tilesDivide, flips⟩
  simp only [chunkShared, perIter]
  rw [if_neg (by omega), found]
  simp only [bind, Except.bind]
  rw [if_neg (by omega)]

theorem chunkAllShared_spec (commonRowDim : Int) (rows : 0 < commonRowDim) (several : 2 ≤ share)
    (divides : share ∣ commonRowDim) (opInfos : List OpInfo)
    (each : ∀ info ∈ opInfos, info.rowDim = commonRowDim ∧ ∃ op, region.InfoOf op info)
    (perResult : Nat → Option DSTPackingPerResultInfo) :
    ∃ final, chunkAllShared (commonRowDim / share) opInfos perResult = .ok (some final) ∧ ∀ output,
      (∀ entry, perResult output = some entry → final output = some entry) ∧
      (perResult output = none → (∀ info, opInfos.find? (fun info => decide (info.outputValue = output)) = some info →
          ∃ entry, final output = some entry ∧ SharedEntry share info entry) ∧
        (opInfos.find? (fun info => decide (info.outputValue = output)) = none → final output = none)) := by
  induction opInfos generalizing perResult with
  | nil => exact ⟨perResult, rfl,
    fun output => ⟨fun _ same => same, fun none => ⟨fun _ found => (by cases found), fun _ => none⟩⟩⟩
  | cons info rest ih =>
    obtain ⟨sameRows, op, isInfo⟩ := each info List.mem_cons_self
    obtain ⟨entry, isEntry, shared⟩ := region.chunkShared_spec op info isInfo (sameRows ▸ rows) several
      (sameRows ▸ divides)
    rw [sameRows] at isEntry
    obtain ⟨final, isFinal, entries⟩ := ih (fun other member => each other (List.mem_cons_of_mem _ member))
      (tryEmplace perResult info.outputValue entry)
    refine ⟨final, ?_, fun output => ?_⟩
    · simp only [chunkAllShared, isEntry, bind, Except.bind]
      exact isFinal
    obtain ⟨kept, added⟩ := entries output
    have emplaced := tryEmplace_apply perResult info.outputValue output entry
    constructor
    · intro old isOld
      refine kept old ?_
      rw [emplaced, if_neg (by simp [isOld]), isOld]
    · intro fresh
      rw [List.find?_cons]
      by_cases same : info.outputValue = output
      · rw [emplaced, if_pos ⟨fresh, same⟩] at kept
        simp only [same, decide_true]
        exact ⟨fun found isFound => ⟨entry, kept entry rfl, Option.some.inj isFound ▸ shared⟩,
          fun none => (by cases none)⟩
      · rw [emplaced, if_neg (by simp [same])] at added
        simp only [same, decide_false]
        exact added fresh

def sharedRows : Option Int :=
  match region.sharedOpInfos with
  | none => none
  | some (_, commonRowDim) =>
    (Layout.getFactors commonRowDim).reverse.find? fun factor => decide (factor < commonRowDim ∧ 2 ≤ factor)

theorem sharedOpInfos_spec (opInfos : List OpInfo) (commonRowDim : Int)
    (found : region.sharedOpInfos = some (opInfos, commonRowDim)) :
    List.Forall₂ (fun op info => region.opInfo op = some info) region.linalgOps opInfos ∧ 2 ≤ commonRowDim ∧
      ∀ info ∈ opInfos, info.rowDim = commonRowDim ∧ ∃ op, region.InfoOf op info := by
  obtain ⟨infos, each, found⟩ := Option.bind_eq_some_iff.mp found
  have paired := (mapM_eq_some _ _ _).mp each
  cases infos with
  | nil => cases found
  | cons first rest =>
    dsimp only at found
    split at found
    · cases found
    rename_i sameRows
    split at found
    · cases found
    rename_i enough
    cases found
    refine ⟨paired, by omega, fun info member => ⟨?_, ?_⟩⟩
    · by_contra differ
      exact sameRows (List.any_eq_true.mpr ⟨info, member, decide_eq_true differ⟩)
    · obtain ⟨index, below, rfl⟩ := List.getElem_of_mem member
      have inside : index < region.linalgOps.length := paired.length_eq ▸ below
      exact ⟨_, region.opInfo_spec _ _ ((List.forall₂_iff_get.mp paired).2 index inside below)⟩

theorem tryFactors_spec (commonRowDim : Int) (rows : 0 < commonRowDim) (opInfos : List OpInfo)
    (each : ∀ info ∈ opInfos, info.rowDim = commonRowDim ∧ ∃ op, region.InfoOf op info) (factors : List Int)
    (divide : ∀ factor ∈ factors, factor ∣ commonRowDim) :
    (factors.find? (fun factor => decide (factor < commonRowDim ∧ 2 ≤ factor)) = none →
      tryFactors opInfos commonRowDim factors = .ok none) ∧
    ∀ share, factors.find? (fun factor => decide (factor < commonRowDim ∧ 2 ≤ factor)) = some share →
      share ∣ commonRowDim ∧ 2 ≤ share ∧ ∃ final tiles,
        tryFactors opInfos commonRowDim factors = .ok (some ⟨final, tiles, commonRowDim / share⟩) ∧ ∀ output,
          (∀ info, opInfos.find? (fun info => decide (info.outputValue = output)) = some info →
            ∃ entry, final output = some entry ∧ SharedEntry share info entry) ∧
          (opInfos.find? (fun info => decide (info.outputValue = output)) = none → final output = none) := by
  induction factors with
  | nil => exact ⟨fun _ => rfl, fun _ found => by cases found⟩
  | cons factor rest ih =>
    by_cases proper : factor < commonRowDim ∧ 2 ≤ factor
    · refine ⟨fun none => by simp [proper] at none, fun share found => ?_⟩
      rw [List.find?_cons_of_pos (by simpa using proper)] at found
      cases found
      have divides := divide factor List.mem_cons_self
      obtain ⟨final, isFinal, entries⟩ :=
        region.chunkAllShared_spec commonRowDim rows proper.2 divides opInfos each fun _ => none
      refine ⟨divides, proper.2, final, (opInfos.head?.map OpInfo.shardSizeTiles).getD 0 / (commonRowDim / factor), ?_,
        fun output => (entries output).2 rfl⟩
      rw [tryFactors, if_neg (by omega)]
      simp only [isFinal, bind, Except.bind]
    · rw [List.find?_cons_of_neg (by simpa using proper), tryFactors, if_pos (by omega)]
      exact ih fun other member => divide other (List.mem_cons_of_mem _ member)

/-- The chunk the fallback takes for the writer's output also fits the other op. -/
def ChunkFits (share : Int) (writer op : LinalgOp) : Prop :=
  ∃ rowDim cols writerCapacity capacity, (region.type writer.firstOutput).staticShape = some (rowDim :: cols) ∧
    region.getMaxDstTilesForLinalgOp writer = some writerCapacity ∧
    region.getMaxDstTilesForLinalgOp op = some capacity ∧
    (cols.prod ≤ capacity ∨ ∀ chunk, 0 < chunk → chunk ∣ share * cols.prod → chunk ≤ writerCapacity →
      2 * chunk ≤ share * cols.prod → chunk ≤ capacity)

/-- Every output is the first output of some op, and the chunk of the first such op fits. -/
def FallbackFits (share : Int) : Prop :=
  ∀ op ∈ region.linalgOps, ∀ output ∈ op.outputs, ∃ writer,
    region.linalgOps.find? (fun other => decide (other.firstOutput = output)) = some writer ∧
      region.ChunkFits share writer op

theorem entry_fits (writer op : LinalgOp) (info : OpInfo) (isInfo : region.InfoOf writer info)
    (entry : DSTPackingPerResultInfo) (shared : SharedEntry share info entry) (capacity : Int)
    (hasCapacity : region.getMaxDstTilesForLinalgOp op = some capacity) :
    entry.numTilesPerFlip ≤ capacity ↔ region.ChunkFits share writer op := by
  obtain ⟨chunk, largest, tiles⟩ := shared.chunk
  obtain ⟨col, cols, static, product⟩ := isInfo.shape
  rw [tiles, min_le_iff, product]
  rw [product] at largest
  constructor
  · intro fits
    refine ⟨_, _, _, _, static, isInfo.capacity, hasCapacity, fits.symm.imp_right fun small => ?_⟩
    exact fun other positive divides within twice => (largest.largest other positive divides within twice).trans small
  · rintro ⟨rowDim', cols', writerCapacity, capacity', static', writerHas, has, fits⟩
    cases static.symm.trans static'
    cases isInfo.capacity.symm.trans writerHas
    cases hasCapacity.symm.trans has
    exact fits.symm.imp_left fun all => all chunk largest.positive largest.divides largest.fits largest.twice

theorem find_info (output : Nat) (ops : List LinalgOp) (opInfos : List OpInfo)
    (each : List.Forall₂ (fun op info => region.opInfo op = some info) ops opInfos) :
    (∀ writer, ops.find? (fun other => decide (other.firstOutput = output)) = some writer → ∃ info,
        opInfos.find? (fun info => decide (info.outputValue = output)) = some info ∧ region.InfoOf writer info) ∧
      (ops.find? (fun other => decide (other.firstOutput = output)) = none →
        opInfos.find? (fun info => decide (info.outputValue = output)) = none) := by
  induction each with
  | nil => exact ⟨fun _ found => (by cases found), fun _ => rfl⟩
  | @cons op info ops opInfos isInfo rest ih =>
    have spec := region.opInfo_spec op info isInfo
    rw [List.find?_cons, List.find?_cons, spec.output]
    by_cases same : op.firstOutput = output
    · simp only [same, decide_true]
      exact ⟨fun writer found => ⟨info, rfl, Option.some.inj found ▸ spec⟩, fun none => (by cases none)⟩
    · simp only [same, decide_false]
      exact ih

theorem covers_shared (opInfos : List OpInfo) (commonRowDim : Int)
    (each : List.Forall₂ (fun op info => region.opInfo op = some info) region.linalgOps opInfos)
    (sameRows : ∀ info ∈ opInfos, info.rowDim = commonRowDim ∧ ∃ op, region.InfoOf op info)
    (divides : share ∣ commonRowDim) (final : Nat → Option DSTPackingPerResultInfo) (tiles : Int)
    (entries : ∀ output, (∀ info, opInfos.find? (fun info => decide (info.outputValue = output)) = some info →
        ∃ entry, final output = some entry ∧ SharedEntry share info entry) ∧
      (opInfos.find? (fun info => decide (info.outputValue = output)) = none → final output = none)) :
    region.Covers ⟨final, tiles, commonRowDim / share⟩ ↔ region.FallbackFits share := by
  have hasCapacity (op : LinalgOp) (isOp : op ∈ region.linalgOps) :
      ∃ capacity, region.getMaxDstTilesForLinalgOp op = some capacity := by
    obtain ⟨index, below, rfl⟩ := List.getElem_of_mem isOp
    have inside : index < opInfos.length := each.length_eq ▸ below
    exact ⟨_, (region.opInfo_spec _ _ ((List.forall₂_iff_get.mp each).2 index below inside)).capacity⟩
  constructor
  · intro covers op isOp output isOutput
    obtain ⟨entry, volume, capacity, isEntry, -, has, -, fits, -⟩ := covers op isOp output isOutput
    cases first : region.linalgOps.find? fun other => decide (other.firstOutput = output) with
    | none =>
      have absent := (entries output).2 ((region.find_info output _ _ each).2 first)
      cases absent.symm.trans isEntry
    | some writer =>
      obtain ⟨info, found, isInfo⟩ := (region.find_info output _ _ each).1 writer first
      obtain ⟨entry', isEntry', shared⟩ := (entries output).1 info found
      cases isEntry.symm.trans isEntry'
      exact ⟨writer, rfl, (region.entry_fits writer op info isInfo entry shared capacity has).mp fits⟩
  · intro fits op isOp output isOutput
    obtain ⟨writer, first, chunkFits⟩ := fits op isOp output isOutput
    obtain ⟨info, found, isInfo⟩ := (region.find_info output _ _ each).1 writer first
    obtain ⟨entry, isEntry, shared⟩ := (entries output).1 info found
    obtain ⟨capacity, has⟩ := hasCapacity op isOp
    have ofRows := (sameRows info (List.mem_of_find?_eq_some found)).1
    have isOutput' : info.outputValue = output := by simpa using List.find?_some found
    refine ⟨entry, info.shardSizeTiles, capacity, isEntry, isOutput' ▸ isInfo.volume, has, ?_,
      (region.entry_fits writer op info isInfo entry shared capacity has).mpr chunkFits, fun _ => shared.flips⟩
    rw [mul_assoc, shared.product, ← mul_assoc, Int.ediv_mul_cancel divides, isInfo.shard, ofRows]

end Shared

section Exact

def collapses (pendingResults : List PendingDSTPackingResult) : Bool :=
  match pendingResults with
  | [] => false
  | first :: rest =>
    match getLargestCommonNumOuterLoopIters first.numDstFlips (rest.map PendingDSTPackingResult.numDstFlips) with
    | .error _ => false
    | .ok common => decide (common ≤ 1 ∧ 2 ≤ pendingResults.length ∧ heterogeneous pendingResults = true)

def fallbackShare : Option Int :=
  match region.writes.mapM region.packOutput with
  | .error _ => none
  | .ok scanned =>
    if region.singleTiles scanned = [] ∧ collapses (normalize (scanned.filterMap id)) = true then region.sharedRows
    else none

def Meets : Prop :=
  region.computeDSTPackingForRegion ≠ .error .assertion ∧
    ∀ info, region.computeDSTPackingForRegion = .ok info → region.Covers info

structure Safe : Prop where
  tiles : ¬ region.ReachesEmptyShard
  singles : (∀ write ∈ region.writes, region.shardVolume write.2 = some 1) →
    ∀ op ∈ region.linalgOps, (region.getMaxDstTilesForLinalgOp op).isSome
  fallback : ∀ share, region.fallbackShare = some share → region.FallbackFits share

theorem single_entries (outputs : List Nat) (perResult : Nat → Option DSTPackingPerResultInfo)
    (single : ∀ output entry, perResult output = some entry → entry = ⟨1, 1, 1⟩) (output : Nat)
    (listed : output ∈ outputs ∨ perResult output = some ⟨1, 1, 1⟩) :
    outputs.foldl (fun perResult output => tryEmplace perResult output ⟨1, 1, 1⟩) perResult output = some ⟨1, 1, 1⟩ := by
  induction outputs generalizing perResult with
  | nil => simpa using listed
  | cons first rest ih =>
    refine ih (tryEmplace perResult first ⟨1, 1, 1⟩) (fun other entry isEntry => ?_) ?_
    · rw [tryEmplace_apply] at isEntry
      split at isEntry
      · exact (Option.some.inj isEntry).symm
      · exact single other entry isEntry
    · rw [tryEmplace_apply]
      rcases listed with listed | old
      · rcases List.mem_cons.mp listed with rfl | later
        · refine Or.inr ?_
          cases found : perResult output with
          | none => simp
          | some entry => simp [single output entry found]
        · exact Or.inl later
      · exact Or.inr (by rw [if_neg (by simp [old]), old])

/-- A region of single tiles is covered exactly when every op has room for its outputs. -/
theorem covers_single (single : ∀ write ∈ region.writes, region.shardVolume write.2 = some 1) :
    region.Covers ⟨(region.writes.map Prod.snd).foldl (fun perResult output => tryEmplace perResult output ⟨1, 1, 1⟩)
        fun _ => none, 1, 1⟩ ↔
      ∀ op ∈ region.linalgOps, (region.getMaxDstTilesForLinalgOp op).isSome := by
  constructor
  · intro covers op isOp
    obtain ⟨_, _, capacity, -, -, has, -⟩ := covers op isOp op.firstOutput List.mem_cons_self
    rw [has]
    rfl
  · intro room op isOp output isOutput
    have listed := (region.mem_writes (op, output)).mpr ⟨isOp, isOutput⟩
    obtain ⟨capacity, has⟩ := Option.isSome_iff_exists.mp (room op isOp)
    refine ⟨⟨1, 1, 1⟩, 1, capacity, ?_, single _ listed, has, rfl, region.capacity_pos op capacity has,
      fun several => absurd several (by decide)⟩
    exact single_entries _ _ (fun _ _ isEntry =>
      by cases isEntry) output (Or.inl (List.mem_map_of_mem (f := Prod.snd) listed))

theorem compute_error (failure : Failure) (failed : region.writes.mapM region.packOutput = .error failure) :
    region.computeDSTPackingForRegion = .error failure := by
  simp only [computeDSTPackingForRegion, failed, bind, Except.bind]

section Run
variable {scanned : List (Option PendingDSTPackingResult)}
  (passed : region.writes.mapM region.packOutput = .ok scanned)
include passed

theorem compute_none (empty : normalize (scanned.filterMap id) = []) :
    region.computeDSTPackingForRegion = if region.singleTiles scanned = [] then .error .reported else
      .ok ⟨(region.singleTiles scanned).foldl (fun perResult output => tryEmplace perResult output ⟨1, 1, 1⟩)
        fun _ => none, 1, 1⟩ := by
  simp only [computeDSTPackingForRegion, passed, bind, Except.bind, empty]

theorem compute_mixed (some : normalize (scanned.filterMap id) ≠ []) (mixed : region.singleTiles scanned ≠ []) :
    region.computeDSTPackingForRegion = .error .reported := by
  obtain ⟨first, rest, split⟩ := List.exists_cons_of_ne_nil some
  simp only [computeDSTPackingForRegion, passed, bind, Except.bind, split]
  rw [if_pos mixed]

/-- All outputs have packings: the fallback is tried, and else the packings are entered. -/
theorem compute_several (several : region.singleTiles scanned = []) (first : PendingDSTPackingResult)
    (rest : List PendingDSTPackingResult) (split : normalize (scanned.filterMap id) = first :: rest) (common : Int)
    (isCommon : getLargestCommonNumOuterLoopIters first.numDstFlips (rest.map PendingDSTPackingResult.numDstFlips) =
      .ok common) (perResult : Nat → Option DSTPackingPerResultInfo)
    (entered : (first :: rest).foldlM (emplacePending common) (fun _ => none) = .ok perResult) :
    region.computeDSTPackingForRegion =
      match if collapses (first :: rest) = true then region.trySharedParallelChunking else .ok none with
      | .error failure => .error failure
      | .ok (some results) => .ok results
      | .ok none => .ok ⟨perResult, first.numDstFlips / common * first.numTilesPerFlip, common⟩ := by
  have same : collapses (first :: rest) = decide (common ≤ 1 ∧ 2 ≤ (first :: rest).length ∧
      heterogeneous (first :: rest) = true) := by
    simp only [collapses, isCommon]
  simp only [computeDSTPackingForRegion, passed, bind, Except.bind, split, several, ne_eq, not_true_eq_false,
    ↓reduceIte,
    isCommon, same, decide_eq_true_eq]
  by_cases falls : common ≤ 1 ∧ 2 ≤ (first :: rest).length ∧ heterogeneous (first :: rest) = true
  · simp only [if_pos falls]
    cases region.trySharedParallelChunking with
    | error failure => rfl
    | ok shared =>
      cases shared with
      | some results => rfl
      | none => simp only [entered]
  · simp only [if_neg falls, entered]

end Run

theorem trySharedParallelChunking_spec :
    (region.sharedRows = none → region.trySharedParallelChunking = .ok none) ∧
      ∀ share, region.sharedRows = some share → ∃ info, region.trySharedParallelChunking = .ok (some info) ∧
        (region.Covers info ↔ region.FallbackFits share) := by
  unfold sharedRows trySharedParallelChunking
  cases found : region.sharedOpInfos with
  | none => exact ⟨fun _ => rfl, fun _ none => (by cases none)⟩
  | some shared =>
    obtain ⟨opInfos, commonRowDim⟩ := shared
    obtain ⟨paired, rows, each⟩ := region.sharedOpInfos_spec opInfos commonRowDim found
    obtain ⟨withoutShare, withShare⟩ := region.tryFactors_spec commonRowDim (by omega) opInfos each
      (Layout.getFactors commonRowDim).reverse fun factor member =>
        ((Layout.mem_getFactors _ (by omega) factor).mp (List.mem_reverse.mp member)).2
    refine ⟨withoutShare, fun share isShare => ?_⟩
    obtain ⟨divides, several, final, tiles, isFinal, entries⟩ := withShare share isShare
    exact ⟨_, isFinal, region.covers_shared opInfos commonRowDim paired each divides final tiles entries⟩

theorem meets_of_error (failure : Failure) (failed : region.writes.mapM region.packOutput = .error failure) :
    region.Meets ↔ ¬ region.ReachesEmptyShard := by
  rw [← scan_assertion, Meets, region.compute_error failure failed, failed]
  constructor
  · exact fun meets => fun same => meets.1 (by cases same; rfl)
  · exact fun other => ⟨fun same => other (by cases same; rfl), fun _ found => (by cases found)⟩

section Scanned
variable {scanned : List (Option PendingDSTPackingResult)}
  (passed : region.writes.mapM region.packOutput = .ok scanned)
include passed

theorem not_reachesEmptyShard : ¬ region.ReachesEmptyShard := by
  rw [← scan_assertion, passed]
  exact fun same => by cases same

theorem meets_of_singles (empty : scanned.filterMap id = []) :
    region.Meets ↔ ∀ op ∈ region.linalgOps, (region.getMaxDstTilesForLinalgOp op).isSome := by
  obtain ⟨single, listed⟩ := all_single region region.writes scanned (region.scan_ok scanned passed) empty
  have outcome := region.compute_none passed (by rw [empty]; rfl)
  rw [Meets, outcome, singleTiles, listed]
  split
  · rename_i none
    have noOps : region.linalgOps = [] := by
      cases ops : region.linalgOps with
      | nil => rfl
      | cons op rest => simp [writes, ops, LinalgOp.outputs] at none
    simp [noOps]
  · rw [← region.covers_single single]
    constructor
    · exact fun meets => meets.2 _ rfl
    · exact fun covers => ⟨fun same => (by cases same), fun info found => Except.ok.inj found ▸ covers⟩

theorem meets_of_packings (several : region.singleTiles scanned = []) (first : PendingDSTPackingResult)
    (rest : List PendingDSTPackingResult) (split : normalize (scanned.filterMap id) = first :: rest) :
    region.Meets ↔ ∀ share, region.fallbackShare = some share → region.FallbackFits share := by
  have each := region.normalize_packed _ _ (region.all_packed _ scanned (region.scan_ok scanned passed)
    (List.map_eq_nil_iff.mp several))
  rw [split] at each
  have flips : ∀ pending ∈ first :: rest, 2 ≤ pending.numDstFlips := fun pending member => by
    obtain ⟨index, below, rfl⟩ := List.getElem_of_mem member
    have inside : index < region.writes.length := each.length_eq ▸ below
    exact ((List.forall₂_iff_get.mp each).2 index inside below).flips
  obtain ⟨common, isCommon, positive, fits⟩ := commonIters first.numDstFlips
    (rest.map PendingDSTPackingResult.numDstFlips) (by simpa using flips)
  have fitsEach : ∀ pending ∈ first :: rest, common ∣ pending.numDstFlips ∧ 2 * common ≤ pending.numDstFlips :=
    fun pending member => fits _ (by rw [← List.map_cons (f := PendingDSTPackingResult.numDstFlips)]; exact List.mem_map_of_mem member)
  obtain ⟨perResult, entered, emplaced⟩ := emplaceAll positive (first :: rest) fitsEach emplaced_nil
  have covers := region.covers_emplaced (first :: rest) each positive fitsEach emplaced
    (first.numDstFlips / common * first.numTilesPerFlip)
  have outcome := region.compute_several passed several first rest split common isCommon perResult entered
  obtain ⟨withoutShare, withShare⟩ := region.trySharedParallelChunking_spec
  have share : region.fallbackShare = if collapses (first :: rest) = true then region.sharedRows else none := by
    simp only [fallbackShare, passed, several, split, true_and]
  rw [Meets, outcome, share]
  by_cases falls : collapses (first :: rest) = true
  · rw [if_pos falls, if_pos falls]
    cases found : region.sharedRows with
    | none =>
      rw [withoutShare found]
      simp [covers]
    | some rows =>
      obtain ⟨info, isInfo, exact⟩ := withShare rows found
      rw [isInfo]
      simp [exact]
  · rw [if_neg falls, if_neg falls]
    simp [covers]

end Scanned

/-- The packing of a region is right exactly on the safe inputs. -/
theorem computeDSTPackingForRegion_exact : region.Meets ↔ region.Safe := by
  cases passed : region.writes.mapM region.packOutput with
  | error failure =>
    rw [region.meets_of_error failure passed]
    refine ⟨fun tiles => ⟨tiles, ?_, ?_⟩, Safe.tiles⟩
    · intro single
      have all : ∀ write ∈ region.writes, region.packOutput write = .ok none := fun write member =>
        region.packOutput_single write (single write member)
      obtain ⟨before, write, after, split, failed, -⟩ := (mapM_eq_error _ _ _).mp passed
      cases (all write (split ▸ by simp)).symm.trans failed
    · intro share found
      simp [fallbackShare, passed] at found
  | ok scanned =>
    have tiles := region.not_reachesEmptyShard passed
    have each := region.scan_ok scanned passed
    cases pending : normalize (scanned.filterMap id) with
    | nil =>
      have empty : scanned.filterMap id = [] := by
        cases list : scanned.filterMap id with
        | nil => rfl
        | cons first rest =>
          rw [list] at pending
          cases pending
      rw [region.meets_of_singles passed empty]
      refine ⟨fun room => ⟨tiles, fun _ => room, fun share found => ?_⟩, fun safe =>
        safe.singles (region.all_single _ scanned each empty).1⟩
      simp only [fallbackShare, passed, pending, collapses, Bool.false_eq_true, and_false, ↓reduceIte, reduceCtorEq]
        at found
    | cons first rest =>
      by_cases several : region.singleTiles scanned = []
      · rw [region.meets_of_packings passed several first rest pending]
        refine ⟨fun fits => ⟨tiles, fun _ op isOp => ?_, fits⟩, Safe.fallback⟩
        have packed := region.all_packed _ scanned each (List.map_eq_nil_iff.mp several)
        obtain ⟨_, -, good⟩ := region.packed_of_mem _ _ packed (op, op.firstOutput)
          ((region.mem_writes _).mpr ⟨isOp, List.mem_cons_self⟩)
        obtain ⟨capacity, hasCapacity, -⟩ := good.capacity
        rw [hasCapacity]
        rfl
      · have outcome := region.compute_mixed passed (pending ▸ List.cons_ne_nil _ _) several
        rw [Meets, outcome]
        refine ⟨fun _ => ⟨tiles, fun single => ?_, fun share found => ?_⟩, fun _ =>
          ⟨fun same => (by cases same), fun _ found => (by cases found)⟩⟩
        · rw [region.pending_of_single _ scanned each single] at pending
          cases pending
        · simp [fallbackShare, passed, several] at found

end Exact

end Region

def tiles (rows cols : Nat) : OutputType where
  staticShape := some [rows, cols]
  tileBits := some 16
  extents shape static dim member := by
    cases static
    simp only [List.mem_cons, List.not_mem_nil, or_false] at member
    omega

def besideArgmax : Region where
  linalgOps := [⟨[.other], 0, []⟩, ⟨[.other], 1, [2]⟩]
  type output := if output = 0 then tiles 4 2 else tiles 4 1
  dstPhysicalSizeTiles := 16
  maxDstPhysicalSizeTiles := 0

/-- The second output of the second op has no entry. -/
theorem second_output_missing : ¬ besideArgmax.Meets := by
  rintro ⟨-, covers⟩
  have missing : (match besideArgmax.computeDSTPackingForRegion with
      | .ok info => (info.perResult 2).isNone
      | .error _ => false) = true := by with_unfolding_all decide
  cases outcome : besideArgmax.computeDSTPackingForRegion with
  | error failure => rw [outcome] at missing; cases missing
  | ok info =>
    obtain ⟨entry, _, _, isEntry, -⟩ := covers info outcome ⟨[.other], 1, [2]⟩ (by simp [besideArgmax]) 2
      (by simp [LinalgOp.outputs])
    rw [outcome] at missing
    simp [isEntry] at missing

end TtMlir.D2m.Dst
