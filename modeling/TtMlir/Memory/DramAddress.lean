import TtMlir.Library.MixedRadix
import TtMlir.Memory.Device

/-!
DRAM addressing of sharded buffers. `getMemoryMapImpl` fixes the symbols of the
device's DRAM map, `getAlignedAllocSizes` decides how much of every bank the
planner reserves; the two only read the same memref type.
-/

namespace TtMlir.Memory

inductive MemorySpace where
  | deviceL1
  | deviceDRAM
  deriving DecidableEq, Repr

/-- A memref with a `ShardLayoutAttr`. `cbPageSizeBytes` is the size of the element type's tile. -/
structure ShardedMemRef where
  shape : List Int
  stride : List Int
  buffers : Int
  elementSizeBytes : Int
  cbPageSizeBytes : Int
  memorySpace : MemorySpace
  deriving DecidableEq, Repr

namespace ShardedMemRef

def rank (memref : ShardedMemRef) : Nat := memref.shape.length

def getGridShape (memref : ShardedMemRef) : List Int := memref.shape.take (memref.rank / 2)

def getShardShape (memref : ShardedMemRef) : List Int := memref.shape.drop (memref.rank / 2)

/-- `ShardLayoutAttr::getRank`. -/
def layoutRank (memref : ShardedMemRef) : Nat := memref.stride.length

def remap (memref : ShardedMemRef) (memspace : MemorySpace) : ShardedMemRef :=
  { memref with memorySpace := memspace }

end ShardedMemRef

def getShardSizeInBytes (memref : ShardedMemRef) (alignSize : Int) (includeBuffers : Bool) : Int :=
  let numBuffers := if includeBuffers then memref.buffers else 1
  alignUp (volume memref.getShardShape (memref.elementSizeBytes * numBuffers)) alignSize

def getMemrefSizeBytes (memref : ShardedMemRef) (pageSize : Int := 0) (includeBuffers : Bool := false) :
    Int :=
  let alignSize := if pageSize = 0 then
      match memref.memorySpace with
      | .deviceL1 => memref.cbPageSizeBytes
      | .deviceDRAM => 1
    else pageSize
  getShardSizeInBytes memref alignSize includeBuffers

inductive PlannerSpace where
  | scratch
  | spill
  deriving DecidableEq, Repr

def asMemorySpace : PlannerSpace → MemorySpace
  | .scratch => .deviceL1
  | .spill => .deviceDRAM

/-- `getAlignedAllocSizes` at one placement; `alignment` is that of its memory space. -/
def getAlignedAllocSize (device : DeviceAttr) (memref : ShardedMemRef) (alignment : MemorySpace → Int)
    (placement : PlannerSpace) : Int :=
  let memspace := asMemorySpace placement
  let remapped := memref.remap memspace
  let sizeBytes := getMemrefSizeBytes remapped 0 false
  let banked := if memspace = .deviceDRAM then
      let nShards := volume remapped.getGridShape
      let nDramBanks := volume device.dramGrid
      sizeBytes * (alignUp nShards nDramBanks / nDramBanks)
    else sizeBytes
  alignUp banked (alignment memspace)

def requiresVirtualGrid (gridShape deviceGridShape : List Int) : Bool :=
  decide (gridShape.length ≠ 2) || decide (gridShape.getD 0 0 > deviceGridShape.getD 0 0) ||
    decide (gridShape.getD 1 0 > deviceGridShape.getD 1 0)

/-- Factors of the volume from its square root down, the first pair that fits. -/
def findLegalPhysicalGrid (gridVolume : Int) (target : List Int) : Nat → List Int
  | 0 => []
  | i + 1 =>
      let candidateY : Int := i + 1
      let candidateX := gridVolume / candidateY
      let fitsTarget (dimY dimX : Int) : Bool :=
        decide (dimY ≤ target.getD 0 0) && decide (dimX ≤ target.getD 1 0)
      if gridVolume % candidateY = 0 then
        if fitsTarget candidateY candidateX then [candidateY, candidateX]
        else if fitsTarget candidateX candidateY then [candidateX, candidateY]
        else findLegalPhysicalGrid gridVolume target i
      else findLegalPhysicalGrid gridVolume target i

def findLegalPhysicalGridForVolume (gridVolume : Int) (target : List Int) : List Int :=
  findLegalPhysicalGrid gridVolume target gridVolume.toNat.sqrt

/-- A failing assertion is `none`. -/
def collapseToPhysicalGrid2D (gridShape deviceGridShape : List Int) : Option (List Int) :=
  let result := findLegalPhysicalGridForVolume (volume gridShape) deviceGridShape
  if result = [] then none else some result

def appendShapeCollapsedToRank (symbols shape : List Int) (rank : Nat) : List Int :=
  if rank = 0 then symbols
  else if shape.length < rank then symbols ++ List.replicate (rank - shape.length) 1 ++ shape
  else if shape.length = rank then symbols ++ shape
  else
    let kept := shape.length - (rank - 1)
    symbols ++ [volume (shape.take kept)] ++ shape.drop kept

/-- `evalShape`: extent of the image of the box, corner to corner. -/
def evalShape (map : AffineMap) (shape : List Int) : List Int :=
  List.zipWith (fun last first => last - first + 1)
    (map.evaluate (shape.map (· - 1))) (map.evaluate (List.replicate shape.length 0))

/-- Those of the stored virtualisation map when there is one, else those of the memref. -/
def dramGridAndShard (device : DeviceAttr) (memref : ShardedMemRef)
    (storedForwardMap : Option AffineMap) : Option (List Int × List Int) :=
  let workerRank := device.workerGrid.shape.length
  match storedForwardMap.filter fun map => !map.isEmpty with
  | some map =>
      let physicalShape := evalShape map memref.shape
      if physicalShape.length < workerRank then none
      else some (physicalShape.take workerRank, physicalShape.drop workerRank)
  | none =>
      let gridRank := memref.rank - memref.layoutRank
      let gridShape := memref.shape.take gridRank
      let shardShape := memref.shape.drop gridRank
      if requiresVirtualGrid gridShape device.workerGrid.shape then
        (collapseToPhysicalGrid2D gridShape device.workerGrid.shape).map fun grid => (grid, shardShape)
      else some (gridShape, shardShape)

def getDramMapShapeSymbols (device : DeviceAttr) (memref : ShardedMemRef)
    (storedForwardMap : Option AffineMap) : Option (List Int) :=
  let workerRank := device.workerGrid.shape.length
  if device.dramMap.numSymbols = workerRank * 2 + 3 then do
    let (gridShape, shardShape) ← dramGridAndShard device memref storedForwardMap
    some (appendShapeCollapsedToRank (appendShapeCollapsedToRank [] gridShape workerRank) shardShape
      workerRank)
  else none

def resolveDramMap (device : DeviceAttr) (memref : ShardedMemRef) (baseOffset : Int)
    (storedForwardMap : Option AffineMap := none) : Option AffineMap := do
  let pageSize := getMemrefSizeBytes memref
  let symbols ← getDramMapShapeSymbols device memref storedForwardMap
  some (device.dramMap.replaceSymbols (symbols ++ [pageSize, baseOffset, memref.elementSizeBytes]))

theorem volume_append (left right : List Int) : volume (left ++ right) = volume left * volume right := by
  rw [volume, List.foldl_append]
  exact volume_eq right (volume left)

theorem volume_ones (count : Nat) : volume (List.replicate count 1) = 1 := by
  induction count with
  | zero => rfl
  | succ count ih =>
      rw [List.replicate_succ, ← List.singleton_append, volume_append, ih]
      rfl

theorem collapse_volume (shape : List Int) (rank : Nat) (positive : 0 < rank) :
    (appendShapeCollapsedToRank [] shape rank).length = rank ∧
      volume (appendShapeCollapsedToRank [] shape rank) = volume shape := by
  have nonzero : rank ≠ 0 := by omega
  simp only [appendShapeCollapsedToRank, nonzero, ↓reduceIte, List.nil_append]
  by_cases short : shape.length < rank
  · simp only [short, ↓reduceIte, List.length_append, List.length_replicate, volume_append, volume_ones,
      Int.one_mul, and_true]
    omega
  · by_cases same : shape.length = rank
    · simp [same]
    · simp only [short, same, ↓reduceIte, volume_append]
      refine ⟨by simp; omega, ?_⟩
      have single (value : Int) : volume [value] = value := by simp [volume]
      rw [single, ← volume_append, List.take_append_drop]

theorem collapse_pair (shape : List Int) : ∃ outer inner,
    appendShapeCollapsedToRank [] shape 2 = [outer, inner] ∧ outer * inner = volume shape := by
  obtain ⟨length, volume_eq⟩ := collapse_volume shape 2 (by decide)
  obtain ⟨outer, inner, pair⟩ := List.length_eq_two.mp length
  exact ⟨outer, inner, pair, by rw [← volume_eq, pair]; simp [volume]⟩

theorem collapse_append (symbols shape : List Int) (rank : Nat) :
    appendShapeCollapsedToRank symbols shape rank =
      symbols ++ appendShapeCollapsedToRank [] shape rank := by
  unfold appendShapeCollapsedToRank
  by_cases zero : rank = 0
  · simp [zero]
  by_cases short : shape.length < rank
  · simp [zero, short]
  by_cases same : shape.length = rank
  · simp [zero, same]
  · simp [zero, short, same]

/-! A byte of a buffer is a core coordinate and an offset into that core's
shard. The flat address is a mixed-radix number over grid and page, which the
map splits again by page size and number of channels. -/

def bytesOf (gridY gridX page : Int) : Set (Int × Int × Int) :=
  {place | (0 ≤ place.1 ∧ place.1 < gridY) ∧ (0 ≤ place.2.1 ∧ place.2.1 < gridX) ∧
    0 ≤ place.2.2 ∧ place.2.2 < page}

/-- Channel and byte address, the last two results of the DRAM map. -/
def location (map : AffineMap) (place : Int × Int × Int) : Int × Int :=
  let results := map.evaluate [place.1, place.2.1, place.2.2]
  (results.getD 2 0, results.getD 3 0)

def roundRobin (gridX page channels base : Int) (place : Int × Int × Int) : Int × Int :=
  ((place.1 * gridX + place.2.1) % channels,
    (place.1 * gridX + place.2.1) / channels * page + place.2.2 + base)

theorem page_bounds (gridY gridX page : Int) (place : Int × Int × Int)
    (inside : place ∈ bytesOf gridY gridX page) :
    0 ≤ place.1 * gridX + place.2.1 ∧ place.1 * gridX + place.2.1 < gridY * gridX :=
  MixedRadix.split_bounds gridX gridY place.1 place.2.1 inside.2.1.1 inside.2.1.2 inside.1.1 inside.1.2

theorem location_roundRobin (workerGrid : GridAttr) (channels : Int)
    (rank : workerGrid.virtToPhysicalMap.numDims = 2)
    (gridY gridX shardY shardX page base elementSize : Int)
    (pageSize : shardY * shardX * elementSize = page) (place : Int × Int × Int)
    (inside : place ∈ bytesOf gridY gridX page) :
    location ((createDramMap workerGrid channels).replaceSymbols
      [gridY, gridX, shardY, shardX, page, base, elementSize]) place =
    roundRobin gridX page channels base place := by
  obtain ⟨_, _, low, high⟩ := inside
  have flat : place.1 * gridX * (shardY * (shardX * elementSize)) +
      (place.2.1 * (shardY * (shardX * elementSize)) + place.2.2) =
      (place.1 * gridX + place.2.1) * page + place.2.2 := by
    rw [← pageSize]
    ring
  rw [location, AffineMap.evaluate_replaceSymbols _ _ _ (by simp [createDramMap, rank]),
    createDramMap_evaluate workerGrid channels rank, flat, MixedRadix.split_ediv _ _ _ low high,
    MixedRadix.split_emod _ _ _ low high]
  rfl

theorem roundRobin_injective (gridY gridX page channels base : Int) :
    Set.InjOn (roundRobin gridX page channels base) (bytesOf gridY gridX page) := by
  intro left leftIn right rightIn same
  obtain ⟨⟨_, _⟩, leftX, leftLow, leftHigh⟩ := leftIn
  obtain ⟨⟨_, _⟩, rightX, rightLow, rightHigh⟩ := rightIn
  simp only [roundRobin, Prod.mk.injEq, add_left_inj] at same
  obtain ⟨sameChannel, sameAddress⟩ := same
  -- the address determines the page within the channel and the byte within the page
  have sameRow := congrArg (· / page) sameAddress
  have sameByte := congrArg (· % page) sameAddress
  simp only [MixedRadix.split_ediv _ _ _ leftLow leftHigh, MixedRadix.split_ediv _ _ _ rightLow rightHigh,
    MixedRadix.split_emod _ _ _ leftLow leftHigh, MixedRadix.split_emod _ _ _ rightLow rightHigh]
    at sameRow sameByte
  -- channel and page within the channel determine the page
  have samePage : left.1 * gridX + left.2.1 = right.1 * gridX + right.2.1 := by
    rw [← Int.mul_ediv_add_emod (left.1 * gridX + left.2.1) channels, sameRow, sameChannel,
      Int.mul_ediv_add_emod]
  have sameY := congrArg (· / gridX) samePage
  have sameX := congrArg (· % gridX) samePage
  simp only [MixedRadix.split_ediv _ _ _ leftX.1 leftX.2, MixedRadix.split_ediv _ _ _ rightX.1 rightX.2,
    MixedRadix.split_emod _ _ _ leftX.1 leftX.2, MixedRadix.split_emod _ _ _ rightX.1 rightX.2]
    at sameY sameX
  exact Prod.ext sameY (Prod.ext sameX sameByte)

theorem roundRobin_reserved (gridY gridX page channels base size : Int) (positive : 0 < channels)
    (large : page * (alignUp (gridY * gridX) channels / channels) ≤ size) :
    Set.MapsTo (roundRobin gridX page channels base) (bytesOf gridY gridX page)
      (Set.Ico 0 channels ×ˢ Set.Ico base (base + size)) := by
  intro place inside
  obtain ⟨nonneg, below⟩ := page_bounds gridY gridX page place inside
  obtain ⟨_, _, low, high⟩ := inside
  have rows : alignUp (gridY * gridX) channels / channels =
      (gridY * gridX + channels - 1) / channels := by
    rw [alignUp, Int.mul_ediv_cancel _ positive.ne']
  have row : (place.1 * gridX + place.2.1) / channels < (gridY * gridX + channels - 1) / channels := by
    have shifted : (place.1 * gridX + place.2.1 + channels) / channels ≤
        (gridY * gridX + channels - 1) / channels := Int.ediv_le_ediv positive (by omega)
    rw [Int.add_ediv_of_dvd_right (dvd_refl channels), Int.ediv_self positive.ne'] at shifted
    omega
  obtain ⟨addressLow, addressHigh⟩ := MixedRadix.split_bounds page _ _ _ low high
    (Int.ediv_nonneg nonneg positive.le) row
  rw [rows, Int.mul_comm] at large
  refine ⟨⟨Int.emod_nonneg _ positive.ne', Int.emod_lt_of_pos _ positive⟩, ?_, ?_⟩
  · simp only [roundRobin]
    omega
  · simp only [roundRobin]
    omega

theorem reserved_large (device : DeviceAttr) (memref : ShardedMemRef) (alignment : MemorySpace → Int)
    (positive : 0 < alignment .deviceDRAM) (dram : memref.memorySpace = .deviceDRAM) :
    getMemrefSizeBytes memref *
        (alignUp (volume memref.getGridShape) (volume device.dramGrid) / volume device.dramGrid) ≤
      getAlignedAllocSize device memref alignment .spill := by
  have same : memref.remap .deviceDRAM = memref := by
    rw [ShardedMemRef.remap, ← dram]
  simp only [getAlignedAllocSize, asMemorySpace, same, ↓reduceIte]
  exact alignUp_le _ _ positive

theorem page_volume (memref : ShardedMemRef) (dram : memref.memorySpace = .deviceDRAM) :
    getMemrefSizeBytes memref = volume memref.getShardShape * memref.elementSizeBytes := by
  simp only [getMemrefSizeBytes, dram, ↓reduceIte, getShardSizeInBytes, alignUp_one, Bool.false_eq_true,
    Int.mul_one]
  rw [volume_eq, Int.mul_comm]

end TtMlir.Memory
