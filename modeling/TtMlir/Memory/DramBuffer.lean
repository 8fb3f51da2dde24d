import TtMlir.Memory.DramAddress

/-!
Buffers placed in DRAM, and what their addressing promises the allocator: each
stays inside the range reserved for it on every channel, and no two of its
bytes meet.
-/

namespace TtMlir.Memory

/-- A sharded DRAM memref at a base address. A stored virtualisation map keeps the number of cores
and the shard volume. -/
structure DramBuffer (device : DeviceAttr) where
  memref : ShardedMemRef
  base : Int
  storedForwardMap : Option AffineMap := none
  gridY : Int
  gridX : Int
  dram : memref.memorySpace = .deviceDRAM
  rank : memref.rank = 2 * memref.layoutRank
  grid : memref.getGridShape = [gridY, gridX]
  insideY : gridY ≤ device.workerGrid.shape.getD 0 0
  insideX : gridX ≤ device.workerGrid.shape.getD 1 0
  nonempty : 0 < getMemrefSizeBytes memref
  stored : ∀ map ∈ storedForwardMap, map.isEmpty = false →
    2 ≤ (evalShape map memref.shape).length ∧
    volume ((evalShape map memref.shape).take 2) = gridY * gridX ∧
    volume ((evalShape map memref.shape).drop 2) = volume memref.getShardShape

namespace DramBuffer
variable {device : DeviceAttr} (buffer : DramBuffer device)

def page : Int := getMemrefSizeBytes buffer.memref

/-- The grid whose coordinates the DRAM map receives. -/
def coreGrid : List Int :=
  ((dramGridAndShard device buffer.memref buffer.storedForwardMap).getD ([], [])).1

def bytes : Set (Int × Int × Int) :=
  bytesOf (buffer.coreGrid.getD 0 0) (buffer.coreGrid.getD 1 0) buffer.page

def map : Option AffineMap :=
  resolveDramMap device buffer.memref buffer.base buffer.storedForwardMap

def locate (place : Int × Int × Int) : Int × Int :=
  (buffer.map.map fun map => location map place).getD (0, 0)

/-- Byte addresses the planner sets aside for the buffer on every channel. -/
def reserved (alignment : MemorySpace → Int) : Set Int :=
  Set.Ico buffer.base (buffer.base + getAlignedAllocSize device buffer.memref alignment .spill)

theorem grid_and_shard (workerRank : device.workerGrid.shape.length = 2) :
    ∃ grid shard,
      dramGridAndShard device buffer.memref buffer.storedForwardMap = some (grid, shard) ∧
      grid.length = 2 ∧ volume grid = buffer.gridY * buffer.gridX ∧
      volume shard = volume buffer.memref.getShardShape ∧
      (buffer.storedForwardMap = none → grid = [buffer.gridY, buffer.gridX]) := by
  have halves : buffer.memref.rank - buffer.memref.layoutRank = buffer.memref.rank / 2 := by
    have := buffer.rank
    omega
  have own : dramGridAndShard device buffer.memref none =
      some ([buffer.gridY, buffer.gridX], buffer.memref.getShardShape) := by
    have fits : requiresVirtualGrid [buffer.gridY, buffer.gridX] device.workerGrid.shape = false := by
      simpa [requiresVirtualGrid] using ⟨buffer.insideY, buffer.insideX⟩
    have grid := buffer.grid
    rw [ShardedMemRef.getGridShape] at grid
    simp only [dramGridAndShard, Option.filter_none, halves, grid, fits, Bool.false_eq_true, ↓reduceIte,
      ShardedMemRef.getShardShape]
  have volumeGrid : volume [buffer.gridY, buffer.gridX] = buffer.gridY * buffer.gridX := by
    simp [volume]
  have ownCase (same : dramGridAndShard device buffer.memref buffer.storedForwardMap =
      dramGridAndShard device buffer.memref none) :
      ∃ grid shard,
        dramGridAndShard device buffer.memref buffer.storedForwardMap = some (grid, shard) ∧
        grid.length = 2 ∧ volume grid = buffer.gridY * buffer.gridX ∧
        volume shard = volume buffer.memref.getShardShape ∧
        (buffer.storedForwardMap = none → grid = [buffer.gridY, buffer.gridX]) :=
    ⟨_, _, same.trans own, rfl, volumeGrid, rfl, fun _ => rfl⟩
  cases stored : buffer.storedForwardMap with
  | none =>
      rw [stored] at ownCase
      exact ownCase rfl
  | some map =>
      rw [stored] at ownCase
      cases empty : map.isEmpty with
      | true =>
          have skipped : (some map).filter (fun map => !map.isEmpty) = none := by simp [empty]
          exact ownCase (by simp only [dramGridAndShard, skipped, Option.filter_none])
      | false =>
          obtain ⟨long, grid, shard⟩ := buffer.stored map (by simp [stored]) empty
          have kept : ¬ (evalShape map buffer.memref.shape).length < 2 := by omega
          refine ⟨(evalShape map buffer.memref.shape).take 2, (evalShape map buffer.memref.shape).drop 2,
            ?_, by simp [long], grid, shard, by simp⟩
          have used : (some map).filter (fun map => !map.isEmpty) = some map := by
            simp [Option.filter, empty]
          simp only [dramGridAndShard, used, workerRank, kept, ↓reduceIte]

theorem located (channels : Int) (workerRank : device.workerGrid.shape.length = 2)
    (mapRank : device.workerGrid.virtToPhysicalMap.numDims = 2)
    (dramMap : device.dramMap = createDramMap device.workerGrid channels) :
    buffer.map.isSome ∧
    buffer.coreGrid.getD 0 0 * buffer.coreGrid.getD 1 0 = buffer.gridY * buffer.gridX ∧
    (buffer.storedForwardMap = none → buffer.coreGrid = [buffer.gridY, buffer.gridX]) ∧
    ∀ place ∈ buffer.bytes, buffer.locate place =
      roundRobin (buffer.coreGrid.getD 1 0) buffer.page channels buffer.base place := by
  obtain ⟨grid, shard, chosen, length, gridVolume, shardVolume, own⟩ := buffer.grid_and_shard workerRank
  obtain ⟨gridY, gridX, rfl⟩ := List.length_eq_two.mp length
  obtain ⟨shardY, shardX, collapsed, product⟩ := collapse_pair shard
  have coreGrid : buffer.coreGrid = [gridY, gridX] := by simp [DramBuffer.coreGrid, chosen]
  have symbols : getDramMapShapeSymbols device buffer.memref buffer.storedForwardMap =
      some [gridY, gridX, shardY, shardX] := by
    have gridSymbols : appendShapeCollapsedToRank [] [gridY, gridX] 2 = [gridY, gridX] := by
      simp [appendShapeCollapsedToRank]
    have both : appendShapeCollapsedToRank [gridY, gridX] shard 2 = [gridY, gridX, shardY, shardX] := by
      rw [collapse_append, collapsed]
      rfl
    simp [getDramMapShapeSymbols, chosen, workerRank, dramMap, createDramMap, mapRank, gridSymbols, both]
  have resolved : buffer.map = some ((createDramMap device.workerGrid channels).replaceSymbols
      [gridY, gridX, shardY, shardX, buffer.page, buffer.base, buffer.memref.elementSizeBytes]) := by
    simp [DramBuffer.map, resolveDramMap, symbols, dramMap, DramBuffer.page]
  have pageSize : shardY * shardX * buffer.memref.elementSizeBytes = buffer.page := by
    rw [product, shardVolume]
    exact (page_volume buffer.memref buffer.dram).symm
  refine ⟨by simp [resolved], ?_, fun none => coreGrid.trans (own none), ?_⟩
  · simpa [coreGrid, volume] using gridVolume
  · intro place inside
    simp only [DramBuffer.bytes, coreGrid] at inside
    simp only [DramBuffer.locate, resolved, Option.map_some, Option.getD_some, coreGrid]
    exact location_roundRobin device.workerGrid channels mapRank gridY gridX shardY shardX buffer.page
      buffer.base buffer.memref.elementSizeBytes pageSize place inside

end DramBuffer

theorem commonChipGrid_length (systemDesc : SystemDesc) (chipIds : List Nat) (start : List Int)
    (length : start.length = 2)
    (ranks : ∀ chipId ∈ chipIds, (systemDesc.getChipDesc chipId).grid.length = 2) :
    (commonChipGrid systemDesc chipIds start).length = 2 := by
  induction chipIds generalizing start with
  | nil => exact length
  | cons chipId rest ih =>
      refine ih _ ?_ fun other member => ranks other (List.mem_cons_of_mem _ member)
      simp [length, ranks chipId List.mem_cons_self]

/-- Buffers of a device whose DRAM grid has one core for each channel: every
byte has its own channel and address inside the reserved range, so buffers with
disjoint reserved ranges share no byte on any channel. -/
theorem dram_buffers_apart (systemDesc : SystemDesc) (chipIds : List Nat) (channels : Int)
    (alignment : MemorySpace → Int)
    (ranks : ∀ chipId ∈ chipIds.headD 0 :: chipIds, (systemDesc.getChipDesc chipId).grid.length = 2)
    (channelCount : (systemDesc.chipDescs.headD default).numDramChannels = channels)
    (positive : 0 < channels)
    (banks : volume (DeviceAttr.get systemDesc chipIds).dramGrid = channels)
    (aligned : 0 < alignment .deviceDRAM) :
    (∀ buffer : DramBuffer (DeviceAttr.get systemDesc chipIds),
      buffer.map.isSome ∧
      (buffer.storedForwardMap = none →
        buffer.bytes = bytesOf buffer.gridY buffer.gridX (getMemrefSizeBytes buffer.memref)) ∧
      Set.InjOn buffer.locate buffer.bytes ∧
      Set.MapsTo buffer.locate buffer.bytes (Set.Ico 0 channels ×ˢ buffer.reserved alignment)) ∧
    ∀ left right : DramBuffer (DeviceAttr.get systemDesc chipIds),
      Disjoint (left.reserved alignment) (right.reserved alignment) →
      Disjoint (left.locate '' left.bytes) (right.locate '' right.bytes) := by
  have length := commonChipGrid_length systemDesc chipIds _ (ranks _ List.mem_cons_self)
    fun chipId member => ranks chipId (List.mem_cons_of_mem _ member)
  obtain ⟨rows, columns, common⟩ := List.length_eq_two.mp length
  obtain ⟨workerShape, mapRank⟩ := createWorkerGrid_single rows columns
  have workerGrid : (DeviceAttr.get systemDesc chipIds).workerGrid =
      createWorkerGrid [rows, columns] [1, 1] := by
    simp only [DeviceAttr.get, common]
  have dramMap : (DeviceAttr.get systemDesc chipIds).dramMap =
      createDramMap (DeviceAttr.get systemDesc chipIds).workerGrid channels := by
    rw [← channelCount]
    rfl
  rw [← workerGrid] at workerShape mapRank
  have workerRank : (DeviceAttr.get systemDesc chipIds).workerGrid.shape.length = 2 := by
    rw [workerShape]
    rfl
  -- every byte is sent to a channel and into the buffer's reserved addresses
  have stays (buffer : DramBuffer (DeviceAttr.get systemDesc chipIds)) :
      Set.MapsTo buffer.locate buffer.bytes (Set.Ico 0 channels ×ˢ buffer.reserved alignment) := by
    obtain ⟨_, volumes, _, located⟩ := buffer.located channels workerRank mapRank dramMap
    have large := reserved_large (DeviceAttr.get systemDesc chipIds) buffer.memref alignment aligned
      buffer.dram
    rw [banks, buffer.grid] at large
    have gridVolume : volume [buffer.gridY, buffer.gridX] = buffer.coreGrid.getD 0 0 * buffer.coreGrid.getD 1 0 := by
      rw [volumes]
      simp [volume]
    rw [gridVolume] at large
    intro place inside
    rw [located place inside]
    exact roundRobin_reserved _ _ _ channels buffer.base _ positive large inside
  -- disjoint reservations are then enough for two buffers
  refine ⟨fun buffer => ?_, fun left right apart => ?_⟩
  · obtain ⟨defined, _, own, located⟩ := buffer.located channels workerRank mapRank dramMap
    refine ⟨defined, fun none => ?_, ?_, stays buffer⟩
    · simp [DramBuffer.bytes, DramBuffer.page, own none]
    · exact (Set.InjOn.congr (roundRobin_injective _ _ _ channels buffer.base)
        fun place inside => (located place inside).symm)
  · rw [Set.disjoint_left]
    rintro _ ⟨place, inside, rfl⟩ ⟨other, otherInside, same⟩
    have leftRange := (stays left inside).2
    have rightRange := (stays right otherInside).2
    rw [same] at rightRange
    exact Set.disjoint_left.mp apart leftRange rightRange

/-- One chip with an 8x8 worker grid and twelve DRAM channels. -/
def twelveChannels : SystemDesc :=
  { chipDescs := [{ grid := [8, 8], dramGrid := [1, 12], numDramChannels := 12 }]
    chipDescIndices := [0] }

def tiledBuffer (base : Int) : DramBuffer (DeviceAttr.get twelveChannels [0]) where
  memref := { shape := [5, 7, 2, 3], stride := [6144, 2048], buffers := 1, elementSizeBytes := 2048,
              cbPageSizeBytes := 2048, memorySpace := .deviceDRAM }
  base := base
  gridY := 5
  gridX := 7
  dram := rfl
  rank := rfl
  grid := rfl
  insideY := by decide
  insideX := by decide
  nonempty := by decide
  stored := by simp

theorem dram_buffers_apart_tiled :
    Disjoint ((tiledBuffer 64).locate '' (tiledBuffer 64).bytes)
      ((tiledBuffer (64 + 3 * 12288)).locate '' (tiledBuffer (64 + 3 * 12288)).bytes) := by
  have size (base : Int) : (tiledBuffer base).reserved (fun _ => 32) = Set.Ico base (base + 3 * 12288) := by
    have bytes : getAlignedAllocSize (DeviceAttr.get twelveChannels [0]) (tiledBuffer base).memref
        (fun _ => 32) .spill = 3 * 12288 :=
      (by decide : getAlignedAllocSize (DeviceAttr.get twelveChannels [0]) (tiledBuffer 0).memref
        (fun _ => 32) .spill = 3 * 12288)
    rw [DramBuffer.reserved, bytes]
    rfl
  refine (dram_buffers_apart twelveChannels [0] 12 (fun _ => 32) (by decide) rfl (by decide) (by decide)
    (by decide)).2 (tiledBuffer 64) (tiledBuffer (64 + 3 * 12288)) ?_
  rw [size, size]
  rw [Set.disjoint_left]
  rintro address ⟨_, below⟩ ⟨above, _⟩
  omega

end TtMlir.Memory
