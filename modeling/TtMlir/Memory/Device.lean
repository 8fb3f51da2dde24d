import Mathlib
import TtMlir.Library.Affine

/-!
Device attributes as far as memory addressing reads them: the worker grid, the
DRAM grid and the DRAM map, which sends a grid coordinate and a byte offset to
a channel and an address, with shapes, page size and base address as symbols.
-/

namespace TtMlir.Memory

/-- `utils::volume`. -/
def volume (shape : List Int) (stride : Int := 1) : Int := shape.foldl (· * ·) stride

def alignUp (value alignment : Int) : Int := (value + alignment - 1) / alignment * alignment

structure GridAttr where
  shape : List Int
  virtToPhysicalMap : AffineMap
  deriving DecidableEq, Repr

structure ChipDesc where
  grid : List Int
  dramGrid : List Int
  numDramChannels : Int
  deriving DecidableEq, Repr

structure DeviceAttr where
  workerGrid : GridAttr
  dramGrid : List Int
  dramMap : AffineMap
  deriving DecidableEq, Repr

def linearizeMesh (meshShape : List Int) : Nat → AffineExpr → Int → AffineExpr
  | 0, deviceIdx, _ => deviceIdx
  | i + 1, deviceIdx, meshStride =>
      linearizeMesh meshShape i (.add (.mul (.dim i) (.const meshStride)) deviceIdx)
        (meshStride * meshShape.getD i 0)

def createWorkerGrid (chipGrid meshShapeRef : List Int) : GridAttr :=
  let meshShape := meshShapeRef ++ List.replicate (chipGrid.length - meshShapeRef.length) 1
  let padded := List.replicate (meshShape.length - chipGrid.length) 1 ++ chipGrid
  let virtualGrid := List.zipWith (· * ·) padded meshShape
  let rank := meshShape.length
  let coreY : AffineExpr := .dim (rank - 2)
  let coreX : AffineExpr := .dim (rank - 1)
  let meshY := meshShape.getD (rank - 2) 0
  let meshX := meshShape.getD (rank - 1) 0
  let deviceIdx : AffineExpr := if meshX > 1
    then .add (.floorDiv coreX (.const (chipGrid.getD 1 0))) (.const 0) else .const 0
  let workerCoreX := if meshX > 1 then .mod coreX (.const meshX) else coreX
  let deviceIdx := if meshY > 1
    then .add (.mul (.floorDiv coreY (.const (chipGrid.getD 0 0))) (.const meshX)) deviceIdx
    else deviceIdx
  let workerCoreY := if meshY > 1 then .mod coreY (.const meshY) else coreY
  { shape := virtualGrid
    virtToPhysicalMap :=
      { numDims := virtualGrid.length
        results := [linearizeMesh meshShape (rank - 2) deviceIdx (meshX * meshY), workerCoreY,
          workerCoreX] } }

/-- `shardVolumeExpr`: shard dims, outermost last, times the element size. -/
def shardVolumeExpr (numDims : Nat) : AffineExpr :=
  (List.range numDims).reverse.foldl (fun volumeExpr i => .mul (.sym (numDims + i)) volumeExpr)
    (.sym (numDims * 2 + 2))

/-- One grid dim of `flatAddr`, with the volume of the grid dims inside it. -/
def flatAddrStep (numDims : Nat) (state : AffineExpr × AffineExpr) (i : Nat) :
    AffineExpr × AffineExpr :=
  (.add (.mul (.mul (.dim i) state.2) (shardVolumeExpr numDims)) state.1, .mul state.2 (.sym i))

def flatAddrExpr (numDims : Nat) : AffineExpr :=
  ((List.range numDims).reverse.foldl (flatAddrStep numDims) (.dim numDims, .const 1)).1

def createDramMap (workerGrid : GridAttr) (numDramCores : Int) : AffineMap :=
  let numDims := workerGrid.virtToPhysicalMap.numDims
  let flatAddr := flatAddrExpr numDims
  let pageSize : AffineExpr := .sym (numDims * 2)
  let baseAddress : AffineExpr := .sym (numDims * 2 + 1)
  let pageIndex : AffineExpr := .floorDiv flatAddr pageSize
  let channelPageIndex : AffineExpr := .floorDiv pageIndex (.const numDramCores)
  { numDims := numDims + 1
    numSymbols := numDims * 2 + 3
    results := [.const 0, .const 0, .mod pageIndex (.const numDramCores),
      .add (.add (.mul channelPageIndex pageSize) (.mod flatAddr pageSize)) baseAddress] }

structure SystemDesc where
  chipDescs : List ChipDesc
  chipDescIndices : List Nat
  deriving DecidableEq, Repr

instance : Inhabited ChipDesc := ⟨{ grid := [], dramGrid := [], numDramChannels := 0 }⟩

def SystemDesc.getChipDesc (systemDesc : SystemDesc) (chipIndex : Nat) : ChipDesc :=
  systemDesc.chipDescs.getD (systemDesc.chipDescIndices.getD chipIndex 0) default

/-- The smallest worker grid over the chips, so that it exists on all of them. -/
def commonChipGrid (systemDesc : SystemDesc) (chipIds : List Nat) (start : List Int) : List Int :=
  chipIds.foldl (fun grid chipId =>
    List.zipWith min grid (systemDesc.getChipDesc chipId).grid) start

/-- `DeviceAttr::get`: the number of channels is read from the first chip of the system, the DRAM
grid from the first chip in use. -/
def DeviceAttr.get (systemDesc : SystemDesc) (chipIds : List Nat) : DeviceAttr :=
  let chipDesc := systemDesc.getChipDesc (chipIds.headD 0)
  let workerGrid := createWorkerGrid (commonChipGrid systemDesc chipIds chipDesc.grid) [1, 1]
  { workerGrid
    dramGrid := chipDesc.dramGrid
    dramMap := createDramMap workerGrid (systemDesc.chipDescs.headD default).numDramChannels }

theorem volume_eq (shape : List Int) (stride : Int) : volume shape stride = stride * volume shape := by
  induction shape generalizing stride with
  | nil => simp [volume]
  | cons extent rest ih =>
      change volume rest (stride * extent) = stride * volume rest (1 * extent)
      rw [ih, ih (1 * extent), Int.one_mul, Int.mul_assoc]

theorem volume_prod (shape : List Int) : volume shape = shape.prod := by
  induction shape with
  | nil => rfl
  | cons extent rest ih =>
      change volume rest (1 * extent) = _
      rw [volume_eq, ih, Int.one_mul, List.prod_cons]

theorem alignUp_le (value alignment : Int) (positive : 0 < alignment) : value ≤ alignUp value alignment := by
  have remainder := Int.emod_lt_of_pos (value + alignment - 1) positive
  have split := Int.mul_ediv_add_emod (value + alignment - 1) alignment
  rw [alignUp, Int.mul_comm]
  omega

theorem dvd_alignUp (value alignment : Int) : alignment ∣ alignUp value alignment := Int.dvd_mul_left _ _

theorem alignUp_pos (value alignment : Int) (valuePos : 0 < value) (positive : 0 < alignment) :
    0 < alignUp value alignment := Int.lt_of_lt_of_le valuePos (alignUp_le value alignment positive)

theorem alignUp_one (value : Int) : alignUp value 1 = value := by
  simp [alignUp]

theorem createWorkerGrid_single (rows columns : Int) :
    (createWorkerGrid [rows, columns] [1, 1]).shape = [rows, columns] ∧
    (createWorkerGrid [rows, columns] [1, 1]).virtToPhysicalMap.numDims = 2 := by
  simp [createWorkerGrid]

theorem createDramMap_evaluate (workerGrid : GridAttr) (numDramCores : Int)
    (rank : workerGrid.virtToPhysicalMap.numDims = 2)
    (y x byte gridY gridX shardY shardX page base elementSize : Int) :
    let flat := y * gridX * (shardY * (shardX * elementSize)) +
      (x * (shardY * (shardX * elementSize)) + byte)
    (createDramMap workerGrid numDramCores).evaluate [y, x, byte]
        [gridY, gridX, shardY, shardX, page, base, elementSize] =
      [0, 0, flat / page % numDramCores, flat / page / numDramCores * page + flat % page + base] := by
  simp [createDramMap, rank, AffineMap.evaluate, AffineExpr.eval, flatAddrExpr, flatAddrStep,
    shardVolumeExpr, List.range_succ]

end TtMlir.Memory
