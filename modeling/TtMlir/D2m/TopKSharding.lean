import TtMlir.Layout.VirtualGrid
import TtMlir.Library.DivisorChain

/-!
The split of a top-k over the worker grid: bands of the reduction dim with a tree of merge
rounds, slices of the other dim, or both. Byte counts are integers, since a budget can be
overdrawn; extents and core counts are naturals.
-/

namespace TtMlir.D2m.TopK

def kTileWidth : Nat := 32

/-- Of the shape and of `k`, which are positive. -/
def divideCeil (numerator denominator : Nat) : Nat := (numerator + denominator - 1) / denominator

structure TopKL1Budget where
  usableBytes : Int
  bytesPerLeafTile : Int
  bytesPerMergeTile : Int
  fixedBytes : Int
  deriving DecidableEq, Repr

structure TopKShardingStrategy where
  outputReductionTiles : Nat
  dataParallel : Bool
  multiCore : Bool
  numShards : Nat
  paddedReductionTiles : Nat
  ntShards : Nat
  paddedNonTargetTiles : Nat
  mergeSchedule : List Nat
  deriving DecidableEq, Repr

/-- The arguments of the selection; `dim` is 0 or 1. -/
structure Request where
  k : Nat
  dim : Nat
  inputShape : List Nat
  workerGridShape : Nat × Nat
  budget : TopKL1Budget

def isPowerOf2 (value : Nat) : Bool := decide (value ≠ 0) && decide (value &&& (value - 1) = 0)

/-- Some core rectangle of the grid has this many cores. -/
def canHold (workerGridShape : Nat × Nat) (cores : Nat) : Bool :=
  (Layout.findLegalPhysicalGridForVolume cores ((workerGridShape.1 : Int), (workerGridShape.2 : Int))).isSome

def scanPowerOfTwoFirst {β : Type} (lo hi : Nat) (accept : Nat → Option β) : Option β :=
  [true, false].findSome? fun powerOfTwoOnly =>
    (List.range' lo (hi + 1 - lo)).findSome? fun cand =>
      if powerOfTwoOnly && !isPowerOf2 cand then none else accept cand

def pickMergeGroupCount (mergeCap : Int) (workerGridShape : Nat × Nat) (bands : Nat) : Nat :=
  ((List.range' 1 (bands - 1)).find? fun groups =>
    decide (bands % groups = 0) && decide (((bands / groups : Nat) : Int) ≤ mergeCap) &&
      canHold workerGridShape groups).getD 0

def mergeRounds (mergeCap : Int) (workerGridShape : Nat × Nat) : Nat → Nat → Option (List Nat)
  | 0, _ => some []
  | rounds + 1, bands =>
      if bands ≤ 1 then some []
      else
        let groups := pickMergeGroupCount mergeCap workerGridShape bands
        if groups = 0 then none
        else (mergeRounds mergeCap workerGridShape rounds groups).map (groups :: ·)

def buildMergeSchedule (bands : Nat) (mergeCap : Int) (workerGridShape : Nat × Nat) : Option (List Nat) :=
  mergeRounds mergeCap workerGridShape bands bands

namespace Request

def maxTilesPerCore (request : Request) : Int :=
  max ((request.budget.usableBytes - request.budget.fixedBytes).tdiv request.budget.bytesPerLeafTile) 1

def nonTargetTiles (request : Request) : Nat :=
  divideCeil (request.inputShape.getD (1 - request.dim) 0) kTileWidth

def fullReductionTiles (request : Request) : Nat := divideCeil (request.inputShape.getD request.dim 0) kTileWidth

/-- A core always holds two tiles, since they are merged pairwise. -/
def localReductionTiles (request : Request) : Nat := max request.fullReductionTiles 2

def maxGridCores (request : Request) : Nat := request.workerGridShape.1 * request.workerGridShape.2

def bandGridLimit (request : Request) : Nat :=
  if request.dim = 1 then request.workerGridShape.2 else min request.workerGridShape.1 request.workerGridShape.2

def ntGridLimit (request : Request) : Nat :=
  if request.dim = 1 then request.workerGridShape.1 else request.workerGridShape.2

def outputReductionTiles (request : Request) : Nat := divideCeil request.k kTileWidth

def mergeCapFor (request : Request) (leafTilesPerCore ntTiles : Nat) : Int :=
  (request.budget.usableBytes - request.budget.fixedBytes - leafTilesPerCore * request.budget.bytesPerLeafTile).tdiv
    (request.budget.bytesPerMergeTile * request.outputReductionTiles * ntTiles)

def initial (request : Request) : TopKShardingStrategy where
  outputReductionTiles := request.outputReductionTiles
  dataParallel := false
  multiCore := false
  numShards := 1
  paddedReductionTiles := request.fullReductionTiles
  ntShards := 1
  paddedNonTargetTiles := request.nonTargetTiles
  mergeSchedule := []

def bandTiles (request : Request) (bands : Nat) : Nat :=
  if bands = 1 then request.localReductionTiles else divideCeil request.fullReductionTiles bands

def ntTiles (request : Request) (ntShards : Nat) : Nat := divideCeil request.nonTargetTiles ntShards

/-- A one-dimensional split folds its cores onto the grid, the other spends an axis per dim. -/
def placeable (request : Request) (bands ntShards : Nat) : Bool :=
  if 1 < bands ∧ 1 < ntShards then decide (bands ≤ request.bandGridLimit) && decide (ntShards ≤ request.ntGridLimit)
  else canHold request.workerGridShape (bands * ntShards)

def accepted (request : Request) (bands ntShards : Nat) (mergeSchedule : List Nat) : TopKShardingStrategy :=
  { request.initial with
    multiCore := decide (1 < bands)
    dataParallel := decide (1 < ntShards)
    numShards := bands
    ntShards := ntShards
    paddedReductionTiles := bands * request.bandTiles bands
    paddedNonTargetTiles := ntShards * request.ntTiles ntShards
    mergeSchedule := mergeSchedule }

def accept (request : Request) (bands ntShards : Nat) : Option TopKShardingStrategy :=
  let bandTiles := request.bandTiles bands
  let ntTiles := request.ntTiles ntShards
  if 1 < bands ∧ bandTiles < 2 then none
  else if ((bandTiles * ntTiles : Nat) : Int) > request.maxTilesPerCore then none
  else if request.placeable bands ntShards = false then none
  else if 1 < bands then
    (buildMergeSchedule bands (request.mergeCapFor (bandTiles * ntTiles) ntTiles) request.workerGridShape).map
      (request.accepted bands ntShards)
  else some (request.accepted bands ntShards [])

end Request

/-- The splits in ascending cost: one core, bands, slices from the thinnest on, then both. -/
def selectTopKShardingStrategy (request : Request) : Option TopKShardingStrategy :=
  (request.accept 1 1).or <|
    (scanPowerOfTwoFirst 2 request.maxGridCores fun bands => request.accept bands 1).or <|
      ((List.range' 2 (min request.nonTargetTiles request.maxGridCores - 1)).reverse.findSome? fun ntShards =>
        request.accept 1 ntShards).or <|
        scanPowerOfTwoFirst 2 request.bandGridLimit fun bands =>
          (List.range' 2 (request.ntGridLimit - 1)).findSome? fun ntShards => request.accept bands ntShards

end TtMlir.D2m.TopK
