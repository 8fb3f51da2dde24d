import TtMlir.Library.MapM
import TtMlir.Layout.OptimalGrid

/-!
`DstRegisterAnalysis`: how the output shards of the compute ops of a region are cut into
chunks that fit the DST register of each op. Chunks are brought to one size where that divides,
and grouped under one number of outer iterations; when that collapses and the shards differ, the
region is cut along the rows of its first outputs.
-/

namespace TtMlir.D2m.Dst

/-- A compute op as far as its execution class depends on it. -/
inductive ComputeOp
  | tileMatmulOrReduce
  | tileAddSubMul (lhsIsFloat32 rhsIsFloat32 rhsIsTile : Bool)
  | other
  deriving DecidableEq, Repr

inductive DstExecutionClass
  | fpu
  | sfpu
  deriving DecidableEq, Repr

def classifyComputeOp : ComputeOp → DstExecutionClass
  | .tileMatmulOrReduce => .fpu
  | .tileAddSubMul lhsIsFloat32 rhsIsFloat32 rhsIsTile =>
    if lhsIsFloat32 ∨ rhsIsFloat32 then .sfpu else if rhsIsTile then .fpu else .sfpu
  | .other => .sfpu

/-- The type of an output: its shape when static, the width of a tile's element when it holds tiles. -/
structure OutputType where
  staticShape : Option (List Int)
  tileBits : Option Nat
  extents : ∀ shape ∈ staticShape, ∀ dim ∈ shape, 0 ≤ dim

/-- A `linalg.generic`; it has at least one output. -/
structure LinalgOp where
  computeOps : List ComputeOp
  firstOutput : Nat
  otherOutputs : List Nat
  deriving DecidableEq, Repr

def LinalgOp.outputs (op : LinalgOp) : List Nat := op.firstOutput :: op.otherOutputs

/-- The compute ops of a region, and the size of DST: that of the chip, and an upper bound when
positive. -/
structure Region where
  linalgOps : List LinalgOp
  type : Nat → OutputType
  dstPhysicalSizeTiles : Nat
  maxDstPhysicalSizeTiles : Nat

/-- Why there is no packing: an error was reported, or an assertion failed. -/
inductive Failure
  | reported
  | assertion
  deriving DecidableEq, Repr

structure DSTPackingPerResultInfo where
  numDstFlips : Int
  numTilesPerFlip : Int
  numTilesPerResult : Int
  deriving DecidableEq, Repr

structure DSTPackingRegionInfo where
  perResult : Nat → Option DSTPackingPerResultInfo
  numTilesPerResult : Int
  numOuterLoopIters : Int

structure PendingDSTPackingResult where
  outputValue : Nat
  shardSizeTiles : Int
  numTilesPerFlip : Int
  numDstFlips : Int
  deriving DecidableEq, Repr

def classifyLinalgExecutionClass (op : LinalgOp) : DstExecutionClass :=
  if op.computeOps = [] then .sfpu
  else if op.computeOps.any fun nested => decide (classifyComputeOp nested = .sfpu) then .sfpu
  else .fpu

/-- Half of DST is in use at a time, and a 32-bit tile takes twice the room. -/
def getDstLogicalSizeTiles (dstPhysicalSizeTiles tileBits : Nat) : Nat :=
  if tileBits = 32 then dstPhysicalSizeTiles / 2 / 2 else dstPhysicalSizeTiles / 2

section Chunks

/-- The loop from the largest candidate down. -/
def chunkFrom (shardSizeTiles : Int) : Nat → Option Int
  | 0 => none
  | candidate + 1 =>
    if shardSizeTiles % (candidate + 1 : Int) = 0 then some (candidate + 1) else chunkFrom shardSizeTiles candidate

def getLargestLegalChunkSize (shardSizeTiles maxDstTiles : Int) : Except Failure Int :=
  if maxDstTiles ≤ 0 ∨ shardSizeTiles ≤ 0 then .error .assertion
  else if shardSizeTiles = 1 then .ok 1
  else
    match chunkFrom shardSizeTiles (min maxDstTiles (shardSizeTiles / 2)).toNat with
    | some numTilesPerFlip => .ok numTilesPerFlip
    | none => .error .assertion

def getLargestCommonNumOuterLoopIters (first : Int) (rest : List Int) : Except Failure Int :=
  let maxCandidate := rest.foldl (fun candidate numDstFlips => min candidate (numDstFlips / 2)) (first / 2)
  let gcdNumDstFlips : Int := rest.foldl (fun divisor numDstFlips => (Int.gcd divisor numDstFlips : Int)) first
  if maxCandidate < 1 then .error .assertion
  else
    match (Layout.getFactors gcdNumDstFlips).reverse.find? fun factor => decide (factor ≤ maxCandidate) with
    | some factor => .ok factor
    | none => .error .assertion

end Chunks

/-- `try_emplace`: the entry of the first writer stays. -/
def tryEmplace (perResult : Nat → Option DSTPackingPerResultInfo) (outputValue : Nat)
    (info : DSTPackingPerResultInfo) : Nat → Option DSTPackingPerResultInfo :=
  if (perResult outputValue).isSome then perResult else Function.update perResult outputValue (some info)

/-- What the fallback keeps of an op: it looks at the first output only. -/
structure OpInfo where
  outputValue : Nat
  rowDim : Int
  colProduct : Int
  shardSizeTiles : Int
  maxDstTiles : Int
  deriving DecidableEq, Repr

namespace Region
variable (region : Region)

def getMaxDstTilesForLinalgOp (op : LinalgOp) : Option Int :=
  if op.outputs = [] then none
  else do
    let perOut ← op.outputs.mapM fun output => (region.type output).tileBits
    let constraining := perOut.foldl
      (fun size tileBits => min size (getDstLogicalSizeTiles region.dstPhysicalSizeTiles tileBits)) (2 ^ 32 - 1)
    let dstLogicalSizeTiles :=
      if region.maxDstPhysicalSizeTiles > 0 then min constraining region.maxDstPhysicalSizeTiles else constraining
    let coResidentTiles := op.outputs.length
    let tilesOnHW := match classifyLinalgExecutionClass op with
      | .fpu => dstLogicalSizeTiles
      | .sfpu => dstLogicalSizeTiles / 2
    if tilesOnHW < coResidentTiles then none else some ((tilesOnHW / coResidentTiles : Nat) : Int)

def writes : List (LinalgOp × Nat) := region.linalgOps.flatMap fun op => op.outputs.map fun output => (op, output)

def packOutput (write : LinalgOp × Nat) : Except Failure (Option PendingDSTPackingResult) :=
  match (region.type write.2).staticShape with
  | none => .error .reported
  | some shape =>
    let shardSizeTiles := shape.prod
    if shardSizeTiles = 1 then .ok none
    else
      match region.getMaxDstTilesForLinalgOp write.1 with
      | none => .error .reported
      | some maxDstTiles => do
        let numTilesPerFlip ← getLargestLegalChunkSize shardSizeTiles maxDstTiles
        let numDstFlips := shardSizeTiles / numTilesPerFlip
        if numDstFlips ≤ 0 ∨ numDstFlips < 2 then .error .assertion
        else .ok (some ⟨write.2, shardSizeTiles, numTilesPerFlip, numDstFlips⟩)

def normalize (pendingResults : List PendingDSTPackingResult) : List PendingDSTPackingResult :=
  match pendingResults with
  | [] => []
  | first :: rest =>
    let minNumTilesPerFlip := rest.foldl (fun smallest pending => min smallest pending.numTilesPerFlip) first.numTilesPerFlip
    pendingResults.map fun pending =>
      if pending.numTilesPerFlip ≠ minNumTilesPerFlip ∧ pending.shardSizeTiles % minNumTilesPerFlip = 0 then
        { pending with
          numTilesPerFlip := minNumTilesPerFlip
          numDstFlips := pending.shardSizeTiles / minNumTilesPerFlip }
      else pending

def opInfo (op : LinalgOp) : Option OpInfo :=
  match (region.type op.firstOutput).staticShape with
  | some (rowDim :: col :: cols) =>
    let colProduct := (col :: cols).prod
    let shardSizeTiles := rowDim * colProduct
    if shardSizeTiles ≤ 1 then none
    else do
      let maxDstTiles ← region.getMaxDstTilesForLinalgOp op
      some ⟨op.firstOutput, rowDim, colProduct, shardSizeTiles, maxDstTiles⟩
  | _ => none

def sharedOpInfos : Option (List OpInfo × Int) := do
  let opInfos ← region.linalgOps.mapM region.opInfo
  match opInfos with
  | [] => none
  | first :: _ =>
    let commonRowDim := first.rowDim
    if opInfos.any fun info => decide (info.rowDim ≠ commonRowDim) then none
    else if opInfos.length < 2 ∨ commonRowDim < 2 then none
    else some (opInfos, commonRowDim)

/-- One op cut into outer iterations of the given number; `none` when its packing is not valid. -/
def chunkShared (numOuterIters : Int) (info : OpInfo) : Except Failure (Option DSTPackingPerResultInfo) :=
  let perIterShard := info.shardSizeTiles / numOuterIters
  if perIterShard < 2 then .ok none
  else do
    let maxFlip ← getLargestLegalChunkSize perIterShard info.maxDstTiles
    let numTilesPerFlip := min maxFlip info.colProduct
    let numDstFlips := perIterShard / numTilesPerFlip
    if numDstFlips < 2 then .ok none else .ok (some ⟨numDstFlips, numTilesPerFlip, perIterShard⟩)

def chunkAllShared (numOuterIters : Int) :
    List OpInfo → (Nat → Option DSTPackingPerResultInfo) → Except Failure (Option (Nat → Option DSTPackingPerResultInfo))
  | [], perResult => .ok (some perResult)
  | info :: rest, perResult => do
    match ← chunkShared numOuterIters info with
    | none => .ok none
    | some entry => chunkAllShared numOuterIters rest (tryEmplace perResult info.outputValue entry)

def tryFactors (opInfos : List OpInfo) (commonRowDim : Int) :
    List Int → Except Failure (Option DSTPackingRegionInfo)
  | [] => .ok none
  | factor :: rest =>
    if factor ≥ commonRowDim ∨ factor < 2 then tryFactors opInfos commonRowDim rest
    else do
      let numOuterIters := commonRowDim / factor
      match ← chunkAllShared numOuterIters opInfos fun _ => none with
      | some perResult =>
        .ok (some ⟨perResult, ((opInfos.head?.map OpInfo.shardSizeTiles).getD 0) / numOuterIters, numOuterIters⟩)
      | none => tryFactors opInfos commonRowDim rest

def trySharedParallelChunking : Except Failure (Option DSTPackingRegionInfo) :=
  match region.sharedOpInfos with
  | none => .ok none
  | some (opInfos, commonRowDim) => tryFactors opInfos commonRowDim (Layout.getFactors commonRowDim).reverse

/-- One packing under the common outer loop; of several writers of a value the smallest chunk stays. -/
def emplacePending (common : Int) (perResult : Nat → Option DSTPackingPerResultInfo)
    (pending : PendingDSTPackingResult) : Except Failure (Nat → Option DSTPackingPerResultInfo) :=
  let numDstFlips := pending.numDstFlips / common
  if pending.numDstFlips % common ≠ 0 ∨ numDstFlips < 2 then .error .assertion
  else
    let info : DSTPackingPerResultInfo :=
      ⟨numDstFlips, pending.numTilesPerFlip, numDstFlips * pending.numTilesPerFlip⟩
    match perResult pending.outputValue with
    | none => .ok (Function.update perResult pending.outputValue (some info))
    | some existing =>
      if pending.numTilesPerFlip < existing.numTilesPerFlip then
        .ok (Function.update perResult pending.outputValue (some info))
      else .ok perResult

def heterogeneous (pendingResults : List PendingDSTPackingResult) : Bool :=
  match pendingResults with
  | [] => false
  | first :: _ => pendingResults.any fun pending =>
      decide (pending.numDstFlips * pending.numTilesPerFlip ≠ first.numDstFlips * first.numTilesPerFlip)

def singleTiles (scanned : List (Option PendingDSTPackingResult)) : List Nat :=
  ((region.writes.zip scanned).filter fun entry => entry.2.isNone).map fun entry => entry.1.2

def computeDSTPackingForRegion : Except Failure DSTPackingRegionInfo := do
  let scanned ← region.writes.mapM region.packOutput
  let pendingResults := normalize (scanned.filterMap id)
  let singleTileOutputValues := region.singleTiles scanned
  match pendingResults with
  | [] =>
    if singleTileOutputValues = [] then .error .reported
    else
      .ok ⟨singleTileOutputValues.foldl (fun perResult output => tryEmplace perResult output ⟨1, 1, 1⟩) fun _ => none, 1, 1⟩
  | first :: rest =>
    if singleTileOutputValues ≠ [] then .error .reported
    else do
      let common ← getLargestCommonNumOuterLoopIters first.numDstFlips (rest.map PendingDSTPackingResult.numDstFlips)
      let shared ← if common ≤ 1 ∧ 2 ≤ pendingResults.length ∧ heterogeneous pendingResults = true then
        region.trySharedParallelChunking else .ok none
      match shared with
      | some results => .ok results
      | none =>
        let perResult ← pendingResults.foldlM (emplacePending common) fun _ => none
        .ok ⟨perResult, first.numDstFlips / common * first.numTilesPerFlip, common⟩

end Region

end TtMlir.D2m.Dst
