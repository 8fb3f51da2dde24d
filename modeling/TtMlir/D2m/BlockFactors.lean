import TtMlir.Layout.OptimalGrid
import TtMlir.Library.BestOf

/-!
The block factors of a generic op under the automatic policies: which dims may be scaled, the
divisors tried for each, and the best choice among those that every buffer admits.
-/

namespace TtMlir.D2m.BlockFactors

/-- `isFunctionOfDim` of an expression. -/
def dependsOn (dim : Nat) : AffineExpr → Bool
  | .dim position => decide (position = dim)
  | .sym _ | .const _ => false
  | .add lhs rhs | .mul lhs rhs | .mod lhs rhs | .floorDiv lhs rhs | .ceilDiv lhs rhs =>
      dependsOn dim lhs || dependsOn dim rhs

def isFunctionOfDim (map : AffineMap) (dim : Nat) : Bool := map.results.any (dependsOn dim)

inductive IteratorType where
  | parallel
  | reduction
  deriving DecidableEq, Repr

/-- The shape is that of a tile type; the sizes are those of one element and of one CB page. -/
structure ElementType where
  tileShape : Option (Int × Int)
  sizeBytes : Int
  pageSizeBytes : Int
  deriving DecidableEq, Repr

/-- The layout is the grid and the shard shape. -/
structure Operand where
  elementType : ElementType
  isMemRef : Bool
  hasStaticShape : Bool
  deviceLayout : Option (List Int × List Int)

/-- An allocation in the region, with its `d2m.blocking_map`. -/
structure AllocOp where
  blockingMap : Option AffineMap
  elementType : ElementType

/-- `regions` says of each region whether it has compute ops. -/
structure GenericOp where
  inputs : List Operand
  outputs : List Operand
  indexingMaps : List AffineMap
  iteratorTypes : List IteratorType
  blockFactors : List Int
  regions : List Bool
  hasTilizeBlock : Bool
  hasUntilizeBlock : Bool
  allocs : List AllocOp

namespace GenericOp
variable (generic : GenericOp)

def operands : List Operand := generic.inputs ++ generic.outputs

def isDMAOnlyForm : Bool := !generic.regions.isEmpty && generic.regions.all fun compute => !compute

def isExplicitDatamovementForm : Bool :=
  generic.blockFactors.isEmpty && generic.indexingMaps.isEmpty && generic.iteratorTypes.isEmpty

def indexingMap (operandIndex : Nat) : AffineMap := generic.indexingMaps.getD operandIndex { numDims := 0, results := [] }

def isOutputOperandIdx (operandIndex : Nat) : Bool :=
  decide (generic.inputs.length ≤ operandIndex) && decide (operandIndex < generic.operands.length)

def getParticipatingDimMask : List Bool :=
  let outputMap := generic.indexingMaps.getLastD { numDims := 0, results := [] }
  (List.range outputMap.numDims).map (isFunctionOfDim outputMap)

end GenericOp

def hasTileElementType (operand : Operand) : Bool := operand.elementType.tileShape.isSome

def volume (shape : List Int) : Int := shape.prod

def alignUp (value alignment : Int) : Int := (value + alignment - 1) / alignment * alignment

def getCBBufferSizeBytes (shardShape : List Int) (elementType : ElementType) (buffers : Nat) : Int :=
  alignUp (volume shardShape * (elementType.sizeBytes * buffers)) elementType.pageSizeBytes

def getDimMask (rank : Nat) (dims : List Nat) : List Bool := (List.range rank).map fun dim => decide (dim ∈ dims)

def getBlockedDimMask (blockFactors : List Int) : List Bool := blockFactors.map fun factor => decide (factor > 1)

def isIndexingMapBlocked (map : AffineMap) (blockedDims : List Bool) : Bool :=
  (List.range blockedDims.length).any fun dim => blockedDims.getD dim false && isFunctionOfDim map dim

def canonicalizeBroadcasts (map : AffineMap) : AffineMap :=
  { map with results := map.results.map fun expr => if expr = .const 0 then .const 1 else expr }

/-- `{1, 1}` if it is no tile type. -/
def getEffectiveTileShape (elementType : ElementType) : Int × Int := elementType.tileShape.getD (1, 1)

def canReblockOperandToGrid (operand : Operand) (newGridShape : List Int) : Bool :=
  operand.hasStaticShape &&
    match operand.deviceLayout with
    | none => false
    | some (oldGridShape, oldShardShape) =>
        decide (newGridShape.length = oldGridShape.length ∧ oldGridShape.length = oldShardShape.length) &&
          newGridShape.zipIdx.all fun gridDim =>
            decide (0 < gridDim.1 ∧ (oldGridShape.getD gridDim.2 0 * oldShardShape.getD gridDim.2 0) % gridDim.1 = 0)

inductive AutoShapeClass where
  | singleReduction
  | allParallelEltwise
  | allParallelLayoutConversion
  deriving DecidableEq, Repr

structure AutoSearchConfig where
  shapeClass : AutoShapeClass
  candidateDims : List Nat
  deriving DecidableEq, Repr

structure CandidateScore where
  dimScales : List Int
  blockFactors : List Int
  blockingVolume : Int
  cbBytes : Int
  deriving DecidableEq, Repr

structure PartialCandidate where
  dimScales : List Int
  blockingVolume : Int
  moderationPenalty : Nat
  deriving DecidableEq, Repr

def kEltwiseBeamWidth : Nat := 64

def kEltwiseScalesPerDim : Nat := 5

def isLexicographicallyLarger : List Int → List Int → Bool
  | lhs :: lhsRest, rhs :: rhsRest =>
      if lhs ≠ rhs then decide (lhs > rhs) else isLexicographicallyLarger lhsRest rhsRest
  | _, _ => false

def factorRanks (factors : List Int) : Int → Int :=
  factors.zipIdx.foldl (fun ranks factor => Function.update ranks factor.1 factor.2) fun _ => 0

def scaleBefore (ranks : Int → Int) (midpoint lhs rhs : Int) : Bool :=
  let lhsPenalty := |ranks lhs - midpoint|
  let rhsPenalty := |ranks rhs - midpoint|
  if lhs = rhs then false
  else if lhsPenalty ≠ rhsPenalty then decide (lhsPenalty < rhsPenalty)
  else if decide (lhs = 1) ≠ decide (rhs = 1) then decide (rhs = 1)
  else decide (lhs > rhs)

/-- Moderate divisors first, at most five of them, and 1 among these. -/
def buildEltwiseScaleSearchOrder (shardFactor : Int) : List Int :=
  let factors := Layout.getFactors shardFactor
  let midpoint : Int := ((factors.length - 1 : Nat) : Int) / 2
  let sorted := factors.insertionSort fun lhs rhs => scaleBefore (factorRanks factors) midpoint rhs lhs = false
  let limited := sorted.take kEltwiseScalesPerDim
  if 1 ∈ limited then limited else limited.dropLast ++ [1]

def usesAllParallelScaleSearch : AutoShapeClass → Bool
  | .singleReduction => false
  | .allParallelEltwise | .allParallelLayoutConversion => true

def isBetterPartialCandidate (lhs rhs : PartialCandidate) : Bool :=
  if lhs.moderationPenalty ≠ rhs.moderationPenalty then decide (lhs.moderationPenalty < rhs.moderationPenalty)
  else if lhs.blockingVolume ≠ rhs.blockingVolume then decide (lhs.blockingVolume > rhs.blockingVolume)
  else isLexicographicallyLarger lhs.dimScales rhs.dimScales

def trimPartialBeam (beam : List PartialCandidate) : List PartialCandidate :=
  (beam.insertionSort fun lhs rhs => isBetterPartialCandidate rhs lhs = false).take kEltwiseBeamWidth

def isBetterCandidate (shapeClass : AutoShapeClass) (lhs rhs : CandidateScore) : Bool :=
  match shapeClass with
  | .singleReduction =>
      if lhs.cbBytes ≠ rhs.cbBytes then decide (lhs.cbBytes < rhs.cbBytes)
      else if lhs.blockingVolume ≠ rhs.blockingVolume then decide (lhs.blockingVolume > rhs.blockingVolume)
      else isLexicographicallyLarger lhs.dimScales rhs.dimScales
  | .allParallelEltwise | .allParallelLayoutConversion =>
      if lhs.blockingVolume ≠ rhs.blockingVolume then decide (lhs.blockingVolume > rhs.blockingVolume)
      else if lhs.cbBytes ≠ rhs.cbBytes then decide (lhs.cbBytes < rhs.cbBytes)
      else isLexicographicallyLarger lhs.dimScales rhs.dimScales

/-- The arguments of the search. The maps and the iterator types are the op's own. -/
structure Request where
  generic : GenericOp
  gridExtents : List Int
  shardExtents : List Int
  shardFactors : List Int
  numBuffers : Nat
  useBoundedEltwiseSearch : Bool
  allowMNReblocking : Bool
  blockRank : generic.blockFactors.length = shardFactors.length
  iteratorRank : generic.iteratorTypes.length = shardFactors.length
  gridRank : gridExtents.length = shardFactors.length
  shardRank : shardExtents.length = shardFactors.length
  blockFactorsPositive : ∀ factor ∈ generic.blockFactors, 0 < factor
  shardFactorsPositive : ∀ factor ∈ shardFactors, 0 < factor

namespace Request
variable (request : Request)

def reductionDims : List Nat :=
  (List.range request.generic.iteratorTypes.length).filter fun dim =>
    decide (request.generic.iteratorTypes.getD dim .parallel = .reduction)

def getAllParallelCandidateDims : List Nat :=
  (List.range request.shardFactors.length).filter fun dim =>
    request.generic.getParticipatingDimMask.getD dim false && decide (request.shardFactors.getD dim 0 > 1)

def isSingleReductionPanelDim (dim : Nat) : Bool :=
  let numOperandsUsingDim := (request.generic.indexingMaps.filter fun map => decide (.dim dim ∈ map.results)).length
  decide (0 < numOperandsUsingDim) && decide (numOperandsUsingDim < request.generic.operands.length)

def getSingleReductionCandidateDims : List Nat :=
  if !request.allowMNReblocking then request.reductionDims
  else (List.range request.shardFactors.length).filter fun dim =>
    decide (request.shardFactors.getD dim 0 > 1) && request.isSingleReductionPanelDim dim

def isScalarTileLayoutConversion : Bool :=
  match request.generic.inputs, request.generic.outputs with
  | [input], [output] =>
      if hasTileElementType input = hasTileElementType output then false
      else if hasTileElementType input then request.generic.hasUntilizeBlock else request.generic.hasTilizeBlock
  | _, _ => false

def classifyAutoSearch : Option AutoSearchConfig :=
  if request.generic.isDMAOnlyForm || request.generic.isExplicitDatamovementForm ||
      decide (request.generic.outputs.length ≠ 1) then none
  else
    let hasMixedElementTypeKinds :=
      request.generic.operands.any hasTileElementType && request.generic.operands.any fun operand => !hasTileElementType operand
    match request.reductionDims with
    | [] =>
        let candidateDims := request.getAllParallelCandidateDims
        if hasMixedElementTypeKinds && !request.isScalarTileLayoutConversion then none
        else if candidateDims.isEmpty then none
        else if hasMixedElementTypeKinds then some ⟨.allParallelLayoutConversion, candidateDims⟩
        else some ⟨.allParallelEltwise, candidateDims⟩
    | [_] =>
        let candidateDims := request.getSingleReductionCandidateDims
        if hasMixedElementTypeKinds then none
        else if candidateDims.isEmpty then none
        else some ⟨.singleReduction, candidateDims⟩
    | _ :: _ :: _ => none

def getOperandGridAndShardExtents (operandIndex : Nat) (gridExtents shardExtents : List Int) : List Int × List Int :=
  let canonicalMap := canonicalizeBroadcasts (request.generic.indexingMap operandIndex)
  let gridShape := canonicalMap.evaluate gridExtents
  let shardShape := canonicalMap.evaluate shardExtents
  if request.generic.isOutputOperandIdx operandIndex && decide (2 ≤ shardShape.length) then
    let inputTile := (request.generic.operands.head?.map fun operand => getEffectiveTileShape operand.elementType).getD (1, 1)
    let outputTile :=
      (request.generic.operands.getLast?.map fun operand => getEffectiveTileShape operand.elementType).getD (1, 1)
    let row := shardShape.length - 2
    let rescaled := shardShape.set row (shardShape.getD row 0 * inputTile.1 / outputTile.1)
    (gridShape, rescaled.set (row + 1) (rescaled.getD (row + 1) 0 * inputTile.2 / outputTile.2))
  else (gridShape, shardShape)

def candidateGridExtents (dimScales : List Int) : List Int := List.zipWith (· * ·) request.gridExtents dimScales

def candidateShardExtents (dimScales : List Int) : List Int := List.zipWith (· / ·) request.shardExtents dimScales

def candidateBlockFactors (dimScales : List Int) : List Int := List.zipWith (· * ·) request.generic.blockFactors dimScales

/-- Whether a buffer was affected, and the bytes so far. -/
abbrev Tally := Bool × Int

def evaluateOperand (dimScales : List Int) (scaledDims : List Bool) (tally : Tally) (operand : Operand × Nat) :
    Option Tally :=
  if !isIndexingMapBlocked (request.generic.indexingMap operand.2) scaledDims then some tally
  else
    let (gridShape, shardShape) := request.getOperandGridAndShardExtents operand.2
      (request.candidateGridExtents dimScales) (request.candidateShardExtents dimScales)
    if !canReblockOperandToGrid operand.1 gridShape then none
    else if volume shardShape < 4 then none
    else if !operand.1.isMemRef then none
    else some (true, tally.2 + getCBBufferSizeBytes shardShape operand.1.elementType request.numBuffers)

def evaluateAlloc (dimScales : List Int) (scaledDims : List Bool) (tally : Tally) (alloc : AllocOp) : Option Tally :=
  match alloc.blockingMap with
  | none => some tally
  | some blockingMap =>
      if !isIndexingMapBlocked blockingMap scaledDims then some tally
      else
        let shardShape := (canonicalizeBroadcasts blockingMap).evaluate (request.candidateShardExtents dimScales)
        if volume shardShape < 4 then none
        else some (true, tally.2 + getCBBufferSizeBytes shardShape alloc.elementType request.numBuffers)

def evaluateCandidate (candidateDims : List Nat) (dimScales : List Int) (allowIdentityCandidate : Bool) :
    Option CandidateScore :=
  let hasNonTrivialScale := dimScales.any fun scale => decide (scale > 1)
  if !hasNonTrivialScale && !allowIdentityCandidate then none
  else
    let scaledDims := if hasNonTrivialScale then getBlockedDimMask dimScales else getDimMask dimScales.length candidateDims
    (request.generic.operands.zipIdx.foldlM (request.evaluateOperand dimScales scaledDims) (false, 0)).bind fun operands =>
      (request.generic.allocs.foldlM (request.evaluateAlloc dimScales scaledDims) operands).bind fun tally =>
        if !tally.1 then none
        else some ⟨dimScales, request.candidateBlockFactors dimScales, dimScales.prod, tally.2⟩

def legalScales (shapeClass : AutoShapeClass) (dim : Nat) : List Int :=
  if usesAllParallelScaleSearch shapeClass then buildEltwiseScaleSearchOrder (request.shardFactors.getD dim 0)
  else Layout.getFactors (request.shardFactors.getD dim 0)

def expandBeam (beam : List PartialCandidate) (slot : Nat × List Int) : List PartialCandidate :=
  trimPartialBeam (beam.flatMap fun candidate => slot.2.zipIdx.map fun scale =>
    { dimScales := candidate.dimScales.set slot.1 scale.1
      blockingVolume := candidate.blockingVolume * scale.1
      moderationPenalty := candidate.moderationPenalty + scale.2 })

/-- The recursion over the candidate dims. A dim is 1 again after its loop, as it was before. -/
def enumerateCandidates (config : AutoSearchConfig) :
    List (Nat × List Int) → List Int → Option CandidateScore → Option CandidateScore
  | [], currentDimScales, best =>
      keepBetter (isBetterCandidate config.shapeClass) best
        (request.evaluateCandidate config.candidateDims currentDimScales false)
  | slot :: rest, currentDimScales, best =>
      slot.2.foldl (fun best scale => enumerateCandidates config rest (currentDimScales.set slot.1 scale) best) best

def unscaled : List Int := List.replicate request.shardFactors.length 1

def findBestCandidate (config : AutoSearchConfig) : Option CandidateScore :=
  let slots := config.candidateDims.map fun dim => (dim, request.legalScales config.shapeClass dim)
  let boundedSearchSpace := (slots.map fun slot => slot.2.length).prod
  let first :=
    if config.shapeClass = .singleReduction then request.evaluateCandidate config.candidateDims request.unscaled true
    else none
  if request.useBoundedEltwiseSearch && usesAllParallelScaleSearch config.shapeClass &&
      decide (kEltwiseBeamWidth < boundedSearchSpace) then
    let beam := slots.foldl expandBeam [⟨request.unscaled, 1, 0⟩]
    beam.foldl (fun best candidate => keepBetter (isBetterCandidate config.shapeClass) best
      (request.evaluateCandidate config.candidateDims candidate.dimScales false)) first
  else request.enumerateCandidates config slots request.unscaled first

def applyAutoPolicy : List Int :=
  match request.classifyAutoSearch with
  | none => request.generic.blockFactors
  | some config =>
      match request.findBestCandidate config with
      | none => request.generic.blockFactors
      | some best => best.blockFactors

end Request

end TtMlir.D2m.BlockFactors
