import TtMlir.D2m.DstPacking
import TtMlir.Library.ProjectedPermutation
import TtMlir.Library.RowMajorBlock

/-!
The tiling of a compute op after its packing in DST: the output block is cut into subblocks of at
most the capacity, the cuts are carried to the loops over all operands, and this is done twice,
for the outer loop and for the flips.
-/

namespace TtMlir.D2m.Dst

/-- The dims from the innermost on. A dim that is not consumed leaves room for one only. -/
def subblockFactorsFrom (remainingBlockFactor : Int) : List Int → List Int
  | [] => []
  | dim :: outer =>
      match chunkFrom dim remainingBlockFactor.toNat with
      | none => subblockFactorsFrom remainingBlockFactor outer
      | some factor =>
          dim / factor :: subblockFactorsFrom (if dim = factor then remainingBlockFactor / factor else 1) outer

def calculateOutputSubblockFactors (outputBlockShape : List Int) (dstCapacity : Int) : Option (List Int) :=
  let outputBlockFactors := subblockFactorsFrom dstCapacity outputBlockShape.reverse
  if outputBlockFactors.length = outputBlockShape.length then some outputBlockFactors.reverse else none

abbrev Indexed := ProjectedPermutation × List Int

/-- A `linalg.generic` on blocks: the extents of its loops and its operands. -/
structure LoopNest where
  loopExtents : List Int
  inputs : List Indexed
  firstOutput : Indexed
  otherOutputs : List Indexed

/-- `resize` with ones. -/
def resizeOnes (values : List Int) (size : Nat) : List Int := values.take size ++ List.replicate (size - values.length) 1

/-- `inversePermutation`: for each dim the first result that is it; none if a dim is nowhere. -/
def inversePermutation (numDims : Nat) (results : List (Option Nat)) : Option (List Nat) :=
  (List.range numDims).mapM fun dim => results.idxOf? (some dim)

namespace LoopNest
variable (nest : LoopNest)

def operands : List Indexed := nest.inputs ++ nest.firstOutput :: nest.otherOutputs

def concatResults : List (Option Nat) :=
  (nest.otherOutputs.reverse ++ nest.firstOutput :: nest.inputs.reverse).flatMap fun operand => operand.1.results

def concatInversePermutationMap : Option (List Nat) :=
  inversePermutation nest.loopExtents.length nest.concatResults

def calculateOptimalSubblockSizes (dstCapacity : Int) : Option (List Int) := do
  let outputSubblockFactors ← calculateOutputSubblockFactors nest.firstOutput.2 dstCapacity
  let inverse ← nest.concatInversePermutationMap
  let leadingOnes := nest.otherOutputs.reverse.flatMap fun output => List.replicate output.2.length (1 : Int)
  let flattenedSubblockFactors := resizeOnes (leadingOnes ++ outputSubblockFactors) nest.concatResults.length
  let subblockFactors := inverse.map (flattenedSubblockFactors.getD · 0)
  let flattenedBlockShapes :=
    (nest.otherOutputs.reverse ++ nest.firstOutput :: nest.inputs.reverse).flatMap fun operand => operand.2
  let blockShapes := inverse.map (flattenedBlockShapes.getD · 0)
  some (List.zipWith (· / ·) blockShapes subblockFactors)

/-- An operand's block in one iteration: its tiled dims have the tile sizes, the others stay. -/
def tiledShape (tileSizes : List Int) (operand : Indexed) : Indexed :=
  (operand.1, List.zipWith (fun result size => (result.map fun dim => tileSizes.getD dim 0).getD size)
    operand.1.results operand.2)

def tile (tileSizes : List Int) : LoopNest where
  loopExtents := tileSizes
  inputs := nest.inputs.map (tiledShape tileSizes)
  firstOutput := tiledShape tileSizes nest.firstOutput
  otherOutputs := nest.otherOutputs.map (tiledShape tileSizes)

/-- The iterations of the loops: a size of zero leaves its dim without a loop. -/
def tripCount (tileSizes : List Int) : Int :=
  (List.zipWith (fun extent size => if size = 0 then 1 else (extent + size - 1) / size)
    nest.loopExtents tileSizes).prod

end LoopNest

/-- The two phases of the tiling. -/
structure Tiling where
  phase1TileSizes : List Int
  innerOp : LoopNest
  phase2TileSizes : List Int

def tileLinalgOp (nest : LoopNest) (perResult : DSTPackingPerResultInfo) : Option Tiling := do
  let phase1TileSizes ← nest.calculateOptimalSubblockSizes perResult.numTilesPerResult
  let innerOp := nest.tile phase1TileSizes
  let phase2TileSizes ← innerOp.calculateOptimalSubblockSizes perResult.numTilesPerFlip
  some ⟨phase1TileSizes, innerOp, phase2TileSizes⟩

end TtMlir.D2m.Dst
