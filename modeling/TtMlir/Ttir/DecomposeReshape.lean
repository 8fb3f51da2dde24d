import TtMlir.Library.Reshape

/-!
Decomposition of reshapes that move trailing unit dims into reshapes and swaps of
the last two dims, DecomposeComplexReshape.cpp.
-/

namespace TtMlir.Ttir.ComplexReshape

section Shapes

def getNonOneDims (shape : List Nat) : List Nat := shape.filter (· ≠ 1)

def countLeadingOnes (shape : List Nat) : Nat := (shape.takeWhile (· = 1)).length

def countTrailingOnes (shape : List Nat) : Nat := (shape.reverse.takeWhile (· = 1)).length

def swapLastTwoDims (shape : List Nat) : List Nat :=
  let size := shape.length
  (shape.set (size - 1) (shape.getD (size - 2) 0)).set (size - 2) (shape.getD (size - 1) 0)

def buildLastTwoSwapPerm (rank : Nat) : List Nat := List.range (rank - 2) ++ [rank - 1] ++ [rank - 2]

end Shapes

/-- An op that is built, with the shape of its result. -/
inductive Step where
  | reshape (shape : List Nat)
  | permute (permutation shape : List Nat)
  deriving DecidableEq

def createReshape (newShape : List Nat) : Step := .reshape newShape

def createPermuteSwapLastTwoDims (inputShape : List Nat) : Step :=
  let perm := buildLastTwoSwapPerm inputShape.length
  .permute perm (perm.map fun idx => inputShape.getD idx 0)

section Analysis

def back (shape : List Nat) : Nat := shape.getD (shape.length - 1) 0

def isSingletonTranspose (inputShape outputShape : List Nat) : Bool :=
  if inputShape.isEmpty || outputShape.isEmpty then false
  else if getNonOneDims inputShape ≠ getNonOneDims outputShape then false
  else decide (back inputShape = 1) != decide (back outputShape = 1)

def needsFlattenAndSwap (inputShape outputShape : List Nat) : Bool :=
  if inputShape.isEmpty || outputShape.isEmpty then false
  else if getNonOneDims inputShape = getNonOneDims outputShape then false
  else decide (countLeadingOnes inputShape < countLeadingOnes outputShape) && decide (0 < countTrailingOnes inputShape)

end Analysis

section Decomposition
variable (inputShape outputShape : List Nat)

def reshapeUnless (shape newShape : List Nat) : List Step := if shape ≠ newShape then [createReshape newShape] else []

def decomposeViaInputSwap : List Step :=
  let inRank := inputShape.length
  if 2 ≤ inRank ∧ inputShape.getD (inRank - 1) 0 ≠ inputShape.getD (inRank - 2) 0 then
    [createPermuteSwapLastTwoDims inputShape] ++ reshapeUnless (swapLastTwoDims inputShape) outputShape
  else
    let withInserted := inputShape.take (inRank - 1) ++ 1 :: inputShape.drop (inRank - 1)
    [createReshape withInserted, createPermuteSwapLastTwoDims withInserted] ++
      reshapeUnless (swapLastTwoDims withInserted) outputShape

def decomposeOutputTrailing : List Step :=
  let outputSwapped := swapLastTwoDims outputShape
  if outputSwapped ≠ outputShape then
    reshapeUnless inputShape outputSwapped ++ [.permute (buildLastTwoSwapPerm outputShape.length) outputShape]
  else decomposeViaInputSwap inputShape outputShape

/-- None where neither swap is possible. -/
def decomposeInputTrailing : Option (List Step) :=
  let inputSwapped := swapLastTwoDims inputShape
  if inputSwapped ≠ inputShape then
    some ([createPermuteSwapLastTwoDims inputShape] ++ reshapeUnless inputSwapped outputShape)
  else if outputShape.length < 2 then none
  else
    let outputSwapped := swapLastTwoDims outputShape
    if outputSwapped = outputShape then none
    else
      some (reshapeUnless inputShape outputSwapped ++ [.permute (buildLastTwoSwapPerm outputShape.length) outputShape])

def decomposeSingletonTranspose : Option (List Step) :=
  if back inputShape ≠ 1 then some (decomposeOutputTrailing inputShape outputShape)
  else decomposeInputTrailing inputShape outputShape

def decomposeFlattenAndSwap : List Step :=
  let product := (getNonOneDims inputShape).prod
  let collapsedShape := [product, 1]
  let swappedShape := [1, product]
  reshapeUnless inputShape collapsedShape ++ [createPermuteSwapLastTwoDims collapsedShape] ++
    reshapeUnless swappedShape outputShape

def rewriteReshape : Option (List Step) :=
  if isSingletonTranspose inputShape outputShape then decomposeSingletonTranspose inputShape outputShape
  else if needsFlattenAndSwap inputShape outputShape then some (decomposeFlattenAndSwap inputShape outputShape)
  else none

end Decomposition

section Meaning
variable {α : Type}

def Step.apply (tensor : Tensor α) : Step → Tensor α
  | .reshape shape => tensor.reshape shape
  | .permute permutation _ => tensor.permute permutation

def run (steps : List Step) (tensor : Tensor α) : Tensor α := steps.foldl Step.apply tensor

end Meaning

end TtMlir.Ttir.ComplexReshape
