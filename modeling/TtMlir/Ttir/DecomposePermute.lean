import TtMlir.Library.Permute

/-!
Decomposition of permutes into permutes that keep the last dim and permutes that
swap the last two, DecomposeComplexPermute.cpp.
-/

namespace TtMlir.Ttir

def Inner (permutation : List Nat) : Prop :=
  permutation = List.range (permutation.length - 2) ++ [permutation.length - 1, permutation.length - 2]

def Outer (permutation : List Nat) : Prop :=
  permutation.getD (permutation.length - 1) 0 = permutation.length - 1

instance (permutation : List Nat) : Decidable (Inner permutation) := by
  unfold Inner
  infer_instance

instance (permutation : List Nat) : Decidable (Outer permutation) := by
  unfold Outer
  infer_instance

section Decomposition

def applyPermutation (input permutation : List Nat) : List Nat := gather input permutation

def isInnerPermute (permutation : List Nat) : Bool :=
  let rank := permutation.length
  -- below rank 2 the size of the identity wraps around and no list has it
  if rank < 2 then false
  else
    -- the identity is a view of the front of the permutation itself
    let identity := permutation.take (rank - 2)
    if permutation.take (rank - 2) ≠ identity then false
    else decide (permutation.getD (rank - 2) 0 = rank - 1) && decide (permutation.getD (rank - 1) 0 = rank - 2)

def createInnerPermute (rank : Nat) : List Nat := List.range (rank - 2) ++ [rank - 1, rank - 2]

def isIdentity (permutation : List Nat) : Bool :=
  (List.range permutation.length).all fun i => decide (permutation.getD i 0 = i)

def pushUnlessIdentity (permutation : List Nat) : List (List Nat) :=
  if isIdentity permutation then [] else [permutation]

def outerOf (permutation : List Nat) : List Nat :=
  let n := permutation.length
  permutation.take (n - 2) ++ [permutation.getD (n - 1) 0, n - 1]

/-- Dim `k` and the last but one swapped. -/
def outer1Of (n k : Nat) : List Nat := ((List.range n).set (n - 2) k).set k (n - 2)

def outer2Of (permutation : List Nat) : List Nat :=
  let n := permutation.length
  let k := permutation.getD (n - 1) 0
  (permutation.take (n - 1)).map (fun targetVal =>
    if targetVal = n - 2 then k else if targetVal = n - 1 then n - 2 else targetVal) ++ [n - 1]

def decomposePermutation (permutation : List Nat) : List (List Nat) :=
  let n := permutation.length
  if permutation.getD (n - 1) 0 = n - 1 then []
  else if permutation.getD (n - 2) 0 = n - 1 then
    pushUnlessIdentity (outerOf permutation) ++ [createInnerPermute n]
  else
    pushUnlessIdentity (outer1Of n (permutation.getD (n - 1) 0)) ++ [createInnerPermute n] ++
      pushUnlessIdentity (outer2Of permutation)

end Decomposition

section Pass

/-- A value of the module, or one that the pass makes on the way to it. -/
inductive Value where
  | given (name : Nat)
  | step (result : Value) (number : Nat)
  deriving DecidableEq

structure PermuteOp where
  input : Value
  result : Value
  permutation : List Nat
  inputShape : List Nat
  outputShape : List Nat
  decomposed : Bool
  deriving DecidableEq

def PermuteOp.Verified (op : PermuteOp) : Prop :=
  0 < op.inputShape.length ∧ Permutes op.inputShape.length op.permutation ∧
    op.outputShape = applyPermutation op.inputShape op.permutation

/-- The ops of a block in their order. A region belongs to the op before it. -/
inductive Block where
  | done
  | permute (op : PermuteOp) (rest : Block)
  | other (name : String) (operands results : List Value) (rest : Block)
  | region (body rest : Block)

def Block.permutes : Block → List PermuteOp
  | .done => []
  | .permute op rest => op :: rest.permutes
  | .other _ _ _ rest => rest.permutes
  | .region body rest => body.permutes ++ rest.permutes

def Block.addPermutes (rest : Block) (ops : List PermuteOp) : Block := ops.foldr .permute rest

def chain (result : Value) : Nat → Value → List Nat → List (List Nat) → List PermuteOp
  | _, _, _, [] => []
  | number, input, shape, permutation :: rest =>
      let outputShape := applyPermutation shape permutation
      let output := if rest = [] then result else .step result number
      ⟨input, output, permutation, shape, outputShape, true⟩ :: chain result (number + 1) output outputShape rest

/-- The walk collects these. -/
def isComplex (permutation : List Nat) : Bool :=
  !isInnerPermute permutation && decide (decomposePermutation permutation ≠ [])

def runOnOperation : Block → Block
  | .done => .done
  | .permute op rest =>
      if isComplex op.permutation then
        (runOnOperation rest).addPermutes (chain op.result 0 op.input op.inputShape (decomposePermutation op.permutation))
      else .permute op (runOnOperation rest)
  | .other name operands results rest => .other name operands results (runOnOperation rest)
  | .region body rest => .region (runOnOperation body) (runOnOperation rest)

end Pass

end TtMlir.Ttir
