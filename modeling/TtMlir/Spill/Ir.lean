import Mathlib.Data.List.Basic

/-!
The function the L1 spill pass rewrites, as far as the pass reads and changes
it: operations with operands and tensor results, the layout of every result,
and the order of the operations in their block.
-/

namespace TtMlir.Spill

inductive BufferType where
  | dram
  | l1
  | systemMemory
  | l1Small
  | trace
  deriving DecidableEq, Repr

inductive TensorMemoryLayout where
  | interleaved
  | heightSharded
  | widthSharded
  | blockSharded
  | ndSharded
  deriving DecidableEq, Repr

/-- `TTNNLayoutAttr`. `perCoreL1Usage` is what `utils::getPerCoreL1Usage` computes; `encoding` is
what the pass never looks at. -/
structure TTNNLayout where
  bufferType : BufferType
  memLayout : TensorMemoryLayout := .interleaved
  perCoreL1Usage : Nat := 0
  encoding : Nat := 0
  deriving DecidableEq, Repr

namespace TTNNLayout

def hasL1BufferType (layout : TTNNLayout) : Bool := decide (layout.bufferType = .l1)

/-- `setBufferType(DRAM)` and `setMemoryLayout(Interleaved)`. -/
def toDram (layout : TTNNLayout) : TTNNLayout :=
  { layout with bufferType := .dram, memLayout := .interleaved }

end TTNNLayout

abbrev OpId := Nat

inductive Value where
  | argument (index : Nat)
  | result (op : OpId) (number : Nat)
  deriving DecidableEq, Repr

def Value.getDefiningOp : Value → Option OpId
  | argument _ => none
  | result op _ => some op

/-- A view op carries the test its `can..BeView` makes of the layouts of its first operand and
result. -/
inductive OpKind where
  | sink
  | empty
  | toTensorSpec
  | toMemoryConfig
  | dramShardedMatmul
  | view (canBeView : TTNNLayout → TTNNLayout → Bool)
  | other (hasOpModel : Bool)

/-- A result is `none` where its type is not a ranked tensor. -/
@[ext] structure Operation where
  kind : OpKind
  operands : List Value
  results : List (Option TTNNLayout)

namespace Operation

def isSinkOp (op : Operation) : Bool := match op.kind with | .sink => true | _ => false

def isToTensorSpec (op : Operation) : Bool := match op.kind with | .toTensorSpec => true | _ => false

def isToMemoryConfig (op : Operation) : Bool := match op.kind with | .toMemoryConfig => true | _ => false

def isDRAMShardedMatmul (op : Operation) : Bool :=
  match op.kind with | .dramShardedMatmul => true | _ => false

/-- `dyn_cast<OpModel>` succeeds. -/
def hasOpModel (op : Operation) : Bool := match op.kind with | .other known => known | .empty => false | _ => true

/-- Takes part in the schedule: a first result that is a tensor, or a sink. -/
def isBeamSearchTarget (op : Operation) : Bool :=
  match op.kind with
  | .sink => true
  | .empty => false
  | _ => (op.results.head?.join).isSome

def hasL1Output (op : Operation) : Bool :=
  op.results.any fun result => result.any (·.hasL1BufferType)

def tensorResults (op : Operation) : List Nat :=
  (List.range op.results.length).filter fun number => (op.results[number]?).join.isSome

end Operation

instance : Inhabited Operation := ⟨{ kind := .empty, operands := [], results := [] }⟩

/-- Operations by id, and their order in the block. -/
structure Func where
  arguments : List (Option TTNNLayout) := []
  ops : List Operation
  body : List OpId

namespace Func

def getOp (func : Func) (op : OpId) : Operation := func.ops.getD op default

def getLayout (func : Func) : Value → Option TTNNLayout
  | .argument index => (func.arguments[index]?).join
  | .result op number => ((func.getOp op).results[number]?).join

def tensorResults (func : Func) (op : OpId) : List Value :=
  (func.getOp op).tensorResults.map (.result op)

def setOperand (func : Func) (op : OpId) (number : Nat) (value : Value) : Func :=
  { func with ops := func.ops.modify op fun operation =>
      { operation with operands := operation.operands.set number value } }

def setResults (func : Func) (op : OpId) (results : List (Option TTNNLayout)) : Func :=
  { func with ops := func.ops.modify op fun operation => { operation with results } }

def uses (func : Func) (value : Value) : List (OpId × Nat) :=
  (List.range func.ops.length).flatMap fun op =>
    ((List.range (func.getOp op).operands.length).filter fun number =>
      decide ((func.getOp op).operands[number]? = some value)).map fun number => (op, number)

def isBeforeInBlock (func : Func) (first second : OpId) : Bool :=
  decide (func.body.idxOf first < func.body.idxOf second)

def insertAfter (body : List OpId) (anchor new : OpId) : List OpId :=
  let position := body.idxOf anchor + 1
  body.take position ++ new :: body.drop position

def insertBefore (body : List OpId) (anchor new : OpId) : List OpId :=
  let position := body.idxOf anchor
  body.take position ++ new :: body.drop position

def createToMemoryConfig (func : Func) (layout : TTNNLayout) (input : Value) (body : List OpId) : Func :=
  { func with
    ops := func.ops ++ [{ kind := .toMemoryConfig, operands := [input], results := [some layout] }]
    body }

def replaceUses (func : Func) (uses : List (OpId × Nat)) (value : Value) : Func :=
  uses.foldl (fun func use => func.setOperand use.1 use.2 value) func

/-- `spillToDramImpl`: the new op stands before `trigger`, or else right after the producer, and
takes over the later uses. -/
def spillToDramImpl (func : Func) (result : Value) (trigger : Option OpId) : Func :=
  match result.getDefiningOp, func.getLayout result with
  | some defOp, some layout =>
      if layout.hasL1BufferType then
        let uses := match trigger with
          | none => func.uses result
          | some trigger => (func.uses result).filter fun use => !func.isBeforeInBlock use.1 trigger
        let spillOp := func.ops.length
        let body := match trigger with
          | none => insertAfter func.body defOp spillOp
          | some trigger => insertBefore func.body trigger spillOp
        (func.createToMemoryConfig layout.toDram result body).replaceUses uses (.result spillOp 0)
      else func
  | _, _ => func

def spillToDram (func : Func) (result : Value) : Func := func.spillToDramImpl result none

def spillToDramBeforeTrigger (func : Func) (result : Value) (trigger : OpId) : Func :=
  func.spillToDramImpl result (some trigger)

/-- The operand is left alone when it is in L1 already. -/
def insertReshardForConsumer (func : Func) (consumer : OpId) (operandIdx : Nat)
    (originalL1Layout : TTNNLayout) : Func :=
  match (func.getOp consumer).operands[operandIdx]? with
  | some spillOutput =>
      if (func.getLayout spillOutput).any (·.hasL1BufferType) then func
      else
        let reshardOp := func.ops.length
        (func.createToMemoryConfig originalL1Layout spillOutput
          (insertBefore func.body consumer reshardOp)).setOperand consumer operandIdx (.result reshardOp 0)
  | none => func

/-- Every L1 result of the op becomes DRAM interleaved in place. -/
def demoteToDram (func : Func) (op : OpId) : Func :=
  func.setResults op ((func.getOp op).results.map fun result =>
    result.map fun layout => if layout.hasL1BufferType then layout.toDram else layout)

/-- The layouts the backend chose for the tensor results, if any. -/
def applyOutputConfig (func : Func) (op : OpId) (actualOutputLayouts : List TTNNLayout) : Func :=
  if actualOutputLayouts.isEmpty then func
  else func.setResults op ((func.getOp op).results.mapIdx fun number result =>
    result.map fun layout => actualOutputLayouts.getD number layout)

/-- Users of an op's results, looking through `to_memory_config` users. -/
def collectDownstreamConsumers (func : Func) (changed : OpId) : List OpId :=
  (List.range (func.getOp changed).results.length).flatMap fun number =>
    (func.uses (.result changed number)).flatMap fun use =>
      if (func.getOp use.1).isToMemoryConfig then (func.uses (.result use.1 0)).map (·.1) else [use.1]

def isAliasingViewOp (func : Func) (op : OpId) : Bool :=
  match (func.getOp op).kind, (func.getOp op).operands.head?.bind func.getLayout,
      (func.getOp op).results.head?.join with
  | .view canBeView, some input, some output => canBeView input output
  | _, _, _ => false

/-- The value whose buffer a view op's result may share. -/
def aliasSource (func : Func) (value : Value) : Option Value :=
  match value.getDefiningOp with
  | some op => if func.isAliasingViewOp op then (func.getOp op).operands.head? else none
  | none => none

end Func

end TtMlir.Spill
