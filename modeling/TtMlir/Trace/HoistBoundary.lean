import Mathlib

/-!
The functions that traces are hoisted from and the boundary of what is hoisted,
`collectFunctionBoundary` in TTNNTraceHoistTransform.cpp. Inputs are sorted with the tensors in
front of the semaphores, and the device-resident tensors in front of the host-staged ones.
-/

namespace TtMlir.Trace.Hoist

inductive BufferType where
  | systemMemory
  | dram
  | l1
  deriving DecidableEq

/-- The type of a value. What a layout says besides the buffer type, the shape and the element type are one `spec`. -/
inductive ValueType where
  | tensor (spec : Nat) (bufferType : BufferType)
  | semaphore
  | device
  | other
  deriving DecidableEq

namespace ValueType

def isTensor : ValueType → Bool
  | .tensor _ _ => true
  | _ => false

def withBuffer (bufferType : BufferType) : ValueType → ValueType
  | .tensor spec _ => .tensor spec bufferType
  | type => type

def isOnDevice : ValueType → Bool
  | .tensor _ bufferType => bufferType ≠ .systemMemory
  | _ => false

end ValueType

/-- An argument of the block or a result of an op. -/
inductive Value where
  | arg (number : Nat)
  | result (op number : Nat)
  deriving DecidableEq

inductive ArgumentType where
  | input
  | parameter
  | constant
  deriving DecidableEq

structure ArgAttrs where
  argumentType : Option ArgumentType
  kvCache : Bool
  deriving DecidableEq

inductive OpKind where
  | hoistable
  | loadCached
  | captureOrExecuteTrace
  | getDevice
  | adamW
  /-- An op with the trait of creation ops; `empty` and `alloc` create scratch buffers. -/
  | creation (scratch : Bool)
  deriving DecidableEq

structure Operation where
  name : Nat
  kind : OpKind
  operands : List Value
  resultTypes : List ValueType
  deriving DecidableEq

def Operation.isCreation (op : Operation) : Bool :=
  match op.kind with
  | .creation _ => true
  | _ => false

def Defined (argCount : Nat) (ops : List Operation) : Value → Prop
  | .arg number => number < argCount
  | .result name number => ∃ op ∈ ops, op.name = name ∧ number < op.resultTypes.length

instance decidableDefined (argCount : Nat) (ops : List Operation) : DecidablePred (Defined argCount ops)
  | .arg number => inferInstanceAs (Decidable (number < argCount))
  | .result name number => inferInstanceAs (Decidable (∃ op ∈ ops, op.name = name ∧ number < op.resultTypes.length))

/-- A verified forward function of one block. -/
structure Func where
  args : List (ValueType × ArgAttrs)
  ops : List Operation
  returns : List Value
  names : (ops.map (·.name)).Nodup
  dominates : ∀ front op back, ops = front ++ op :: back → ∀ operand ∈ op.operands, Defined args.length front operand

theorem dominates_of_places {argCount : Nat} {ops : List Operation}
    (places : ∀ i (inside : i < ops.length), ∀ operand ∈ ops[i].operands, Defined argCount (ops.take i) operand) :
    ∀ front op back, ops = front ++ op :: back → ∀ operand ∈ op.operands, Defined argCount front operand := by
  rintro front op back rfl operand member
  have here := places front.length (by simp) operand (by simpa using member)
  simpa using here

namespace Func
variable (func : Func)

def resultTypes (name : Nat) : List ValueType :=
  match func.ops.find? (·.name = name) with
  | some op => op.resultTypes
  | none => []

def typeOf : Value → ValueType
  | .arg number => ((func.args[number]?).map Prod.fst).getD .other
  | .result name number => (func.resultTypes name).getD number .other

def kindOf (name : Nat) : Option OpKind := (func.ops.find? (·.name = name)).map (·.kind)

def argAttrs (number : Nat) : ArgAttrs := ((func.args[number]?).map Prod.snd).getD ⟨none, false⟩

end Func

/-- A function whose creation ops read only the device and whose devices come from `get_device`. -/
structure DeviceFunc extends Func where
  creations : ∀ op ∈ ops, op.isCreation → ∀ operand ∈ op.operands, toFunc.typeOf operand = .device
  devices : ∀ op ∈ ops, .device ∈ op.resultTypes → op.kind = .getDevice

def shouldHoistOp (op : Operation) : Bool := op.kind = .hoistable

/-- The ops in front of the first hoistable op, those up to the last one, and the rest. -/
structure Region where
  front : List Operation
  middle : List Operation
  back : List Operation
  deriving DecidableEq

def findRegion (ops : List Operation) : Region :=
  let rest := ops.dropWhile (!shouldHoistOp ·)
  ⟨ops.takeWhile (!shouldHoistOp ·), (rest.reverse.dropWhile (!shouldHoistOp ·)).reverse,
    (rest.reverse.takeWhile (!shouldHoistOp ·)).reverse⟩

namespace Region

def opsToHoist (region : Region) : List Operation := region.middle.filter shouldHoistOp

def creationOpsToSink (region : Region) : List Operation := region.middle.filter (!shouldHoistOp ·)

def before (region : Region) : List Operation := region.front ++ region.creationOpsToSink

def block (region : Region) : List Operation := region.before ++ region.opsToHoist ++ region.back

end Region

def isSemaphoreValue (func : Func) (value : Value) : Bool := func.typeOf value = .semaphore

def definedBy (ops : List Operation) : Value → Bool
  | .arg _ => false
  | .result name _ => name ∈ ops.map (·.name)

def addInput (func : Func) (opsToHoist : List Operation) (inputs : List Value) (operand : Value) : List Value :=
  if ((func.typeOf operand).isTensor || isSemaphoreValue func operand) && !definedBy opsToHoist operand && operand ∉ inputs then
    inputs ++ [operand]
  else inputs

def collectInputs (func : Func) (opsToHoist : List Operation) : List Value :=
  opsToHoist.foldl (fun inputs op => op.operands.foldl (addInput func opsToHoist) inputs) []

def place (block : List Operation) (name : Nat) : Nat :=
  let names := block.map (·.name)
  if name ∈ names then names.idxOf name else names.length + name

/-- The order of inputs: tensors first, then arguments first. -/
def boundaryBefore (func : Func) (block : List Operation) (a b : Value) : Bool :=
  if isSemaphoreValue func a ≠ isSemaphoreValue func b then !isSemaphoreValue func a
  else
    match a, b with
    | .arg first, .arg second => first < second
    | .arg _, .result _ _ => true
    | .result _ _, .arg _ => false
    | .result first i, .result second j => if first = second then i < j else place block first < place block second

def boundaryLe (func : Func) (block : List Operation) (a b : Value) : Bool := !boundaryBefore func block b a

def collectOutputs (func : Func) (opsToHoist : List Operation) : List Value :=
  opsToHoist.flatMap fun op => ((List.range op.resultTypes.length).map (Value.result op.name)).filter fun result =>
    func.ops.any (fun user => user.name ∉ opsToHoist.map (·.name) && result ∈ user.operands) || result ∈ func.returns

def collectFunctionBoundary (func : Func) (region : Region) : List Value × List Value :=
  ((collectInputs func region.opsToHoist).insertionSort (boundaryLe func region.block · ·), collectOutputs func region.opsToHoist)

def shouldKeepArgOnDevice (func : Func) (number : Nat) : Bool :=
  (func.argAttrs number).argumentType = some .parameter || (func.argAttrs number).argumentType = some .constant ||
    (func.argAttrs number).kvCache

def isDeviceResidentValue (func : Func) : Value → Bool
  | .arg number => shouldKeepArgOnDevice func number
  | .result name _ => func.kindOf name = some .loadCached || func.kindOf name = some (.creation true)

/-- Loaded and scratch buffers are marked as constants. -/
def inputAttrs (func : Func) : Value → ArgAttrs
  | .arg number => func.argAttrs number
  | .result name number => if isDeviceResidentValue func (.result name number) then ⟨some .constant, false⟩ else ⟨none, false⟩

/-- The inputs in signature order: device-resident tensors, host-staged tensors, semaphores. -/
structure Partition where
  deviceResident : List Value
  hostStaged : List Value
  semaphores : List Value

def Partition.tensors (groups : Partition) : List Value := groups.deviceResident ++ groups.hostStaged

def Partition.inputs (groups : Partition) : List Value := groups.tensors ++ groups.semaphores

def partitionInputs (func : Func) (inputs : List Value) : Partition :=
  let tensors := inputs.takeWhile (!isSemaphoreValue func ·)
  ⟨tensors.filter (isDeviceResidentValue func ·), tensors.filter (!isDeviceResidentValue func ·),
    inputs.dropWhile (!isSemaphoreValue func ·)⟩

def groupsOf (func : Func) (region : Region) : Partition := partitionInputs func (collectFunctionBoundary func region).1

theorem findRegion_append (ops : List Operation) :
    ops = (findRegion ops).front ++ ((findRegion ops).middle ++ (findRegion ops).back) := by
  have rest := @List.takeWhile_append_dropWhile _ (!shouldHoistOp ·) ops
  have tail := congrArg List.reverse
    (@List.takeWhile_append_dropWhile _ (!shouldHoistOp ·) (ops.dropWhile (!shouldHoistOp ·)).reverse)
  rw [List.reverse_append, List.reverse_reverse] at tail
  unfold findRegion
  dsimp only
  rw [tail, rest]

section Collect
variable {func : Func} {region : Region} {opsToHoist : List Operation} {value : Value}

def Enters (func : Func) (opsToHoist : List Operation) (value : Value) : Prop :=
  (∃ op ∈ opsToHoist, value ∈ op.operands) ∧ ((func.typeOf value).isTensor ∨ isSemaphoreValue func value) ∧
    definedBy opsToHoist value = false

theorem addInput_spec (inputs : List Value) (operand : Value) (nodup : inputs.Nodup) :
    (addInput func opsToHoist inputs operand).Nodup ∧ ∀ value, value ∈ addInput func opsToHoist inputs operand ↔
      value ∈ inputs ∨ (value = operand ∧ ((func.typeOf value).isTensor ∨ isSemaphoreValue func value) ∧
        definedBy opsToHoist value = false) := by
  unfold addInput
  split
  · rename_i enters
    simp only [Bool.and_eq_true, Bool.or_eq_true, Bool.not_eq_true', decide_eq_true_eq] at enters
    refine ⟨List.nodup_append_comm.mp (by simpa [nodup] using enters.2), fun value => ?_⟩
    simp only [List.mem_append, List.mem_singleton]
    grind
  · rename_i skipped
    simp only [Bool.and_eq_true, Bool.or_eq_true, Bool.not_eq_true', decide_eq_true_eq] at skipped
    refine ⟨nodup, fun value => ?_⟩
    grind

theorem addInputs_spec (operands inputs : List Value) (nodup : inputs.Nodup) :
    (operands.foldl (addInput func opsToHoist) inputs).Nodup ∧
      ∀ value, value ∈ operands.foldl (addInput func opsToHoist) inputs ↔
      value ∈ inputs ∨ (value ∈ operands ∧ ((func.typeOf value).isTensor ∨ isSemaphoreValue func value) ∧
        definedBy opsToHoist value = false) := by
  induction operands generalizing inputs with
  | nil => simp [nodup]
  | cons operand operands ih =>
      obtain ⟨distinct, here⟩ := @addInput_spec func opsToHoist inputs operand nodup
      obtain ⟨later, members⟩ := ih _ distinct
      refine ⟨later, fun value => ?_⟩
      rw [List.foldl_cons, members, here, List.mem_cons]
      grind

theorem collect_spec (ops : List Operation) (inputs : List Value) (nodup : inputs.Nodup) :
    (ops.foldl (fun inputs op => op.operands.foldl (addInput func opsToHoist) inputs) inputs).Nodup ∧
      ∀ value, value ∈ ops.foldl (fun inputs op => op.operands.foldl (addInput func opsToHoist) inputs) inputs ↔
        value ∈ inputs ∨ ((∃ op ∈ ops, value ∈ op.operands) ∧
          ((func.typeOf value).isTensor ∨ isSemaphoreValue func value) ∧
          definedBy opsToHoist value = false) := by
  induction ops generalizing inputs with
  | nil => simp [nodup]
  | cons op ops ih =>
      obtain ⟨distinct, here⟩ := @addInputs_spec func opsToHoist op.operands inputs nodup
      obtain ⟨later, members⟩ := ih _ distinct
      refine ⟨later, fun value => ?_⟩
      rw [List.foldl_cons, members, here]
      simp only [List.mem_cons, exists_eq_or_imp]
      grind

theorem collectInputs_spec (func : Func) (opsToHoist : List Operation) :
    (collectInputs func opsToHoist).Nodup ∧ ∀ value, value ∈ collectInputs func opsToHoist ↔
      Enters func opsToHoist value := by
  obtain ⟨nodup, members⟩ := @collect_spec func opsToHoist opsToHoist [] List.nodup_nil
  refine ⟨nodup, fun value => ?_⟩
  unfold collectInputs
  rw [members]
  simp [Enters]

end Collect

section Order
variable {func : Func} {block : List Operation}

theorem place_injective {first second : Nat} (same : place block first = place block second) : first = second := by
  unfold place at same
  dsimp only at same
  split at same <;> split at same
  · rename_i known _
    exact (List.idxOf_inj known).mp same
  · rename_i known _
    have below := List.idxOf_lt_length_of_mem known
    omega
  · rename_i known
    have below := List.idxOf_lt_length_of_mem known
    omega
  · omega

def boundaryKey (func : Func) (block : List Operation) (value : Value) : Nat ×ₗ Nat ×ₗ Nat ×ₗ Nat :=
  toLex ((isSemaphoreValue func value).toNat,
    match value with
    | .arg number => toLex (0, toLex (number, 0))
    | .result name number => toLex (1, toLex (place block name, number)))

theorem boundaryBefore_iff (a b : Value) : boundaryBefore func block a b ↔
    boundaryKey func block a < boundaryKey func block b := by
  unfold boundaryBefore boundaryKey
  rw [Prod.Lex.toLex_lt_toLex]
  by_cases kinds : isSemaphoreValue func a = isSemaphoreValue func b
  · rw [if_neg (not_not_intro kinds)]
    simp only [kinds, Nat.lt_irrefl, true_and, false_or]
    cases a with
    | arg first =>
        cases b with
        | arg second => simp [Prod.Lex.toLex_lt_toLex]
        | result name j => simp [Prod.Lex.toLex_lt_toLex]
    | result name i =>
        cases b with
        | arg second => simp [Prod.Lex.toLex_lt_toLex]
        | result other j =>
            simp only [Prod.Lex.toLex_lt_toLex, Nat.lt_irrefl, true_and, false_or]
            by_cases same : name = other
            · simp [same]
            · have apart : place block name ≠ place block other := fun equal => same (place_injective equal)
              simp [same, apart]
  · rw [if_pos kinds]
    revert kinds
    cases isSemaphoreValue func a <;> cases isSemaphoreValue func b <;> simp

theorem boundaryLe_iff (a b : Value) : boundaryLe func block a b ↔
    boundaryKey func block a ≤ boundaryKey func block b := by
  unfold boundaryLe
  rw [Bool.not_eq_true', ← Bool.not_eq_true, boundaryBefore_iff, not_lt]

theorem sorted_semaphores (inputs : List Value) :
    ∀ value ∈ (inputs.insertionSort (boundaryLe func block · ·)).dropWhile
      (!isSemaphoreValue func ·), isSemaphoreValue func value := by
  have trans : IsTrans Value (boundaryLe func block · ·) := ⟨fun a b c first second => by
    rw [boundaryLe_iff] at *
    exact le_trans first second⟩
  have total : Std.Total fun a b : Value => boundaryLe func block a b = true := ⟨fun a b => by
    rw [boundaryLe_iff, boundaryLe_iff]
    exact le_total _ _⟩
  -- The key of a semaphore is above that of every tensor, so in a sorted list semaphores are behind.
  have sorted := List.pairwise_insertionSort (boundaryLe func block · ·) inputs
  generalize inputs.insertionSort (boundaryLe func block · ·) = list at sorted
  induction list with
  | nil => simp
  | cons head list ih =>
      obtain ⟨below, later⟩ := List.pairwise_cons.mp sorted
      by_cases semaphore : isSemaphoreValue func head
      · rw [List.dropWhile_cons_of_neg (by simp [semaphore])]
        intro value member
        rcases List.mem_cons.mp member with rfl | inside
        · exact semaphore
        · -- What stands behind a semaphore is none of the tensors.
          have above := (boundaryLe_iff _ _).mp (below value inside)
          unfold boundaryKey at above
          rw [Prod.Lex.toLex_le_toLex, semaphore] at above
          cases known : isSemaphoreValue func value with
          | true => rfl
          | false => simp [known] at above
      · rw [List.dropWhile_cons_of_pos (by simpa using semaphore)]
        exact ih later

theorem partition_spec (func : Func) (region : Region) :
    let groups := groupsOf func region
    groups.inputs.Nodup ∧ (∀ value, value ∈ groups.inputs ↔ Enters func region.opsToHoist value) ∧
      (∀ value ∈ groups.tensors, (func.typeOf value).isTensor) ∧
        (∀ value ∈ groups.semaphores, isSemaphoreValue func value) ∧
        (∀ value ∈ groups.deviceResident, isDeviceResidentValue func value) ∧
          ∀ value ∈ groups.hostStaged, isDeviceResidentValue func value = false := by
  intro groups
  obtain ⟨nodup, members⟩ := collectInputs_spec func region.opsToHoist
  -- Sorting and grouping only reorder what was collected.
  have perm : groups.inputs.Perm (collectInputs func region.opsToHoist) := by
    have parts := List.filter_append_perm (isDeviceResidentValue func ·)
      ((collectFunctionBoundary func region).1.takeWhile (!isSemaphoreValue func ·))
    have joined := parts.append_right ((collectFunctionBoundary func region).1.dropWhile (!isSemaphoreValue func ·))
    rw [List.takeWhile_append_dropWhile] at joined
    exact joined.trans (List.perm_insertionSort _ _)
  have enters : ∀ value, value ∈ groups.inputs ↔ Enters func region.opsToHoist value := fun value =>
    (perm.mem_iff).trans (members value)
  refine ⟨perm.nodup_iff.mpr nodup, enters, ?_, sorted_semaphores _, ?_, ?_⟩
  · intro value member
    have kind := ((enters value).mp (List.mem_append_left _ member)).2.1
    have front : value ∈ (collectFunctionBoundary func region).1.takeWhile (!isSemaphoreValue func ·) := by
      rcases List.mem_append.mp member with resident | staged
      · exact (List.mem_filter.mp resident).1
      · exact (List.mem_filter.mp staged).1
    have noSemaphore := List.mem_takeWhile_imp front
    rcases kind with tensor | semaphore
    · exact tensor
    · rw [semaphore] at noSemaphore
      exact absurd noSemaphore (by decide)
  · intro value member
    exact (List.mem_filter.mp member).2
  · intro value member
    simpa using (List.mem_filter.mp member).2

end Order

end TtMlir.Trace.Hoist
