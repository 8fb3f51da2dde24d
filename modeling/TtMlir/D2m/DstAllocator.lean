import Mathlib.Data.List.Perm.Basic
import Mathlib.Data.List.Nodup

/-!
The allocator of DST slices and the collection that uses it on scheduled ops. Slices come from
a stack; an op that folds operands keeps the front of the input stack for its result and gives
back the others. Nothing gives back the slice of a result.
-/

namespace TtMlir.D2m.DstAllocator

/-- The tops of both stacks: the next free slice comes first, the latest input last. -/
structure DstSliceAllocator where
  sliceStack : List Nat
  inputStack : List Nat
  scratchSlots : List Nat
  currSliceIndex : Option Nat
  storedToDst : Bool
  deriving DecidableEq, Repr

section Allocator

/-- None where an assertion fails, here and below. -/
def initSliceStack (dstSliceCapacity : Nat) : Option DstSliceAllocator :=
  if 0 < dstSliceCapacity ∧ dstSliceCapacity ≤ 16 then some ⟨List.range dstSliceCapacity, [], [], none, false⟩ else none

def allocateInput (a : DstSliceAllocator) : Option (Nat × DstSliceAllocator) :=
  match a.sliceStack with
  | [] => none
  | id :: rest =>
      some (id, { a with sliceStack := rest, inputStack := a.inputStack ++ [id], currSliceIndex := some id })

/-- The slices of a stride must be consecutive; only the first becomes an input. -/
def allocateInputStrided (stride : Nat) (a : DstSliceAllocator) : Option (Nat × DstSliceAllocator) :=
  if stride = 0 then none
  else if stride = 1 then allocateInput a
  else
    match a.sliceStack with
    | [] => none
    | base :: _ =>
        if a.sliceStack.take stride = List.range' base stride then
          some (base,
            { a with
              sliceStack := a.sliceStack.drop stride
              inputStack := a.inputStack ++ [base]
              currSliceIndex := some base })
        else none

def allocateOutput (a : DstSliceAllocator) : Option (Nat × DstSliceAllocator) :=
  match a.sliceStack with
  | [] => none
  | id :: rest => some (id, { a with sliceStack := rest, currSliceIndex := some id })

def allocateScratch (a : DstSliceAllocator) : Option DstSliceAllocator :=
  match a.sliceStack with
  | [] => none
  | id :: rest => some { a with sliceStack := rest, scratchSlots := a.scratchSlots ++ [id] }

def getCurrSliceIndex (a : DstSliceAllocator) : Option (Nat × DstSliceAllocator) :=
  a.currSliceIndex.map fun id => (id, a)

def keepFirstInput (a : DstSliceAllocator) : Option (Nat × DstSliceAllocator) :=
  match a.inputStack with
  | [] => none
  | firstInput :: rest =>
      some (firstInput,
        { a with sliceStack := rest ++ a.sliceStack, inputStack := [], currSliceIndex := some firstInput })

def setStoreToDst (a : DstSliceAllocator) : DstSliceAllocator := { a with storedToDst := true }

end Allocator

section Collection

/-- What the interface of an op answers. -/
structure TileOp where
  operandsLoadFromDstRegister : List Nat
  dstRegInPlace : Bool
  supportsTileOrScalarRhs : Bool
  dstInputSliceStride : Nat
  numDstScratchSlices : Nat
  deriving DecidableEq, Repr

inductive Operand
  | load | scalar | intermediate
  deriving DecidableEq, Repr

/-- An op of the region, whose result is stored or used by another one. -/
structure ComputeOp where
  op : TileOp
  operands : List Operand
  stored : Bool
  deriving DecidableEq, Repr

def ComputeOp.isScalarOperand (computeOp : ComputeOp) (operandIdx : Nat) : Bool :=
  computeOp.op.supportsTileOrScalarRhs && operandIdx == 1 && computeOp.operands[1]? == some .scalar

def ComputeOp.tileOperands (computeOp : ComputeOp) : List Operand :=
  (computeOp.op.operandsLoadFromDstRegister.filter fun operandIdx => !computeOp.isScalarOperand operandIdx).filterMap
    (computeOp.operands[·]?)

/-- Only loads get a slice; every operand counts. -/
def allocateLoads (stride : Nat) : List Operand → DstSliceAllocator → Option DstSliceAllocator
  | [], a => some a
  | .load :: rest, a => (allocateInputStrided stride a).bind fun allocated => allocateLoads stride rest allocated.2
  | _ :: rest, a => allocateLoads stride rest a

def allocateResult (computeOp : ComputeOp) (a : DstSliceAllocator) : Option (Nat × DstSliceAllocator) :=
  let numLoads := computeOp.tileOperands.length
  let inPlace := computeOp.op.dstRegInPlace || computeOp.isScalarOperand 1
  if computeOp.stored then
    if a.storedToDst then none
    else if inPlace then getCurrSliceIndex a
    else if numLoads ≥ 2 then (keepFirstInput a).map fun kept => (kept.1, setStoreToDst kept.2)
    else (allocateOutput a).map fun allocated => (allocated.1, setStoreToDst allocated.2)
  else if decide (numLoads > 0) && inPlace then getCurrSliceIndex a
  else if numLoads ≥ 2 then keepFirstInput a
  else allocateOutput a

def allocateScratches : Nat → DstSliceAllocator → Option DstSliceAllocator
  | 0, a => some a
  | count + 1, a => (allocateScratch a).bind (allocateScratches count)

/-- One op of the walk, with the slice of its result. -/
def collectOp (computeOp : ComputeOp) (a : DstSliceAllocator) : Option (Nat × DstSliceAllocator) :=
  (allocateLoads computeOp.op.dstInputSliceStride computeOp.tileOperands a).bind fun loaded =>
    (allocateResult computeOp loaded).bind fun result =>
      (allocateScratches computeOp.op.numDstScratchSlices result.2).map fun final => (result.1, final)

def collectOps : List ComputeOp → DstSliceAllocator → Option DstSliceAllocator
  | [], a => some a
  | computeOp :: rest, a => (collectOp computeOp a).bind fun collected => collectOps rest collected.2

/-- The walk over a region. -/
def collectDstAccessesScheduled (dstCapacity : Nat) (ops : List ComputeOp) : Option DstSliceAllocator :=
  (initSliceStack dstCapacity).bind (collectOps ops)

end Collection

section Trees

inductive Tree
  | load
  | scalar
  | unary (op : TileOp) (input : Tree)
  | binary (op : TileOp) (lhs rhs : Tree)
  | ternary (op : TileOp) (first second third : Tree)

def Tree.operand : Tree → Operand
  | .load => .load
  | .scalar => .scalar
  | .unary _ _ | .binary _ _ _ | .ternary _ _ _ _ => .intermediate

/-- The ops of a tree one subtree after another, in any order of the subtrees, each before the op that uses it. -/
inductive Scheduled : Bool → Tree → List ComputeOp → Prop
  | load (stored : Bool) : Scheduled stored .load []
  | scalar (stored : Bool) : Scheduled stored .scalar []
  | unary {stored : Bool} {op : TileOp} {input : Tree} {inputOps : List ComputeOp} (inputs : Scheduled false input inputOps) :
      Scheduled stored (.unary op input) (inputOps ++ [⟨op, [input.operand], stored⟩])
  | binary {stored : Bool} {op : TileOp} {lhs rhs : Tree} {lhsOps rhsOps : List ComputeOp} {parts : List (List ComputeOp)}
      (left : Scheduled false lhs lhsOps) (right : Scheduled false rhs rhsOps) (order : parts.Perm [lhsOps, rhsOps]) :
      Scheduled stored (.binary op lhs rhs) (parts.flatten ++ [⟨op, [lhs.operand, rhs.operand], stored⟩])
  | ternary {stored : Bool} {op : TileOp} {first second third : Tree} {firstOps secondOps thirdOps : List ComputeOp}
      {parts : List (List ComputeOp)} (one : Scheduled false first firstOps) (two : Scheduled false second secondOps)
      (three : Scheduled false third thirdOps) (order : parts.Perm [firstOps, secondOps, thirdOps]) :
      Scheduled stored (.ternary op first second third)
        (parts.flatten ++ [⟨op, [first.operand, second.operand, third.operand], stored⟩])

/-- The slices that are needed at once: of results that wait for their use, of loads, of a result
that takes no operand's, and scratch ones. -/
def slicesNeeded : Nat → List ComputeOp → Nat
  | live, [] => live
  | live, computeOp :: rest =>
      let loads := computeOp.tileOperands.count .load * computeOp.op.dstInputSliceStride
      let scratch := computeOp.op.numDstScratchSlices
      max (live + max loads (if computeOp.tileOperands = [] then 1 else 0) + scratch)
        (slicesNeeded (live - computeOp.operands.count .intermediate + 1 + scratch) rest)

/-- What the collection should do: it meets no assertion, every input slot is given back, and what was free is free
again. -/
def Serves (dstCapacity : Nat) (ops : List ComputeOp) : Prop :=
  ∃ start ∈ initSliceStack dstCapacity, ∃ final ∈ collectDstAccessesScheduled dstCapacity ops,
    final.inputStack = [] ∧ ∀ slice, slice ∈ final.sliceStack ↔ slice ∈ start.sliceStack

end Trees

section Losses

def DstSliceAllocator.returnable (a : DstSliceAllocator) : Nat := a.sliceStack.length + a.inputStack.length

def Taken (capacity : Nat) (a : DstSliceAllocator) : Prop :=
  a.returnable ≤ capacity ∧ (a.returnable = capacity → a.inputStack ≠ [])

/-- Before the first op nothing is taken, and there is no current slice. -/
def Tracked (capacity : Nat) (a : DstSliceAllocator) : Prop :=
  a.returnable ≤ capacity ∧ (a.currSliceIndex ≠ none → Taken capacity a)

variable {capacity : Nat} {a b : DstSliceAllocator} {id : Nat}

theorem Taken.tracked (taken : Taken capacity a) : Tracked capacity a := ⟨taken.1, fun _ => taken⟩

theorem Taken.fewer (taken : Taken capacity a) : a.sliceStack.length < capacity := by
  have total := taken.1
  unfold DstSliceAllocator.returnable at total
  by_contra full
  have empty : a.inputStack.length = 0 := by omega
  exact taken.2 (by unfold DstSliceAllocator.returnable; omega) (List.eq_nil_of_length_eq_zero empty)

theorem taken_of_lost (lost : a.returnable < capacity) :
    Taken capacity a := ⟨Nat.le_of_lt lost, fun full => absurd full (Nat.ne_of_lt lost)⟩

theorem allocateInput_taken (within : a.returnable ≤ capacity) (allocated : allocateInput a = some (id, b)) :
    Taken capacity b := by
  unfold allocateInput at allocated
  split at allocated
  · exact nomatch allocated
  · rename_i slice rest stack
    cases allocated
    refine ⟨?_, fun _ => by simp⟩
    simp only [DstSliceAllocator.returnable, stack, List.length_cons, List.length_append, List.length_nil] at within ⊢
    omega

theorem allocateInputStrided_taken {stride : Nat} (within : a.returnable ≤ capacity)
    (allocated : allocateInputStrided stride a = some (id, b)) : Taken capacity b := by
  unfold allocateInputStrided at allocated
  split at allocated
  · exact nomatch allocated
  rename_i positive
  split at allocated
  · exact allocateInput_taken within allocated
  split at allocated
  · exact nomatch allocated
  rename_i base rest stack
  split at allocated
  · rename_i consecutive
    cases allocated
    have reserved := congrArg List.length consecutive
    simp only [List.length_take, List.length_range'] at reserved
    refine ⟨?_, fun _ => by simp⟩
    simp only [DstSliceAllocator.returnable, List.length_drop, List.length_append, List.length_singleton] at within ⊢
    omega
  · exact nomatch allocated

theorem allocateOutput_taken (within : a.returnable ≤ capacity) (allocated : allocateOutput a = some (id, b)) :
    Taken capacity b := by
  unfold allocateOutput at allocated
  split at allocated
  · exact nomatch allocated
  · rename_i slice rest stack
    cases allocated
    apply taken_of_lost
    simp only [DstSliceAllocator.returnable, stack, List.length_cons] at within ⊢
    omega

theorem allocateScratch_taken (within : a.returnable ≤ capacity) (allocated : allocateScratch a = some b) :
    Taken capacity b := by
  unfold allocateScratch at allocated
  split at allocated
  · exact nomatch allocated
  · rename_i slice rest stack
    cases allocated
    apply taken_of_lost
    simp only [DstSliceAllocator.returnable, stack, List.length_cons] at within ⊢
    omega

theorem keepFirstInput_taken (within : a.returnable ≤ capacity) (kept : keepFirstInput a = some (id, b)) :
    Taken capacity b := by
  unfold keepFirstInput at kept
  split at kept
  · exact nomatch kept
  · rename_i first rest stack
    cases kept
    apply taken_of_lost
    simp only [DstSliceAllocator.returnable, stack, List.length_cons, List.length_append, List.length_nil] at within ⊢
    omega

theorem getCurrSliceIndex_taken (tracked : Tracked capacity a) (current : getCurrSliceIndex a = some (id, b)) :
    Taken capacity b := by
  obtain ⟨slice, found, same⟩ := Option.map_eq_some_iff.mp current
  cases same
  exact tracked.2 (by simp [found])

theorem setStoreToDst_taken (taken : Taken capacity a) : Taken capacity (setStoreToDst a) := taken

theorem allocateLoads_tracked {stride : Nat} (operands : List Operand) (tracked : Tracked capacity a)
    (loaded : allocateLoads stride operands a = some b) : Tracked capacity b := by
  induction operands generalizing a with
  | nil =>
      cases loaded
      exact tracked
  | cons operand rest ih =>
      cases operand with
      | load =>
          obtain ⟨⟨slice, next⟩, allocated, later⟩ := Option.bind_eq_some_iff.mp loaded
          exact ih (allocateInputStrided_taken tracked.1 allocated).tracked later
      | scalar | intermediate => exact ih tracked loaded

theorem allocateResult_taken {computeOp : ComputeOp} (tracked : Tracked capacity a)
    (allocated : allocateResult computeOp a = some (id, b)) : Taken capacity b := by
  unfold allocateResult at allocated
  dsimp only at allocated
  split at allocated
  · split at allocated
    · exact nomatch allocated
    split at allocated
    · exact getCurrSliceIndex_taken tracked allocated
    split at allocated
    · obtain ⟨⟨slice, next⟩, kept, same⟩ := Option.map_eq_some_iff.mp allocated
      cases same
      exact setStoreToDst_taken (keepFirstInput_taken tracked.1 kept)
    · obtain ⟨⟨slice, next⟩, output, same⟩ := Option.map_eq_some_iff.mp allocated
      cases same
      exact setStoreToDst_taken (allocateOutput_taken tracked.1 output)
  · split at allocated
    · exact getCurrSliceIndex_taken tracked allocated
    split at allocated
    · exact keepFirstInput_taken tracked.1 allocated
    · exact allocateOutput_taken tracked.1 allocated

theorem allocateScratches_taken (count : Nat) (taken : Taken capacity a)
    (allocated : allocateScratches count a = some b) :
    Taken capacity b := by
  induction count generalizing a with
  | zero =>
      cases allocated
      exact taken
  | succ count ih =>
      obtain ⟨next, first, later⟩ := Option.bind_eq_some_iff.mp allocated
      exact ih (allocateScratch_taken taken.1 first) later

theorem collectOp_taken {computeOp : ComputeOp} (tracked : Tracked capacity a)
    (collected : collectOp computeOp a = some (id, b)) : Taken capacity b := by
  obtain ⟨loaded, loads, later⟩ := Option.bind_eq_some_iff.mp collected
  obtain ⟨⟨slice, result⟩, allocated, last⟩ := Option.bind_eq_some_iff.mp later
  obtain ⟨final, scratches, same⟩ := Option.map_eq_some_iff.mp last
  cases same
  have taken := allocateResult_taken (allocateLoads_tracked _ tracked loads) allocated
  exact allocateScratches_taken _ taken scratches

theorem collectOps_taken (ops : List ComputeOp) (taken : Taken capacity a) (collected : collectOps ops a = some b) :
    Taken capacity b := by
  induction ops generalizing a with
  | nil =>
      cases collected
      exact taken
  | cons computeOp rest ih =>
      obtain ⟨⟨slice, next⟩, first, later⟩ := Option.bind_eq_some_iff.mp collected
      exact ih (collectOp_taken taken.tracked first) later

theorem collect_fewer {ops : List ComputeOp} (some_op : ops ≠ [])
    (collected : collectDstAccessesScheduled capacity ops = some b) : b.sliceStack.length < capacity := by
  obtain ⟨start, initial, run⟩ := Option.bind_eq_some_iff.mp collected
  unfold initSliceStack at initial
  split at initial
  · cases initial
    cases ops with
    | nil => exact absurd rfl some_op
    | cons computeOp rest =>
        obtain ⟨⟨slice, next⟩, first, later⟩ := Option.bind_eq_some_iff.mp run
        have tracked : Tracked capacity ⟨List.range capacity, [], [], none, false⟩ :=
          ⟨by simp [DstSliceAllocator.returnable], fun current => absurd rfl current⟩
        exact (collectOps_taken rest (collectOp_taken tracked first) later).fewer
  · exact nomatch initial

end Losses

section Service

def Tree.isOp : Tree → Bool
  | .load | .scalar => false
  | .unary _ _ | .binary _ _ _ | .ternary _ _ _ _ => true

theorem scheduled_ne_nil {stored : Bool} {tree : Tree} {ops : List ComputeOp} (scheduled : Scheduled stored tree ops)
    (isOp : tree.isOp = true) : ops ≠ [] := by
  cases scheduled with
  | load | scalar => exact nomatch isOp
  | unary | binary | ternary => simp

/-- On no tree is what was free free again. -/
theorem not_serves (dstCapacity : Nat) (tree : Tree) (ops : List ComputeOp) (isOp : tree.isOp = true)
    (scheduled : Scheduled true tree ops) : ¬Serves dstCapacity ops := by
  rintro ⟨start, initial, final, collected, _, same⟩
  have fewer := collect_fewer (scheduled_ne_nil scheduled isOp) collected
  have stack : start.sliceStack = List.range dstCapacity := by
    unfold initSliceStack at initial
    split at initial
    · cases initial
      rfl
    · exact nomatch initial
  have all : List.range dstCapacity ⊆ final.sliceStack := fun slice member => (same slice).mpr (stack ▸ member)
  have atLeast := (List.subperm_of_subset List.nodup_range all).length_le
  rw [List.length_range] at atLeast
  omega

def binaryOp : TileOp := ⟨[0, 1], false, false, 1, 0⟩

def sumOfSums : Tree := .binary binaryOp (.binary binaryOp .load .load) (.binary binaryOp .load .load)

def sumOfSumsOps : List ComputeOp :=
  [⟨binaryOp, [.load, .load], false⟩, ⟨binaryOp, [.load, .load], false⟩, ⟨binaryOp, [.intermediate, .intermediate], true⟩]

theorem sumOfSums_scheduled : Scheduled true sumOfSums sumOfSumsOps :=
  .binary (.binary (.load false) (.load false) (List.Perm.refl _))
    (.binary (.load false) (.load false) (List.Perm.refl _))
    (List.Perm.refl _)

theorem sumOfSums_not_served : ¬Serves 4 sumOfSumsOps := not_serves 4 sumOfSums sumOfSumsOps rfl sumOfSums_scheduled

/-- Three slices are enough, and with four the last op finds no input to put its result in. -/
theorem sumOfSums_out_of_inputs : Scheduled true sumOfSums sumOfSumsOps ∧ slicesNeeded 0 sumOfSumsOps ≤ 4 ∧
    collectDstAccessesScheduled 4 sumOfSumsOps = none ∧ ¬Serves 4 sumOfSumsOps := by
  have stops : collectDstAccessesScheduled 4 sumOfSumsOps = none := by decide
  refine ⟨sumOfSums_scheduled, by decide, stops, ?_⟩
  rintro ⟨_, _, final, collected, _⟩
  exact nomatch stops.symm.trans collected

end Service

end TtMlir.D2m.DstAllocator
