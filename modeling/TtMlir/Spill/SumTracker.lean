import Mathlib
import TtMlir.Spill.Ir

/-!
`SumL1MemoryTracker`: total L1 as a sum of sizes, and a simulated top-down
first-fit allocator over a free list sorted by address. A view shares the slot
of its source; a slot is freed with its last sharer.
-/

namespace TtMlir.Spill

abbrev DenseMap (Key Entry : Type) := AList fun _ : Key => Entry

structure FreeBlock where
  start : Nat
  stop : Nat
  deriving DecidableEq, Repr

def FreeBlock.size (block : FreeBlock) : Nat := block.stop - block.start

structure AliasGroup where
  count : Nat
  rawSize : Nat
  deriving DecidableEq, Repr

/-- Address-simulation state, all a snapshot holds. -/
structure AddressState where
  freeList : List FreeBlock
  tensorAddresses : DenseMap Value (Nat × Nat) := ∅
  aliasGroups : DenseMap Nat AliasGroup := ∅
  currentOccupied : Nat := 0

structure SumL1MemoryTracker where
  l1Budget : Nat
  tensorSizes : DenseMap Value Nat := ∅
  addresses : AddressState

def kL1Alignment : Nat := 32

def alignedSize (l1SizePerCore : Nat) : Nat :=
  (l1SizePerCore + kL1Alignment - 1) / kL1Alignment * kL1Alignment

/-- The highest free block that holds `size` bytes, and the free list once they
are carved off its top. -/
def carve (size : Nat) : List FreeBlock → Option (Nat × List FreeBlock)
  | [] => none
  | block :: higher =>
      match carve size higher with
      | some (start, remaining) => some (start, block :: remaining)
      | none =>
          if size ≤ block.size then
            let start := block.stop - size
            some (start, if block.size = size then higher else { block with stop := start } :: higher)
          else none

def release (start stop : Nat) (freeList : List FreeBlock) : List FreeBlock :=
  let before := freeList.takeWhile fun block => block.start < start
  let after := freeList.dropWhile fun block => block.start < start
  let mergePrev := before.getLast?.any fun block => block.stop = start
  let mergeNext := after.head?.any fun block => block.start = stop
  let merged : FreeBlock :=
    { start := if mergePrev then (before.getLast?.map (·.start)).getD start else start
      stop := if mergeNext then (after.head?.map (·.stop)).getD stop else stop }
  (if mergePrev then before.dropLast else before) ++ merged :: (if mergeNext then after.tail else after)

namespace AddressState

def wouldAllocateAt (state : AddressState) (l1Budget l1SizePerCore : Nat) : Option Nat :=
  if l1SizePerCore = 0 ∨ l1Budget = 0 then some l1Budget
  else (carve (alignedSize l1SizePerCore) state.freeList).map (·.1)

/-- `none` is the `llvm_unreachable` of the source. -/
def allocateAddress (state : AddressState) (l1Budget : Nat) (result : Value) (l1SizePerCore : Nat) :
    Option AddressState :=
  if l1SizePerCore = 0 ∨ l1Budget = 0 then some state
  else (carve (alignedSize l1SizePerCore) state.freeList).map fun carved =>
    { freeList := carved.2
      tensorAddresses := state.tensorAddresses.insert result (carved.1, alignedSize l1SizePerCore)
      aliasGroups := state.aliasGroups.insert carved.1 { count := 1, rawSize := l1SizePerCore }
      currentOccupied := state.currentOccupied + l1SizePerCore }

/-- The source asserts that `srcAtSameAddr` has a slot and the slot a group. -/
def allocateAddressAt (state : AddressState) (result srcAtSameAddr : Value) : AddressState :=
  match state.tensorAddresses.lookup srcAtSameAddr with
  | some slot =>
      { state with
        tensorAddresses := state.tensorAddresses.insert result slot
        aliasGroups := match state.aliasGroups.lookup slot.1 with
          | some group => state.aliasGroups.insert slot.1 { group with count := group.count + 1 }
          | none => state.aliasGroups }
  | none => state

def freeAddress (state : AddressState) (result : Value) : AddressState :=
  match state.tensorAddresses.lookup result with
  | none => state
  | some (freedStart, freedSize) =>
      let detached := { state with tensorAddresses := state.tensorAddresses.erase result }
      match state.aliasGroups.lookup freedStart with
      | none => detached
      | some group =>
          if group.count - 1 > 0 then
            { detached with
              aliasGroups := state.aliasGroups.insert freedStart { group with count := group.count - 1 } }
          else
            { detached with
              currentOccupied := state.currentOccupied - group.rawSize
              aliasGroups := state.aliasGroups.erase freedStart
              freeList := release freedStart (freedStart + freedSize) state.freeList }

def hasTensorAddress (state : AddressState) (result : Value) : Bool :=
  (state.tensorAddresses.lookup result).isSome

/-- `l1Budget` when no tensor is placed. -/
def getLowestOccupiedAddress (state : AddressState) (l1Budget : Nat) : Nat :=
  state.tensorAddresses.entries.foldl (fun lowest entry => min lowest entry.2.1) l1Budget

end AddressState

namespace SumL1MemoryTracker

def init (l1BudgetPerCore : Nat) : SumL1MemoryTracker :=
  { l1Budget := l1BudgetPerCore, addresses := { freeList := [{ start := 0, stop := l1BudgetPerCore }] } }

def getOccupiedL1 (tracker : SumL1MemoryTracker) : Nat := tracker.addresses.currentOccupied

def wouldAllocateAt (tracker : SumL1MemoryTracker) (l1SizePerCore : Nat) : Option Nat :=
  tracker.addresses.wouldAllocateAt tracker.l1Budget l1SizePerCore

def addTensor (tracker : SumL1MemoryTracker) (result : Value) (l1SizePerCore : Nat) :
    Option SumL1MemoryTracker :=
  (tracker.addresses.allocateAddress tracker.l1Budget result l1SizePerCore).map fun addresses =>
    { tracker with tensorSizes := tracker.tensorSizes.insert result l1SizePerCore, addresses }

def addTensorAtAddress (tracker : SumL1MemoryTracker) (result : Value) (l1SizePerCore : Nat)
    (srcAtSameAddr : Value) : SumL1MemoryTracker :=
  { tracker with
    tensorSizes := tracker.tensorSizes.insert result l1SizePerCore
    addresses := tracker.addresses.allocateAddressAt result srcAtSameAddr }

def removeTensorFromSizes (tracker : SumL1MemoryTracker) (result : Value) : SumL1MemoryTracker :=
  { tracker with tensorSizes := tracker.tensorSizes.erase result }

def removeTensor (tracker : SumL1MemoryTracker) (result : Value) : SumL1MemoryTracker :=
  { tracker.removeTensorFromSizes result with addresses := tracker.addresses.freeAddress result }

def hasTensor (tracker : SumL1MemoryTracker) (result : Value) : Bool :=
  (tracker.tensorSizes.lookup result).isSome

def getTensorSize (tracker : SumL1MemoryTracker) (result : Value) : Nat :=
  (tracker.tensorSizes.lookup result).getD 0

def getLowestOccupiedAddress (tracker : SumL1MemoryTracker) : Nat :=
  tracker.addresses.getLowestOccupiedAddress tracker.l1Budget

/-- `additionalL1Usage` of a query: what is occupied less the op's own operands,
each distinct operand once. -/
def additionalL1Usage (tracker : SumL1MemoryTracker) (operands : List Value) : Nat :=
  tracker.addresses.currentOccupied - (operands.dedup.map tracker.getTensorSize).sum

end SumL1MemoryTracker

def capacity (size : Nat) (freeList : List FreeBlock) : Nat :=
  (freeList.map fun block => block.size / size).sum

theorem carve_capacity (size : Nat) (positive : 0 < size) (freeList : List FreeBlock) :
    match carve size freeList with
    | none => capacity size freeList = 0
    | some (_, remaining) => capacity size freeList = capacity size remaining + 1 := by
  induction freeList with
  | nil => rfl
  | cons block higher ih =>
      cases above : carve size higher with
      | some carved =>
          rw [above] at ih
          simp only [carve, above, capacity, List.map_cons, List.sum_cons] at ih ⊢
          omega
      | none =>
          rw [above] at ih
          have zero : (higher.map fun block => block.size / size).sum = 0 := ih
          simp only [carve, above]
          by_cases fits : size ≤ block.size
          · rw [if_pos fits]
            have whole : block.size / size = (block.size - size) / size + 1 := by
              rw [← Nat.add_div_right _ positive, Nat.sub_add_cancel fits]
            by_cases exact : block.size = size
            · simp only [exact, ↓reduceIte, capacity, List.map_cons, List.sum_cons, zero, Nat.div_self positive]
            · have remains : (block.stop - size - block.start) = block.size - size := by
                simp only [FreeBlock.size]
                omega
              simp only [exact, ↓reduceIte, capacity, List.map_cons, List.sum_cons, zero, whole]
              simp only [FreeBlock.size, remains]
          · rw [if_neg fits]
            simp only [capacity, List.map_cons, List.sum_cons, zero, Nat.add_zero]
            exact Nat.div_eq_of_lt (by omega)

theorem alignedSize_pos (l1SizePerCore : Nat) (positive : 0 < l1SizePerCore) : 0 < alignedSize l1SizePerCore := by
  have quotient : 1 ≤ (l1SizePerCore + kL1Alignment - 1) / kL1Alignment := by
    rw [Nat.le_div_iff_mul_le (by decide)]
    simp only [kL1Alignment]
    omega
  exact Nat.mul_pos quotient (by decide)

namespace AddressState

theorem hasTensorAddress_insert (addresses : DenseMap Value (Nat × Nat)) (state : AddressState) (value other : Value)
    (slot : Nat × Nat) (inserted : state.tensorAddresses = addresses.insert value slot)
    (placed : (addresses.lookup other).isSome) : state.hasTensorAddress other = true := by
  rw [hasTensorAddress, inserted]
  by_cases same : other = value
  · rw [same, AList.lookup_insert]
    rfl
  · rw [AList.lookup_insert_ne same]
    exact placed

theorem hasTensorAddress_aliasing (state : AddressState) (result src other : Value)
    (placed : state.hasTensorAddress other = true) :
    (state.allocateAddressAt result src).hasTensorAddress other = true := by
  unfold allocateAddressAt
  cases state.tensorAddresses.lookup src with
  | none => exact placed
  | some slot => exact hasTensorAddress_insert state.tensorAddresses _ result other slot rfl placed

theorem allocateAddressAt_freeList (state : AddressState) (result src : Value) :
    (state.allocateAddressAt result src).freeList = state.freeList := by
  unfold allocateAddressAt
  split <;> rfl

theorem allocateAddress_capacity (state : AddressState) (l1Budget : Nat) (result : Value) (l1SizePerCore : Nat)
    (sized : l1SizePerCore ≠ 0) (budgeted : l1Budget ≠ 0) :
    match state.allocateAddress l1Budget result l1SizePerCore with
    | none => capacity (alignedSize l1SizePerCore) state.freeList = 0
    | some next => capacity (alignedSize l1SizePerCore) state.freeList =
        capacity (alignedSize l1SizePerCore) next.freeList + 1 ∧
      next.tensorAddresses.keys = result :: state.tensorAddresses.keys.erase result := by
  have carved := carve_capacity (alignedSize l1SizePerCore) (alignedSize_pos l1SizePerCore (by omega)) state.freeList
  rw [allocateAddress, if_neg (by simp [sized, budgeted])]
  cases found : carve (alignedSize l1SizePerCore) state.freeList with
  | none => simpa [found] using carved
  | some slot =>
      rw [found] at carved
      exact ⟨carved, AList.keys_insert _⟩

theorem wouldAllocateAt_capacity (state : AddressState) (l1Budget l1SizePerCore : Nat) (sized : l1SizePerCore ≠ 0)
    (budgeted : l1Budget ≠ 0) (placed : (state.wouldAllocateAt l1Budget l1SizePerCore).isSome = true) :
    0 < capacity (alignedSize l1SizePerCore) state.freeList := by
  have carved := carve_capacity (alignedSize l1SizePerCore) (alignedSize_pos l1SizePerCore (by omega)) state.freeList
  rw [wouldAllocateAt, if_neg (by simp [sized, budgeted]), Option.isSome_map] at placed
  obtain ⟨slot, found⟩ := Option.isSome_iff_exists.mp placed
  rw [found] at carved
  simp only at carved
  omega

end AddressState

end TtMlir.Spill
