import Mathlib
import TtMlir.Library.SharedMemory

/-!
Lowering of the scratch slots of a generic region to parts of one scratch buffer.
A slot lives from the first to the last of its uses in one walk over the region,
and a slot whose range is clear of a larger one's may lie in the larger one's part.
-/

namespace TtMlir.D2m.Scratch
open SharedMemory

abbrev Value := Nat

/-- An element of what an op gives as a memref, by its row-major number. -/
structure Cell where
  root : Value
  element : Nat
  deriving DecidableEq

/-- Straight-line ops and loops. A view tells for each of its elements which one of its source it is.
-/
inductive Block
  | done
  | scratchAllocate (result : Value) (slot : Int) (shape : List Int) (rest : Block)
  | view (result source : Value) (element : List Nat → Nat → Nat) (rest : Block)
  | load (source : Value) (element : List Nat → Nat) (result : Nat) (rest : Block)
  | store (target : Value) (element : List Nat → Nat) (source : Nat) (rest : Block)
  | compute (op : Nat) (operands : List Nat) (result : Nat) (rest : Block)
  | forOp (tripCount : Nat) (body rest : Block)

structure ScratchAllocationInfo where
  result : Value
  slotId : Int
  numElements : Int
  elementOffset : Int := 0
  startPosition : Nat := 0
  endPosition : Nat := 0
  packed : Bool := false
  deriving DecidableEq, Repr

/-- What the walk sees of an op: the memrefs it uses, and the slot if it is one. -/
structure Walked where
  operands : List Value
  allocation : Option ScratchAllocationInfo

def Block.walk : Block → List Walked
  | .done => []
  | .scratchAllocate result slot shape rest => ⟨[], some { result, slotId := slot, numElements := shape.prod }⟩ :: rest.walk
  | .view _ source _ rest => ⟨[source], none⟩ :: rest.walk
  | .load source _ _ rest => ⟨[source], none⟩ :: rest.walk
  | .store target _ _ rest => ⟨[target], none⟩ :: rest.walk
  | .compute _ _ _ rest => ⟨[], none⟩ :: rest.walk
  | .forOp _ body rest => ⟨[], none⟩ :: (body.walk ++ rest.walk)

def Block.allocations (block : Block) : List ScratchAllocationInfo := block.walk.filterMap (·.allocation)

def liveRange (walk : List Walked) (value : Value) : Nat × Nat :=
  let uses := (walk.zipIdx.filter fun op => op.1.operands.contains value).map Prod.snd
  match uses.min?, uses.max? with
  | some first, some last => (first, last)
  | _, _ =>
      let definition := walk.findIdx fun op => op.allocation.any fun info => decide (info.result = value)
      (definition, definition)

def livesOverlap (first second : Nat × Nat) : Bool :=
  decide (first.1 ≤ second.2) && decide (second.1 ≤ first.2)

def ScratchAllocationInfo.range (info : ScratchAllocationInfo) : Nat × Nat := (info.startPosition, info.endPosition)

def computeLiveness (walk : List Walked) (allocations : List ScratchAllocationInfo) : List ScratchAllocationInfo :=
  allocations.map fun info =>
    { info with startPosition := (liveRange walk info.result).1, endPosition := (liveRange walk info.result).2 }

def packInside (outer : ScratchAllocationInfo) (limit : Int) :
    Int → List ScratchAllocationInfo → List ScratchAllocationInfo
  | _, [] => []
  | innerOffset, inner :: rest =>
      if !inner.packed && !livesOverlap outer.range inner.range && decide (innerOffset + inner.numElements ≤ limit) then
        { inner with packed := true, elementOffset := innerOffset } ::
          packInside outer limit (innerOffset + inner.numElements) rest
      else inner :: packInside outer limit innerOffset rest

theorem packInside_length (outer : ScratchAllocationInfo) (limit innerOffset : Int)
    (rest : List ScratchAllocationInfo) : (packInside outer limit innerOffset rest).length = rest.length := by
  induction rest generalizing innerOffset with
  | nil => rfl
  | cons inner rest ih =>
      rw [packInside]
      split <;> rw [List.length_cons, ih, List.length_cons]

def assignOffsets (currentOffset : Int) : List ScratchAllocationInfo → List ScratchAllocationInfo × Int
  | [] => ([], currentOffset)
  | outer :: rest =>
      if outer.packed then
        let (placed, peak) := assignOffsets currentOffset rest
        (outer :: placed, peak)
      else
        let (placed, peak) := assignOffsets (currentOffset + outer.numElements)
          (packInside outer (currentOffset + outer.numElements) currentOffset rest)
        ({ outer with elementOffset := currentOffset } :: placed, peak)
  termination_by infos => infos.length
  decreasing_by
    · exact Nat.lt_succ_self _
    · rw [packInside_length]
      exact Nat.lt_succ_self _

/-- Larger slots come first, then lower slot numbers. -/
def before (first second : ScratchAllocationInfo) : Bool :=
  decide (first.numElements > second.numElements ∨ first.numElements = second.numElements ∧ first.slotId ≤ second.slotId)

def Block.sortedAllocations (block : Block) : List ScratchAllocationInfo :=
  computeLiveness block.walk (block.allocations.insertionSort fun first second => before first second = true)

def processGeneric (block : Block) (scratchCapacity : Int) : Except Int (List ScratchAllocationInfo) :=
  if block.allocations.isEmpty then .ok []
  else
    let (placed, peakUsage) := assignOffsets 0 block.sortedAllocations
    if peakUsage > scratchCapacity then .error peakUsage else .ok placed

/-- The accesses of a run, in order; `cellOf` tells what the elements of the memrefs are. -/
def Block.events : Block → List Nat → (Value → Nat → Cell) → List (Event Cell)
  | .done, _, _ => []
  | .scratchAllocate _ _ _ rest, indices, cellOf => rest.events indices cellOf
  | .view result source element rest, indices, cellOf =>
      rest.events indices (Function.update cellOf result fun number => cellOf source (element indices number))
  | .load source element result rest, indices, cellOf =>
      .load (cellOf source (element indices)) result :: rest.events indices cellOf
  | .store target element source rest, indices, cellOf =>
      .store (cellOf target (element indices)) source :: rest.events indices cellOf
  | .compute op operands result rest, indices, cellOf =>
      .compute op indices operands result :: rest.events indices cellOf
  | .forOp tripCount body rest, indices, cellOf =>
      ((List.range tripCount).flatMap fun index => body.events (index :: indices) cellOf) ++ rest.events indices cellOf

def Block.run (block : Block) : List (Event Cell) := block.events [] Cell.mk

def address (placed : List ScratchAllocationInfo) (cell : Cell) : Int ⊕ Cell :=
  match placed.find? fun info => decide (info.result = cell.root) with
  | some info => .inl (info.elementOffset + cell.element)
  | none => .inr cell

namespace ScratchAllocationInfo

def unplaced (info : ScratchAllocationInfo) : ScratchAllocationInfo := { info with elementOffset := 0, packed := false }

def Apart (first second : ScratchAllocationInfo) : Prop :=
  first.elementOffset + first.numElements ≤ second.elementOffset ∨
    second.elementOffset + second.numElements ≤ first.elementOffset

def Clear (first second : ScratchAllocationInfo) : Prop :=
  Apart first second ∨ livesOverlap first.range second.range = false

end ScratchAllocationInfo
open ScratchAllocationInfo

/-- What is packed lies below the current offset, and apart. -/
structure Packed (currentOffset : Int) (infos : List ScratchAllocationInfo) : Prop where
  start : 0 ≤ currentOffset
  sizes : ∀ info ∈ infos, 0 < info.numElements
  bounds : ∀ info ∈ infos, info.packed = true → 0 ≤ info.elementOffset ∧
    info.elementOffset + info.numElements ≤ currentOffset
  apart : infos.Pairwise fun first second => first.packed = true → second.packed = true → Apart first second

theorem packInside_unplaced (outer : ScratchAllocationInfo) (limit innerOffset : Int)
    (rest : List ScratchAllocationInfo) :
    (packInside outer limit innerOffset rest).map unplaced = rest.map unplaced := by
  induction rest generalizing innerOffset with
  | nil => rfl
  | cons inner rest ih =>
      rw [packInside]
      split <;> rw [List.map_cons, ih, List.map_cons]
      rfl

theorem assignOffsets_unplaced (currentOffset : Int) (infos : List ScratchAllocationInfo) :
    (assignOffsets currentOffset infos).1.map unplaced = infos.map unplaced := by
  induction currentOffset, infos using assignOffsets.induct with
  | case1 => rw [assignOffsets]
  | case2 _ outer rest isPacked _ _ _ ih => simp only [assignOffsets, isPacked, ↓reduceIte, List.map_cons, ih]
  | case3 _ outer rest notPacked _ _ _ ih =>
      simp only [assignOffsets, notPacked, Bool.false_eq_true, ↓reduceIte, List.map_cons, ih, packInside_unplaced]
      rfl

theorem forall_of_unplaced (property : ScratchAllocationInfo → Prop) {infos given : List ScratchAllocationInfo}
    (same : infos.map unplaced = given.map unplaced) (holds : ∀ info ∈ given, property info.unplaced) :
    ∀ info ∈ infos, property info.unplaced := by
  intro info member
  have inMap := List.mem_map_of_mem (f := unplaced) member
  rw [same] at inMap
  obtain ⟨original, isGiven, equal⟩ := List.mem_map.mp inMap
  exact equal ▸ holds original isGiven

section Packing
variable {currentOffset innerOffset limit : Int} {outer : ScratchAllocationInfo} {infos : List ScratchAllocationInfo}

theorem packInside_mem (sizes : ∀ info ∈ infos, 0 < info.numElements) :
    ∀ info ∈ packInside outer limit innerOffset infos, info ∈ infos ∨
      livesOverlap outer.range info.range = false ∧ innerOffset ≤ info.elementOffset ∧
        info.elementOffset + info.numElements ≤ limit := by
  induction infos generalizing innerOffset with
  | nil => exact fun _ member => .inl member
  | cons inner rest ih =>
      obtain ⟨size, later⟩ := List.forall_mem_cons.mp sizes
      rw [packInside]
      split
      · rename_i goes
        simp only [Bool.and_eq_true, Bool.not_eq_true', decide_eq_true_eq] at goes
        refine List.forall_mem_cons.mpr ⟨.inr ⟨goes.1.2, le_refl _, goes.2⟩, fun info member => ?_⟩
        rcases ih later info member with old | ⟨clear, above, below⟩
        · exact .inl (List.mem_cons_of_mem _ old)
        · exact .inr ⟨clear, by omega, below⟩
      · refine List.forall_mem_cons.mpr ⟨.inl List.mem_cons_self, fun info member => ?_⟩
        exact (ih later info member).imp_left (List.mem_cons_of_mem _)

theorem Packed.tail {info : ScratchAllocationInfo} (packed : Packed currentOffset (info :: infos)) :
    Packed currentOffset infos where
  start := packed.start
  sizes := fun other member => packed.sizes other (List.mem_cons_of_mem _ member)
  bounds := fun other member => packed.bounds other (List.mem_cons_of_mem _ member)
  apart := packed.apart.of_cons

theorem Packed.apart_inside (packed : Packed currentOffset infos) (above : currentOffset ≤ innerOffset) :
    (packInside outer limit innerOffset infos).Pairwise fun first second =>
      first.packed = true → second.packed = true → Apart first second := by
  induction infos generalizing innerOffset with
  | nil => exact packed.apart
  | cons inner rest ih =>
      have later := packed.tail
      have size := packed.sizes inner List.mem_cons_self
      rw [packInside]
      split
      -- the new part starts above all old ones and ends where the next new one may start
      · refine List.pairwise_cons.mpr ⟨fun info member _ isPacked => ?_, ih later (by omega)⟩
        rcases packInside_mem later.sizes info member with old | ⟨-, next, -⟩
        · exact .inr ((later.bounds info old isPacked).2.trans above)
        · exact .inl next
      · refine List.pairwise_cons.mpr ⟨fun info member wasPacked isPacked => ?_, ih later above⟩
        rcases packInside_mem later.sizes info member with old | ⟨-, next, -⟩
        · exact List.rel_of_pairwise_cons packed.apart old wasPacked isPacked
        · exact .inl (((packed.bounds inner List.mem_cons_self wasPacked).2.trans above).trans next)

theorem Packed.inside (packed : Packed currentOffset infos) (room : currentOffset ≤ limit) :
    Packed limit (packInside outer limit currentOffset infos) where
  start := packed.start.trans room
  sizes := forall_of_unplaced (fun info => 0 < info.numElements) (packInside_unplaced ..) packed.sizes
  bounds := by
    intro info member isPacked
    have start := packed.start
    rcases packInside_mem packed.sizes info member with old | ⟨-, above, below⟩
    · exact ⟨(packed.bounds info old isPacked).1, (packed.bounds info old isPacked).2.trans room⟩
    · exact ⟨start.trans above, below⟩
  apart := packed.apart_inside (le_refl _)

/-- The slots in place: packed ones as they were, the others in between the offsets. -/
structure Placed (currentOffset : Int) (infos : List ScratchAllocationInfo)
    (result : List ScratchAllocationInfo × Int) : Prop where
  peak : currentOffset ≤ result.2
  origin : ∀ info ∈ result.1, info ∈ infos ∧ info.packed = true ∨
    currentOffset ≤ info.elementOffset ∧ info.elementOffset + info.numElements ≤ result.2
  clear : result.1.Pairwise Clear

theorem assignOffsets_placed (packed : Packed currentOffset infos) :
    Placed currentOffset infos (assignOffsets currentOffset infos) := by
  induction currentOffset, infos using assignOffsets.induct with
  | case1 currentOffset =>
      rw [assignOffsets]
      exact ⟨le_refl _, fun _ member => absurd member List.not_mem_nil, .nil⟩
  | case2 currentOffset outer rest isPacked _ _ _ ih =>
      have placed := ih packed.tail
      simp only [assignOffsets, isPacked, ↓reduceIte]
      refine ⟨placed.peak, List.forall_mem_cons.mpr ⟨.inl ⟨List.mem_cons_self, isPacked⟩, fun info member => ?_⟩,
        List.pairwise_cons.mpr ⟨fun info member => .inl ?_, placed.clear⟩⟩
      · exact (placed.origin info member).imp_left fun old => ⟨List.mem_cons_of_mem _ old.1, old.2⟩
      · rcases placed.origin info member with ⟨old, wasPacked⟩ | ⟨above, -⟩
        · exact List.rel_of_pairwise_cons packed.apart old isPacked wasPacked
        · exact .inl ((packed.bounds outer List.mem_cons_self isPacked).2.trans above)
  | case3 currentOffset outer rest notPacked _ _ _ ih =>
      have size := packed.sizes outer List.mem_cons_self
      have room : currentOffset ≤ currentOffset + outer.numElements := by omega
      have placed := ih (packed.tail.inside room)
      have peak := placed.peak
      simp only [assignOffsets, notPacked, Bool.false_eq_true, ↓reduceIte]
      refine ⟨room.trans peak, List.forall_mem_cons.mpr ⟨.inr ⟨le_refl _, peak⟩, fun info member => ?_⟩,
        List.pairwise_cons.mpr ⟨fun info member => ?_, placed.clear⟩⟩
      · rcases placed.origin info member with ⟨inside, wasPacked⟩ | ⟨above, below⟩
        · rcases packInside_mem packed.tail.sizes info inside with old | ⟨-, above, below⟩
          · exact .inl ⟨List.mem_cons_of_mem _ old, wasPacked⟩
          · exact .inr ⟨above, below.trans peak⟩
        · exact .inr ⟨room.trans above, below⟩
      · rcases placed.origin info member with ⟨inside, wasPacked⟩ | ⟨above, -⟩
        · rcases packInside_mem packed.tail.sizes info inside with old | ⟨clear, -⟩
          · exact .inl (.inr (packed.tail.bounds info old wasPacked).2)
          · exact .inr clear
        · exact .inl (.inl above)

end Packing

instance : Std.Symm Clear where
  symm first second clear := by
    rcases clear with apart | disjoint
    · exact .inl apart.symm
    · rw [livesOverlap, Bool.and_comm] at disjoint
      exact .inr disjoint

namespace Block
variable (block : Block)

def isSlot (value : Value) : Bool := block.allocations.any fun info => decide (info.result = value)

def clashes (first second : Cell) : Bool :=
  block.isSlot first.root && block.isSlot second.root && !decide (first.root = second.root) &&
    !livesOverlap (liveRange block.walk first.root) (liveRange block.walk second.root)

/-- While an element of a slot is still loaded, no store is to a slot whose range does not meet the slot's. -/
def KeptWhileLoaded : Prop := Unspoiled block.clashes (fun _ => false) block.run

/-- Slots have elements, which are accessed inside of them and stored before they are loaded. -/
structure WellFormed : Prop where
  sizes : ∀ info ∈ block.allocations, 0 < info.numElements
  inside : ∀ event ∈ block.run, ∀ cell ∈ event.cell?, ∀ info ∈ block.allocations,
    info.result = cell.root → cell.element < info.numElements
  stored : StoredFirst (fun cell => !block.isSlot cell.root) block.run

variable {block}

theorem walk_unpacked (block : Block) : ∀ op ∈ block.walk, ∀ info ∈ op.allocation, info.packed = false := by
  induction block with
  | done => exact fun _ member => absurd member List.not_mem_nil
  | scratchAllocate _ _ _ _ ih | view _ _ _ _ ih | load _ _ _ _ ih | store _ _ _ _ ih | compute _ _ _ _ ih =>
      simpa [walk] using ih
  | forOp _ _ _ body rest => simpa [walk] using fun op member => member.elim (body op) (rest op)

theorem mem_sortedAllocations {info : ScratchAllocationInfo} (member : info ∈ block.sortedAllocations) :
    (∃ given ∈ block.allocations, given.result = info.result ∧ given.numElements = info.numElements) ∧
      info.range = liveRange block.walk info.result ∧ info.packed = false := by
  obtain ⟨given, sorted, rfl⟩ := List.mem_map.mp member
  have isGiven := (List.perm_insertionSort ..).mem_iff.mp sorted
  obtain ⟨op, walked, isAllocation⟩ := List.mem_filterMap.mp isGiven
  exact ⟨⟨given, isGiven, rfl, rfl⟩, rfl, walk_unpacked block op walked given isAllocation⟩

theorem sorted_packed (wellFormed : block.WellFormed) : Packed 0 block.sortedAllocations where
  start := le_refl _
  sizes := by
    intro info member
    obtain ⟨⟨given, isGiven, -, size⟩, -⟩ := mem_sortedAllocations member
    exact size ▸ wellFormed.sizes given isGiven
  bounds := fun info member isPacked => by
    rw [(mem_sortedAllocations member).2.2] at isPacked
    cases isPacked
  apart := List.pairwise_of_forall_mem_list fun first member _ _ isPacked => by
    rw [(mem_sortedAllocations member).2.2] at isPacked
    cases isPacked

theorem processGeneric_ok (wellFormed : block.WellFormed) {capacity : Int} {placed : List ScratchAllocationInfo}
    (lowered : processGeneric block capacity = .ok placed) :
    placed.map unplaced = block.sortedAllocations.map unplaced ∧ placed.Pairwise Clear ∧
      ∀ info ∈ placed, 0 ≤ info.elementOffset ∧ info.elementOffset + info.numElements ≤ capacity := by
  unfold processGeneric at lowered
  split at lowered
  · rename_i empty
    cases lowered
    have none : block.sortedAllocations = [] := by
      rw [sortedAllocations, List.isEmpty_iff.mp empty]
      rfl
    exact ⟨by rw [none], .nil, fun _ member => absurd member List.not_mem_nil⟩
  · have placing := assignOffsets_placed (sorted_packed wellFormed)
    simp only at lowered
    split at lowered
    · cases lowered
    · rename_i fits
      cases lowered
      refine ⟨assignOffsets_unplaced .., placing.clear, fun info member => ?_⟩
      rcases placing.origin info member with ⟨old, isPacked⟩ | ⟨above, below⟩
      · rw [(mem_sortedAllocations old).2.2] at isPacked
        cases isPacked
      · exact ⟨above, by omega⟩

/-- Two elements of the region lie at one address only if the ranges of their slots do not meet. -/
theorem clashes_of_address (wellFormed : block.WellFormed) {capacity : Int} {placed : List ScratchAllocationInfo}
    (lowered : processGeneric block capacity = .ok placed) {first second : Cell}
    (firstInside : ∀ info ∈ block.allocations, info.result = first.root → first.element < info.numElements)
    (secondInside : ∀ info ∈ block.allocations, info.result = second.root → second.element < info.numElements)
    (same : address placed first = address placed second) : first = second ∨ block.clashes first second = true := by
  obtain ⟨unplacedSame, clear, -⟩ := processGeneric_ok wellFormed lowered
  have known := forall_of_unplaced (fun info =>
    (∃ given ∈ block.allocations, given.result = info.result ∧ given.numElements = info.numElements) ∧
      info.range = liveRange block.walk info.result) unplacedSame fun info member =>
    ⟨(mem_sortedAllocations member).1, (mem_sortedAllocations member).2.1⟩
  cases firstFound : placed.find? fun info => decide (info.result = first.root) with
  | none =>
      cases secondFound : placed.find? fun info => decide (info.result = second.root) with
      | none =>
          simp only [address, firstFound, secondFound, Sum.inr.injEq] at same
          exact .inl same
      | some _ => simp [address, firstFound, secondFound] at same
  | some firstInfo =>
      cases secondFound : placed.find? fun info => decide (info.result = second.root) with
      | none => simp [address, firstFound, secondFound] at same
      | some secondInfo =>
          simp only [address, firstFound, secondFound, Sum.inl.injEq] at same
          have firstRoot : firstInfo.result = first.root := by simpa using List.find?_some firstFound
          have secondRoot : secondInfo.result = second.root := by simpa using List.find?_some secondFound
          have firstMem := List.mem_of_find?_eq_some firstFound
          have secondMem := List.mem_of_find?_eq_some secondFound
          obtain ⟨⟨firstGiven, isFirst, firstResult, firstSize⟩, firstRange⟩ := known firstInfo firstMem
          obtain ⟨⟨secondGiven, isSecond, secondResult, secondSize⟩, secondRange⟩ := known secondInfo secondMem
          by_cases roots : first.root = second.root
          · rw [roots, secondFound] at firstFound
            cases firstFound
            have element : first.element = second.element := by omega
            cases first
            cases second
            cases roots
            cases element
            exact .inl rfl
          · have below := firstInside firstGiven isFirst (firstResult.trans firstRoot)
            have secondBelow := secondInside secondGiven isSecond (secondResult.trans secondRoot)
            have differ : firstInfo ≠ secondInfo := fun equal => roots (by rw [← firstRoot, equal, secondRoot])
            have here := clear.forall firstMem secondMem differ
            simp only [unplaced] at firstSize secondSize
            rcases here with apart | disjoint
            · unfold Apart at apart
              omega
            · refine .inr ?_
              rw [show firstInfo.range = _ from firstRange, show secondInfo.range = _ from secondRange] at disjoint
              simp only [unplaced, firstRoot, secondRoot] at disjoint
              have slots : ∀ {given : ScratchAllocationInfo} {value : Value}, given ∈ block.allocations →
                  given.result = value → block.isSlot value = true :=
                fun member equal => List.any_eq_true.mpr ⟨_, member, decide_eq_true equal⟩
              simp [clashes, roots, disjoint, slots isFirst (firstResult.trans firstRoot),
                slots isSecond (secondResult.trans secondRoot)]

/-- The pass fails only for want of room, and else every slot has its part of the buffer. The loads of a run
return what they would with memory for each slot, if no store hits a slot with another range in between. -/
theorem scratch_slots_apart (block : Block) (wellFormed : block.WellFormed) (capacity : Int) :
    (∀ peak, processGeneric block capacity = .error peak →
      peak = (assignOffsets 0 block.sortedAllocations).2 ∧ capacity < peak) ∧
    ∀ placed, processGeneric block capacity = .ok placed →
      (placed.map (·.result)).Perm (block.allocations.map (·.result)) ∧
      (∀ info ∈ placed, 0 ≤ info.elementOffset ∧ info.elementOffset + info.numElements ≤ capacity) ∧
      (block.KeptWhileLoaded → ∀ (α : Type) (meaning : Nat → List Nat → List α → α) (registers : Nat → α)
        (own : Cell → α) (shared : Int ⊕ Cell → α),
        (∀ cell, block.isSlot cell.root = false → shared (.inr cell) = own cell) →
        loaded meaning (address placed) block.run registers shared = loaded meaning id block.run registers own) := by
  refine ⟨fun peak failed => ?_, fun placed lowered => ?_⟩
  · unfold processGeneric at failed
    split at failed
    · cases failed
    · simp only at failed
      split at failed
      · rename_i large
        cases failed
        exact ⟨rfl, large⟩
      · cases failed
  · obtain ⟨same, -, bounds⟩ := processGeneric_ok wellFormed lowered
    have results : (placed.map (·.result)).Perm (block.allocations.map (·.result)) := by
      have names := congrArg (List.map (·.result)) same
      simp only [List.map_map] at names
      rw [show placed.map (·.result) = block.sortedAllocations.map (·.result) from names, sortedAllocations,
        computeLiveness, List.map_map]
      exact (List.perm_insertionSort ..).map _
    refine ⟨results, bounds, fun kept α meaning registers own shared outside => ?_⟩
    refine loaded_placed (fun first second => clashes_of_address wellFormed lowered) meaning block.run registers
      wellFormed.inside wellFormed.stored kept fun cell _ isStored _ => ?_
    have notSlot : block.isSlot cell.root = false := by simpa using isStored
    have absent : placed.find? (fun info => decide (info.result = cell.root)) = none := by
      refine List.find?_eq_none.mpr fun info member isRoot => ?_
      obtain ⟨given, isGiven, named⟩ := List.mem_map.mp (results.mem_iff.mp (List.mem_map_of_mem member))
      have slot : block.isSlot cell.root = true :=
        List.any_eq_true.mpr ⟨given, isGiven, decide_eq_true (named.trans (of_decide_eq_true isRoot))⟩
      rw [slot] at notSlot
      cases notSlot
    rw [address, absent]
    exact outside cell notSlot

end Block

def refilled : Block :=
  .scratchAllocate 0 0 [1, 2] <| .scratchAllocate 1 1 [1] <| .compute 0 [] 0 <| .store 0 (fun _ => 0) 0 <|
    .forOp 2 (.load 0 (fun _ => 0) 1 <| .compute 1 [1] 2 <| .store 1 (fun _ => 0) 2 <| .load 1 (fun _ => 0) 3 .done) .done

def drained : Block :=
  .scratchAllocate 0 0 [1, 2] <| .scratchAllocate 1 1 [1] <| .compute 0 [] 0 <| .store 0 (fun _ => 0) 0 <|
    .load 0 (fun _ => 0) 1 <| .compute 1 [1] 2 <| .store 1 (fun _ => 0) 2 <| .load 1 (fun _ => 0) 3 .done

def counting (op : Nat) (_ : List Nat) (operands : List Nat) : Nat := if op = 0 then 7 else operands.sum + 1

theorem small_packed {block : Block} (some : block.allocations.isEmpty = false) {start last nextStart nextLast : Nat}
    (sorted : block.sortedAllocations = [⟨0, 0, 2, 0, start, last, false⟩, ⟨1, 1, 1, 0, nextStart, nextLast, false⟩])
    (later : last < nextStart) : processGeneric block 2 =
      .ok [⟨0, 0, 2, 0, start, last, false⟩, ⟨1, 1, 1, 0, nextStart, nextLast, true⟩] := by
  rw [processGeneric, sorted, some]
  simp [assignOffsets, packInside, livesOverlap, ScratchAllocationInfo.range, Nat.not_le.mpr later]

/-- The second iteration loads from the first slot what the first one stored to the second slot. -/
theorem refilled_disturbed : refilled.WellFormed ∧ ∃ placed, processGeneric refilled 2 = .ok placed ∧
    loaded counting (address placed) refilled.run (fun _ => 0) (fun _ => 0) = [7, 8, 8, 9] ∧
    loaded counting id refilled.run (fun _ => 0) (fun _ => 0) = [7, 8, 7, 8] := by
  have sorted : refilled.sortedAllocations = [⟨0, 0, 2, 0, 3, 5, false⟩, ⟨1, 1, 1, 0, 7, 8, false⟩] := by decide
  exact ⟨⟨by decide, by decide, by decide⟩, _, small_packed rfl sorted (by decide), by decide, by decide⟩

theorem drained_apart : ∃ placed, processGeneric drained 2 = .ok placed ∧
    loaded counting (address placed) drained.run (fun _ => 0) (fun _ => 0) = [7, 8] := by
  have wellFormed : drained.WellFormed := ⟨by decide, by decide, by decide⟩
  have sorted : drained.sortedAllocations = [⟨0, 0, 2, 0, 3, 4, false⟩, ⟨1, 1, 1, 0, 6, 7, false⟩] := by decide
  have placed := small_packed rfl sorted (by decide)
  have kept : Unspoiled drained.clashes (fun _ => false) drained.run := by decide
  have same := ((Block.scratch_slots_apart drained wellFormed 2).2 _ placed).2.2 kept Nat counting (fun _ => 0)
    (fun _ => 0) (fun _ => 0) fun _ _ => rfl
  exact ⟨_, placed, same.trans (by decide)⟩

end TtMlir.D2m.Scratch
