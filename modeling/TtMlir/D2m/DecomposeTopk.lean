import TtMlir.Library.Largest

/-!
The decomposition of a top-k block: the tile operations it emits for a shard of tiles, and a
machine that runs them on the input and the output buffer. The rows of one lane are followed; a tile
operation acts on every lane alike.
-/

namespace TtMlir

namespace DecomposeTopk

/-- A value with the index that the index buffer pairs it with. -/
structure Entry (Value : Type) where
  value : Value
  index : Nat
deriving DecidableEq, Repr

def tileRows : Nat := 32

structure Tile (Value : Type) where
  entries : List (Entry Value)
  rows : entries.length = tileRows
deriving DecidableEq

def Tile.contents (tile : Tile Value) : Multiset (Entry Value) := tile.entries

theorem Tile.card_contents (tile : Tile Value) : tile.contents.card = tileRows := by
  simp [contents, tile.rows]

/-- What a tile operation does to the two tiles in the DST registers. -/
inductive Compute where
  | localSort (idir iEndPhase iStartPhase : Nat)
  | merge (mIter k : Nat)
  | rebuild (idir mIter k logk skipSecond : Nat)
deriving DecidableEq, Repr

structure TileOp where
  compute : Compute
  tileA : Nat
  tileB : Nat
  isGroupStart : Bool
  isGroupEnd : Bool
  readFromOutput : Bool
deriving DecidableEq, Repr

/-- The three tile operations as their descriptions promise: a sort that ends with phase 4 orders
each tile, one that ends with phase 5 the two as one sequence; a merge moves the largest of the pair
to the first tile. -/
structure TileOps (Value : Type) [LinearOrder Value] where
  apply : Compute → Tile Value × Tile Value → Tile Value × Tile Value
  sort_tiles : ∀ start pair,
    (apply (.localSort 0 4 start) pair).1.contents = pair.1.contents ∧
    (apply (.localSort 0 4 start) pair).2.contents = pair.2.contents
  sort_ordered : ∀ pair, InOrder Entry.value (apply (.localSort 0 4 0) pair).1.entries ∧
    InOrder Entry.value (apply (.localSort 0 4 0) pair).2.entries
  sort_pair : ∀ pair,
    (apply (.localSort 0 5 0) pair).1.contents + (apply (.localSort 0 5 0) pair).2.contents =
      pair.1.contents + pair.2.contents ∧
    InOrder Entry.value ((apply (.localSort 0 5 0) pair).1.entries ++ (apply (.localSort 0 5 0) pair).2.entries)
  merge_pair : ∀ mIter k pair,
    (apply (.merge mIter k) pair).1.contents + (apply (.merge mIter k) pair).2.contents =
      pair.1.contents + pair.2.contents ∧
    Above Entry.value (apply (.merge mIter k) pair).1.contents (apply (.merge mIter k) pair).2.contents
  rebuild_tiles : ∀ mIter k skipSecond pair,
    (apply (.rebuild 0 mIter k 5 skipSecond) pair).1.contents = pair.1.contents ∧
    (apply (.rebuild 0 mIter k 5 skipSecond) pair).2.contents = pair.2.contents ∧
    InOrder Entry.value (apply (.rebuild 0 mIter k 5 skipSecond) pair).1.entries ∧
    (skipSecond = 0 → InOrder Entry.value (apply (.rebuild 0 mIter k 5 skipSecond) pair).2.entries)
  rebuild_pair : ∀ mIter k pair,
    (apply (.rebuild 0 mIter k 6 0) pair).1.contents + (apply (.rebuild 0 mIter k 6 0) pair).2.contents =
      pair.1.contents + pair.2.contents ∧
    InOrder Entry.value
      ((apply (.rebuild 0 mIter k 6 0) pair).1.entries ++ (apply (.rebuild 0 mIter k 6 0) pair).2.entries)

/-- What a step reads and writes: the registers of an open group, and the output buffer with the
tiles it has been given so far. -/
structure Memory (Value : Type) where
  dst : Option (Tile Value × Tile Value)
  out : Nat → Option (Tile Value)

section Machine
variable [LinearOrder Value] (ops : TileOps Value) (input : Nat → Tile Value) (shardSize : Nat)

/-- A tile of the output that nothing was written to cannot be read, and neither can an address
outside the shard. -/
def readTile (readFromOutput : Bool) (memory : Memory Value) (address : Nat) : Option (Tile Value) :=
  if readFromOutput then memory.out address else some (input address)

def pack (out : Nat → Option (Tile Value)) (tileA tileB : Nat) (pair : Tile Value × Tile Value) :
    Nat → Option (Tile Value) :=
  Function.update (Function.update out tileA (some pair.1)) tileB (some pair.2)

def step (memory : Memory Value) (op : TileOp) : Option (Memory Value) :=
  if op.tileA < shardSize ∧ op.tileB < shardSize then do
    let pair ←
      if op.isGroupStart then do
        let first ← readTile input op.readFromOutput memory op.tileA
        let second ← readTile input op.readFromOutput memory op.tileB
        some (first, second)
      else memory.dst
    let result := ops.apply op.compute pair
    if op.isGroupEnd then some ⟨none, pack memory.out op.tileA op.tileB result⟩
    else some ⟨some result, memory.out⟩
  else none

def run (memory : Memory Value) (steps : List TileOp) : Option (Memory Value) :=
  steps.foldlM (step ops input shardSize) memory

variable {input shardSize} {memory : Memory Value} {tileA tileB : Nat} {rfo : Bool} {first second : Tile Value}
  (inside : tileA < shardSize ∧ tileB < shardSize) (readA : readTile input rfo memory tileA = some first)
  (readB : readTile input rfo memory tileB = some second)
include inside readA readB

/-! A group of one, two or three operations reads its tiles once and packs them once. -/

theorem run_one (compute : Compute) :
    run ops input shardSize memory [⟨compute, tileA, tileB, true, true, rfo⟩] =
      some ⟨none, pack memory.out tileA tileB (ops.apply compute (first, second))⟩ := by
  simp [run, step, inside, readA, readB]

theorem run_two (compute next : Compute) :
    run ops input shardSize memory
        [⟨compute, tileA, tileB, true, false, rfo⟩, ⟨next, tileA, tileB, false, true, rfo⟩] =
      some ⟨none, pack memory.out tileA tileB (ops.apply next (ops.apply compute (first, second)))⟩ := by
  simp [run, step, inside, readA, readB]

theorem run_three (compute next last : Compute) :
    run ops input shardSize memory
        [⟨compute, tileA, tileB, true, false, rfo⟩, ⟨next, tileA, tileB, false, false, rfo⟩,
          ⟨last, tileA, tileB, false, true, rfo⟩] =
      some ⟨none, pack memory.out tileA tileB
        (ops.apply last (ops.apply next (ops.apply compute (first, second))))⟩ := by
  simp [run, step, inside, readA, readB]

omit inside readA readB

variable (input shardSize)

theorem run_append (memory : Memory Value) (first second : List TileOp) :
    run ops input shardSize memory (first ++ second) =
      (run ops input shardSize memory first).bind fun next => run ops input shardSize next second := by
  simp [run, List.foldlM_append, bind]

end Machine

/-- The values of an `scf.for` induction variable. -/
def scfFor (lower upper stride : Nat) : List Nat :=
  List.range' lower ((upper - lower + stride - 1) / stride) stride

def floorLog2 (n : Nat) : Nat := Nat.log2 n

/-- A `topk_block` op: the shape of its input shard in tiles, the reduction dim and k. -/
structure TopkBlock where
  inputShape : Fin 2 → Nat
  dim : Fin 2
  k : Nat

namespace TopkBlock
variable (block : TopkBlock)

def logk : Nat := floorLog2 block.k

def useLargeK : Bool := 32 < block.k

def numTilesInner : Nat := block.inputShape block.dim

def numTilesPow2 : Bool := 0 < block.numTilesInner ∧ block.numTilesInner &&& (block.numTilesInner - 1) = 0

def logWt : Nat :=
  if block.numTilesPow2 then floorLog2 block.numTilesInner else floorLog2 block.numTilesInner + 1

def ragged : Bool := !block.numTilesPow2

def ntDimIdx : Fin 2 := if block.dim = 1 then 0 else 1

def nonTargetCount : Nat := block.inputShape block.ntDimIdx

def reductionStride : Nat := if block.dim = 1 then 1 else block.nonTargetCount

def ntStride : Nat := if block.dim = 1 then block.numTilesInner else 1

def shardSize : Nat := block.inputShape 0 * block.inputShape 1

def flat (nt r : Nat) : Nat := r * block.reductionStride + nt * block.ntStride

def emitSortMergeRebuild (tA tB mergeK rebuildK mLogk sortStartPhase sortEndPhase mergeIter skipSecond : Nat)
    (rfo : Bool) : List TileOp :=
  [⟨.localSort 0 sortEndPhase sortStartPhase, tA, tB, true, false, rfo⟩,
    ⟨.merge mergeIter mergeK, tA, tB, false, false, rfo⟩,
    ⟨.rebuild 0 mergeIter rebuildK mLogk skipSecond, tA, tB, false, true, rfo⟩]

/-- All calls of the large-k path pass the same numbers. -/
def foldPair (nt rA rB : Nat) (rfo : Bool) : List TileOp :=
  emitSortMergeRebuild (block.flat nt rA) (block.flat nt rB) block.k block.k block.logk 0 (block.logk - 1) 0 0 rfo

def foldBody (nt t : Nat) : List TileOp :=
  block.foldPair nt t (t + 1) false ++ block.foldPair nt 0 t true ++ block.foldPair nt 1 (t + 1) true ++
    block.foldPair nt 1 t true

def completeUB : Nat := block.numTilesInner - block.numTilesInner % 2

def tailFold (nt : Nat) : List TileOp :=
  let tail := block.numTilesInner - 1
  [⟨.localSort 0 (block.logk - 1) 0, block.flat nt tail, block.flat nt tail, true, true, false⟩] ++
    block.foldPair nt 0 tail true ++ block.foldPair nt 1 tail true

def largeKSteps (nt : Nat) : List TileOp :=
  block.foldPair nt 0 1 false ++
    (if 2 < block.completeUB then (scfFor 2 block.completeUB 2).flatMap (block.foldBody nt) else []) ++
    (if block.numTilesInner % 2 = 1 then block.tailFold nt else [])

def tailSortNeeded : Bool := block.ragged && block.numTilesInner % 2 == 1

def needsRebuild (isLevelZero isLastLevel : Bool) : Bool := isLastLevel && (block.k < 32 || !isLevelZero)

def levelPair (nt mIter base : Nat) (isLevelZero isLastLevel : Bool) : List TileOp :=
  let tileA := block.flat nt base
  let tileB := block.flat nt (base + 2 ^ mIter)
  let rebuilds := block.needsRebuild isLevelZero isLastLevel
  let tail := block.flat nt (block.numTilesInner - 1)
  [⟨.localSort 0 4 (if block.ragged then 0 else mIter), tileA, tileB, true, false, !isLevelZero⟩,
    ⟨.merge mIter 32, tileA, tileB, false, !rebuilds, !isLevelZero⟩] ++
    (if rebuilds then [⟨.rebuild 0 mIter block.k 5 1, tileA, tileB, false, true, !isLevelZero⟩] else []) ++
    (if isLevelZero && block.tailSortNeeded then [⟨.localSort 0 4 0, tail, tail, true, true, false⟩] else [])

def emitLevelBody (nt mIter : Nat) (isLevelZero isLastLevel : Bool) : List TileOp :=
  (scfFor 0 (block.numTilesInner - 2 ^ mIter) (2 ^ mIter * 2)).flatMap fun base =>
    block.levelPair nt mIter base isLevelZero isLastLevel

def mergeTreeSteps (nt : Nat) : List TileOp :=
  block.emitLevelBody nt 0 true (block.logWt == 1) ++
    (if 1 < block.logWt then
      (scfFor 1 (block.logWt - 1) 1).flatMap (fun mIter => block.emitLevelBody nt mIter false false) ++
        block.emitLevelBody nt (block.logWt - 1) false true
    else [])

def ntSteps (nt : Nat) : List TileOp :=
  if block.useLargeK then block.largeKSteps nt else block.mergeTreeSteps nt

def networkSteps : List TileOp := (scfFor 0 block.nonTargetCount 1).flatMap block.ntSteps

def offered (input : Nat → Tile Value) (nt lower upper : Nat) : Multiset (Entry Value) :=
  ((List.range' lower (upper - lower)).map fun r => (input (block.flat nt r)).contents).sum

theorem offered_succ (input : Nat → Tile Value) (nt upper : Nat) :
    block.offered input nt 0 (upper + 1) =
      block.offered input nt 0 upper + (input (block.flat nt upper)).contents := by
  simp [offered, List.range'_concat]

theorem ofDim : (block.dim = 1 ∧ block.shardSize = block.nonTargetCount * block.numTilesInner ∧
      ∀ nt r, block.flat nt r = r + nt * block.numTilesInner) ∨
    (block.dim = 0 ∧ block.shardSize = block.numTilesInner * block.nonTargetCount ∧
      ∀ nt r, block.flat nt r = r * block.nonTargetCount + nt) := by
  by_cases last : block.dim = 1
  · left
    refine ⟨last, ?_, fun nt r => ?_⟩
    · simp [shardSize, nonTargetCount, ntDimIdx, numTilesInner, last]
    · simp [flat, reductionStride, ntStride, last]
  · have first : block.dim = 0 := by omega
    right
    refine ⟨first, ?_, fun nt r => ?_⟩
    · simp [shardSize, nonTargetCount, ntDimIdx, numTilesInner, first]
    · simp [flat, reductionStride, ntStride, first]

theorem flat_lt {nt r : Nat} (ntIn : nt < block.nonTargetCount) (rIn : r < block.numTilesInner) :
    block.flat nt r < block.shardSize := by
  rcases block.ofDim with ⟨-, size, address⟩ | ⟨-, size, address⟩ <;> rw [size, address]
  · calc r + nt * block.numTilesInner < (nt + 1) * block.numTilesInner := by rw [Nat.succ_mul]; omega
      _ ≤ block.nonTargetCount * block.numTilesInner := Nat.mul_le_mul_right _ ntIn
  · calc r * block.nonTargetCount + nt < (r + 1) * block.nonTargetCount := by rw [Nat.succ_mul]; omega
      _ ≤ block.numTilesInner * block.nonTargetCount := Nat.mul_le_mul_right _ rIn

theorem flat_inj {nt nt' r r' : Nat} (ntIn : nt < block.nonTargetCount) (ntIn' : nt' < block.nonTargetCount)
    (rIn : r < block.numTilesInner) (rIn' : r' < block.numTilesInner)
    (same : block.flat nt r = block.flat nt' r') : nt = nt' ∧ r = r' := by
  rcases block.ofDim with ⟨-, -, address⟩ | ⟨-, -, address⟩ <;> rw [address, address] at same
  · have digit := congrArg (· % block.numTilesInner) same
    simp only [Nat.add_mul_mod_self_right, Nat.mod_eq_of_lt rIn, Nat.mod_eq_of_lt rIn'] at digit
    subst digit
    exact ⟨Nat.eq_of_mul_eq_mul_right (by omega) (Nat.add_left_cancel same), rfl⟩
  · have digit := congrArg (· % block.nonTargetCount) same
    simp only [Nat.mul_add_mod_self_right, Nat.mod_eq_of_lt ntIn, Nat.mod_eq_of_lt ntIn'] at digit
    subst digit
    exact ⟨rfl, Nat.eq_of_mul_eq_mul_right (by omega) (Nat.add_right_cancel same)⟩

/-- What a step at one non-target position leaves alone. -/
def Untouched (nt : Nat) (before after : Nat → Option (Tile Value)) : Prop :=
  ∀ address, (∀ r < block.numTilesInner, address ≠ block.flat nt r) → after address = before address

theorem Untouched.trans {nt : Nat} {first second third : Nat → Option (Tile Value)}
    (before : block.Untouched nt first second) (after : block.Untouched nt second third) :
    block.Untouched nt first third :=
  fun address away => (after address away).trans (before address away)

section Pack
variable {nt rA rB : Nat} (inA : rA < block.numTilesInner) (inB : rB < block.numTilesInner)
  (out : Nat → Option (Tile Value)) (pair : Tile Value × Tile Value)
include inA inB

theorem pack_untouched : block.Untouched nt out (pack out (block.flat nt rA) (block.flat nt rB) pair) := by
  intro address away
  simp [pack, Function.update_of_ne (away rA inA), Function.update_of_ne (away rB inB)]

theorem pack_flat (ntIn : nt < block.nonTargetCount) {r : Nat} (rIn : r < block.numTilesInner) :
    pack out (block.flat nt rA) (block.flat nt rB) pair (block.flat nt r) =
      if r = rB then some pair.2 else if r = rA then some pair.1 else out (block.flat nt r) := by
  have sameB : block.flat nt r = block.flat nt rB ↔ r = rB :=
    ⟨fun same => (block.flat_inj ntIn ntIn rIn inB same).2, fun same => same ▸ rfl⟩
  have sameA : block.flat nt r = block.flat nt rA ↔ r = rA :=
    ⟨fun same => (block.flat_inj ntIn ntIn rIn inA same).2, fun same => same ▸ rfl⟩
  simp [pack, Function.update_apply, sameA, sameB]

def Packed (before after : Nat → Option (Tile Value)) (nt rA rB : Nat) (pair : Tile Value × Tile Value) : Prop :=
  block.Untouched nt before after ∧ ∀ r < block.numTilesInner, after (block.flat nt r) =
    if r = rB then some pair.2 else if r = rA then some pair.1 else before (block.flat nt r)

variable {block} (ntIn : nt < block.nonTargetCount)
include ntIn

theorem packed : block.Packed out (pack out (block.flat nt rA) (block.flat nt rB) pair) nt rA rB pair :=
  ⟨block.pack_untouched inA inB out pair, fun _ rIn => block.pack_flat inA inB out pair ntIn rIn⟩

omit inB in
theorem run_primeTail [LinearOrder Value] (ops : TileOps Value) (input : Nat → Tile Value) (memory : Memory Value)
    (compute : Compute) :
    ∃ next, run ops input block.shardSize memory
        [⟨compute, block.flat nt rA, block.flat nt rA, true, true, false⟩] = some next ∧
      block.Packed memory.out next.out nt rA rA
        (ops.apply compute (input (block.flat nt rA), input (block.flat nt rA))) :=
  ⟨_, run_one ops ⟨block.flat_lt ntIn inA, block.flat_lt ntIn inA⟩ rfl rfl _, packed inA inA _ _ ntIn⟩

end Pack

section Columns
variable [LinearOrder Value] (ops : TileOps Value) (input : Nat → Tile Value)
  (holds : Nat → Option (Tile Value) → Option (Tile Value) → Prop)

theorem run_columns (some_tiles : 2 ≤ block.numTilesInner)
    (column : ∀ nt < block.nonTargetCount, ∀ memory, ∃ next,
      run ops input block.shardSize memory (block.ntSteps nt) = some next ∧
        holds nt (next.out (block.flat nt 0)) (next.out (block.flat nt 1)) ∧
        block.Untouched nt memory.out next.out) :
    ∃ memory, run ops input block.shardSize ⟨none, fun _ => none⟩ block.networkSteps = some memory ∧
      ∀ nt < block.nonTargetCount, holds nt (memory.out (block.flat nt 0)) (memory.out (block.flat nt 1)) := by
  have upto : ∀ count ≤ block.nonTargetCount, ∃ memory,
      run ops input block.shardSize ⟨none, fun _ => none⟩ ((List.range' 0 count 1).flatMap block.ntSteps) =
        some memory ∧
      ∀ nt < count, holds nt (memory.out (block.flat nt 0)) (memory.out (block.flat nt 1)) := by
    intro count
    induction count with
    | zero => exact fun _ => ⟨_, rfl, fun nt none => absurd none (Nat.not_lt_zero nt)⟩
    | succ count ih =>
        intro within
        obtain ⟨memory, ran, held⟩ := ih (Nat.le_of_succ_le within)
        obtain ⟨next, stepped, establishes, untouched⟩ := column count within memory
        refine ⟨next, ?_, fun nt before => ?_⟩
        · simp [List.range'_concat, run_append, ran, stepped]
        · rcases Nat.lt_succ_iff_lt_or_eq.mp before with earlier | rfl
          · -- the new position has other addresses than the earlier ones
            have apart : ∀ r < block.numTilesInner, next.out (block.flat nt r) = memory.out (block.flat nt r) :=
              fun r rIn => untouched _ fun other otherIn same => absurd
                (block.flat_inj (by omega) within rIn otherIn same).1 (by omega)
            rw [apart 0 (by omega), apart 1 (by omega)]
            exact held nt earlier
          · exact establishes
  simpa [networkSteps, scfFor] using upto block.nonTargetCount le_rfl

end Columns

variable [LinearOrder Value]

/-- What a non-target position must find in the output: tile 0, or tiles 0 and 1, with its largest
entries in order. -/
def Answers (input : Nat → Tile Value) (out : Nat → Option (Tile Value)) (nt : Nat) : Prop :=
  ∃ first, out (block.flat nt 0) = some first ∧
    if block.useLargeK then
      ∃ second, out (block.flat nt 1) = some second ∧
        InOrder Entry.value (first.entries ++ second.entries) ∧
        Largest Entry.value (2 * tileRows) (first.contents + second.contents)
          (block.offered input nt 0 block.numTilesInner)
    else InOrder Entry.value first.entries ∧
      Largest Entry.value tileRows first.contents (block.offered input nt 0 block.numTilesInner)

/-- The network runs to its end, so every output tile was written before it was read, and every
non-target position has its answer. -/
def Correct (ops : TileOps Value) (input : Nat → Tile Value) : Prop :=
  ∃ memory, run ops input block.shardSize ⟨none, fun _ => none⟩ block.networkSteps = some memory ∧
    ∀ nt < block.nonTargetCount, block.Answers input memory.out nt

end TopkBlock

end DecomposeTopk

end TtMlir
