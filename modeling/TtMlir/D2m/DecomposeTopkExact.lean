import TtMlir.D2m.DecomposeTopkFold
import TtMlir.D2m.DecomposeTopkTree
import Mathlib.Data.List.Sort

/-!
For which blocks the top-k network finds the largest entries in order: all but two kinds, one left
unsorted by its only merge and one whose odd tail is sorted with itself as a sequence of 64.
-/

namespace TtMlir

namespace DecomposeTopk

namespace TopkBlock
variable (block : TopkBlock)

section Correct
variable [LinearOrder Value] (ops : TileOps Value) (input : Nat → Tile Value)

theorem correct_of_large (several : 2 ≤ block.numTilesInner) (large : 32 < block.k) (least : block.k ≤ 64)
    (sound : block.k = 64 → block.numTilesInner % 2 = 0) : block.Correct ops input := by
  obtain ⟨memory, ran, answers⟩ := block.run_columns ops input
    (fun nt first second => ∃ acc : Tile Value × Tile Value, first = some acc.1 ∧ second = some acc.2 ∧
      Ranked acc (block.offered input nt 0 block.numTilesInner))
    several fun nt ntIn memory => by
      obtain ⟨next, ran, ⟨first, second⟩, away⟩ := run_largeKSteps ops input ntIn memory several
      rw [ntSteps, if_pos (by simpa [useLargeK] using large)]
      exact ⟨next, ran, ⟨_, first, second, ranked_largeKTiles ops input nt several large least sound⟩, away⟩
  refine ⟨memory, ran, fun nt ntIn => ?_⟩
  obtain ⟨acc, first, second, ranked⟩ := answers nt ntIn
  refine ⟨acc.1, first, ?_⟩
  rw [if_pos (by simpa [useLargeK] using large)]
  exact ⟨acc.2, second, ranked.inOrder⟩

theorem correct_of_small (several : 2 ≤ block.numTilesInner) (small : block.k ≤ 32)
    (sound : ¬ (block.numTilesInner = 2 ∧ block.k = 32)) : block.Correct ops input := by
  have path : ¬ block.useLargeK = true := by simpa [useLargeK] using small
  have rebuilds : block.needsRebuild (block.logWt == 1) true = true := by
    have single := block.logWt_eq_one several
    simp only [needsRebuild, Bool.true_and, Bool.or_eq_true, decide_eq_true_eq, Bool.not_eq_true', beq_eq_false_iff_ne]
    omega
  obtain ⟨memory, ran, answers⟩ := block.run_columns ops input
    (fun nt first _ => ∃ tile : Tile Value, first = some tile ∧ InOrder Entry.value tile.entries ∧
      Largest Entry.value tileRows tile.contents (block.offered input nt 0 block.numTilesInner))
    several fun nt ntIn memory => by
      obtain ⟨next, ran, away, tile, read, largest, ordered⟩ := run_mergeTreeSteps ops input ntIn memory several
      rw [ntSteps, if_neg path]
      rw [Nat.zero_add, min_eq_right (block.logWt_spec several).2.1] at largest
      exact ⟨next, ran, ⟨tile, read, ordered rebuilds, largest⟩, away⟩
  refine ⟨memory, ran, fun nt ntIn => ?_⟩
  obtain ⟨tile, read, ordered, largest⟩ := answers nt ntIn
  refine ⟨tile, read, ?_⟩
  rw [if_neg path]
  exact ⟨ordered, largest⟩

end Correct

end TopkBlock

section Failure
variable [LinearOrder Value]

def highTile (low high : Value) : Tile Value :=
  ⟨⟨high, 0⟩ :: List.replicate 31 ⟨low, 0⟩, by simp [tileRows]⟩

def lowTile (low : Value) : Tile Value := ⟨List.replicate 32 ⟨low, 0⟩, by simp [tileRows]⟩

theorem high_few {low high : Value} (less : low < high) {tile other : Tile Value}
    (split : tile.contents + other.contents = (highTile low high).contents + (highTile low high).contents) :
    ¬ ∀ entry ∈ tile.contents, high ≤ entry.value := by
  intro all
  have counted := congrArg (Multiset.countP fun entry : Entry Value => high ≤ entry.value) split
  have full : tile.contents.countP (fun entry => high ≤ entry.value) = tileRows := by
    rw [Multiset.countP_eq_card.mpr all, Tile.card_contents]
  have two : (highTile low high).contents.countP (fun entry => high ≤ entry.value) = 1 := by
    simp [Tile.contents, highTile, not_le.mpr less]
  rw [Multiset.countP_add, Multiset.countP_add, full, two] at counted
  simp only [tileRows] at counted
  omega

def Lower (bound : Value) (tile : Tile Value) : Prop := ∀ entry ∈ tile.contents, entry.value < bound

variable {block : TopkBlock} (ops : TileOps Value) {bound : Value}

theorem Lower.sortMergeRebuild (large : 32 < block.k) (least : block.k ≤ 64) {first second : Tile Value}
    (firstLower : Lower bound first) (secondLower : Lower bound second) :
    Lower bound (block.sortMergeRebuild ops (first, second)).1 ∧
      Lower bound (block.sortMergeRebuild ops (first, second)).2 := by
  obtain ⟨same, -⟩ := TopkBlock.sortMergeRebuild_spec ops large least (first, second)
  have lower : ∀ entry ∈ (block.sortMergeRebuild ops (first, second)).1.contents +
      (block.sortMergeRebuild ops (first, second)).2.contents, entry.value < bound := by
    intro entry member
    rw [same] at member
    exact (Multiset.mem_add.mp member).elim (firstLower entry) (secondLower entry)
  exact ⟨fun entry member => lower entry (Multiset.mem_add.mpr (.inl member)),
    fun entry member => lower entry (Multiset.mem_add.mpr (.inr member))⟩

theorem Lower.fold (large : 32 < block.k) (least : block.k ≤ 64) {acc : Tile Value × Tile Value}
    {first second : Tile Value} (accLower : Lower bound acc.1 ∧ Lower bound acc.2)
    (firstLower : Lower bound first) (secondLower : Lower bound second) :
    Lower bound (block.foldAccumulator ops acc (first, second)).1 ∧
      Lower bound (block.foldAccumulator ops acc (first, second)).2 := by
  have right := Lower.sortMergeRebuild ops large least firstLower secondLower
  have winners := Lower.sortMergeRebuild ops large least accLower.1 right.1
  have losers := Lower.sortMergeRebuild ops large least accLower.2 right.2
  exact ⟨winners.1, (Lower.sortMergeRebuild ops large least losers.1 winners.2).1⟩

/-- If the only high entry is in an odd tail that is sorted with itself, the network loses it: the
copy packed last is the lower half. -/
theorem Lower.primedTail {low high : Value} (less : low < high) (full : block.k = 64) :
    Lower high (block.primedTail ops (highTile low high)) := by
  have runs : block.logk = 6 := by
    rcases TopkBlock.logk_eq (by omega) (by omega : block.k ≤ 64) with ⟨-, partly⟩ | ⟨runs, -⟩
    · omega
    · exact runs
  obtain ⟨same, ordered⟩ := ops.sort_pair (highTile low high, highTile low high)
  obtain ⟨-, -, above⟩ := List.pairwise_append.mp ordered
  intro entry member
  simp only [TopkBlock.primedTail, runs] at member
  by_contra reaches
  exact high_few less same fun other otherIn => le_trans (not_lt.mp reaches) (above other otherIn entry member)

def tailInput (block : TopkBlock) (low high : Value) (address : Nat) : Tile Value :=
  if address = block.flat 0 (block.numTilesInner - 1) then highTile low high else lowTile low

section
variable {low high : Value} (less : low < high) (some_nt : 0 < block.nonTargetCount)
include less some_nt

theorem lower_tailInput {r : Nat}
    (before : r < block.numTilesInner - 1) : Lower high (tailInput block low high (block.flat 0 r)) := by
  have apart : block.flat 0 r ≠ block.flat 0 (block.numTilesInner - 1) := fun same =>
    absurd (block.flat_inj some_nt some_nt (by omega) (by omega) same).2 (by omega)
  intro entry member
  rw [tailInput, if_neg apart] at member
  obtain rfl : entry = ⟨low, 0⟩ := List.eq_of_mem_replicate member
  exact less

theorem lower_afterPairs (large : 32 < block.k) (least : block.k ≤ 64) (pairs : List Nat) (several : 3 ≤ block.numTilesInner)
    (within : ∀ t ∈ pairs, t + 1 < block.numTilesInner - 1) :
    Lower high (block.afterPairs ops (tailInput block low high) 0 pairs).1 ∧
      Lower high (block.afterPairs ops (tailInput block low high) 0 pairs).2 := by
  have start := Lower.sortMergeRebuild ops large least (lower_tailInput less some_nt (by omega : 0 < _ - 1))
    (lower_tailInput less some_nt (by omega : 1 < _ - 1))
  unfold TopkBlock.afterPairs
  revert start
  generalize block.sortMergeRebuild ops _ = acc
  induction pairs generalizing acc with
  | nil => exact id
  | cons t rest ih =>
      intro accLower
      have inside := within t List.mem_cons_self
      exact ih (fun other member => within other (List.mem_cons_of_mem t member)) _
        (Lower.fold ops large least accLower (lower_tailInput less some_nt (by omega))
          (lower_tailInput less some_nt inside))

theorem not_correct_odd (several : 2 ≤ block.numTilesInner) (full : block.k = 64) (odd : block.numTilesInner % 2 = 1) :
    ¬ block.Correct ops (tailInput block low high) := by
  rintro ⟨memory, ran, answers⟩
  obtain ⟨same, sameRan, tiles⟩ := block.run_columns ops (tailInput block low high)
    (fun nt first second => first = some (block.largeKTiles ops (tailInput block low high) nt).1 ∧
      second = some (block.largeKTiles ops (tailInput block low high) nt).2)
    several fun nt ntIn memory => by
      obtain ⟨next, ran, held, away⟩ := TopkBlock.run_largeKSteps ops _ ntIn memory several
      rw [TopkBlock.ntSteps, if_pos (by simp [TopkBlock.useLargeK, full])]
      exact ⟨next, ran, held, away⟩
  obtain rfl := Option.some.inj (ran.symm.trans sameRan)
  obtain ⟨first, firstRead, rest⟩ := answers 0 some_nt
  rw [if_pos (by simp [TopkBlock.useLargeK, full])] at rest
  obtain ⟨second, secondRead, -, largest⟩ := rest
  rw [(tiles 0 some_nt).1] at firstRead
  rw [(tiles 0 some_nt).2] at secondRead
  obtain rfl := Option.some.inj firstRead
  obtain rfl := Option.some.inj secondRead
  -- the high entry is offered, but both tiles are lower
  have offered : (⟨high, 0⟩ : Entry Value) ∈
      block.offered (tailInput block low high) 0 0 (block.numTilesInner - 1 + 1) := by
    rw [TopkBlock.offered_succ]
    refine Multiset.mem_add.mpr (.inr ?_)
    rw [tailInput, if_pos rfl]
    exact List.mem_cons_self
  rw [Nat.sub_add_cancel (by omega)] at offered
  obtain ⟨kept, keptIn, reaches⟩ := largest.not_beaten (by decide) offered
  have folded := lower_afterPairs ops less some_nt (by omega : 32 < block.k) (by omega) block.foldLoop (by omega)
    fun t member => by
      have := TopkBlock.mem_foldLoop member
      unfold TopkBlock.completeUB at this
      omega
  have winners := Lower.sortMergeRebuild ops (by omega : 32 < block.k) (by omega) folded.1
    (Lower.primedTail ops less full)
  have final := Lower.sortMergeRebuild ops (by omega : 32 < block.k) (by omega) folded.2 winners.2
  have tail : tailInput block low high (block.flat 0 (block.numTilesInner - 1)) = highTile low high := by
    rw [tailInput, if_pos rfl]
  simp only [TopkBlock.largeKTiles, if_pos odd, TopkBlock.tailAccumulator, tail] at keptIn
  rcases Multiset.mem_add.mp keptIn with inFirst | inSecond
  · exact absurd (winners.1 kept inFirst) (not_lt.mpr reaches)
  · exact absurd (final.1 kept inSecond) (not_lt.mpr reaches)

end

end Failure

/-! ### Tile operations that keep their promises and no more -/

section Promised
variable [LinearOrder Value]

def downward (entries : List (Entry Value)) : List (Entry Value) :=
  entries.insertionSort fun first second => second.value ≤ first.value

theorem downward_perm (entries : List (Entry Value)) : (downward entries).Perm entries :=
  List.perm_insertionSort _ entries

theorem downward_inOrder (entries : List (Entry Value)) : InOrder Entry.value (downward entries) := by
  have : Std.Total fun first second : Entry Value => second.value ≤ first.value := ⟨fun _ _ => le_total _ _⟩
  have : IsTrans (Entry Value) fun first second => second.value ≤ first.value := ⟨fun _ _ _ ab bc => le_trans bc ab⟩
  exact List.pairwise_insertionSort _ entries

def Tile.sorted (tile : Tile Value) : Tile Value :=
  ⟨downward tile.entries, by rw [(downward_perm _).length_eq, tile.rows]⟩

theorem Tile.contents_sorted (tile : Tile Value) : tile.sorted.contents = tile.contents :=
  Multiset.coe_eq_coe.mpr (downward_perm tile.entries)

def Tile.flipped (tile : Tile Value) : Tile Value :=
  ⟨tile.entries.reverse, by rw [List.length_reverse, tile.rows]⟩

omit [LinearOrder Value] in
theorem Tile.contents_flipped (tile : Tile Value) : tile.flipped.contents = tile.contents :=
  Multiset.coe_eq_coe.mpr (List.reverse_perm _)

def sortedPair (pair : Tile Value × Tile Value) : Tile Value × Tile Value :=
  have rows : (downward (pair.1.entries ++ pair.2.entries)).length = tileRows + tileRows := by
    rw [(downward_perm _).length_eq, List.length_append, pair.1.rows, pair.2.rows]
  (⟨(downward (pair.1.entries ++ pair.2.entries)).take tileRows, by rw [List.length_take, rows]; decide⟩,
    ⟨(downward (pair.1.entries ++ pair.2.entries)).drop tileRows, by rw [List.length_drop, rows]; decide⟩)

theorem sortedPair_append (pair : Tile Value × Tile Value) :
    (sortedPair pair).1.entries ++ (sortedPair pair).2.entries = downward (pair.1.entries ++ pair.2.entries) :=
  List.take_append_drop _ _

theorem sortedPair_spec (pair : Tile Value × Tile Value) :
    (sortedPair pair).1.contents + (sortedPair pair).2.contents = pair.1.contents + pair.2.contents ∧
      InOrder Entry.value ((sortedPair pair).1.entries ++ (sortedPair pair).2.entries) := by
  refine ⟨?_, ?_⟩
  · rw [Tile.contents, Tile.contents, Multiset.coe_add, sortedPair_append]
    exact Multiset.coe_eq_coe.mpr (downward_perm _)
  · rw [sortedPair_append]
    exact downward_inOrder _

def unsortedMerge (Value : Type) [LinearOrder Value] : TileOps Value where
  apply
    | .localSort _ 4 _, pair => (pair.1.sorted, pair.2.sorted)
    | .localSort .., pair => sortedPair pair
    | .merge .., pair => ((sortedPair pair).1.flipped, (sortedPair pair).2)
    | .rebuild _ _ _ 5 _, pair => (pair.1.sorted, pair.2.sorted)
    | .rebuild .., pair => sortedPair pair
  sort_tiles _ pair := ⟨pair.1.contents_sorted, pair.2.contents_sorted⟩
  sort_ordered _ := ⟨downward_inOrder _, downward_inOrder _⟩
  sort_pair pair := sortedPair_spec pair
  merge_pair _ _ pair := by
    obtain ⟨same, ordered⟩ := sortedPair_spec pair
    obtain ⟨-, -, above⟩ := List.pairwise_append.mp ordered
    exact ⟨by rw [Tile.contents_flipped, same], by rw [Tile.contents_flipped]; exact above⟩
  rebuild_tiles _ _ _ pair :=
    ⟨pair.1.contents_sorted, pair.2.contents_sorted, downward_inOrder _, fun _ => downward_inOrder _⟩
  rebuild_pair _ _ pair := sortedPair_spec pair

theorem not_inOrder_flipped {low high : Value} (less : low < high) {tile other : Tile Value}
    (split : tile.contents + other.contents = (highTile low high).contents + (highTile low high).contents)
    (largest : Largest Entry.value tileRows tile.contents (tile.contents + other.contents))
    (ordered : InOrder Entry.value tile.entries) : ¬ InOrder Entry.value tile.flipped.entries := by
  intro flipped
  have offered : (⟨high, 0⟩ : Entry Value) ∈ tile.contents + other.contents := by
    rw [split]
    exact Multiset.mem_add.mpr (.inl List.mem_cons_self)
  obtain ⟨kept, keptIn, reaches⟩ := largest.not_beaten (by decide) offered
  have upward : tile.entries.Pairwise fun first second => first.value ≤ second.value :=
    List.pairwise_reverse.mp flipped
  -- entries of a list in both orders have one value
  have all : ∀ ⦃first⦄, first ∈ tile.entries → ∀ ⦃second⦄, second ∈ tile.entries → first.value ≤ second.value :=
    upward.forall_of_forall_of_flip (fun _ _ => le_rfl) ordered
  exact high_few less split fun entry member => le_trans reaches (all keptIn member)

theorem not_correct_pair {low high : Value} (less : low < high) {block : TopkBlock}
    (some_nt : 0 < block.nonTargetCount) (two : block.numTilesInner = 2) (k32 : block.k = 32) :
    ¬ block.Correct (unsortedMerge Value) fun _ => highTile low high := by
  rintro ⟨memory, ran, answers⟩
  have path : ¬ block.useLargeK = true := by simp [TopkBlock.useLargeK, k32]
  have single := (block.logWt_eq_one (by omega)).mpr two
  have even : block.tailSortNeeded = false := by
    by_contra needed
    have := (block.tailSortNeeded_iff (by omega)).mp (by simpa using needed)
    omega
  have sorted := sortedPair_spec ((highTile low high).sorted, (highTile low high).sorted)
  obtain ⟨same, sameRan, tiles⟩ := block.run_columns (unsortedMerge Value) (fun _ => highTile low high)
    (fun _ first _ => first = some (sortedPair ((highTile low high).sorted, (highTile low high).sorted)).1.flipped)
    (by omega) fun nt ntIn memory => by
      have in0 : 0 < block.numTilesInner := by omega
      have in1 : 1 < block.numTilesInner := by omega
      obtain ⟨away, packedTiles⟩ := TopkBlock.packed in0 in1 memory.out
        (((sortedPair ((highTile low high).sorted, (highTile low high).sorted)).1.flipped),
          (sortedPair ((highTile low high).sorted, (highTile low high).sorted)).2) ntIn
      refine ⟨⟨none, pack memory.out (block.flat nt 0) (block.flat nt 1) _⟩, ?_, ?_, away⟩
      · have loop : scfFor 0 (block.numTilesInner - 2 ^ 0) (2 ^ 0 * 2) = [0] := by simp [scfFor, two]
        have steps : block.ntSteps nt =
            [⟨.localSort 0 4 (if block.ragged then 0 else 0), block.flat nt 0, block.flat nt 1, true, false, false⟩,
              ⟨.merge 0 32, block.flat nt 0, block.flat nt 1, false, true, false⟩] := by
          rw [TopkBlock.ntSteps, if_neg path, TopkBlock.mergeTreeSteps, if_neg (by omega), List.append_nil,
            TopkBlock.emitLevelBody, loop]
          simp [TopkBlock.levelPair, TopkBlock.needsRebuild, single, k32, even]
        rw [steps]
        exact run_two (unsortedMerge Value) ⟨block.flat_lt ntIn in0, block.flat_lt ntIn in1⟩ rfl rfl _ _
      · exact (packedTiles 0 in0).trans (by rw [if_neg (by omega), if_pos rfl])
  obtain rfl := Option.some.inj (ran.symm.trans sameRan)
  obtain ⟨first, firstRead, rest⟩ := answers 0 some_nt
  rw [tiles 0 some_nt] at firstRead
  obtain rfl := Option.some.inj firstRead
  rw [if_neg path] at rest
  obtain ⟨firstOrder, -, above⟩ := List.pairwise_append.mp sorted.2
  have whole := sorted.1
  simp only [Tile.contents_sorted] at whole
  exact not_inOrder_flipped less whole (Largest.of_add (Tile.card_contents _) above) firstOrder rest.1

end Promised

namespace TopkBlock

/-- For any tile operations that keep their promises the network leaves the largest entries in order,
except for two tiles and `k = 32`, where nothing sorts what the only merge left, and for `k = 64` and
an odd number of tiles, where the sort that primes the tail also merges it with itself. -/
theorem tree_correct_iff [LinearOrder Value] [Nontrivial Value] (block : TopkBlock) (several : 2 ≤ block.numTilesInner)
    (least : block.k ≤ 64) :
    (∀ (ops : TileOps Value) (input : Nat → Tile Value), block.Correct ops input) ↔
      block.nonTargetCount = 0 ∨
        (¬ (block.numTilesInner = 2 ∧ block.k = 32) ∧ ¬ (block.k = 64 ∧ block.numTilesInner % 2 = 1)) := by
  constructor
  · intro correct
    by_cases none_nt : block.nonTargetCount = 0
    · exact .inl none_nt
    obtain ⟨low, high, less⟩ := exists_pair_lt Value
    refine .inr ⟨fun ⟨two, k32⟩ => ?_, fun ⟨full, odd⟩ => ?_⟩
    · exact not_correct_pair less (by omega) two k32 (correct _ _)
    · exact not_correct_odd (unsortedMerge Value) less (by omega) several full odd (correct _ _)
  · rintro (none_nt | ⟨unsorted, merged⟩) ops input
    · refine ⟨⟨none, fun _ => none⟩, ?_, fun nt ntIn => absurd ntIn (by omega)⟩
      simp [networkSteps, scfFor, none_nt, run]
    · by_cases large : 32 < block.k
      · exact block.correct_of_large ops input several large least fun full => by
          by_contra even
          exact merged ⟨full, by omega⟩
      · exact block.correct_of_small ops input several (by omega) unsorted

end TopkBlock

def threeTiles : TopkBlock := ⟨fun dim => if dim.val = 1 then 3 else 1, ⟨1, Nat.one_lt_two⟩, 64⟩

theorem threeTiles_iff :
    (∀ (ops : TileOps Nat) (input : Nat → Tile Nat), threeTiles.Correct ops input) ↔
      threeTiles.nonTargetCount = 0 ∨ (¬ (threeTiles.numTilesInner = 2 ∧ threeTiles.k = 32) ∧
        ¬ (threeTiles.k = 64 ∧ threeTiles.numTilesInner % 2 = 1)) :=
  TopkBlock.tree_correct_iff threeTiles (by decide) (by decide)

/-- A high entry in the last of the three tiles is lost. -/
theorem threeTiles_loses : ¬ threeTiles.Correct (unsortedMerge Nat) (tailInput threeTiles 0 1) :=
  not_correct_odd (unsortedMerge Nat) (by decide) (by decide) (by decide) rfl (by decide)

end DecomposeTopk

end TtMlir
