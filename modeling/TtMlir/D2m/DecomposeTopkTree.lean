import TtMlir.D2m.DecomposeTopk
import Mathlib.Tactic.Ring

/-!
The merge tree for `k ≤ 32`: after each level, the first tile of every group of tiles holds the
largest entries of its group, carried tiles included.
-/

namespace TtMlir

namespace DecomposeTopk

namespace TopkBlock
variable (block : TopkBlock)

theorem numTilesPow2_iff (several : 2 ≤ block.numTilesInner) :
    block.numTilesPow2 = true ↔ block.numTilesInner = 2 ^ floorLog2 block.numTilesInner := by
  have power := Nat.and_sub_one_eq_zero_iff_isPowerOfTwo (n := block.numTilesInner) (by omega)
  simp only [numTilesPow2, decide_eq_true_eq, power]
  constructor
  · rintro ⟨-, depth, exact_power⟩
    rw [floorLog2, exact_power, Nat.log2_two_pow]
  · exact fun exact_power => ⟨by omega, _, exact_power⟩

theorem logWt_spec (several : 2 ≤ block.numTilesInner) :
    1 ≤ block.logWt ∧ block.numTilesInner ≤ 2 ^ block.logWt ∧ 2 ^ (block.logWt - 1) < block.numTilesInner := by
  have below : 2 ^ floorLog2 block.numTilesInner ≤ block.numTilesInner := Nat.log2_self_le (by omega)
  have beyond : block.numTilesInner < 2 ^ (floorLog2 block.numTilesInner + 1) := Nat.lt_log2_self
  have some_depth : 1 ≤ floorLog2 block.numTilesInner := (Nat.le_log2 (by omega)).mpr (by omega)
  by_cases power : block.numTilesPow2 = true
  · have same := (block.numTilesPow2_iff several).mp power
    rw [logWt, if_pos power]
    refine ⟨some_depth, same.le, ?_⟩
    calc 2 ^ (floorLog2 block.numTilesInner - 1) < 2 ^ floorLog2 block.numTilesInner :=
          Nat.pow_lt_pow_right (by omega) (by omega)
      _ ≤ block.numTilesInner := below
  · have differs : block.numTilesInner ≠ 2 ^ floorLog2 block.numTilesInner :=
      fun same => power ((block.numTilesPow2_iff several).mpr same)
    rw [logWt, if_neg power]
    exact ⟨by omega, beyond.le, by rw [Nat.add_sub_cancel]; omega⟩

theorem logWt_eq_one (several : 2 ≤ block.numTilesInner) : block.logWt = 1 ↔ block.numTilesInner = 2 := by
  obtain ⟨least, enough, above⟩ := block.logWt_spec several
  constructor
  · intro one
    rw [one] at enough
    omega
  · intro two
    by_contra more
    have : 2 ^ 1 ≤ 2 ^ (block.logWt - 1) := Nat.pow_le_pow_right (by omega) (by omega)
    omega

theorem tailSortNeeded_iff (several : 2 ≤ block.numTilesInner) :
    block.tailSortNeeded = true ↔ block.numTilesInner % 2 = 1 := by
  simp only [tailSortNeeded, ragged, Bool.and_eq_true, Bool.not_eq_true', beq_iff_eq]
  refine ⟨And.right, fun odd => ⟨?_, odd⟩⟩
  by_contra power
  have same := (block.numTilesPow2_iff several).mp (by simpa using power)
  have some_depth : 1 ≤ floorLog2 block.numTilesInner := (Nat.le_log2 (by omega)).mpr (by omega)
  have even : 2 ∣ 2 ^ floorLog2 block.numTilesInner := dvd_pow_self 2 (by omega)
  omega

section Level
variable [LinearOrder Value] (ops : TileOps Value) (input : Nat → Tile Value)

omit [LinearOrder Value] in
theorem offered_append (nt : Nat) {lower middle upper : Nat} (first : lower ≤ middle) (second : middle ≤ upper) :
    block.offered input nt lower middle + block.offered input nt middle upper =
      block.offered input nt lower upper := by
  have split : List.range' lower (middle - lower) ++ List.range' (lower + (middle - lower)) (upper - middle) =
      List.range' lower (middle - lower + (upper - middle)) := List.range'_append_1
  rw [show lower + (middle - lower) = middle by omega, show middle - lower + (upper - middle) = upper - lower by omega]
    at split
  simp only [offered, ← split, List.map_append, List.sum_append]

def Held (readFromOutput : Bool) (memory : Memory Value) (nt size base : Nat) (ordered : Bool) : Prop :=
  ∃ tile, readTile input readFromOutput memory (block.flat nt base) = some tile ∧
    Largest Entry.value tileRows tile.contents
      (block.offered input nt base (min (base + size) block.numTilesInner)) ∧
    (ordered = true → InOrder Entry.value tile.entries)

variable {block input} {nt : Nat} (ntIn : nt < block.nonTargetCount) (memory : Memory Value)

theorem Held.kept {rfo ordered : Bool} {before after : Memory Value} {size base : Nat}
    (held : block.Held input rfo before nt size base ordered)
    (same : after.out (block.flat nt base) = before.out (block.flat nt base)) :
    block.Held input rfo after nt size base ordered := by
  obtain ⟨tile, read, rest⟩ := held
  refine ⟨tile, ?_, rest⟩
  cases rfo <;> simpa [readTile, same] using read

theorem Held.raw {ordered : Bool} {before after : Memory Value} {size base : Nat}
    (held : block.Held input false before nt size base ordered) :
    block.Held input false after nt size base ordered := held

theorem lt_trips {extent stride trip : Nat} (positive : 0 < stride) :
    trip < (extent - 0 + stride - 1) / stride ↔ trip * stride < extent := by
  rw [Nat.lt_iff_add_one_le, Nat.le_div_iff_mul_le positive, Nat.succ_mul]
  omega

variable (input)
include ntIn

theorem run_levelGroup (mIter start : Nat) {rA rB : Nat} (inA : rA < block.numTilesInner) (inB : rB < block.numTilesInner)
    {rebuilds rfo : Bool} {first second : Tile Value}
    (readA : readTile input rfo memory (block.flat nt rA) = some first)
    (readB : readTile input rfo memory (block.flat nt rB) = some second) :
    ∃ next pair, run ops input block.shardSize memory
        ([⟨.localSort 0 4 start, block.flat nt rA, block.flat nt rB, true, false, rfo⟩,
          ⟨.merge mIter 32, block.flat nt rA, block.flat nt rB, false, !rebuilds, rfo⟩] ++
          if rebuilds then
            [⟨.rebuild 0 mIter block.k 5 1, block.flat nt rA, block.flat nt rB, false, true, rfo⟩] else []) =
        some next ∧ block.Packed memory.out next.out nt rA rB pair ∧
      Largest Entry.value tileRows pair.1.contents (first.contents + second.contents) ∧
      (rebuilds = true → InOrder Entry.value pair.1.entries) := by
  have inside := And.intro (block.flat_lt ntIn inA) (block.flat_lt ntIn inB)
  obtain ⟨sortedA, sortedB⟩ := ops.sort_tiles start (first, second)
  obtain ⟨merged, above⟩ := ops.merge_pair mIter 32 (ops.apply (.localSort 0 4 start) (first, second))
  rw [sortedA, sortedB] at merged
  cases rebuilds with
  | false =>
      exact ⟨_, _, run_two ops inside readA readB _ _, packed inA inB _ _ ntIn,
        merged ▸ Largest.of_add (Tile.card_contents _) above, nofun⟩
  | true =>
      obtain ⟨firstKept, -, ordered, -⟩ := ops.rebuild_tiles mIter block.k 1
        (ops.apply (.merge mIter 32) (ops.apply (.localSort 0 4 start) (first, second)))
      refine ⟨_, _, run_three ops inside readA readB _ _ _, packed inA inB _ _ ntIn, ?_, fun _ => ordered⟩
      rw [firstKept]
      exact merged ▸ Largest.of_add (Tile.card_contents _) above

theorem run_levelPair (several : 2 ≤ block.numTilesInner) {mIter base : Nat} {isLevelZero : Bool} (isLastLevel : Bool)
    (within : base + 2 ^ mIter < block.numTilesInner)
    (heldA : block.Held input (!isLevelZero) memory nt (2 ^ mIter) base false)
    (heldB : block.Held input (!isLevelZero) memory nt (2 ^ mIter) (base + 2 ^ mIter) false)
    (paired : isLevelZero = true → base % 2 = 0 ∧ mIter = 0) :
    ∃ next, run ops input block.shardSize memory (block.levelPair nt mIter base isLevelZero isLastLevel) = some next ∧
      block.Untouched nt memory.out next.out ∧
      block.Held input true next nt (2 ^ mIter * 2) base (block.needsRebuild isLevelZero isLastLevel) ∧
      (∀ r < block.numTilesInner, r ≠ base → r ≠ base + 2 ^ mIter →
        (isLevelZero = true → block.tailSortNeeded = true → r ≠ block.numTilesInner - 1) →
        next.out (block.flat nt r) = memory.out (block.flat nt r)) ∧
      (isLevelZero = true → block.tailSortNeeded = true →
        block.Held input true next nt (2 ^ mIter * 2) (block.numTilesInner - 1) false) := by
  obtain ⟨first, readA, largestA, -⟩ := heldA
  obtain ⟨second, readB, largestB, -⟩ := heldB
  have positive : 0 < 2 ^ mIter := Nat.two_pow_pos mIter
  have inA : base < block.numTilesInner := by omega
  obtain ⟨middle, pair, ran, ⟨away, tiles⟩, largest, ordered⟩ :=
    run_levelGroup ops input ntIn memory mIter (if block.ragged then 0 else mIter) inA within readA readB
  have winner : block.Held input true middle nt (2 ^ mIter * 2) base
      (block.needsRebuild isLevelZero isLastLevel) := by
    refine ⟨pair.1, ?_, ?_, ordered⟩
    · rw [readTile, if_pos rfl, tiles base inA, if_neg (by omega), if_pos rfl]
    · have whole := block.offered_append input nt (show base ≤ base + 2 ^ mIter by omega)
        (show base + 2 ^ mIter ≤ min (base + 2 ^ mIter + 2 ^ mIter) block.numTilesInner by omega)
      rw [min_eq_left (by omega)] at largestA
      rw [show base + 2 ^ mIter * 2 = base + 2 ^ mIter + 2 ^ mIter by omega, ← whole]
      exact largestA.merge largestB largest
  by_cases tailed : (isLevelZero && block.tailSortNeeded) = true
  · obtain ⟨zero, needed⟩ := Bool.and_eq_true_iff.mp tailed
    obtain ⟨evenBase, rfl⟩ := paired zero
    have odd := (block.tailSortNeeded_iff several).mp needed
    have inTail : block.numTilesInner - 1 < block.numTilesInner := by omega
    obtain ⟨next, ranTail, awayTail, tilesTail⟩ := run_primeTail inTail ntIn ops input middle (.localSort 0 4 0)
    refine ⟨next, ?_, away.trans _ awayTail, winner.kept ?_, fun r rIn notA notB notTail => ?_, fun _ _ => ?_⟩
    · rw [levelPair, if_pos tailed, run_append]
      rw [ran, Option.bind_some, ranTail]
    · rw [tilesTail base inA, if_neg (by omega), if_neg (by omega)]
    · have notLast := notTail zero needed
      rw [tilesTail r rIn, if_neg notLast, if_neg notLast, tiles r rIn, if_neg notB, if_neg notA]
    · refine ⟨_, by rw [readTile, if_pos rfl, tilesTail _ inTail, if_pos rfl], ?_, nofun⟩
      rw [(ops.sort_tiles 0 _).2, min_eq_right (by omega)]
      have alone : block.offered input nt (block.numTilesInner - 1) block.numTilesInner =
          (input (block.flat nt (block.numTilesInner - 1))).contents := by
        simp [offered, show block.numTilesInner - (block.numTilesInner - 1) = 1 by omega]
      rw [alone]
      exact Largest.whole (Tile.card_contents _)
  · refine ⟨middle, ?_, away, winner, fun r rIn notA notB _ => ?_, fun zero needed => ?_⟩
    · rw [levelPair, if_neg tailed, List.append_nil]
      exact ran
    · rw [tiles r rIn, if_neg notB, if_neg notA]
    · exact absurd (by rw [zero, needed]; rfl) tailed

theorem run_emitLevelBody (several : 2 ≤ block.numTilesInner) {mIter : Nat} (isLevelZero isLastLevel : Bool)
    (distance : 2 ^ mIter < block.numTilesInner) (start : isLevelZero = true → mIter = 0)
    (held : ∀ base < block.numTilesInner, 2 ^ mIter ∣ base →
      block.Held input (!isLevelZero) memory nt (2 ^ mIter) base false) :
    ∃ next, run ops input block.shardSize memory (block.emitLevelBody nt mIter isLevelZero isLastLevel) = some next ∧
      block.Untouched nt memory.out next.out ∧
      (∀ base, 2 ^ mIter * 2 ∣ base → base + 2 ^ mIter < block.numTilesInner →
        block.Held input true next nt (2 ^ mIter * 2) base (block.needsRebuild isLevelZero isLastLevel)) ∧
      (∀ base < block.numTilesInner, 2 ^ mIter * 2 ∣ base → block.numTilesInner ≤ base + 2 ^ mIter →
        block.Held input true next nt (2 ^ mIter * 2) base false) := by
  have positive : 0 < 2 ^ mIter := Nat.two_pow_pos mIter
  -- the invariant after `count` pairs: the groups before are merged, those after are as they were
  have upto : ∀ count, (∀ pair < count, pair * (2 ^ mIter * 2) + 2 ^ mIter < block.numTilesInner) → ∃ next,
      run ops input block.shardSize memory ((List.range' 0 count (2 ^ mIter * 2)).flatMap fun base =>
        block.levelPair nt mIter base isLevelZero isLastLevel) = some next ∧
      block.Untouched nt memory.out next.out ∧
      (∀ pair < count, block.Held input true next nt (2 ^ mIter * 2) (pair * (2 ^ mIter * 2))
        (block.needsRebuild isLevelZero isLastLevel)) ∧
      (∀ base < block.numTilesInner, 2 ^ mIter ∣ base → count * (2 ^ mIter * 2) ≤ base →
        block.Held input (!isLevelZero) next nt (2 ^ mIter) base false) ∧
      (0 < count → isLevelZero = true → block.tailSortNeeded = true →
        block.Held input true next nt (2 ^ mIter * 2) (block.numTilesInner - 1) false) := by
    intro count
    induction count with
    | zero => exact fun _ => ⟨memory, rfl, fun _ _ => rfl, nofun, fun base inside whole _ => held base inside whole, nofun⟩
    | succ count ih =>
        intro within
        obtain ⟨middle, ran, away, merged, waiting, tail⟩ := ih fun pair before => within pair (by omega)
        have last := within count (by omega)
        have divides : 2 ^ mIter ∣ count * (2 ^ mIter * 2) := ⟨count * 2, by ring⟩
        obtain ⟨next, ranPair, awayPair, winner, others, tailPair⟩ :=
          run_levelPair ops input ntIn middle several isLastLevel last
            (waiting _ (by omega) divides le_rfl)
            (waiting _ last (Nat.dvd_add divides (Nat.dvd_refl _)) (by omega))
            (fun zero => ⟨by rw [← Nat.mul_assoc, Nat.mul_mod_left], start zero⟩)
        refine ⟨next, ?_, away.trans _ awayPair, fun pair before => ?_, fun base inside whole later => ?_,
          fun _ => tailPair⟩
        · rw [List.range'_concat, List.flatMap_append, run_append, ran, Option.bind_some, Nat.zero_add,
            Nat.mul_comm (2 ^ mIter * 2) count]
          simpa using ranPair
        · rcases Nat.lt_succ_iff_lt_or_eq.mp before with earlier | rfl
          · have apart : (pair + 1) * (2 ^ mIter * 2) ≤ count * (2 ^ mIter * 2) := Nat.mul_le_mul_right _ earlier
            have inner := within pair (by omega)
            rw [Nat.succ_mul] at apart
            exact (merged pair earlier).kept (others _ (by omega) (by omega) (by omega) fun _ _ => by omega)
          · exact winner
        · rw [Nat.succ_mul] at later
          have before := waiting base inside whole (by omega)
          cases isLevelZero with
          | true => exact before.raw
          | false => exact before.kept (others base inside (by omega) (by omega) nofun)
  have trips : ∀ pair, pair < (block.numTilesInner - 2 ^ mIter - 0 + 2 ^ mIter * 2 - 1) / (2 ^ mIter * 2) ↔
      pair * (2 ^ mIter * 2) + 2 ^ mIter < block.numTilesInner := by
    intro pair
    rw [lt_trips (by omega)]
    omega
  obtain ⟨next, ran, away, merged, waiting, tail⟩ := upto _ fun pair => (trips pair).mp
  refine ⟨next, ran, away, fun base whole paired => ?_, fun base inside whole alone => ?_⟩
  · obtain ⟨pair, rfl⟩ := exists_eq_mul_left_of_dvd whole
    exact merged pair ((trips pair).mpr paired)
  · cases isLevelZero with
    | true =>
        have zero := start rfl
        subst zero
        have last : base = block.numTilesInner - 1 := by omega
        have odd : block.numTilesInner % 2 = 1 := by omega
        exact last ▸ tail ((trips 0).mpr (by omega)) rfl ((block.tailSortNeeded_iff several).mpr odd)
    | false =>
        obtain ⟨pair, rfl⟩ := exists_eq_mul_left_of_dvd whole
        have past := not_lt.mp fun early => absurd ((trips pair).mp early) (by omega)
        obtain ⟨tile, read, largest, -⟩ := waiting (pair * (2 ^ mIter * 2)) inside ⟨pair * 2, by ring⟩
          (Nat.mul_le_mul_right _ past)
        -- the group ends with the shard, so it is no smaller than before
        rw [min_eq_right (by omega)] at largest
        exact ⟨tile, read, by rwa [min_eq_right (by omega)], nofun⟩

omit ntIn in
theorem Held.unordered {memory : Memory Value} {rfo ordered : Bool} {size base : Nat}
    (held : block.Held input rfo memory nt size base ordered) : block.Held input rfo memory nt size base false := by
  obtain ⟨tile, read, largest, -⟩ := held
  exact ⟨tile, read, largest, nofun⟩

theorem run_level (several : 2 ≤ block.numTilesInner) {mIter : Nat} (isLevelZero isLastLevel : Bool)
    (distance : 2 ^ mIter < block.numTilesInner) (start : isLevelZero = true → mIter = 0)
    (held : ∀ base < block.numTilesInner, 2 ^ mIter ∣ base →
      block.Held input (!isLevelZero) memory nt (2 ^ mIter) base false) :
    ∃ next, run ops input block.shardSize memory (block.emitLevelBody nt mIter isLevelZero isLastLevel) = some next ∧
      block.Untouched nt memory.out next.out ∧
      block.Held input true next nt (2 ^ (mIter + 1)) 0 (block.needsRebuild isLevelZero isLastLevel) ∧
      ∀ base < block.numTilesInner, 2 ^ (mIter + 1) ∣ base →
        block.Held input true next nt (2 ^ (mIter + 1)) base false := by
  obtain ⟨next, ran, away, merged, carried⟩ :=
    run_emitLevelBody ops input ntIn memory several isLevelZero isLastLevel distance start held
  refine ⟨next, ran, away, merged 0 (Nat.dvd_zero _) (by omega), fun base inside whole => ?_⟩
  by_cases paired : base + 2 ^ mIter < block.numTilesInner
  · exact (merged base whole paired).unordered
  · exact carried base inside whole (not_lt.mp paired)

theorem run_middleLevels (several : 2 ≤ block.numTilesInner) (levels : Nat)
    (within : 2 ^ levels < block.numTilesInner)
    (held : ∀ base < block.numTilesInner, 2 ^ 1 ∣ base → block.Held input true memory nt (2 ^ 1) base false) :
    ∃ next, run ops input block.shardSize memory
        ((List.range' 1 levels).flatMap fun mIter => block.emitLevelBody nt mIter false false) = some next ∧
      block.Untouched nt memory.out next.out ∧
      ∀ base < block.numTilesInner, 2 ^ (levels + 1) ∣ base →
        block.Held input true next nt (2 ^ (levels + 1)) base false := by
  induction levels with
  | zero => exact ⟨memory, rfl, fun _ _ => rfl, held⟩
  | succ levels ih =>
      have shorter : 2 ^ levels < block.numTilesInner := lt_of_le_of_lt (Nat.pow_le_pow_right (by omega) (by omega)) within
      obtain ⟨middle, ran, away, heldMiddle⟩ := ih shorter
      obtain ⟨next, ranLevel, awayLevel, -, heldNext⟩ :=
        run_level ops input ntIn middle several false false within nofun heldMiddle
      refine ⟨next, ?_, away.trans _ awayLevel, heldNext⟩
      rw [List.range'_concat, List.flatMap_append, run_append, ran, Option.bind_some, Nat.one_mul, Nat.add_comm 1]
      simpa using ranLevel

/-- After the last level tile 0 holds the largest entries, in order unless a single level leaves its
rebuild out. -/
theorem run_mergeTreeSteps (several : 2 ≤ block.numTilesInner) :
    ∃ next, run ops input block.shardSize memory (block.mergeTreeSteps nt) = some next ∧
      block.Untouched nt memory.out next.out ∧
      block.Held input true next nt (2 ^ block.logWt) 0 (block.needsRebuild (block.logWt == 1) true) := by
  obtain ⟨least, enough, above⟩ := block.logWt_spec several
  have raw : ∀ base < block.numTilesInner, 2 ^ 0 ∣ base →
      block.Held input (!true) memory nt (2 ^ 0) base false := by
    intro base inside _
    have alone : block.offered input nt base (base + 1) = (input (block.flat nt base)).contents := by
      simp [offered, show base + 1 - base = 1 by omega]
    refine ⟨_, rfl, ?_, fun ordered => absurd ordered Bool.false_ne_true⟩
    rw [pow_zero, min_eq_left (by omega), alone]
    exact Largest.whole (Tile.card_contents _)
  obtain ⟨first, ranFirst, awayFirst, answer, heldFirst⟩ :=
    run_level ops input ntIn memory several true (block.logWt == 1) several (fun _ => rfl) raw
  by_cases single : block.logWt = 1
  · refine ⟨first, ?_, awayFirst, ?_⟩
    · rw [mergeTreeSteps, if_neg (by omega), List.append_nil]
      exact ranFirst
    · simpa [single] using answer
  · obtain ⟨middle, ranMiddle, awayMiddle, heldMiddle⟩ := run_middleLevels ops input ntIn first several
      (block.logWt - 2) (lt_of_le_of_lt (Nat.pow_le_pow_right (by omega) (by omega)) above) heldFirst
    rw [show block.logWt - 2 + 1 = block.logWt - 1 by omega] at heldMiddle
    obtain ⟨next, ranLast, awayLast, answerLast, -⟩ :=
      run_level ops input ntIn middle several false true above
        (fun zero => absurd zero Bool.false_ne_true) heldMiddle
    rw [show block.logWt - 1 + 1 = block.logWt by omega] at answerLast
    refine ⟨next, ?_, (awayFirst.trans _ awayMiddle).trans _ awayLast, ?_⟩
    · have loop : scfFor 1 (block.logWt - 1) 1 = List.range' 1 (block.logWt - 2) := by
        rw [scfFor, show (block.logWt - 1 - 1 + 1 - 1) / 1 = block.logWt - 2 by omega]
      rw [mergeTreeSteps, if_pos (by omega), loop, run_append, ranFirst, Option.bind_some, run_append, ranMiddle,
        Option.bind_some, ranLast]
    · have several_levels : (block.logWt == 1) = false := by simpa using single
      rw [several_levels]
      exact answerLast

end Level

end TopkBlock

end DecomposeTopk

end TtMlir
