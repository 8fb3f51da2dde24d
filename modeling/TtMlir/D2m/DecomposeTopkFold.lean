import TtMlir.D2m.DecomposeTopk

/-!
The large-k path: what the fold leaves in tiles 0 and 1 of a non-target position, as a function of
its input tiles, and that these are its largest 64 entries.
-/

namespace TtMlir

namespace DecomposeTopk

namespace TopkBlock
variable (block : TopkBlock)

section Accumulator
variable [LinearOrder Value] (ops : TileOps Value)

def sortMergeRebuild (pair : Tile Value × Tile Value) : Tile Value × Tile Value :=
  ops.apply (.rebuild 0 0 block.k block.logk 0)
    (ops.apply (.merge 0 block.k) (ops.apply (.localSort 0 (block.logk - 1) 0) pair))

def foldAccumulator (acc pair : Tile Value × Tile Value) : Tile Value × Tile Value :=
  let right := block.sortMergeRebuild ops pair
  let winners := block.sortMergeRebuild ops (acc.1, right.1)
  let losers := block.sortMergeRebuild ops (acc.2, right.2)
  (winners.1, (block.sortMergeRebuild ops (losers.1, winners.2)).1)

/-- The tail as its sort with itself leaves it: both copies are packed to it, the second last. -/
def primedTail (tail : Tile Value) : Tile Value := (ops.apply (.localSort 0 (block.logk - 1) 0) (tail, tail)).2

def tailAccumulator (acc : Tile Value × Tile Value) (tail : Tile Value) : Tile Value × Tile Value :=
  let winners := block.sortMergeRebuild ops (acc.1, block.primedTail ops tail)
  (winners.1, (block.sortMergeRebuild ops (acc.2, winners.2)).1)

def foldLoop : List Nat := if 2 < block.completeUB then scfFor 2 block.completeUB 2 else []

variable (input : Nat → Tile Value) (nt : Nat)

def afterPairs (pairs : List Nat) : Tile Value × Tile Value :=
  pairs.foldl (fun acc t =>
      block.foldAccumulator ops acc (input (block.flat nt t), input (block.flat nt (t + 1))))
    (block.sortMergeRebuild ops (input (block.flat nt 0), input (block.flat nt 1)))

def largeKTiles : Tile Value × Tile Value :=
  let folded := block.afterPairs ops input nt block.foldLoop
  if block.numTilesInner % 2 = 1 then
    block.tailAccumulator ops folded (input (block.flat nt (block.numTilesInner - 1)))
  else folded

end Accumulator

section Steps
variable [LinearOrder Value] (ops : TileOps Value) (input : Nat → Tile Value) {nt : Nat}

def Accumulated (out : Nat → Option (Tile Value)) (nt : Nat) (acc : Tile Value × Tile Value) : Prop :=
  out (block.flat nt 0) = some acc.1 ∧ out (block.flat nt 1) = some acc.2

variable {block} (ntIn : nt < block.nonTargetCount) (memory : Memory Value) {rA rB : Nat}
  (inA : rA < block.numTilesInner) (inB : rB < block.numTilesInner)
include ntIn

include inA inB in
theorem run_foldPair_input :
    ∃ next, run ops input block.shardSize memory (block.foldPair nt rA rB false) = some next ∧
      block.Packed memory.out next.out nt rA rB
        (block.sortMergeRebuild ops (input (block.flat nt rA), input (block.flat nt rB))) :=
  ⟨_, run_three ops ⟨block.flat_lt ntIn inA, block.flat_lt ntIn inB⟩ rfl rfl _ _ _, packed inA inB _ _ ntIn⟩

include inA inB in
theorem run_foldPair_output {first second : Tile Value} (readA : memory.out (block.flat nt rA) = some first)
    (readB : memory.out (block.flat nt rB) = some second) :
    ∃ next, run ops input block.shardSize memory (block.foldPair nt rA rB true) = some next ∧
      block.Packed memory.out next.out nt rA rB (block.sortMergeRebuild ops (first, second)) := by
  have readFirst : readTile input true memory (block.flat nt rA) = some first := by simpa [readTile] using readA
  have readSecond : readTile input true memory (block.flat nt rB) = some second := by simpa [readTile] using readB
  exact ⟨_, run_three ops ⟨block.flat_lt ntIn inA, block.flat_lt ntIn inB⟩ readFirst readSecond _ _ _,
    packed inA inB _ _ ntIn⟩

theorem run_foldBody {t : Nat} (right : 2 ≤ t) (within : t + 1 < block.numTilesInner)
    {acc : Tile Value × Tile Value} (holds : block.Accumulated memory.out nt acc) :
    ∃ next, run ops input block.shardSize memory (block.foldBody nt t) = some next ∧
      block.Accumulated next.out nt
        (block.foldAccumulator ops acc (input (block.flat nt t), input (block.flat nt (t + 1)))) ∧
      block.Untouched nt memory.out next.out := by
  obtain ⟨first, second⟩ := holds
  have in0 : 0 < block.numTilesInner := by omega
  have in1 : 1 < block.numTilesInner := by omega
  have inT : t < block.numTilesInner := by omega
  obtain ⟨built, ranBuild, awayBuild, tilesBuild⟩ :=
    run_foldPair_input ops input ntIn memory inT within
  obtain ⟨won, ranWon, awayWon, tilesWon⟩ := run_foldPair_output ops input ntIn built in0 inT
    (by rw [tilesBuild 0 in0, if_neg (by omega), if_neg (by omega), first])
    (by rw [tilesBuild t inT, if_neg (by omega), if_pos rfl])
  obtain ⟨lost, ranLost, awayLost, tilesLost⟩ := run_foldPair_output ops input ntIn won in1 within
    (by rw [tilesWon 1 in1, if_neg (by omega), if_neg (by omega), tilesBuild 1 in1, if_neg (by omega),
      if_neg (by omega), second])
    (by rw [tilesWon _ within, if_neg (by omega), if_neg (by omega), tilesBuild _ within, if_pos rfl])
  obtain ⟨next, ranNext, awayNext, tilesNext⟩ := run_foldPair_output ops input ntIn lost in1 inT
    (by rw [tilesLost 1 in1, if_neg (by omega), if_pos rfl])
    (by rw [tilesLost t inT, if_neg (by omega), if_neg (by omega), tilesWon t inT, if_pos rfl])
  refine ⟨next, ?_, ⟨?_, ?_⟩, ?_⟩
  · simp [foldBody, run_append, ranBuild, ranWon, ranLost, ranNext]
  · rw [tilesNext 0 in0, if_neg (by omega), if_neg (by omega), tilesLost 0 in0, if_neg (by omega),
      if_neg (by omega), tilesWon 0 in0, if_neg (by omega), if_pos rfl]
    rfl
  · rw [tilesNext 1 in1, if_neg (by omega), if_pos rfl]
    rfl
  · exact ((awayBuild.trans _ awayWon).trans _ awayLost).trans _ awayNext

theorem run_foldLoop (pairs : List Nat) (right : ∀ t ∈ pairs, 2 ≤ t ∧ t + 1 < block.numTilesInner)
    {acc : Tile Value × Tile Value} (holds : block.Accumulated memory.out nt acc) :
    ∃ next, run ops input block.shardSize memory (pairs.flatMap (block.foldBody nt)) = some next ∧
      block.Accumulated next.out nt
        (pairs.foldl (fun acc t =>
          block.foldAccumulator ops acc (input (block.flat nt t), input (block.flat nt (t + 1)))) acc) ∧
      block.Untouched nt memory.out next.out := by
  induction pairs generalizing memory acc with
  | nil => exact ⟨memory, rfl, holds, fun _ _ => rfl⟩
  | cons t rest ih =>
      obtain ⟨later, within⟩ := right t List.mem_cons_self
      obtain ⟨middle, ranBody, holdsBody, awayBody⟩ :=
        run_foldBody ops input ntIn memory later within holds
      obtain ⟨next, ranRest, holdsRest, awayRest⟩ :=
        ih middle (fun other member => right other (List.mem_cons_of_mem t member)) holdsBody
      exact ⟨next, by simp [run_append, ranBody, ranRest], holdsRest, awayBody.trans _ awayRest⟩

theorem run_tailFold (several : 2 ≤ block.numTilesInner) (odd : block.numTilesInner % 2 = 1)
    {acc : Tile Value × Tile Value} (holds : block.Accumulated memory.out nt acc) :
    ∃ next, run ops input block.shardSize memory (block.tailFold nt) = some next ∧
      block.Accumulated next.out nt
        (block.tailAccumulator ops acc (input (block.flat nt (block.numTilesInner - 1)))) ∧
      block.Untouched nt memory.out next.out := by
  obtain ⟨first, second⟩ := holds
  have in0 : 0 < block.numTilesInner := by omega
  have in1 : 1 < block.numTilesInner := by omega
  have inTail : block.numTilesInner - 1 < block.numTilesInner := by omega
  obtain ⟨primed, ranPrime, awayPrime, tilesPrime⟩ :=
    run_primeTail inTail ntIn ops input memory (.localSort 0 (block.logk - 1) 0)
  obtain ⟨won, ranWon, awayWon, tilesWon⟩ := run_foldPair_output ops input ntIn
    primed in0 inTail
    (by rw [tilesPrime 0 in0, if_neg (by omega), if_neg (by omega), first])
    (by rw [tilesPrime _ inTail, if_pos rfl])
  obtain ⟨next, ranNext, awayNext, tilesNext⟩ := run_foldPair_output ops input ntIn
    won in1 inTail
    (by rw [tilesWon 1 in1, if_neg (by omega), if_neg (by omega), tilesPrime 1 in1, if_neg (by omega),
      if_neg (by omega), second])
    (by rw [tilesWon _ inTail, if_pos rfl])
  refine ⟨next, ?_, ⟨?_, ?_⟩, (awayPrime.trans _ awayWon).trans _ awayNext⟩
  · simp only [tailFold, run_append, ranPrime, ranWon, ranNext, Option.bind_some]
  · rw [tilesNext 0 in0, if_neg (by omega), if_neg (by omega), tilesWon 0 in0, if_neg (by omega), if_pos rfl]
    rfl
  · rw [tilesNext 1 in1, if_neg (by omega), if_pos rfl]
    rfl

omit ntIn in
theorem mem_foldLoop {t : Nat} (member : t ∈ block.foldLoop) : 2 ≤ t ∧ t + 1 < block.completeUB := by
  unfold foldLoop scfFor at member
  split at member
  · obtain ⟨step, stepIn, rfl⟩ := List.mem_range'.mp member
    unfold completeUB at *
    omega
  · exact absurd member List.not_mem_nil

theorem run_largeKSteps (several : 2 ≤ block.numTilesInner) :
    ∃ next, run ops input block.shardSize memory (block.largeKSteps nt) = some next ∧
      block.Accumulated next.out nt (block.largeKTiles ops input nt) ∧
      block.Untouched nt memory.out next.out := by
  have in0 : 0 < block.numTilesInner := by omega
  have in1 : 1 < block.numTilesInner := by omega
  obtain ⟨start, ranStart, awayStart, tilesStart⟩ :=
    run_foldPair_input ops input ntIn memory in0 in1
  have holdsStart : block.Accumulated start.out nt
      (block.sortMergeRebuild ops (input (block.flat nt 0), input (block.flat nt 1))) :=
    ⟨by rw [tilesStart 0 in0, if_neg (by omega), if_pos rfl], by rw [tilesStart 1 in1, if_pos rfl]⟩
  obtain ⟨folded, ranFolded, holdsFolded, awayFolded⟩ := run_foldLoop ops input ntIn start block.foldLoop
    (fun t member => by have := mem_foldLoop member; unfold completeUB at this; omega) holdsStart
  have loop : (if 2 < block.completeUB then (scfFor 2 block.completeUB 2).flatMap (block.foldBody nt) else []) =
      block.foldLoop.flatMap (block.foldBody nt) := by
    unfold foldLoop
    split <;> rfl
  by_cases odd : block.numTilesInner % 2 = 1
  · obtain ⟨next, ranTail, holdsTail, awayTail⟩ :=
      run_tailFold ops input ntIn folded several odd holdsFolded
    refine ⟨next, ?_, ?_, (awayStart.trans _ awayFolded).trans _ awayTail⟩
    · rw [largeKSteps, loop, if_pos odd, run_append, run_append, ranStart, Option.bind_some, ranFolded,
        Option.bind_some, ranTail]
    · rw [largeKTiles, if_pos odd]
      exact holdsTail
  · refine ⟨folded, ?_, ?_, awayStart.trans _ awayFolded⟩
    · rw [largeKSteps, loop, if_neg odd, List.append_nil, run_append, ranStart, Option.bind_some, ranFolded]
    · rw [largeKTiles, if_neg odd]
      exact holdsFolded

end Steps

section Ranks
variable [LinearOrder Value] (ops : TileOps Value) {block}

theorem logk_eq (large : 32 < block.k) (least : block.k ≤ 64) :
    (block.logk = 5 ∧ block.k < 64) ∨ (block.logk = 6 ∧ block.k = 64) := by
  by_cases full : block.k = 64
  · refine .inr ⟨?_, full⟩
    simp [logk, floorLog2, full]
    decide
  · refine .inl ⟨?_, by omega⟩
    exact (Nat.log2_eq_iff (by omega)).mpr (by omega)

theorem sortMergeRebuild_spec (large : 32 < block.k) (least : block.k ≤ 64) (pair : Tile Value × Tile Value) :
    (block.sortMergeRebuild ops pair).1.contents + (block.sortMergeRebuild ops pair).2.contents =
        pair.1.contents + pair.2.contents ∧
      Above Entry.value (block.sortMergeRebuild ops pair).1.contents (block.sortMergeRebuild ops pair).2.contents ∧
      InOrder Entry.value (block.sortMergeRebuild ops pair).1.entries ∧
      InOrder Entry.value (block.sortMergeRebuild ops pair).2.entries := by
  rcases block.logk_eq large least with ⟨runs, -⟩ | ⟨runs, -⟩
  · have sorted := ops.sort_tiles 0 pair
    have merged := ops.merge_pair 0 block.k (ops.apply (.localSort 0 4 0) pair)
    obtain ⟨first, second, firstOrder, secondOrder⟩ := ops.rebuild_tiles 0 block.k 0
      (ops.apply (.merge 0 block.k) (ops.apply (.localSort 0 4 0) pair))
    simp only [sortMergeRebuild, runs]
    refine ⟨?_, ?_, firstOrder, secondOrder rfl⟩
    · rw [first, second, merged.1, sorted.1, sorted.2]
    · rw [first, second]
      exact merged.2
  · have sorted := ops.sort_pair pair
    have merged := ops.merge_pair 0 block.k (ops.apply (.localSort 0 5 0) pair)
    obtain ⟨same, order⟩ := ops.rebuild_pair 0 block.k
      (ops.apply (.merge 0 block.k) (ops.apply (.localSort 0 5 0) pair))
    obtain ⟨firstOrder, secondOrder, above⟩ := List.pairwise_append.mp order
    simp only [sortMergeRebuild, runs]
    exact ⟨by rw [same, merged.1, sorted.1], above, firstOrder, secondOrder⟩

theorem largest_first (large : 32 < block.k) (least : block.k ≤ 64) (pair : Tile Value × Tile Value) :
    Largest Entry.value tileRows (block.sortMergeRebuild ops pair).1.contents
      (pair.1.contents + pair.2.contents) := by
  obtain ⟨same, above, -, -⟩ := sortMergeRebuild_spec ops large least pair
  exact same ▸ Largest.of_add (Tile.card_contents _) above

/-- The first tile holds the largest entries of all, the second the largest of the others. -/
structure Ranked (acc : Tile Value × Tile Value) (all : Multiset (Entry Value)) : Prop where
  firstOrder : InOrder Entry.value acc.1.entries
  secondOrder : InOrder Entry.value acc.2.entries
  largest : ∃ others, all = acc.1.contents + others ∧ Above Entry.value acc.1.contents others ∧
    Largest Entry.value tileRows acc.2.contents others

theorem above_none (front : Multiset (Entry Value)) : Above Entry.value front 0 :=
  fun _ _ _ none => absurd none (Multiset.notMem_zero _)

/-- Folding in a tile whose largest entries are known: the losers meet the entries that were already
behind them. -/
theorem Ranked.winners (large : 32 < block.k) (least : block.k ≤ 64) {acc : Tile Value × Tile Value}
    {others all : Multiset (Entry Value)} (above : Above Entry.value acc.1.contents others) (best : Tile Value)
    {behind : Multiset (Entry Value)} (bestAbove : Above Entry.value best.contents behind)
    (whole : all = (acc.1.contents + others) + (best.contents + behind)) :
    let winners := block.sortMergeRebuild ops (acc.1, best)
    all = winners.1.contents + (winners.2.contents + (others + behind)) ∧
      Above Entry.value winners.1.contents (winners.2.contents + (others + behind)) := by
  intro winners
  obtain ⟨same, -, -, -⟩ := sortMergeRebuild_spec ops large least (acc.1, best)
  have split : all = winners.1.contents + (winners.2.contents + (others + behind)) := by
    calc all = (acc.1.contents + best.contents) + (others + behind) := by rw [whole]; abel
      _ = (winners.1.contents + winners.2.contents) + (others + behind) := by rw [← same]
      _ = winners.1.contents + (winners.2.contents + (others + behind)) := add_assoc _ _ _
  have largest : Largest Entry.value tileRows winners.1.contents all :=
    whole ▸ (Largest.of_add (Tile.card_contents _) above).merge
      (Largest.of_add (Tile.card_contents _) bestAbove) (largest_first ops large least _)
  exact ⟨split, Largest.above_rest (split ▸ largest)⟩

theorem Ranked.fold (large : 32 < block.k) (least : block.k ≤ 64) {acc : Tile Value × Tile Value}
    {all : Multiset (Entry Value)} (ranked : Ranked acc all) (pair : Tile Value × Tile Value) :
    Ranked (block.foldAccumulator ops acc pair) (all + (pair.1.contents + pair.2.contents)) := by
  obtain ⟨-, -, others, rfl, above, second⟩ := ranked
  obtain ⟨rightSame, rightAbove, -, -⟩ := sortMergeRebuild_spec ops large least pair
  obtain ⟨split, winnersAbove⟩ := Ranked.winners ops large least above _ rightAbove rfl
  rw [rightSame] at split
  have losers := second.merge (Largest.whole (Tile.card_contents _))
    (largest_first ops large least (acc.2, (block.sortMergeRebuild ops pair).2))
  have final := losers.merge (Largest.whole (Tile.card_contents _))
    (largest_first ops large least
      ((block.sortMergeRebuild ops (acc.2, (block.sortMergeRebuild ops pair).2)).1,
        (block.sortMergeRebuild ops (acc.1, (block.sortMergeRebuild ops pair).1)).2))
  rw [add_comm] at final
  exact ⟨(sortMergeRebuild_spec ops large least _).2.2.1, (sortMergeRebuild_spec ops large least _).2.2.1, _, split,
    winnersAbove, final⟩

theorem Ranked.tail (large : 32 < block.k) (partly : block.k < 64) {acc : Tile Value × Tile Value}
    {all : Multiset (Entry Value)} (ranked : Ranked acc all) (tail : Tile Value) :
    Ranked (block.tailAccumulator ops acc tail) (all + tail.contents) := by
  obtain ⟨-, -, others, rfl, above, second⟩ := ranked
  have least : block.k ≤ 64 := by omega
  have kept : (block.primedTail ops tail).contents = tail.contents := by
    rcases block.logk_eq large least with ⟨runs, -⟩ | ⟨-, full⟩
    · simp only [primedTail, runs]
      exact (ops.sort_tiles 0 (tail, tail)).2
    · omega
  obtain ⟨split, winnersAbove⟩ := Ranked.winners ops large least above (block.primedTail ops tail)
    (above_none _) rfl
  rw [add_zero, add_zero, kept] at split
  rw [add_zero] at winnersAbove
  have final := second.merge (Largest.whole (Tile.card_contents _))
    (largest_first ops large least
      (acc.2, (block.sortMergeRebuild ops (acc.1, block.primedTail ops tail)).2))
  rw [add_comm] at final
  exact ⟨(sortMergeRebuild_spec ops large least _).2.2.1, (sortMergeRebuild_spec ops large least _).2.2.1, _, split,
    winnersAbove, final⟩

variable (input : Nat → Tile Value) (nt : Nat)

theorem ranked_pairs (large : 32 < block.k) (least : block.k ≤ 64) (count : Nat) :
    Ranked (block.afterPairs ops input nt (List.range' 2 count 2)) (block.offered input nt 0 (2 + 2 * count)) := by
  induction count with
  | zero =>
      obtain ⟨same, above, firstOrder, secondOrder⟩ := sortMergeRebuild_spec ops large least
        (input (block.flat nt 0), input (block.flat nt 1))
      refine ⟨firstOrder, secondOrder, _, ?_, above, Largest.whole (Tile.card_contents _)⟩
      refine Eq.trans ?_ same.symm
      simp [offered, List.range'_succ]
  | succ count ih =>
      have folded := ih.fold ops large least
        (input (block.flat nt (2 + 2 * count)), input (block.flat nt (2 + 2 * count + 1)))
      rw [show 2 + 2 * (count + 1) = 2 + 2 * count + 1 + 1 by omega, offered_succ, offered_succ, add_assoc]
      rw [afterPairs, List.range'_concat, List.foldl_append]
      exact folded

theorem foldLoop_eq (several : 2 ≤ block.numTilesInner) :
    block.foldLoop = List.range' 2 (block.numTilesInner / 2 - 1) 2 ∧
      2 + 2 * (block.numTilesInner / 2 - 1) = block.completeUB := by
  unfold foldLoop scfFor completeUB
  split
  · rw [show (block.numTilesInner - block.numTilesInner % 2 - 2 + 2 - 1) / 2 = block.numTilesInner / 2 - 1 by omega]
    exact ⟨rfl, by omega⟩
  · rw [show block.numTilesInner / 2 - 1 = 0 by omega]
    exact ⟨rfl, by omega⟩

/-- Unless a tail is sorted with itself as one sequence of 64, the two tiles are the answer. -/
theorem ranked_largeKTiles (several : 2 ≤ block.numTilesInner) (large : 32 < block.k) (least : block.k ≤ 64)
    (sound : block.k = 64 → block.numTilesInner % 2 = 0) :
    Ranked (block.largeKTiles ops input nt) (block.offered input nt 0 block.numTilesInner) := by
  obtain ⟨loop, bound⟩ := block.foldLoop_eq several
  have folded := ranked_pairs ops input nt large least (block.numTilesInner / 2 - 1)
  rw [← loop, bound] at folded
  unfold largeKTiles
  split
  next odd =>
    have partly : block.k < 64 := by
      by_contra full
      have := sound (by omega)
      omega
    have tailed := folded.tail ops large partly (input (block.flat nt (block.numTilesInner - 1)))
    rw [show block.completeUB = block.numTilesInner - 1 by unfold completeUB; omega, ← offered_succ,
      Nat.sub_add_cancel (by omega)] at tailed
    exact tailed
  next even =>
    rwa [show block.completeUB = block.numTilesInner by unfold completeUB; omega] at folded

theorem Ranked.inOrder {acc : Tile Value × Tile Value} {all : Multiset (Entry Value)} (ranked : Ranked acc all) :
    InOrder Entry.value (acc.1.entries ++ acc.2.entries) ∧
      Largest Entry.value (2 * tileRows) (acc.1.contents + acc.2.contents) all := by
  obtain ⟨firstOrder, secondOrder, others, rfl, above, second⟩ := ranked
  refine ⟨firstOrder.append secondOrder fun first firstIn later laterIn => ?_, ?_⟩
  · obtain ⟨-, rest, rfl, -⟩ := second
    exact above first firstIn later (Multiset.mem_add.mpr (.inl laterIn))
  · rw [two_mul]
    exact Largest.next (Tile.card_contents _) above second

end Ranks

end TopkBlock

end DecomposeTopk

end TtMlir
