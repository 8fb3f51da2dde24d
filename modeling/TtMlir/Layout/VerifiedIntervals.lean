import TtMlir.Layout.MetalLayout

/-!
Which collapsed intervals `MetalLayoutAttr::verify` accepts, and for which of
them the normalized intervals partition the logical dims.
-/

namespace TtMlir.Layout

namespace MetalLayoutAttr

def verifyInterval (logicalRank : Nat) (interval : Int × Int) : Except String Unit :=
  let (start, stop) := interval
  let normalizedStart := fromEnd logicalRank start
  let normalizedEnd := fromEnd logicalRank stop
  if normalizedStart < 0 ∨ normalizedStart ≥ logicalRank then
    .error s!"collapsed_intervals start index {start} (normalized: {normalizedStart}) is out of bounds for logical_shape rank {logicalRank}"
  else if normalizedEnd < 0 ∨ normalizedEnd > logicalRank then
    .error s!"collapsed_intervals end index {stop} (normalized: {normalizedEnd}) is out of bounds for logical_shape rank {logicalRank}"
  else if normalizedStart > normalizedEnd then
    .error s!"collapsed_intervals start ({start}) must not exceed end ({stop})"
  else .ok ()

/-- The shape of the intervals attribute, pairs of numbers, is its type here. -/
def verify (layout : MetalLayoutAttr) : Except String Unit :=
  let logicalRank := layout.logicalShape.length
  let size := layout.dimAlignments.length
  if size ≠ logicalRank then
    .error s!"dim_alignments size ({size}) must match logical_shape rank ({logicalRank})"
  else
    match layout.dimAlignments.findIdx? (· ≤ 0) with
    | some i =>
        let alignment := layout.dimAlignments.getD i 0
        .error s!"dim_alignments[{i}] must be positive, got {alignment}"
    | none => forM layout.collapsedIntervals (verifyInterval logicalRank)

end MetalLayoutAttr

def resolve (rank : Nat) (interval : Int × Int) : Int × Int :=
  (fromEnd rank interval.1, fromEnd rank interval.2)

def Covers (interval : Int × Int) (dim : Int) : Prop := interval.1 ≤ dim ∧ dim < interval.2

instance (interval : Int × Int) (dim : Int) : Decidable (Covers interval dim) := inferInstanceAs (Decidable (_ ∧ _))

def InRank (rank : Nat) (interval : Int × Int) : Prop :=
  0 ≤ interval.1 ∧ interval.1 < rank ∧ interval.1 ≤ interval.2 ∧ interval.2 ≤ rank

theorem verifyInterval_iff (rank : Nat) (interval : Int × Int) :
    MetalLayoutAttr.verifyInterval rank interval = .ok () ↔ InRank rank (resolve rank interval) := by
  simp only [MetalLayoutAttr.verifyInterval, InRank, resolve]
  split
  · simp only [reduceCtorEq, false_iff]
    omega
  · split
    · simp only [reduceCtorEq, false_iff]
      omega
    · split
      · simp only [reduceCtorEq, false_iff]
        omega
      · simp only [true_iff]
        omega

theorem forM_ok_iff {α : Type} (check : α → Except String Unit) (elements : List α) :
    forM elements check = .ok () ↔ ∀ element ∈ elements, check element = .ok () := by
  induction elements with
  | nil => simp [pure, Except.pure]
  | cons element rest ih =>
      rw [List.forM_cons, List.forall_mem_cons, ← ih]
      cases check element with
      | error message =>
          simp only [reduceCtorEq, false_and, iff_false]
          exact nofun
      | ok _ =>
          simp only [true_and]
          rfl

theorem MetalLayoutAttr.verify_iff (layout : MetalLayoutAttr) :
    layout.verify = .ok () ↔ layout.dimAlignments.length = layout.logicalShape.length ∧
      (∀ alignment ∈ layout.dimAlignments, 0 < alignment) ∧
      ∀ interval ∈ layout.collapsedIntervals, InRank layout.logicalShape.length
        (resolve layout.logicalShape.length interval) := by
  simp only [MetalLayoutAttr.verify]
  split
  · rename_i other
    simp only [reduceCtorEq, false_iff, not_and]
    exact fun same => absurd same other
  · rename_i same
    split
    · rename_i found
      simp only [reduceCtorEq, false_iff, not_and]
      intro _ positive
      obtain ⟨inside, nonpos, _⟩ := List.findIdx?_eq_some_iff_getElem.mp found
      have alignment := positive _ (List.getElem_mem inside)
      have := of_decide_eq_true nonpos
      omega
    · rename_i none
      rw [forM_ok_iff]
      simp only [verifyInterval_iff]
      have positive : ∀ alignment ∈ layout.dimAlignments, 0 < alignment := by
        simpa using List.findIdx?_eq_none_iff.mp none
      constructor
      · exact fun bounds => ⟨not_not.mp same, positive, bounds⟩
      · exact fun accepted => accepted.2.2

/-- Consecutive intervals from dim 0 to the rank: the given ones, and one for every dim that none
covers. -/
structure Normalizes (rank : Nat) (given normalized : List (Int × Int)) : Prop where
  partition : PartitionFrom rank 0 normalized
  kept : ∀ interval ∈ given, resolve rank interval ∈ normalized
  ownInterval : ∀ dim : Int, 0 ≤ dim → dim < rank → (∀ interval ∈ given, ¬ Covers (resolve rank interval) dim) →
    (dim, dim + 1) ∈ normalized

/-- The given intervals do not overlap, leave out no dim below one of them, and an
empty one has no other interval at its place. -/
structure RunOn (rank : Nat) (given : List (Int × Int)) : Prop where
  disjoint : (given.map (resolve rank)).Pairwise fun a b => a.2 ≤ b.1 ∨ b.2 ≤ a.1
  noGap : ∀ interval ∈ given, ∀ dim : Int, 0 ≤ dim → dim < (resolve rank interval).1 →
    ∃ other ∈ given, Covers (resolve rank other) dim
  untied : ∀ interval ∈ given, (resolve rank interval).1 = (resolve rank interval).2 →
    ∀ other ∈ given, (resolve rank other).1 < (resolve rank other).2 →
      (resolve rank interval).1 ≠ (resolve rank other).1

instance : IsStrictWeakOrder (Int × Int) startsBefore where
  irrefl a := lt_irrefl a.1
  trans _ _ _ ab bc := lt_trans (show _ < _ from ab) (show _ < _ from bc)
  incomp_trans a b c := by
    simp only [startsBefore]
    omega

theorem sort_starts (ties : TieBreak (Int × Int)) (intervals : List (Int × Int)) :
    (ties.sort startsBefore intervals).Pairwise fun a b => a.1 ≤ b.1 :=
  (ties.arranged (Function.swap startsBefore) intervals).2.imp fun later => not_lt.mp later

theorem pairwise_of_mem {α : Type} {R : α → α → Prop} {elements : List α} (pairwise : elements.Pairwise R) {a b : α}
    (aIn : a ∈ elements) (bIn : b ∈ elements) (differs : a ≠ b) : R a b ∨ R b a := by
  have symmetric : Std.Symm fun a b => R a b ∨ R b a := ⟨fun _ _ => Or.symm⟩
  exact (pairwise.imp (S := fun a b => R a b ∨ R b a) Or.inl).forall aIn bIn differs

theorem partition_append (rank : Nat) (sorted rest : List (Int × Int)) (first : Int)
    (bounds : ∀ a ∈ sorted, first ≤ a.1 ∧ a.1 < rank ∧ a.1 ≤ a.2)
    (ordered : sorted.Pairwise fun a b => a.1 ≤ b.1)
    (disjoint : sorted.Pairwise fun a b => a.2 ≤ b.1 ∨ b.2 ≤ a.1)
    (noGap : ∀ a ∈ sorted, ∀ dim, first ≤ dim → dim < a.1 → ∃ b ∈ sorted, Covers b dim)
    (untied : ∀ a ∈ sorted, a.1 = a.2 → ∀ b ∈ sorted, b.1 < b.2 → a.1 ≠ b.1)
    (partition : PartitionFrom rank (sorted.foldl (fun covered a => max covered a.2) first) rest) :
    PartitionFrom rank first (sorted ++ rest) := by
  induction sorted generalizing first with
  | nil => exact partition
  | cons head tail ih =>
      obtain ⟨above, laterOrdered⟩ := List.pairwise_cons.mp ordered
      obtain ⟨apart, laterDisjoint⟩ := List.pairwise_cons.mp disjoint
      obtain ⟨started, inside, forward⟩ := bounds head List.mem_cons_self
      -- an uncovered first dim would lie below every start
      have starts : head.1 = first := by
        by_contra other
        obtain ⟨cover, member, low, _⟩ := noGap head List.mem_cons_self first le_rfl (by omega)
        rcases List.mem_cons.mp member with rfl | later
        · omega
        · have := above cover later
          omega
      have beyond : ∀ a ∈ tail, head.2 ≤ a.1 := by
        intro a member
        have := above a member
        have := (bounds a (List.mem_cons_of_mem _ member)).2.2
        rcases apart a member with after | before
        · exact after
        · by_contra overlap
          exact untied a (List.mem_cons_of_mem _ member) (by omega) head List.mem_cons_self (by omega) (by omega)
      have covered : max first head.2 = head.2 := by omega
      rw [List.foldl_cons, covered] at partition
      refine ⟨starts, forward, inside, ih head.2 ?_ laterOrdered laterDisjoint ?_ ?_ partition⟩
      · intro a member
        have := bounds a (List.mem_cons_of_mem _ member)
        exact ⟨beyond a member, this.2⟩
      · intro a member dim low high
        obtain ⟨cover, inSorted, covers⟩ := noGap a (List.mem_cons_of_mem _ member) dim (by omega) high
        rcases List.mem_cons.mp inSorted with rfl | later
        · exact absurd covers.2 (by omega)
        · exact ⟨cover, later, covers⟩
      · intro a member empty b inTail
        exact untied a (List.mem_cons_of_mem _ member) empty b (List.mem_cons_of_mem _ inTail)

def uncoveredFrom (covered : Int) (count : Nat) : List (Int × Int) :=
  (List.range count).map fun i : Nat => (covered + (i : Int), covered + (i : Int) + 1)

theorem uncoveredFrom_succ (covered : Int) (count : Nat) :
    uncoveredFrom covered (count + 1) = (covered, covered + 1) :: uncoveredFrom (covered + 1) count := by
  simp only [uncoveredFrom, List.range_succ_eq_map, List.map_cons, List.map_map, Nat.cast_zero, add_zero,
    List.cons.injEq, true_and]
  refine List.map_congr_left fun i _ => ?_
  simp only [Function.comp_apply, Nat.succ_eq_add_one, Nat.cast_add, Nat.cast_one, Prod.mk.injEq]
  constructor <;> ring

theorem mem_uncoveredFrom (covered : Int) (count : Nat) (interval : Int × Int) :
    interval ∈ uncoveredFrom covered count ↔
      covered ≤ interval.1 ∧ interval.1 < covered + count ∧ interval.2 = interval.1 + 1 := by
  simp only [uncoveredFrom, List.mem_map, List.mem_range]
  constructor
  · rintro ⟨i, below, rfl⟩
    refine ⟨?_, ?_, rfl⟩ <;> omega
  · rintro ⟨low, high, size⟩
    exact ⟨(interval.1 - covered).toNat, by omega, by ext <;> simp only <;> omega⟩

theorem uncoveredFrom_partition (rank : Nat) (covered : Int) (count : Nat) (ends : covered + count = rank) :
    PartitionFrom rank covered (uncoveredFrom covered count) := by
  induction count generalizing covered with
  | zero => exact (by omega : covered = rank)
  | succ count ih =>
      rw [uncoveredFrom_succ]
      exact ⟨rfl, by omega, by omega, ih (covered + 1) (by omega)⟩

theorem PartitionFrom.covers {rank : Nat} {first : Int} {intervals : List (Int × Int)}
    (partition : PartitionFrom rank first intervals) (dim : Int) (low : first ≤ dim) (high : dim < rank) :
    ∃ interval ∈ intervals, Covers interval dim := by
  induction intervals generalizing first with
  | nil =>
      have ends : first = rank := partition
      omega
  | cons interval rest ih =>
      obtain ⟨start, stop⟩ := interval
      obtain ⟨same, _, _, tail⟩ := partition
      by_cases here : dim < stop
      · exact ⟨(start, stop), List.mem_cons_self, same.trans_le low, here⟩
      · obtain ⟨interval, member, covers⟩ := ih tail (by omega)
        exact ⟨interval, List.mem_cons_of_mem _ member, covers⟩

def coveredUpTo (intervals : List (Int × Int)) : Int :=
  intervals.foldl (fun covered interval => max covered interval.2) 0

theorem le_foldl_max (intervals : List (Int × Int)) (first bound : Int) :
    intervals.foldl (fun covered interval => max covered interval.2) first ≤ bound ↔
      first ≤ bound ∧ ∀ interval ∈ intervals, interval.2 ≤ bound := by
  induction intervals generalizing first with
  | nil => simp
  | cons interval rest ih => rw [List.foldl_cons, ih, max_le_iff, List.forall_mem_cons, and_assoc]

theorem coveredUpTo_le (intervals : List (Int × Int)) (bound : Int) :
    coveredUpTo intervals ≤ bound ↔ 0 ≤ bound ∧ ∀ interval ∈ intervals, interval.2 ≤ bound :=
  le_foldl_max intervals 0 bound

section Normalize
variable (ties : TieBreak (Int × Int)) (given : List (Int × Int)) (rank : Nat)

def sortedIntervals : List (Int × Int) := ties.sort startsBefore (given.map (resolve rank))

theorem mem_sortedIntervals (interval : Int × Int) :
    interval ∈ sortedIntervals ties given rank ↔ ∃ original ∈ given, resolve rank original = interval := by
  rw [sortedIntervals, (ties.sort_perm startsBefore _).mem_iff, List.mem_map]

/-- Before the row of a rank-1 tensor is put in front. -/
def flattened : List (Int × Int) :=
  let covered := coveredUpTo (sortedIntervals ties given rank)
  sortedIntervals ties given rank ++ uncoveredFrom covered (rank - covered).toNat

theorem normalizeIntervals_eq :
    normalizeIntervals ties given rank =
      if rank = 1 ∧ (flattened ties given rank).length = 1 then (0, 0) :: flattened ties given rank
      else flattened ties given rank := rfl

theorem partition_normalizeIntervals :
    PartitionFrom rank 0 (normalizeIntervals ties given rank) ↔ PartitionFrom rank 0 (flattened ties given rank) := by
  rw [normalizeIntervals_eq]
  split
  · rename_i single
    constructor
    · exact fun partition => partition.2.2.2
    · exact fun partition => ⟨rfl, le_rfl, by omega, partition⟩
  · rfl

theorem mem_flattened (interval : Int × Int) (member : interval ∈ flattened ties given rank) :
    interval ∈ normalizeIntervals ties given rank := by
  rw [normalizeIntervals_eq]
  split
  · exact List.mem_cons_of_mem _ member
  · exact member

theorem covered_by_given (partition : PartitionFrom rank 0 (flattened ties given rank)) (dim : Int) (low : 0 ≤ dim)
    (high : dim < rank) :
    (∃ interval ∈ given, Covers (resolve rank interval) dim) ∨
      (coveredUpTo (sortedIntervals ties given rank) ≤ dim ∧ (dim, dim + 1) ∈ flattened ties given rank) := by
  obtain ⟨interval, member, covers⟩ := partition.covers dim low high
  rcases List.mem_append.mp member with inSorted | alone
  · obtain ⟨original, inGiven, rfl⟩ := (mem_sortedIntervals ties given rank interval).mp inSorted
    exact Or.inl ⟨original, inGiven, covers⟩
  · obtain ⟨beyond, _, size⟩ := (mem_uncoveredFrom _ _ interval).mp alone
    obtain ⟨start, stop⟩ := interval
    obtain ⟨startLow, stopHigh⟩ := covers
    simp only at *
    obtain rfl : start = dim := by omega
    exact Or.inr ⟨beyond, size ▸ member⟩

theorem ordered_of_partition (partition : PartitionFrom rank 0 (flattened ties given rank)) :
    (sortedIntervals ties given rank).Pairwise fun a b => a.2 ≤ b.1 :=
  partition.pairwise.sublist (List.sublist_append_left _ _)

variable (bounds : ∀ interval ∈ given, InRank rank (resolve rank interval))
include bounds

theorem sorted_bounds : ∀ a ∈ sortedIntervals ties given rank, InRank rank a := by
  intro a member
  obtain ⟨original, inGiven, rfl⟩ := (mem_sortedIntervals ties given rank a).mp member
  exact bounds original inGiven

theorem covered_le_rank : coveredUpTo (sortedIntervals ties given rank) ≤ rank :=
  (coveredUpTo_le _ _).mpr ⟨Int.natCast_nonneg rank,
    fun a member => (sorted_bounds ties given rank bounds a member).2.2.2⟩

theorem runOn_normalizes (runOn : RunOn rank given) : Normalizes rank given (normalizeIntervals ties given rank) := by
  have member := mem_sortedIntervals ties given rank
  have inRank := sorted_bounds ties given rank bounds
  have partition : PartitionFrom rank 0 (flattened ties given rank) := by
    have permuted := ties.sort_perm startsBefore (given.map (resolve rank))
    apply partition_append
    · exact fun a inSorted => ⟨(inRank a inSorted).1, (inRank a inSorted).2.1, (inRank a inSorted).2.2.1⟩
    · exact sort_starts ties _
    · exact (permuted.pairwise_iff fun apart => apart.symm).mpr runOn.disjoint
    · intro a inSorted dim low high
      obtain ⟨original, inGiven, rfl⟩ := (member a).mp inSorted
      obtain ⟨other, otherGiven, covers⟩ := runOn.noGap original inGiven dim low high
      exact ⟨_, (member _).mpr ⟨other, otherGiven, rfl⟩, covers⟩
    · intro a inSorted empty b inSorted'
      obtain ⟨original, inGiven, rfl⟩ := (member a).mp inSorted
      obtain ⟨other, otherGiven, rfl⟩ := (member b).mp inSorted'
      exact runOn.untied original inGiven empty other otherGiven
    · have within := covered_le_rank ties given rank bounds
      have ends : coveredUpTo (sortedIntervals ties given rank) +
          (rank - coveredUpTo (sortedIntervals ties given rank)).toNat = rank := by omega
      exact uncoveredFrom_partition rank _ _ ends
  constructor
  · exact (partition_normalizeIntervals ties given rank).mpr partition
  · intro interval inGiven
    apply mem_flattened
    exact List.mem_append_left _ ((member _).mpr ⟨interval, inGiven, rfl⟩)
  · intro dim low high uncovered
    rcases covered_by_given ties given rank partition dim low high with ⟨interval, inGiven, covers⟩ | ⟨_, own⟩
    · exact absurd covers (uncovered interval inGiven)
    · exact mem_flattened ties given rank _ own

theorem noGap_of_partition (partition : PartitionFrom rank 0 (flattened ties given rank)) (interval : Int × Int)
    (inGiven : interval ∈ given) (dim : Int) (low : 0 ≤ dim) (high : dim < (resolve rank interval).1) :
    ∃ other ∈ given, Covers (resolve rank other) dim := by
  obtain ⟨_, inside, ordered, _⟩ := bounds interval inGiven
  rcases covered_by_given ties given rank partition dim low (by omega) with covered | ⟨beyond, _⟩
  · exact covered
  · have inSorted := (mem_sortedIntervals ties given rank _).mpr ⟨interval, inGiven, rfl⟩
    have ends := ((coveredUpTo_le _ _).mp beyond).2 _ inSorted
    omega

end Normalize

def longerFirst (a b : Int × Int) : Prop := b.2 - b.1 ≤ a.2 - a.1

instance : DecidableRel longerFirst := fun a b => inferInstanceAs (Decidable (b.2 - b.1 ≤ a.2 - a.1))

instance : Std.Total longerFirst := ⟨fun a b => le_total (b.2 - b.1) (a.2 - a.1)⟩

instance : IsTrans (Int × Int) longerFirst := ⟨fun _ _ _ ab bc => le_trans (show _ ≤ _ from bc) (show _ ≤ _ from ab)⟩

theorem untied_of_partition (given : List (Int × Int)) (rank : Nat)
    (partition : PartitionFrom rank 0 (flattened (TieBreak.preferring longerFirst) given rank)) :
    ∀ interval ∈ given, (resolve rank interval).1 = (resolve rank interval).2 →
      ∀ other ∈ given, (resolve rank other).1 < (resolve rank other).2 →
        (resolve rank interval).1 ≠ (resolve rank other).1 := by
  intro interval inGiven empty other otherGiven nonempty same
  have inSorted := (mem_sortedIntervals (TieBreak.preferring longerFirst) given rank _).mpr ⟨interval, inGiven, rfl⟩
  have otherSorted := (mem_sortedIntervals (TieBreak.preferring longerFirst) given rank _).mpr ⟨other, otherGiven, rfl⟩
  have differs : resolve rank interval ≠ resolve rank other := by
    intro equal
    rw [equal] at empty
    omega
  have placed := (ordered_of_partition _ given rank partition).and
    (TieBreak.preferring_sort longerFirst startsBefore (given.map (resolve rank)))
  rcases pairwise_of_mem placed inSorted otherSorted differs with ⟨_, before⟩ | ⟨after, _⟩
  · have longer := before (show ¬ _ < _ by omega)
    simp only [longerFirst] at longer
    omega
  · omega

/-- The normalized intervals are a partition, however the sort breaks ties, exactly
when the given ones run on from dim 0. -/
theorem normalizes_iff (layout : MetalLayoutAttr) (verified : layout.verify = .ok ()) :
    (∀ ties, Normalizes layout.logicalShape.length layout.collapsedIntervals (layout.getNormalizedIntervals ties)) ↔
      RunOn layout.logicalShape.length layout.collapsedIntervals := by
  obtain ⟨_, _, bounds⟩ := layout.verify_iff.mp verified
  constructor
  · intro normalizes
    have partition : ∀ ties, PartitionFrom layout.logicalShape.length 0
        (flattened ties layout.collapsedIntervals layout.logicalShape.length) :=
      fun ties => (partition_normalizeIntervals ties _ _).mp (normalizes ties).partition
    constructor
    · have permuted := (TieBreak.insertion _).sort_perm startsBefore
        (layout.collapsedIntervals.map (resolve layout.logicalShape.length))
      refine (permuted.pairwise_iff fun apart => apart.symm).mp ?_
      exact (ordered_of_partition _ _ _ (partition (TieBreak.insertion _))).imp Or.inl
    · exact noGap_of_partition _ _ _ bounds (partition (TieBreak.insertion _))
    · exact untied_of_partition _ _ (partition _)
  · exact fun runOn ties => runOn_normalizes ties _ _ bounds runOn

/-- Dims 0 and 1 of four, the last two left to themselves. -/
theorem normalizes_outer_pair :
    let layout : MetalLayoutAttr := ⟨[2, 3, 4, 5], [1, 1, 32, 32], [(0, -2)]⟩
    layout.verify = .ok () ∧ ∀ ties, Normalizes 4 [(0, -2)] (layout.getNormalizedIntervals ties) := by
  intro layout
  have verified : layout.verify = .ok () := by rfl
  refine ⟨verified, (normalizes_iff layout verified).mpr ⟨List.pairwise_singleton _ _, ?_, ?_⟩⟩
  · intro interval inGiven dim low high
    obtain rfl := List.mem_singleton.mp inGiven
    exact absurd (lt_of_le_of_lt low high) (by decide)
  · intro interval inGiven empty
    obtain rfl := List.mem_singleton.mp inGiven
    exact absurd empty (by decide)

/-- Dim 0 of three is in no interval when only dim 1 is given, and the physical shape loses it. -/
theorem leading_dim_dropped :
    let layout : MetalLayoutAttr := ⟨[2, 3, 4], [1, 1, 1], [(1, 2)]⟩
    layout.verify = .ok () ∧ layout.getNormalizedIntervals (TieBreak.insertion _) = [(1, 2), (2, 3)] ∧
      layout.getPhysicalShape (TieBreak.insertion _) [] = some [3, 4] ∧
      ¬ Normalizes 3 [(1, 2)] (layout.getNormalizedIntervals (TieBreak.insertion _)) := by
  intro layout
  refine ⟨by rfl, by decide, by decide, fun normalizes => ?_⟩
  exact absurd normalizes.partition (by decide)

def boundsOf (intervals : List (Int × Int)) : List Int := intervals.flatMap fun interval => [interval.1, interval.2]

/-- The loop steps by two and doubles its counter once more to index the bounds. -/
def MetalLayoutAttr.hasNonTrivialCollapsedDims (ties : TieBreak (Int × Int)) (layout : MetalLayoutAttr)
    (deviceShape : List Int) : Bool :=
  let numDims := deviceShape.length
  let normalizedIntervals := boundsOf (layout.getNormalizedIntervals ties)
  let counters := (List.range ((normalizedIntervals.length / 2 + 1) / 2)).map (2 * ·)
  counters.any fun i =>
    let start := fromEnd numDims (normalizedIntervals.getD (i * 2) 0)
    let stop := fromEnd numDims (normalizedIntervals.getD (i * 2 + 1) 0)
    decide (stop - start > 1)

theorem boundsOf_length (intervals : List (Int × Int)) : (boundsOf intervals).length = intervals.length * 2 := by
  induction intervals with
  | nil => rfl
  | cons interval rest ih =>
      simp only [boundsOf, List.flatMap_cons, List.length_append, List.length_cons, List.length_nil] at ih ⊢
      omega

theorem boundsOf_getD (intervals : List (Int × Int)) (i : Nat) :
    (boundsOf intervals).getD (i * 2) 0 = (intervals.getD i (0, 0)).1 ∧
      (boundsOf intervals).getD (i * 2 + 1) 0 = (intervals.getD i (0, 0)).2 := by
  induction intervals generalizing i with
  | nil => exact ⟨rfl, rfl⟩
  | cons interval rest ih =>
      cases i with
      | zero => exact ⟨rfl, rfl⟩
      | succ i => rw [Nat.succ_mul]; exact ih i

def SpansAt (intervals : List (Int × Int)) (i : Nat) : Prop :=
  (intervals.getD i (0, 0)).2 - (intervals.getD i (0, 0)).1 > 1

instance (intervals : List (Int × Int)) (i : Nat) : Decidable (SpansAt intervals i) :=
  inferInstanceAs (Decidable (_ > _))

theorem spansAt_inside (intervals : List (Int × Int)) (i : Nat) (spans : SpansAt intervals i) :
    i < intervals.length := by
  by_contra outside
  rw [SpansAt, List.getD_eq_default _ _ (not_lt.mp outside)] at spans
  exact absurd spans (by decide)

theorem exists_spanning (intervals : List (Int × Int)) :
    (∃ interval ∈ intervals, interval.2 - interval.1 > 1) ↔ ∃ i, SpansAt intervals i := by
  constructor
  · rintro ⟨interval, member, wide⟩
    obtain ⟨i, inside, rfl⟩ := List.getElem_of_mem member
    exact ⟨i, by rwa [SpansAt, List.getD_eq_getElem _ _ inside]⟩
  · rintro ⟨i, wide⟩
    have inside := spansAt_inside intervals i wide
    rw [SpansAt, List.getD_eq_getElem _ _ inside] at wide
    exact ⟨_, List.getElem_mem inside, wide⟩

theorem normalized_bounds (ties : TieBreak (Int × Int)) (layout : MetalLayoutAttr) (verified : layout.verify = .ok ()) :
    ∀ interval ∈ layout.getNormalizedIntervals ties,
      0 ≤ interval.1 ∧ interval.1 ≤ interval.2 ∧ interval.2 ≤ layout.logicalShape.length := by
  obtain ⟨_, _, bounds⟩ := layout.verify_iff.mp verified
  intro interval member
  rw [MetalLayoutAttr.getNormalizedIntervals, normalizeIntervals_eq] at member
  have inFlattened : interval ∈ flattened ties layout.collapsedIntervals layout.logicalShape.length →
      0 ≤ interval.1 ∧ interval.1 ≤ interval.2 ∧ interval.2 ≤ layout.logicalShape.length := by
    intro inside
    rcases List.mem_append.mp inside with inSorted | alone
    · obtain ⟨low, _, ordered, high⟩ := sorted_bounds ties _ _ bounds interval inSorted
      exact ⟨low, ordered, high⟩
    · obtain ⟨beyond, below, size⟩ := (mem_uncoveredFrom _ _ interval).mp alone
      have := ((coveredUpTo_le _ _).mp beyond).1
      omega
  split at member
  · rcases List.mem_cons.mp member with rfl | later
    · exact ⟨le_rfl, le_rfl, Int.natCast_nonneg _⟩
    · exact inFlattened later
  · exact inFlattened member

theorem hasNonTrivialCollapsedDims_iff (ties : TieBreak (Int × Int)) (layout : MetalLayoutAttr)
    (verified : layout.verify = .ok ()) (deviceShape : List Int) :
    layout.hasNonTrivialCollapsedDims ties deviceShape = true ↔
      ∃ i, SpansAt (layout.getNormalizedIntervals ties) (2 * i) := by
  have inRank := normalized_bounds ties layout verified
  unfold MetalLayoutAttr.hasNonTrivialCollapsedDims
  generalize layout.getNormalizedIntervals ties = normalized at inRank ⊢
  have resolved (i : Nat) : fromEnd deviceShape.length (normalized.getD i (0, 0)).1 = (normalized.getD i (0, 0)).1 ∧
      fromEnd deviceShape.length (normalized.getD i (0, 0)).2 = (normalized.getD i (0, 0)).2 := by
    have bounds : 0 ≤ (normalized.getD i (0, 0)).1 ∧ 0 ≤ (normalized.getD i (0, 0)).2 := by
      by_cases inside : i < normalized.length
      · rw [List.getD_eq_getElem _ _ inside]
        obtain ⟨low, ordered, _⟩ := inRank _ (List.getElem_mem inside)
        exact ⟨low, low.trans ordered⟩
      · rw [List.getD_eq_default _ _ (not_lt.mp inside)]
        exact ⟨le_rfl, le_rfl⟩
    exact ⟨if_neg (not_lt.mpr bounds.1), if_neg (not_lt.mpr bounds.2)⟩
  simp only [List.any_map, List.any_eq_true, List.mem_range, Function.comp_apply, decide_eq_true_eq, boundsOf_length,
    (boundsOf_getD normalized _).1, (boundsOf_getD normalized _).2, (resolved _).1, (resolved _).2]
  constructor
  · rintro ⟨i, _, wide⟩
    exact ⟨i, wide⟩
  · rintro ⟨i, wide⟩
    have := spansAt_inside normalized (2 * i) wide
    exact ⟨i, by omega, wide⟩

/-- The answer is right exactly when an interval of more than one dim at an odd
position is accompanied by one at an even position. -/
theorem hasNonTrivialCollapsedDims_exact_iff (ties : TieBreak (Int × Int)) (layout : MetalLayoutAttr)
    (verified : layout.verify = .ok ()) (deviceShape : List Int) :
    (layout.hasNonTrivialCollapsedDims ties deviceShape = true ↔
        ∃ interval ∈ layout.getNormalizedIntervals ties, interval.2 - interval.1 > 1) ↔
      ((∃ i, SpansAt (layout.getNormalizedIntervals ties) (2 * i + 1)) →
        ∃ i, SpansAt (layout.getNormalizedIntervals ties) (2 * i)) := by
  rw [hasNonTrivialCollapsedDims_iff ties layout verified, exists_spanning]
  constructor
  · rintro exact ⟨i, wide⟩
    exact exact.mpr ⟨_, wide⟩
  · intro accompanied
    constructor
    · exact fun ⟨i, wide⟩ => ⟨_, wide⟩
    · rintro ⟨i, wide⟩
      rcases Nat.even_or_odd' i with ⟨half, rfl | rfl⟩
      · exact ⟨half, wide⟩
      · exact accompanied ⟨half, wide⟩

theorem outer_collapse_seen :
    let layout : MetalLayoutAttr := ⟨[2, 3, 4], [1, 32, 32], [(0, 2)]⟩
    layout.verify = .ok () ∧ (layout.hasNonTrivialCollapsedDims (TieBreak.insertion _) [1, 1, 64, 32] = true ↔
      ∃ interval ∈ layout.getNormalizedIntervals (TieBreak.insertion _), interval.2 - interval.1 > 1) := by
  intro layout
  have verified : layout.verify = .ok () := by rfl
  refine ⟨verified, (hasNonTrivialCollapsedDims_exact_iff (TieBreak.insertion _) layout verified _).mpr fun _ =>
    ⟨0, ?_⟩⟩
  decide

/-- Dims 1 and 2 collapse in the second interval, which the loop never reads. -/
theorem second_interval_skipped :
    let layout : MetalLayoutAttr := ⟨[2, 3, 4], [1, 32, 32], [(0, 1), (1, 3)]⟩
    layout.verify = .ok () ∧ layout.hasNonTrivialCollapsedDims (TieBreak.insertion _) [1, 1, 2, 96] = false ∧
      (1, 3) ∈ layout.getNormalizedIntervals (TieBreak.insertion _) ∧
      ¬ (layout.hasNonTrivialCollapsedDims (TieBreak.insertion _) [1, 1, 2, 96] = true ↔
        ∃ interval ∈ layout.getNormalizedIntervals (TieBreak.insertion _), interval.2 - interval.1 > 1) := by
  intro layout
  have unseen : layout.hasNonTrivialCollapsedDims (TieBreak.insertion _) [1, 1, 2, 96] = false := by decide
  have member : (1, 3) ∈ layout.getNormalizedIntervals (TieBreak.insertion _) := by decide
  refine ⟨by rfl, unseen, member, fun exact => ?_⟩
  rw [unseen] at exact
  exact absurd (exact.mpr ⟨_, member, by decide⟩) Bool.false_ne_true

end TtMlir.Layout
