import Mathlib.Data.Int.Interval
import Mathlib.Tactic.Ring

/-!
`minimizeGap`: the smallest distance of a sum of multiples to the next multiple of a
target, found by keeping the set of remainders that the sums so far can have.
-/

namespace TtMlir.Dma

structure VisitOrder where
  order : List Int → List Int
  perm : ∀ set, (order set).Perm set

section Loops
variable (targetSum : Int)

/-- `value % targetSum` is the truncated remainder. -/
def floorMod (value : Int) : Int := (value.tmod targetSum + targetSum).tmod targetSum

/-- The loop over the counts, left when all remainders are there. -/
def insertMultiples (remainder multiplierMod : Int) : List Nat → List Int → List Int
  | [], newRemainders => newRemainders
  | n :: rest, newRemainders =>
      let newRemainders := newRemainders.insert ((remainder + multiplierMod * n).tmod targetSum)
      if (newRemainders.length : Int) = targetSum then newRemainders
      else insertMultiples remainder multiplierMod rest newRemainders

def nextRemainders (multiplierMod : Int) (counts : List Nat) : List Int → List Int → List Int
  | [], newRemainders => newRemainders
  | remainder :: rest, newRemainders =>
      let newRemainders := insertMultiples targetSum remainder multiplierMod counts newRemainders
      if (newRemainders.length : Int) = targetSum then newRemainders
      else nextRemainders multiplierMod counts rest newRemainders

def smallestGap : List Int → Int → Int
  | [], bestGap => bestGap
  | remainder :: rest, bestGap =>
      let gap := if remainder = 0 then targetSum else targetSum - remainder
      let bestGap := if gap < bestGap then gap else bestGap
      if bestGap = 1 then bestGap else smallestGap rest bestGap

def gapLoop (visit : VisitOrder) : List (Int × Int) → List Int → Int
  | [], possibleRemainders => smallestGap targetSum (visit.order possibleRemainders) targetSum
  | (multiplier, bound) :: rest, possibleRemainders =>
      let newRemainders := nextRemainders targetSum (floorMod targetSum multiplier)
        (List.range (bound + 1).toNat) (visit.order possibleRemainders) []
      if (newRemainders.length : Int) = targetSum then 1 else gapLoop visit rest newRemainders

/-- `none` is a failed assertion. -/
def minimizeGap (visit : VisitOrder) (multipliers bounds : List Int) (constOffset : Int) : Option Int :=
  if multipliers.length = bounds.length then
    some (gapLoop targetSum visit (multipliers.zip bounds) [floorMod targetSum constOffset])
  else none

end Loops

def Allowed (bounds counts : List Int) : Prop := List.Forall₂ (fun count bound => 0 ≤ count ∧ count ≤ bound) counts bounds

def gaps (targetSum : Int) (multipliers bounds : List Int) (constOffset : Int) : Set Int :=
  { gap | ∃ counts, Allowed bounds counts ∧
    gap = targetSum - ((List.zipWith (· * ·) multipliers counts).sum + constOffset) % targetSum }

section Remainders
variable {targetSum : Int} (positive : 0 < targetSum)
include positive

theorem floorMod_eq (value : Int) : floorMod targetSum value = value % targetSum := by
  have low := Int.lt_tmod_of_pos value positive
  have congruent : (value.tmod targetSum + targetSum) % targetSum = value % targetSum := by
    rw [Int.add_emod_right, Int.tmod_def, Int.sub_emod, Int.mul_emod_right, Int.sub_zero, Int.emod_emod]
  rw [floorMod, Int.tmod_eq_emod_of_nonneg (by omega), congruent]

/-- A set of remainders. -/
structure Remainders (targetSum : Int) (set : List Int) : Prop where
  nodup : set.Nodup
  range : ∀ remainder ∈ set, 0 ≤ remainder ∧ remainder < targetSum

theorem Remainders.mem_of_full {set : List Int} (remainders : Remainders targetSum set)
    (full : (set.length : Int) = targetSum) {remainder : Int} (low : 0 ≤ remainder) (high : remainder < targetSum) :
    remainder ∈ set := by
  have inside : set.toFinset ⊆ Finset.Ico 0 targetSum := fun other member =>
    Finset.mem_Ico.mpr (remainders.range other (List.mem_toFinset.mp member))
  have count : (Finset.Ico 0 targetSum).card ≤ set.toFinset.card := by
    rw [Int.card_Ico, List.toFinset_card_of_nodup remainders.nodup]
    omega
  have all := Finset.eq_of_subset_of_card_le inside count
  exact List.mem_toFinset.mp (all ▸ Finset.mem_Ico.mpr ⟨low, high⟩)

/-- A loop that adds remainders has added all it was to add, also when it was left early. -/
structure Adds (targetSum : Int) (given : List Int) (added : Int → Prop) (result : List Int) : Prop where
  remainders : Remainders targetSum result
  mem : ∀ remainder, remainder ∈ result ↔ remainder ∈ given ∨ added remainder

theorem Remainders.insert {set : List Int} (remainders : Remainders targetSum set) (value : Int) :
    Remainders targetSum (set.insert (value % targetSum)) where
  nodup := remainders.nodup.insert
  range := by
    intro remainder member
    rcases List.mem_insert_iff.mp member with rfl | old
    · exact ⟨Int.emod_nonneg _ positive.ne', Int.emod_lt_of_pos _ positive⟩
    · exact remainders.range remainder old

theorem Remainders.adds_full {given set : List Int} {added : Int → Prop} (remainders : Remainders targetSum set)
    (full : (set.length : Int) = targetSum) (inGiven : Remainders targetSum given)
    (inside : ∀ remainder, added remainder → 0 ≤ remainder ∧ remainder < targetSum)
    (sources : ∀ remainder ∈ set, remainder ∈ given ∨ added remainder) : Adds targetSum given added set where
  remainders := remainders
  mem := by
    refine fun remainder => ⟨sources remainder, fun source => ?_⟩
    have range := source.elim (inGiven.range remainder) (inside remainder)
    exact remainders.mem_of_full positive full range.1 range.2

theorem insertMultiples_adds {remainder multiplierMod : Int} (start : 0 ≤ remainder) (step : 0 ≤ multiplierMod)
    (counts : List Nat) {given : List Int} (remainders : Remainders targetSum given) :
    Adds targetSum given (fun other => ∃ n ∈ counts, other = (remainder + multiplierMod * n) % targetSum)
      (insertMultiples targetSum remainder multiplierMod counts given) := by
  induction counts generalizing given with
  | nil => exact ⟨remainders, fun other => by simp [insertMultiples]⟩
  | cons n rest ih =>
      have reached : (remainder + multiplierMod * n).tmod targetSum = (remainder + multiplierMod * n) % targetSum :=
        Int.tmod_eq_emod_of_nonneg (Int.add_nonneg start (Int.mul_nonneg step (Int.natCast_nonneg n)))
      have grown := remainders.insert positive (remainder + multiplierMod * n)
      simp only [insertMultiples, reached]
      split
      · rename_i full
        refine grown.adds_full positive full remainders ?_ fun other member => ?_
        · rintro _ ⟨m, -, rfl⟩
          exact ⟨Int.emod_nonneg _ positive.ne', Int.emod_lt_of_pos _ positive⟩
        · rcases List.mem_insert_iff.mp member with new | old
          · exact .inr ⟨n, List.mem_cons_self, new⟩
          · exact .inl old
      · have later := ih grown
        refine ⟨later.remainders, fun other => (later.mem other).trans ?_⟩
        simp only [List.mem_insert_iff, List.exists_mem_cons_iff]
        tauto

theorem nextRemainders_adds {multiplierMod : Int} (step : 0 ≤ multiplierMod) (counts : List Nat)
    (visited : List Int) (starts : ∀ remainder ∈ visited, 0 ≤ remainder) {given : List Int}
    (remainders : Remainders targetSum given) :
    Adds targetSum given
      (fun other => ∃ remainder ∈ visited, ∃ n ∈ counts, other = (remainder + multiplierMod * n) % targetSum)
      (nextRemainders targetSum multiplierMod counts visited given) := by
  induction visited generalizing given with
  | nil => exact ⟨remainders, fun other => by simp [nextRemainders]⟩
  | cons remainder rest ih =>
      obtain ⟨start, later⟩ := List.forall_mem_cons.mp starts
      have here := insertMultiples_adds positive start step counts remainders
      simp only [nextRemainders]
      split
      · rename_i full
        refine here.remainders.adds_full positive full remainders ?_ fun other member => ?_
        · rintro _ ⟨_, -, m, -, rfl⟩
          exact ⟨Int.emod_nonneg _ positive.ne', Int.emod_lt_of_pos _ positive⟩
        · exact ((here.mem other).mp member).imp_right fun new => ⟨remainder, List.mem_cons_self, new⟩
      · have rounds := ih later here.remainders
        refine ⟨rounds.remainders, fun other => (rounds.mem other).trans ?_⟩
        rw [here.mem, List.exists_mem_cons_iff, or_assoc]

omit positive in
theorem smallestGap_spec (visited : List Int) (range : ∀ remainder ∈ visited, 0 ≤ remainder ∧ remainder < targetSum)
    {bestGap : Int} (least : 1 ≤ bestGap) :
    smallestGap targetSum visited bestGap ≤ bestGap ∧
      (∀ remainder ∈ visited, smallestGap targetSum visited bestGap ≤ targetSum - remainder) ∧
      (smallestGap targetSum visited bestGap = bestGap ∨
        ∃ remainder ∈ visited, smallestGap targetSum visited bestGap = targetSum - remainder) := by
  induction visited generalizing bestGap with
  | nil => exact ⟨le_refl _, fun _ member => absurd member List.not_mem_nil, .inl rfl⟩
  | cons remainder rest ih =>
      obtain ⟨here, later⟩ := List.forall_mem_cons.mp range
      have gap : (if remainder = 0 then targetSum else targetSum - remainder) = targetSum - remainder := by
        split <;> omega
      simp only [smallestGap, gap]
      generalize isBest : (if targetSum - remainder < bestGap then targetSum - remainder else bestGap) = best
      have bounds : best ≤ bestGap ∧ best ≤ targetSum - remainder ∧ 1 ≤ best ∧
          (best = bestGap ∨ best = targetSum - remainder) := by
        split at isBest <;> omega
      split
      · rename_i one
        refine ⟨bounds.1, List.forall_mem_cons.mpr ⟨bounds.2.1, fun other member => ?_⟩, ?_⟩
        · have := later other member
          omega
        · exact bounds.2.2.2.imp_right fun same => ⟨remainder, List.mem_cons_self, same⟩
      · obtain ⟨below, all, source⟩ := ih later bounds.2.2.1
        refine ⟨below.trans bounds.1, List.forall_mem_cons.mpr ⟨below.trans bounds.2.1, all⟩, ?_⟩
        rcases source with same | ⟨other, member, same⟩
        · exact bounds.2.2.2.imp same.trans fun isGap => ⟨remainder, List.mem_cons_self, same.trans isGap⟩
        · exact .inr ⟨other, List.mem_cons_of_mem _ member, same⟩

def gapsFrom (targetSum : Int) (multipliers bounds possible : List Int) : Set Int :=
  { gap | ∃ remainder ∈ possible, ∃ counts, Allowed bounds counts ∧
    gap = targetSum - ((List.zipWith (· * ·) multipliers counts).sum + remainder) % targetSum }

omit positive in
theorem gapsFrom_cons {multiplier bound : Int} {multipliers bounds possible next : List Int}
    (reached : ∀ remainder, remainder ∈ next ↔ ∃ start ∈ possible, ∃ n ∈ List.range (bound + 1).toNat,
      remainder = (start + multiplier % targetSum * (n : Nat)) % targetSum) :
    gapsFrom targetSum (multiplier :: multipliers) (bound :: bounds) possible =
      gapsFrom targetSum multipliers bounds next := by
  have moved (start count sum : Int) : (multiplier * count + sum + start) % targetSum =
      (sum + (start + multiplier % targetSum * count) % targetSum) % targetSum := by
    have apart : multiplier * count + sum + start =
        sum + (start + (multiplier - targetSum * (multiplier / targetSum)) * count) +
          targetSum * (multiplier / targetSum * count) := by ring
    rw [apart, Int.add_mul_emod_self_left, ← Int.emod_def, Int.add_emod_emod]
  ext gap
  constructor
  · rintro ⟨start, member, _, allowed, rfl⟩
    cases allowed with
    | @cons count _ counts _ here later =>
        have counted : (count.toNat : Int) = count := Int.toNat_of_nonneg here.1
        have below : count.toNat ∈ List.range (bound + 1).toNat := List.mem_range.mpr (by omega)
        refine ⟨_, (reached _).mpr ⟨start, member, count.toNat, below, rfl⟩, counts, later, ?_⟩
        rw [List.zipWith_cons_cons, List.sum_cons, moved, counted]
  · rintro ⟨_, member, counts, allowed, rfl⟩
    obtain ⟨start, known, n, below, rfl⟩ := (reached _).mp member
    have fits : (n : Int) ≤ bound := by
      have := List.mem_range.mp below
      omega
    refine ⟨start, known, n :: counts, .cons ⟨Int.natCast_nonneg n, fits⟩ allowed, ?_⟩
    rw [List.zipWith_cons_cons, List.sum_cons, moved]

theorem gapLoop_least (visit : VisitOrder) {multipliers bounds : List Int}
    (sameLength : multipliers.length = bounds.length) (nonneg : ∀ bound ∈ bounds, 0 ≤ bound) {possible : List Int}
    (remainders : Remainders targetSum possible) (some : possible ≠ []) :
    IsLeast (gapsFrom targetSum multipliers bounds possible)
      (gapLoop targetSum visit (multipliers.zip bounds) possible) := by
  induction bounds generalizing multipliers possible with
  | nil =>
      cases List.length_eq_zero_iff.mp sameLength
      have same {remainder : Int} (member : remainder ∈ possible) : remainder % targetSum = remainder :=
        Int.emod_eq_of_lt (remainders.range remainder member).1 (remainders.range remainder member).2
      have visited {remainder : Int} : remainder ∈ visit.order possible ↔ remainder ∈ possible :=
        (visit.perm possible).mem_iff
      obtain ⟨below, all, source⟩ := smallestGap_spec (visit.order possible)
        (fun remainder member => remainders.range remainder (visited.mp member)) positive
      constructor
      · obtain ⟨remainder, member, isGap⟩ : ∃ remainder ∈ possible,
            smallestGap targetSum (visit.order possible) targetSum = targetSum - remainder := by
          rcases source with whole | ⟨remainder, member, isGap⟩
          · obtain ⟨remainder, member⟩ := List.exists_mem_of_ne_nil _ some
            have atMost := all remainder (visited.mpr member)
            have low := (remainders.range remainder member).1
            exact ⟨remainder, member, by omega⟩
          · exact ⟨remainder, visited.mp member, isGap⟩
        refine ⟨remainder, member, [], .nil, ?_⟩
        rw [List.zipWith_nil_left, List.sum_nil, Int.zero_add, same member]
        exact isGap
      · rintro _ ⟨remainder, member, counts, -, rfl⟩
        rw [List.zipWith_nil_left, List.sum_nil, Int.zero_add, same member]
        exact all remainder (visited.mpr member)
  | cons bound bounds ih =>
      obtain ⟨multiplier, multipliers, rfl⟩ := List.exists_cons_of_length_eq_add_one sameLength
      obtain ⟨boundNonneg, later⟩ := List.forall_mem_cons.mp nonneg
      have round := nextRemainders_adds positive (Int.emod_nonneg multiplier positive.ne')
        (List.range (bound + 1).toNat) (visit.order possible)
        (fun remainder member => (remainders.range remainder ((visit.perm possible).mem_iff.mp member)).1)
        (⟨List.nodup_nil, fun _ member => absurd member List.not_mem_nil⟩ : Remainders targetSum [])
      rw [List.zip_cons_cons, gapLoop, floorMod_eq positive]
      generalize nextRemainders targetSum (multiplier % targetSum) (List.range (bound + 1).toNat)
        (visit.order possible) [] = next at round
      have reached (remainder : Int) : remainder ∈ next ↔ ∃ start ∈ possible, ∃ n ∈ List.range (bound + 1).toNat,
          remainder = (start + multiplier % targetSum * (n : Nat)) % targetSum := by
        simpa only [List.not_mem_nil, false_or, (visit.perm possible).mem_iff] using round.mem remainder
      rw [gapsFrom_cons reached]
      split
      · rename_i full
        constructor
        · -- some count of each is allowed, and the remainder that is left to the gap one is there
          have counted : Allowed bounds bounds := List.forall₂_same.mpr fun bound member => ⟨later bound member, le_refl _⟩
          generalize isSum : (List.zipWith (· * ·) multipliers bounds).sum = sum
          refine ⟨(targetSum - 1 - sum) % targetSum, round.remainders.mem_of_full positive full
            (Int.emod_nonneg _ positive.ne') (Int.emod_lt_of_pos _ positive), bounds, counted, ?_⟩
          rw [isSum, Int.add_emod_emod, show sum + (targetSum - 1 - sum) = targetSum - 1 by ring,
            Int.emod_eq_of_lt (by omega) (by omega)]
          ring
        · rintro _ ⟨remainder, -, counts, -, rfl⟩
          have := Int.emod_lt_of_pos ((List.zipWith (· * ·) multipliers counts).sum + remainder) positive
          omega
      · refine ih (Nat.succ.inj sameLength) later round.remainders ?_
        obtain ⟨start, member⟩ := List.exists_mem_of_ne_nil _ some
        have first : 0 ∈ List.range (bound + 1).toNat := List.mem_range.mpr (by omega)
        exact List.ne_nil_of_mem ((reached _).mpr ⟨start, member, 0, first, rfl⟩)

end Remainders

/-- The loop over the remainders returns the smallest gap of all sums, whatever order sets are visited in. -/
theorem minimizeGap_least (targetSum : Int) (positive : 0 < targetSum) (multipliers bounds : List Int)
    (sameLength : multipliers.length = bounds.length) (nonneg : ∀ bound ∈ bounds, 0 ≤ bound) (constOffset : Int)
    (visit : VisitOrder) :
    ∃ gap, minimizeGap targetSum visit multipliers bounds constOffset = some gap ∧
      IsLeast (gaps targetSum multipliers bounds constOffset) gap := by
  refine ⟨_, if_pos sameLength, ?_⟩
  have start : Remainders targetSum [constOffset % targetSum] :=
    ⟨List.nodup_singleton _, fun remainder member => List.mem_singleton.mp member ▸
      ⟨Int.emod_nonneg _ positive.ne', Int.emod_lt_of_pos _ positive⟩⟩
  have same : gaps targetSum multipliers bounds constOffset =
      gapsFrom targetSum multipliers bounds [constOffset % targetSum] := by
    ext gap
    simp [gaps, gapsFrom, Int.add_emod_emod]
  rw [floorMod_eq positive, same]
  exact gapLoop_least positive visit sameLength nonneg start (List.cons_ne_nil _ _)

/-- Multiples of 6 and of -4 and one more, to multiples of 16: the nearest sum is 2 · 6 - 0 · 4 + 1 = 13. -/
theorem minimizeGap_least_sixteen :
    IsLeast (gaps 16 [6, -4] [2, 1] 1) 3 := by
  obtain ⟨gap, found, least⟩ := minimizeGap_least 16 (by decide) [6, -4] [2, 1] rfl (by decide) 1 ⟨id, List.Perm.refl⟩
  have value : minimizeGap 16 ⟨id, List.Perm.refl⟩ [6, -4] [2, 1] 1 = some 3 := by decide
  rw [value] at found
  cases found
  exact least

end TtMlir.Dma
