import Mathlib

/-!
The ranges of dims that a reshape merges, `computeCollapseGroups` in
TTNNMemoryManagement.cpp. The scan is greedy: a range ends when its product is reached and
takes the ones that follow as long as enough dims are left by count.
-/

namespace TtMlir.Ttnn.CollapseGroups

/-- The product of the dims taken for a dim, the position after them and the dims left. -/
def takeDims (dim prod : Nat) (first : Bool) (s : Nat) : List Nat → Nat × Nat × List Nat
  | [] => (prod, s, [])
  | extent :: src =>
      if first ∨ prod < dim then takeDims dim (prod * extent) false (s + 1) src else (prod, s, extent :: src)

def absorbUnits (dstLeft s : Nat) : List Nat → Nat × List Nat
  | [] => (s, [])
  | extent :: src =>
      if extent = 1 ∧ dstLeft < src.length + 1 then absorbUnits dstLeft (s + 1) src else (s, extent :: src)

def collapseFrom (s : Nat) : List Nat → List Nat → Option (List (Nat × Nat))
  | src, [] => if src = [] then some [] else none
  | src, dim :: dst =>
      let taken := takeDims dim 1 true s src
      if taken.1 ≠ dim ∨ taken.2.1 = s then none
      else
        let absorbed := absorbUnits dst.length taken.2.1 taken.2.2
        (collapseFrom absorbed.1 absorbed.2 dst).map ((s, absorbed.1) :: ·)

def computeCollapseGroups (src dst : List Nat) : Option (List (Nat × Nat)) := collapseFrom 0 src dst

/-- A cut into non-empty consecutive ranges with the given products. -/
inductive Merges : List Nat → List Nat → Prop
  | nil : Merges [] []
  | cons {sub src dst : List Nat} : sub ≠ [] → Merges src dst → Merges (sub ++ src) (sub.prod :: dst)

/-- Non-empty consecutive ranges from a position to the end, with the given products. -/
def Ranges (src : List Nat) : Nat → List (Nat × Nat) → List Nat → Prop
  | s, [], [] => s = src.length
  | s, group :: groups, dim :: dst =>
      group.1 = s ∧ s < group.2 ∧ ((src.drop s).take (group.2 - s)).prod = dim ∧ Ranges src group.2 groups dst
  | _, _, _ => False

/-- Every one of `dst` after its first dim starts dims that are the last dims of `src`. -/
def UnitsAtEnd (src dst : List Nat) : Prop :=
  ∀ front back, dst = front ++ 1 :: back → front ≠ [] → 1 :: back <:+ src

section Scan
variable {dim prod s left : Nat} {src dst sub rest : List Nat} {groups : List (Nat × Nat)}

theorem takeDims_spec (dim prod : Nat) (first : Bool) (s : Nat) (src : List Nat) :
    ∃ sub rest, src = sub ++ rest ∧ takeDims dim prod first s src = (prod * sub.prod, s + sub.length, rest) := by
  induction src generalizing prod first s with
  | nil => exact ⟨[], [], rfl, by simp [takeDims]⟩
  | cons extent src ih =>
      unfold takeDims
      split
      · obtain ⟨sub, rest, split, taken⟩ := ih (prod * extent) false (s + 1)
        refine ⟨extent :: sub, rest, by rw [split, List.cons_append], ?_⟩
        rw [taken, List.prod_cons, Nat.mul_assoc, List.length_cons, Nat.add_assoc, Nat.add_comm 1]
      · exact ⟨[], extent :: src, rfl, by simp⟩

/-- What is absorbed are ones. They end at another dim, or where as many dims are left as there are dims to find. -/
theorem absorbUnits_spec (left s : Nat) (src : List Nat) :
    ∃ count rest, src = List.replicate count 1 ++ rest ∧ absorbUnits left s src = (s + count, rest) ∧
      (left ≤ src.length → left ≤ rest.length) ∧ (rest.head? = some 1 → rest.length ≤ left) := by
  induction src generalizing s with
  | nil => exact ⟨0, [], rfl, rfl, id, by simp⟩
  | cons extent src ih =>
      unfold absorbUnits
      split
      · rename_i unit
        obtain ⟨count, rest, split, absorbed, enough, stops⟩ := ih (s + 1)
        refine ⟨count + 1, rest, ?_, ?_, fun _ => enough (by omega), stops⟩
        · rw [unit.1, split, List.replicate_succ, List.cons_append, ← split]
        · rw [absorbed, Nat.add_assoc, Nat.add_comm 1]
      · rename_i other
        refine ⟨0, extent :: src, rfl, rfl, id, fun unit => ?_⟩
        have single : extent = 1 := by simpa using unit
        rw [List.length_cons]
        omega

theorem merges_length (merges : Merges src dst) : dst.length ≤ src.length := by
  induction merges with
  | nil => exact Nat.le_refl 0
  | @cons sub src dst some _ ih =>
      have one := List.length_pos_iff.mpr some
      rw [List.length_cons, List.length_append]
      omega

theorem merges_prod (merges : Merges src dst) : src.prod = dst.prod := by
  induction merges with
  | nil => rfl
  | cons _ _ ih => rw [List.prod_append, List.prod_cons, ih]

theorem merges_eq (merges : Merges src dst) (lengths : src.length = dst.length) : src = dst := by
  induction merges with
  | nil => rfl
  | @cons sub src dst some later ih =>
      have one := List.length_pos_iff.mpr some
      have bound := merges_length later
      rw [List.length_cons, List.length_append] at lengths
      obtain ⟨extent, single⟩ := List.length_eq_one_iff.mp (show sub.length = 1 by omega)
      rw [single, ih (by omega), List.prod_singleton, List.singleton_append]

theorem merges_units (count : Nat) (merges : Merges src (dim :: dst)) : Merges (List.replicate count 1 ++ src)
    (dim :: dst) := by
  cases merges with
  | @cons sub src dst some later =>
      have wider := @Merges.cons (List.replicate count 1 ++ sub) src dst (by simp [some]) later
      rw [List.prod_append, List.prod_replicate, Nat.one_pow, Nat.one_mul, List.append_assoc] at wider
      exact wider

theorem merges_of_units (count : Nat) (other : dim ≠ 1) (merges : Merges (List.replicate count 1 ++ src) (dim :: dst)) :
    Merges src (dim :: dst) := by
  induction count with
  | zero => exact merges
  | succ count ih =>
      apply ih
      rw [List.replicate_succ, List.cons_append] at merges
      generalize List.replicate count 1 ++ src = later at merges
      generalize listed : 1 :: later = whole at merges
      cases merges with
      | @cons sub rest dst some inner =>
          cases sub with
          | nil => exact absurd rfl some
          | cons extent sub =>
              obtain ⟨rfl, rfl⟩ := List.cons.inj listed
              have more : sub ≠ [] := fun empty => other (by rw [empty, List.prod_singleton])
              have shorter := Merges.cons more inner
              rwa [List.prod_cons, Nat.one_mul]

theorem collapseFrom_sound (front : List Nat) (position : front.length = s)
    (found : collapseFrom s src dst = some groups) :
    Merges src dst ∧ Ranges (front ++ src) s groups dst := by
  induction dst generalizing s src groups front with
  | nil =>
      unfold collapseFrom at found
      split at found
      · rename_i empty
        cases found
        rw [empty, List.append_nil]
        exact ⟨.nil, position.symm⟩
      · exact nomatch found
  | cons dim dst ih =>
      unfold collapseFrom at found
      obtain ⟨sub, rest, split, taken⟩ := takeDims_spec dim 1 true s src
      obtain ⟨count, left, units, absorbed, _⟩ := absorbUnits_spec dst.length (s + sub.length) rest
      rw [taken] at found
      dsimp only at found
      rw [absorbed] at found
      split at found
      · exact nomatch found
      rename_i fits
      rw [Nat.one_mul] at fits
      -- The scan goes on only where the product is reached by at least one dim.
      have product : sub.prod = dim := by
        by_contra differs
        exact fits (.inl differs)
      have some : sub ≠ [] := fun empty => fits (.inr (by rw [empty]; rfl))
      obtain ⟨inner, later, whole⟩ := Option.map_eq_some_iff.mp found
      cases whole
      -- The range of the dim: what was taken for it and the ones after it.
      have range : src = (sub ++ List.replicate count 1) ++ left := by rw [split, units, List.append_assoc]
      have rangeProd : (sub ++ List.replicate count 1).prod = dim := by
        rw [List.prod_append, List.prod_replicate, Nat.one_pow, Nat.mul_one, product]
      have rangeLength : (sub ++ List.replicate count 1).length = sub.length + count := by
        rw [List.length_append, List.length_replicate]
      obtain ⟨merges, ranges⟩ := ih (front ++ (sub ++ List.replicate count 1))
        (by rw [List.length_append, rangeLength, position, Nat.add_assoc]) later
      constructor
      · rw [range, ← rangeProd]
        exact .cons (by simp [some]) merges
      · have length := List.length_pos_iff.mpr some
        refine ⟨rfl, ?_, ?_, ?_⟩
        · show s < s + sub.length + count
          omega
        · show ((List.drop s (front ++ src)).take (s + sub.length + count - s)).prod = dim
          have size : s + sub.length + count - s = (sub ++ List.replicate count 1).length := by omega
          rw [size, ← position, List.drop_left, range, List.take_left, rangeProd]
        · rw [range, ← List.append_assoc]
          exact ranges

theorem takeDims_merge (sub rest : List Nat) (positive : 0 < prod) (extents : ∀ extent ∈ sub, 0 < extent)
    (product : prod * sub.prod = dim) :
    ∃ count s', takeDims dim prod false s (sub ++ rest) = (dim, s', List.replicate count 1 ++ rest) := by
  induction sub generalizing prod s with
  | nil =>
      have reached : prod = dim := by simpa using product
      refine ⟨0, s, ?_⟩
      cases rest with
      | nil => rw [List.append_nil, takeDims, reached]; rfl
      | cons extent rest => simp [takeDims, reached]
  | cons extent sub ih =>
      rw [List.cons_append, takeDims]
      split
      · apply ih (Nat.mul_pos positive (extents extent List.mem_cons_self))
        · exact fun other member => extents other (List.mem_cons_of_mem _ member)
        · rw [Nat.mul_assoc, ← List.prod_cons, product]
      · rename_i reached
        have bound : dim ≤ prod := by simpa using reached
        -- The product is reached early, so the dims left of the range are ones.
        have unit : (extent :: sub).prod = 1 := by
          have some : 0 < (extent :: sub).prod := List.prod_pos extents
          have least : prod * (extent :: sub).prod ≤ prod * 1 := by omega
          have most := Nat.le_of_mul_le_mul_left least positive
          omega
        have units : extent :: sub = List.replicate (sub.length + 1) 1 := by
          apply List.eq_replicate_iff.mpr
          exact ⟨rfl, fun other member => Nat.dvd_one.mp (unit ▸ List.dvd_prod member)⟩
        refine ⟨sub.length + 1, s, ?_⟩
        rw [← units, List.cons_append]
        have equal : prod = dim := by rw [← product, unit, Nat.mul_one]
        rw [equal]

theorem collapseFrom_self (s : Nat) (dims : List Nat) : (collapseFrom s dims dims).isSome := by
  induction dims generalizing s with
  | nil => rfl
  | cons dim dims ih =>
      have taken : takeDims dim 1 true s (dim :: dims) = (dim, s + 1, dims) := by
        cases dims with
        | nil => simp [takeDims]
        | cons next dims => simp [takeDims]
      have absorbed : absorbUnits dims.length (s + 1) dims = (s + 1, dims) := by
        cases dims with
        | nil => rfl
        | cons next dims => simp [absorbUnits]
      unfold collapseFrom
      rw [taken]
      dsimp only
      rw [absorbed, if_neg (by omega), Option.isSome_map]
      exact ih (s + 1)

end Scan

section Complete
variable {dim s : Nat} {src dst : List Nat}

/-- What the scan of a dim in a merge leaves: dims of the product of the dims to find, at least as
many, that still merge into them up to ones. -/
theorem collapseFrom_step (positive : ∀ extent ∈ src, 0 < extent) (merges : Merges src (dim :: dst)) (s : Nat) :
    ∃ s' left rest units absorbed, left <:+ src ∧ (collapseFrom s src (dim :: dst)).isSome =
      (collapseFrom s' left dst).isSome ∧
      dst.length ≤ left.length ∧ (left.head? = some 1 → left.length ≤ dst.length) ∧ left.prod = dst.prod ∧
        Merges rest dst ∧ List.replicate units 1 ++ rest = List.replicate absorbed 1 ++ left := by
  cases merges with
  | @cons sub rest dst nonempty inner =>
      cases sub with
      | nil => exact absurd rfl nonempty
      | cons extent sub =>
          have extents := (List.forall_mem_append.mp positive).1
          have first : 0 < extent := extents extent List.mem_cons_self
          -- The scan of the dim may leave ones of its range; the next loop takes ones as long as enough dims are left.
          obtain ⟨units, next, taken⟩ := takeDims_merge (s := s + 1) sub rest first
            (fun other member => extents other (List.mem_cons_of_mem _ member)) List.prod_cons.symm
          obtain ⟨absorbed, left, split, scanned, enough, stops⟩ :=
            absorbUnits_spec dst.length next (List.replicate units 1 ++ rest)
          have bound := merges_length inner
          obtain ⟨prefixDims, leftDims, whole, located⟩ := takeDims_spec (extent :: sub).prod extent false (s + 1)
            (sub ++ rest)
          rw [taken] at located
          simp only [Prod.mk.injEq] at located
          obtain ⟨_, advanced, remaining⟩ := located
          refine ⟨next + absorbed, left, rest, units, absorbed, ?_, ?_,
            enough (by simp; omega), stops, ?_, inner, split⟩
          · rw [List.cons_append, whole, ← remaining, split]
            exact ⟨extent :: (prefixDims ++ List.replicate absorbed 1), by simp⟩
          · have start : takeDims (extent :: sub).prod 1 true s (extent :: sub ++ rest) =
                ((extent :: sub).prod, next, List.replicate units 1 ++ rest) := by
              rw [List.cons_append, takeDims, if_pos (.inl rfl), Nat.one_mul, taken]
            rw [collapseFrom, start]
            dsimp only
            rw [scanned, if_neg, Option.isSome_map]
            omega
          · have volumes := congrArg List.prod split
            rw [List.prod_append, List.prod_append, List.prod_replicate, List.prod_replicate, Nat.one_pow, Nat.one_pow,
              Nat.one_mul, Nat.one_mul, merges_prod inner] at volumes
            exact volumes.symm

/-- In a merge of positive dims the scan finds ranges exactly when ones after the first dim are at the end. -/
theorem collapseFrom_isSome_iff (positive : ∀ extent ∈ src, 0 < extent) (merges : Merges src dst) (s : Nat) :
    (collapseFrom s src dst).isSome ↔ UnitsAtEnd src dst := by
  induction dst generalizing src s with
  | nil =>
      cases merges
      constructor
      · intro _ front back split
        simp at split
      · exact fun _ => rfl
  | cons dim dst ih =>
      obtain ⟨s', left, rest, units, absorbed, suffix, scanned, enough, stops, volume, inner, ones⟩ :=
        collapseFrom_step positive merges s
      have leftPositive : ∀ extent ∈ left, 0 < extent := fun extent member => positive extent (suffix.subset member)
      rw [scanned]
      cases dst with
      | nil =>
          cases inner
          -- No dims are to be found, so what is left is ones, and all of them were absorbed.
          have empty : left = [] := by
            cases left with
            | nil => rfl
            | cons extent left =>
                have single : (extent :: left).prod = 1 := volume
                have unit : extent = 1 := Nat.dvd_one.mp (single ▸ List.dvd_prod List.mem_cons_self)
                have none := stops (by rw [unit]; rfl)
                simp at none
          rw [empty]
          constructor
          · intro _ front back split nonempty
            cases front with
            | nil => exact absurd rfl nonempty
            | cons first front => simp at split
          · exact fun _ => rfl
      | cons next dst =>
          -- A one that is to be found next is where absorbed ones are missed.
          by_cases unit : next = 1
          · subst unit
            constructor
            · intro found
              obtain ⟨groups, known⟩ := Option.isSome_iff_exists.mp found
              obtain ⟨fits, _⟩ := collapseFrom_sound (List.replicate s' 0) List.length_replicate known
              -- The first of the dims left is taken for a one, so nothing more could be absorbed.
              have head : left.head? = some 1 := by
                generalize listed : 1 :: dst = dims at fits
                cases fits with
                | nil => exact nomatch listed
                | @cons sub later dims nonempty _ =>
                    cases sub with
                    | nil => exact absurd rfl nonempty
                    | cons extent sub =>
                        have product := (List.cons.inj listed).1
                        have single : extent = 1 := Nat.dvd_one.mp (product ▸ List.dvd_prod List.mem_cons_self)
                        rw [single]
                        rfl
              have equal := merges_eq fits (Nat.le_antisymm (stops head) enough)
              intro front back split nonempty
              cases front with
              | nil => exact absurd rfl nonempty
              | cons first front =>
                  obtain ⟨_, later⟩ := List.cons.inj split
                  have inside : 1 :: back <:+ left := by rw [equal, later]; exact List.suffix_append _ _
                  exact inside.trans suffix
            · intro atEnd
              have whole : 1 :: dst <:+ left :=
                List.suffix_of_suffix_length_le (atEnd [dim] dst rfl (by simp)) suffix enough
              obtain ⟨front, split⟩ := whole
              cases front with
              | nil =>
                  rw [← split]
                  exact collapseFrom_self s' (1 :: dst)
              | cons extent front =>
                  -- More dims would start with a one, for they have no volume.
                  have some : 0 < (1 :: dst).prod :=
                    List.prod_pos fun other member => leftPositive other (split ▸ List.mem_append_right _ member)
                  have none : (extent :: front).prod = 1 := by
                    rw [← split, List.prod_append] at volume
                    exact Nat.eq_of_mul_eq_mul_right some (volume.trans (Nat.one_mul _).symm)
                  have single : extent = 1 := Nat.dvd_one.mp (none ▸ List.dvd_prod List.mem_cons_self)
                  have few := stops (by rw [← split, single]; rfl)
                  rw [← split] at few
                  rw [List.length_append] at few
                  simp only [List.length_cons] at few
                  omega
          · -- Ones in front of a wider dim change nothing.
            have later : Merges left (next :: dst) := by
              have wider := merges_units units inner
              rw [ones] at wider
              exact merges_of_units absorbed unit wider
            rw [ih leftPositive later s']
            constructor
            · intro atEnd front back split nonempty
              cases front with
              | nil => exact absurd rfl nonempty
              | cons first front =>
                  obtain ⟨_, inner⟩ := List.cons.inj split
                  have more : front ≠ [] := by
                    rintro rfl
                    exact unit (List.cons.inj inner).1
                  exact (atEnd front back inner more).trans suffix
            · intro atEnd front back split nonempty
              have inside := atEnd (dim :: front) back (by rw [split, List.cons_append]) (by simp)
              apply List.suffix_of_suffix_length_le inside suffix
              have length := congrArg List.length split
              rw [List.length_append] at length
              omega

/-- The scan decides pure merges, by ranges of the whole shape, exactly when ones after the first dim of a merge are
at the end of both shapes. -/
theorem computeCollapseGroups_iff (src dst : List Nat) (srcExtents : ∀ extent ∈ src, 0 < extent) :
    (((computeCollapseGroups src dst).isSome ↔ Merges src dst) ∧
      ∀ groups ∈ computeCollapseGroups src dst, Ranges src 0 groups dst) ↔ (Merges src dst → UnitsAtEnd src dst) := by
  constructor
  · rintro ⟨decides, _⟩ merges
    exact (collapseFrom_isSome_iff srcExtents merges 0).mp (decides.mpr merges)
  · intro condition
    refine ⟨⟨?_, ?_⟩, ?_⟩
    · intro found
      obtain ⟨groups, known⟩ := Option.isSome_iff_exists.mp found
      exact (collapseFrom_sound [] rfl known).1
    · intro merges
      exact (collapseFrom_isSome_iff srcExtents merges 0).mpr (condition merges)
    · intro groups found
      exact (collapseFrom_sound [] rfl found).2

theorem merged_row_ranges :
    (((computeCollapseGroups [2, 1, 3, 5] [2, 15]).isSome ↔ Merges [2, 1, 3, 5] [2, 15]) ∧
      ∀ groups ∈ computeCollapseGroups [2, 1, 3, 5] [2, 15], Ranges [2, 1, 3, 5] 0 groups [2, 15]) ↔
        (Merges [2, 1, 3, 5] [2, 15] → UnitsAtEnd [2, 1, 3, 5] [2, 15]) :=
  computeCollapseGroups_iff [2, 1, 3, 5] [2, 15] (by decide)

/-- The one in the middle is taken for the first dim, as four dims are more than three. -/
theorem middle_unit_absorbed : Merges [2, 1, 3, 5] [2, 1, 15] ∧ computeCollapseGroups [2, 1, 3, 5] [2, 1, 15] = none := by
  constructor
  · have last : Merges [3, 5] [15] := @Merges.cons [3, 5] [] [] (by decide) .nil
    have middle : Merges [1, 3, 5] [1, 15] := @Merges.cons [1] _ _ (by decide) last
    exact @Merges.cons [2] _ _ (by decide) middle
  · decide

end Complete

end TtMlir.Ttnn.CollapseGroups
