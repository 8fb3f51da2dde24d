import Mathlib.Algebra.BigOperators.Ring.List
import TtMlir.Ttir.TMFusion
import TtMlir.Library.UnitRuns

/-!
When the grouping of axes ends in the assertion or in a modulo by zero. For shapes without a
dim of zero this is read off the last dims that agree in the two shapes.
-/

namespace TtMlir.Ttir.TMFusion

open UnitRuns

inductive Spills : List Nat → List Nat → Prop
  | left {input : Nat} {inputs : List Nat} : Spills (input :: inputs) []
  | equal {dim : Nat} {inputs outputs : List Nat} : Spills inputs outputs → Spills (dim :: inputs) (dim :: outputs)
  | unit {input : Nat} {inputs outputs : List Nat} :
      input ≠ 1 → Spills (input :: inputs) outputs → Spills (input :: inputs) (1 :: outputs)
  | group {input dim : Nat} {inputs group left outputs : List Nat} :
      input ≠ dim → dim ≠ 1 → 0 < dim → input :: inputs = group ++ left → group.prod = dim →
      (∀ next ∈ left.head?, 1 < next) → Spills left outputs → Spills (input :: inputs) (dim :: outputs)
  | zero {input dim : Nat} {inputs group left outputs : List Nat} :
      input ≠ dim → dim ≠ 1 → input :: inputs = group ++ 0 :: left → 0 < group.prod → group.prod ∣ dim →
      Spills (input :: inputs) (dim :: outputs)

section Consume
variable {output consumed : Nat}

theorem consume_error_iff (inputs : List (Nat × Nat)) (positive : 0 < consumed) (divides : consumed ∣ output) :
    (∃ stop, consume output consumed inputs = .error stop) ↔
      ∃ group left, inputs.map Prod.snd = group ++ 0 :: left ∧ 0 < group.prod ∧ consumed * group.prod ∣ output := by
  -- the error is a zero extent that meets the product before it stops dividing
  induction inputs generalizing consumed with
  | nil => simp [consume]
  | cons input rest ih =>
      obtain ⟨axis, extent⟩ := input
      unfold consume
      split
      · rename_i zero
        have none : extent = 0 := (Nat.mul_eq_zero.mp zero).resolve_left positive.ne'
        exact ⟨fun _ => ⟨[], rest.map Prod.snd, by simp [none], by simp, by simpa using divides⟩, fun _ => ⟨_, rfl⟩⟩
      rename_i nonzero
      have known : extent ≠ 0 := fun none => nonzero (by simp [none])
      split
      · rename_i more
        have later := ih (Nat.pos_of_ne_zero nonzero) (Nat.dvd_of_mod_eq_zero more)
        constructor
        · rintro ⟨stop, failed⟩
          have inner : ∃ stop, consume output (consumed * extent) rest = .error stop := by
            cases scanned : consume output (consumed * extent) rest with
            | error stop => exact ⟨stop, rfl⟩
            | ok taken =>
                rw [scanned] at failed
                exact nomatch failed
          obtain ⟨group, left, listed, volume, product⟩ := later.mp inner
          refine ⟨extent :: group, left, by simp [listed], ?_, ?_⟩
          · rw [List.prod_cons]
            exact Nat.mul_pos (Nat.pos_of_ne_zero known) volume
          · rw [List.prod_cons, ← Nat.mul_assoc]
            exact product
        · rintro ⟨group, left, listed, volume, product⟩
          cases group with
          | nil => exact absurd (List.cons.inj listed).1 known
          | cons first group =>
              obtain ⟨same, remains⟩ := List.cons.inj listed
              dsimp only at same
              subst same
              rw [List.prod_cons] at volume
              rw [List.prod_cons, ← Nat.mul_assoc] at product
              obtain ⟨stop, failed⟩ := later.mpr ⟨group, left, remains, Nat.pos_of_mul_pos_left volume, product⟩
              exact ⟨stop, by rw [failed]; rfl⟩
      · rename_i stops
        constructor
        · rintro ⟨stop, failed⟩
          exact nomatch failed
        · rintro ⟨group, left, listed, _, product⟩
          cases group with
          | nil => exact absurd (List.cons.inj listed).1 known
          | cons first group =>
              obtain ⟨same, _⟩ := List.cons.inj listed
              dsimp only at same
              subst same
              rw [List.prod_cons, ← Nat.mul_assoc] at product
              exact absurd (Nat.mod_eq_zero_of_dvd (dvd_of_mul_right_dvd product)) stops

theorem consume_exact_iff (inputs : List (Nat × Nat)) {rest : List Nat} (positive : 0 < consumed)
    (volume : 0 < output) :
    (∃ axes left, consume output consumed inputs = .ok (output, axes, left) ∧ left.map Prod.snd = rest) ↔
      ∃ group, inputs.map Prod.snd = group ++ rest ∧ consumed * group.prod = output ∧
        ∀ next ∈ rest.head?, 1 < next := by
  induction inputs generalizing consumed with
  | nil =>
      constructor
      · rintro ⟨axes, left, taken, rfl⟩
        cases taken
        exact ⟨[], by simp⟩
      · rintro ⟨group, listed, product, _⟩
        obtain ⟨rfl, rfl⟩ := List.nil_eq_append_iff.mp listed
        rw [List.prod_nil, Nat.mul_one] at product
        exact ⟨[], [], by rw [consume, product], rfl⟩
  | cons input tail ih =>
      obtain ⟨axis, extent⟩ := input
      unfold consume
      split
      · rename_i zero
        have none : extent = 0 := (Nat.mul_eq_zero.mp zero).resolve_left positive.ne'
        constructor
        · rintro ⟨axes, left, failed, _⟩
          exact nomatch failed
        · rintro ⟨group, listed, product, later⟩
          cases group with
          | nil =>
              have first := later extent (by rw [← List.nil_append rest, ← listed]; rfl)
              omega
          | cons first group =>
              have same : first = 0 := (List.cons.inj listed).1.symm.trans none
              rw [List.prod_cons, same, Nat.zero_mul, Nat.mul_zero] at product
              omega
      rename_i nonzero
      have known : extent ≠ 0 := fun none => nonzero (by simp [none])
      split
      · rename_i more
        have divides := Nat.dvd_of_mod_eq_zero more
        have later := ih (Nat.pos_of_ne_zero nonzero)
        constructor
        · rintro ⟨axes, left, taken, remains⟩
          cases scanned : consume output (consumed * extent) tail with
          | error stop =>
              rw [scanned] at taken
              cases taken
          | ok result =>
              rw [scanned] at taken
              obtain ⟨product, group, rest'⟩ := result
              cases taken
              obtain ⟨group, listed, product, following⟩ := later.mp ⟨_, _, scanned, remains⟩
              refine ⟨extent :: group, by simp [listed], ?_, following⟩
              rw [List.prod_cons, ← Nat.mul_assoc, product]
        · rintro ⟨group, listed, product, following⟩
          cases group with
          | nil =>
              -- the dim is used up already, so that only a one could still divide it
              have first := following extent (by rw [← List.nil_append rest, ← listed]; rfl)
              rw [List.prod_nil, Nat.mul_one] at product
              have small := Nat.le_of_dvd volume divides
              rw [product] at small
              have larger := Nat.mul_lt_mul_of_pos_left first volume
              omega
          | cons first group =>
              obtain ⟨same, remaining⟩ := List.cons.inj listed
              dsimp only at same
              subst same
              rw [List.prod_cons, ← Nat.mul_assoc] at product
              obtain ⟨axes, left, taken, remains⟩ := later.mpr ⟨group, remaining, product, following⟩
              exact ⟨axis :: axes, left, by rw [taken]; rfl, remains⟩
      · rename_i stops
        constructor
        · rintro ⟨axes, left, taken, remains⟩
          cases taken
          refine ⟨[], remains, by simp, fun next head => ?_⟩
          rw [← remains] at head
          cases head
          have other : extent ≠ 1 := fun one => stops (by simp [one])
          show 1 < extent
          omega
        · rintro ⟨group, listed, product, _⟩
          cases group with
          | nil =>
              rw [List.prod_nil, Nat.mul_one] at product
              exact ⟨[], (axis, extent) :: tail, by rw [product], listed⟩
          | cons first group =>
              obtain ⟨same, _⟩ := List.cons.inj listed
              dsimp only at same
              subst same
              rw [List.prod_cons, ← Nat.mul_assoc] at product
              exact absurd (Nat.mod_eq_zero_of_dvd ⟨_, product.symm⟩) stops

theorem consume_positive {inputs left : List (Nat × Nat)} {product : Nat} {axes : List Nat} (positive : 0 < consumed)
    (taken : consume output consumed inputs = .ok (product, axes, left)) : 0 < product := by
  induction inputs generalizing consumed axes with
  | nil =>
      cases taken
      exact positive
  | cons input rest ih =>
      obtain ⟨axis, extent⟩ := input
      unfold consume at taken
      split at taken
      · cases taken
      rename_i nonzero
      split at taken
      · cases scanned : consume output (consumed * extent) rest with
        | error stop =>
            rw [scanned] at taken
            cases taken
        | ok result =>
            rw [scanned] at taken
            cases taken
            exact ih (Nat.pos_of_ne_zero nonzero) scanned
      · cases taken
        exact positive

end Consume

section Cases
variable {input dim : Nat} {inputs outputs : List Nat}

theorem not_spills_nil (outputs : List Nat) : ¬ Spills [] outputs := nofun

theorem spills_equal_iff : Spills (dim :: inputs) (dim :: outputs) ↔ Spills inputs outputs := by
  constructor
  · intro spills
    cases spills with
    | equal later => exact later
    | unit wide => exact absurd rfl wide
    | group other => exact absurd rfl other
    | zero other => exact absurd rfl other
  · exact .equal

theorem spills_unit_iff (wide : input ≠ 1) : Spills (input :: inputs) (1 :: outputs) ↔
    Spills (input :: inputs) outputs := by
  constructor
  · intro spills
    cases spills with
    | equal => exact absurd rfl wide
    | unit _ later => exact later
    | group _ wide => exact absurd rfl wide
    | zero _ wide => exact absurd rfl wide
  · exact .unit wide

theorem spills_group_iff (other : input ≠ dim) (wide : dim ≠ 1) :
    Spills (input :: inputs) (dim :: outputs) ↔
      (∃ group left, input :: inputs = group ++ 0 :: left ∧ 0 < group.prod ∧ group.prod ∣ dim) ∨
        ∃ group left, input :: inputs = group ++ left ∧ 0 < dim ∧ group.prod = dim ∧ (∀ next ∈ left.head?, 1 < next) ∧
          Spills left outputs := by
  constructor
  · intro spills
    cases spills with
    | equal => exact absurd rfl other
    | unit => exact absurd rfl wide
    | group _ _ positive listed product following later =>
      exact .inr ⟨_, _, listed, positive, product, following, later⟩
    | zero _ _ listed positive divides => exact .inl ⟨_, _, listed, positive, divides⟩
  · rintro (⟨group, left, listed, positive, divides⟩ | ⟨group, left, listed, positive, product, following, later⟩)
    · exact .zero other wide listed positive divides
    · exact .group other wide positive listed product following later

theorem addGroup_error_iff {group : List Nat} {answer : Except Stop (Option (List (List Nat)))} :
    (∃ stop, addGroup group answer = .error stop) ↔ ∃ stop, answer = .error stop := by
  cases answer <;> simp [addGroup, Except.map]

end Cases

theorem groupDims_error_iff (inputs : List (Nat × Nat)) (outputs : List Nat) :
    (∃ stop, groupDims inputs outputs = .error stop) ↔ Spills (inputs.map Prod.snd) outputs := by
  -- the cases follow the branches of `groupDims`
  induction outputs generalizing inputs with
  | nil =>
      cases inputs with
      | nil => simp [groupDims, not_spills_nil]
      | cons input rest => exact ⟨fun _ => .left, fun _ => ⟨.notFullyConsumed, by simp [groupDims]⟩⟩
  | cons output outputs ih =>
      cases inputs with
      | nil =>
          unfold groupDims
          dsimp only
          split
          · rw [addGroup_error_iff, ih]
            exact ⟨fun spills => absurd spills (not_spills_nil _), fun spills => absurd spills (not_spills_nil _)⟩
          · exact ⟨fun fails => (by cases fails.choose_spec), fun spills => absurd spills (not_spills_nil _)⟩
      | cons input rest =>
          obtain ⟨axis, extent⟩ := input
          rw [List.map_cons]
          unfold groupDims
          dsimp only
          split
          · rename_i equal
            rw [addGroup_error_iff, ih, equal, spills_equal_iff]
          rename_i other
          split
          · rename_i unit
            subst unit
            rw [addGroup_error_iff, ih, spills_unit_iff other, List.map_cons]
          rename_i wide
          rw [spills_group_iff other wide]
          have fails := consume_error_iff ((axis, extent) :: rest) Nat.one_pos (one_dvd output)
          simp only [Nat.one_mul, List.map_cons] at fails
          split
          · rename_i stop failed
            exact ⟨fun _ => .inl (fails.mp ⟨stop, failed⟩), fun _ => ⟨stop, rfl⟩⟩
          rename_i product axes left taken
          have noZero : ¬ ∃ stop, consume output 1 ((axis, extent) :: rest) = .error stop := by
            rw [taken]
            rintro ⟨_, failed⟩
            cases failed
          rw [fails] at noZero
          rw [or_iff_right noZero]
          split
          · -- the product misses the dim: the fusion gives up without an error
            rename_i missed
            constructor
            · rintro ⟨_, failed⟩
              cases failed
            · rintro ⟨group, remains, listed, positive, product, following, _⟩
              have exactly := (consume_exact_iff ((axis, extent) :: rest) Nat.one_pos positive).mpr
                ⟨group, listed, by rw [Nat.one_mul, product], following⟩
              obtain ⟨axes, left, used, _⟩ := exactly
              rw [taken] at used
              cases used
              exact absurd rfl missed
          · rename_i exactly
            have used : product = output := not_not.mp exactly
            subst used
            have positive := consume_positive Nat.one_pos taken
            rw [addGroup_error_iff, ih]
            constructor
            · intro later
              obtain ⟨group, listed, volume, following⟩ :=
                (consume_exact_iff ((axis, extent) :: rest) Nat.one_pos positive).mp ⟨axes, left, taken, rfl⟩
              exact ⟨group, _, listed, positive, by rw [← volume, Nat.one_mul], following, later⟩
            · rintro ⟨group, remains, listed, _, volume, following, later⟩
              obtain ⟨axes, left, again, same⟩ := (consume_exact_iff ((axis, extent) :: rest) Nat.one_pos positive).mpr
                ⟨group, listed, by rw [Nat.one_mul, volume], following⟩
              rw [taken] at again
              cases again
              rwa [same]

section Runs

theorem mem_expand_positive {ones dim : Nat} {runs : List (Nat × Nat)} (wide : Wide runs)
    (member : dim ∈ List.replicate ones 1 ++ expand runs) : 0 < dim := by
  rcases List.mem_append.mp member with unit | inner
  · rw [List.eq_of_mem_replicate unit]
    exact Nat.one_pos
  · obtain ⟨run, here, inside⟩ := List.mem_flatMap.mp inner
    rcases List.mem_cons.mp inside with rfl | unit
    · exact Nat.lt_of_succ_lt (wide run here)
    · rw [List.eq_of_mem_replicate unit]
      exact Nat.one_pos

theorem spills_ones (ones others : Nat) {inputs : List (Nat × Nat)} (wide : Wide inputs) (outputs : List Nat) :
    Spills (List.replicate ones 1 ++ expand inputs) (List.replicate others 1 ++ outputs) ↔
      Spills (List.replicate (ones - others) 1 ++ expand inputs) outputs := by
  induction others generalizing ones with
  | zero => rfl
  | succ others ih =>
      cases ones with
      | zero =>
          rw [Nat.zero_sub, List.replicate_zero, List.nil_append]
          cases inputs with
          | nil => exact ⟨fun spills => absurd spills (not_spills_nil _),
            fun spills => absurd spills (not_spills_nil _)⟩
          | cons run inputs =>
              rw [List.replicate_succ, List.cons_append, expand_cons,
                spills_unit_iff (wide run List.mem_cons_self).ne', ← expand_cons]
              simpa using ih 0
      | succ ones =>
          rw [List.replicate_succ, List.replicate_succ, List.cons_append, List.cons_append, spills_equal_iff, ih,
            Nat.add_sub_add_right]

theorem expand_head {runs : List (Nat × Nat)} (wide : Wide runs) : ∀ next ∈ (expand runs).head?, 1 < next := by
  intro next head
  cases runs with
  | nil => exact nomatch head
  | cons run runs =>
      cases head
      exact wide run List.mem_cons_self

theorem spills_group_runs {pending dim : Nat} {inputs : List (Nat × Nat)} {outputs : List Nat} (wide : Wide inputs)
    (large : 1 < dim) (differs : (List.replicate pending 1 ++ expand inputs).head? ≠ some dim) :
    Spills (List.replicate pending 1 ++ expand inputs) (dim :: outputs) ↔
      ∃ front back, inputs = front ++ back ∧ volume front = dim ∧ Spills (expand back) outputs := by
  cases shape : List.replicate pending 1 ++ expand inputs with
  | nil =>
      constructor
      · exact fun spills => absurd spills (not_spills_nil _)
      · rintro ⟨front, back, rfl, product, _⟩
        have empty : front = [] := by
          cases front with
          | nil => rfl
          | cons run front =>
              rw [List.cons_append, expand_cons] at shape
              exact absurd shape (by simp)
        subst empty
        exact absurd product large.ne
  | cons input rest =>
      rw [shape] at differs
      have other : input ≠ dim := fun same => differs (by rw [same]; rfl)
      have noZero : ¬ ∃ group left, input :: rest = group ++ 0 :: left ∧ 0 < group.prod ∧ group.prod ∣ dim := by
        rintro ⟨group, left, listed, _⟩
        have zero : 0 ∈ List.replicate pending 1 ++ expand inputs := by
          rw [shape, listed]
          exact List.mem_append_right group List.mem_cons_self
        exact absurd (mem_expand_positive wide zero) (Nat.lt_irrefl 0)
      rw [spills_group_iff other large.ne', or_iff_right noZero]
      constructor
      · rintro ⟨group, left, listed, _, product, following, later⟩
        obtain ⟨front, back, rfl, rfl, rfl⟩ := expand_split (shape.trans listed) following
        exact ⟨front, back, rfl, (prod_expand pending front).symm.trans product, later⟩
      · rintro ⟨front, back, rfl, product, later⟩
        refine ⟨List.replicate pending 1 ++ expand front, expand back, ?_, Nat.lt_of_succ_lt large,
          (prod_expand pending front).trans product, expand_head wide.append.2, later⟩
        rw [← shape, expand_append, List.append_assoc]

theorem spills_runs_iff {inputs outputs : List (Nat × Nat)} (wide : Wide inputs) (wideOutputs : Wide outputs)
    (volumes : volume inputs = volume outputs) (ones others : Nat) :
    Spills (List.replicate ones 1 ++ expand inputs) (List.replicate others 1 ++ expand outputs) ↔
      Coarsens (inputs.map Prod.fst) (outputs.map Prod.fst) ∧
        Odd (agreeing ((1, ones) :: inputs) ((1, others) :: outputs)) := by
  -- one output run a step: its dim meets an equal input run or groups several of them
  induction outputs generalizing inputs ones others with
  | nil =>
      obtain rfl := wide.nil_of_volume volumes
      rw [spills_ones ones others wide, agreeing_singleton]
      rcases Nat.lt_or_ge others ones with more | few
      · rw [if_pos ⟨rfl, more⟩]
        obtain ⟨extra, surplus⟩ := Nat.exists_eq_add_of_lt more
        have pending : ones - others = extra + 1 := by omega
        rw [pending, List.replicate_succ, List.cons_append]
        exact ⟨fun _ => ⟨.nil, odd_one⟩, fun _ => .left⟩
      · rw [if_neg fun both => Nat.not_lt.mpr few both.2, Nat.sub_eq_zero_of_le few]
        exact ⟨fun spills => absurd spills (not_spills_nil _), fun both => absurd both.2 (by decide)⟩
  | cons run outputs ih =>
      obtain ⟨dim, other⟩ := run
      have large : 1 < dim := wideOutputs _ List.mem_cons_self
      have wideRest : Wide outputs := fun run member => wideOutputs run (List.mem_cons_of_mem _ member)
      have rest : volume ((dim, other) :: outputs) = dim * volume outputs := List.prod_cons
      rw [rest] at volumes
      rw [spills_ones ones others wide, expand_cons]
      -- equal dims with no pending ones are matched one to one
      by_cases met : ones ≤ others ∧ inputs.head?.map Prod.fst = some dim
      · obtain ⟨few, head⟩ := met
        cases inputs with
        | nil => exact nomatch head
        | cons run inputs =>
            obtain ⟨input, after⟩ := run
            cases head
            have wideInputs : Wide inputs := fun run member => wide run (List.mem_cons_of_mem _ member)
            have equal : volume inputs = volume outputs := by
              have product : volume ((input, after) :: inputs) = input * volume inputs := List.prod_cons
              rw [product] at volumes
              exact Nat.eq_of_mul_eq_mul_left (Nat.lt_of_succ_lt large) volumes
            rw [Nat.sub_eq_zero_of_le few, List.replicate_zero, List.nil_append, expand_cons, spills_equal_iff,
              ih wideInputs wideRest equal, agreeing_equal wideInputs wideRest equal few, List.map_cons, List.map_cons,
              coarsens_equal_iff large]
            intro dim member
            obtain ⟨run, here, rfl⟩ := List.mem_map.mp member
            exact wideInputs run here
      · -- otherwise the front of the inputs is consumed up to the dim's volume
        have distinct : others < ones ∨ inputs.head?.map Prod.fst ≠ some dim := by
          rcases Nat.lt_or_ge others ones with more | few
          · exact .inl more
          · exact .inr fun head => met ⟨few, head⟩
        have differs : (List.replicate (ones - others) 1 ++ expand inputs).head? ≠ some dim := by
          cases pending : ones - others with
          | zero =>
              have first : (expand inputs).head? = inputs.head?.map Prod.fst := by cases inputs <;> rfl
              rw [List.replicate_zero, List.nil_append, first]
              exact distinct.resolve_left (by omega)
          | succ extra => exact fun unit => absurd (Option.some.inj unit) large.ne
        rw [spills_group_runs wide large differs, List.map_cons, coarsens_cons_iff]
        have step : ∀ front back, inputs = front ++ back → volume front = dim →
            (Spills (expand back) (List.replicate other 1 ++ expand outputs) ↔
              Coarsens (back.map Prod.fst) (outputs.map Prod.fst) ∧
                Odd (agreeing ((1, ones) :: inputs) ((1, others) :: (dim, other) :: outputs))) := by
          rintro front back rfl whole
          have equal : volume back = volume outputs := by
            rw [volume_append, whole] at volumes
            exact Nat.eq_of_mul_eq_mul_left (Nat.lt_of_succ_lt large) volumes
          rw [agreeing_group wide wideRest equal whole large.ne' distinct]
          exact ih wide.append.2 wideRest equal 0 other
        constructor
        · rintro ⟨front, back, split, whole, later⟩
          obtain ⟨coarse, odd⟩ := (step front back split whole).mp later
          exact ⟨⟨front.map Prod.fst, back.map Prod.fst, by rw [split, List.map_append], whole, coarse⟩, odd⟩
        · rintro ⟨⟨front, back, split, whole, coarse⟩, odd⟩
          obtain ⟨frontRuns, backRuns, rfl, rfl, rfl⟩ := List.map_eq_append_iff.mp split
          exact ⟨frontRuns, backRuns, rfl, whole, (step frontRuns backRuns rfl whole).mpr ⟨coarse, odd⟩⟩

theorem unitRuns_expand {shape : List Nat} (positive : 0 ∉ shape) :
    ∃ leading runs, unitRuns shape = (1, leading) :: runs ∧ shape = List.replicate leading 1 ++ expand runs ∧
      runs.map Prod.fst = shape.filter (· ≠ 1) ∧ Wide runs := by
  obtain ⟨leading, runs, listed, dims, values, nontrivial⟩ := runsFrom_expand 1 0 shape
  refine ⟨leading, runs, by rw [unitRuns, listed, Nat.zero_add], dims, values, fun run member => ?_⟩
  have inside : run.1 ∈ shape := List.mem_of_mem_filter (values ▸ List.mem_map_of_mem member)
  have nonzero : run.1 ≠ 0 := fun zero => positive (zero ▸ inside)
  have other := nontrivial run member
  omega

/-- Without dims of zero, the shapes that spill are read off their dims other than one and the ones after those. -/
theorem spills_iff_of_positive {inputs outputs : List Nat} (positive : 0 ∉ inputs) (positiveOutputs : 0 ∉ outputs)
    (volumes : inputs.prod = outputs.prod) :
    Spills inputs outputs ↔ Coarsens (inputs.filter (· ≠ 1)) (outputs.filter (· ≠ 1)) ∧
      Odd (agreeing (unitRuns inputs) (unitRuns outputs)) := by
  obtain ⟨ones, runs, listed, dims, values, wide⟩ := unitRuns_expand positive
  obtain ⟨others, otherRuns, otherListed, otherDims, otherValues, otherWide⟩ := unitRuns_expand positiveOutputs
  have equal : volume runs = volume otherRuns := by
    calc volume runs = inputs.prod := by rw [dims, prod_expand]
      _ = outputs.prod := volumes
      _ = volume otherRuns := by rw [otherDims, prod_expand]
  rw [listed, otherListed, ← values, ← otherValues, ← spills_runs_iff wide otherWide equal, ← dims, ← otherDims]

end Runs

section Exact
variable {α : Type}

theorem matchAndRewrite_error_iff (chain : Chain) :
    (∃ stop, matchAndRewrite chain = .error stop) ↔
      (chain.originalHasOneUse ∨ chain.reshapeHasOneUse ∨ chain.finalHasOneUse) ∧
        chain.shape.length = chain.reshaped.length ∧ Spills (gather chain.shape chain.original) chain.reshaped := by
  have extents : (chain.original.zip (gather chain.shape chain.original)).map Prod.snd =
      gather chain.shape chain.original := List.map_snd_zip (by rw [gather_length])
  have scan := groupDims_error_iff (chain.original.zip (gather chain.shape chain.original)) chain.reshaped
  rw [extents] at scan
  unfold matchAndRewrite
  split
  · rename_i shared
    have used : ¬ (chain.originalHasOneUse ∨ chain.reshapeHasOneUse ∨ chain.finalHasOneUse) := by
      simpa [not_or, and_assoc] using shared
    exact ⟨fun ⟨_, failed⟩ => (nomatch failed), fun all => absurd all.1 used⟩
  rename_i favorable
  split
  · rename_i ranks
    exact ⟨fun ⟨_, failed⟩ => (nomatch failed), fun all => absurd all.2.1 ranks⟩
  rename_i ranks
  have used : chain.originalHasOneUse ∨ chain.reshapeHasOneUse ∨ chain.finalHasOneUse := by
    by_contra none
    exact favorable (by simpa [not_or, and_assoc] using none)
  have mapped : ∀ answer : Except Stop (Option (List (List Nat))), ∀ check : Option (List (List Nat)) →
      Option (List Nat),
      (∃ stop, answer.map check = .error stop) ↔ ∃ stop, answer = .error stop := by
    intro answer check
    cases answer <;> simp [Except.map]
  rw [mapped]
  exact scan.trans ⟨fun spills => ⟨used, not_not.mp ranks, spills⟩, fun all => all.2.2⟩

/-- The pattern serves a chain unless all of it is shared, its ranks differ, or its shapes do not spill. -/
theorem fuses_iff_not_spills (chain : Chain) :
    chain.Fuses α ↔
      ¬ ((chain.originalHasOneUse ∨ chain.reshapeHasOneUse ∨ chain.finalHasOneUse) ∧
        chain.shape.length = chain.reshaped.length ∧
          if 0 ∈ chain.shape then Spills (gather chain.shape chain.original) chain.reshaped
          else
            Coarsens ((gather chain.shape chain.original).filter (· ≠ 1)) (chain.reshaped.filter (· ≠ 1)) ∧
              Odd (agreeing (unitRuns (gather chain.shape chain.original)) (unitRuns chain.reshaped))) := by
  have ends : (∃ rewritten, matchAndRewrite chain = .ok rewritten) ↔ ¬ ∃ stop, matchAndRewrite chain = .error stop := by
    cases matchAndRewrite chain <;> simp
  rw [fuses_iff, ends, matchAndRewrite_error_iff]
  refine not_congr (and_congr_right fun _ => and_congr_right fun _ => ?_)
  split
  · rfl
  rename_i positive
  have permuted : (gather chain.shape chain.original).Perm chain.shape :=
    map_getD_perm chain.shape 0 chain.originalPermutes
  have volumes : (gather chain.shape chain.original).prod = chain.reshaped.prod :=
    permuted.prod_eq.trans chain.volume.symm
  have positiveOutputs : 0 ∉ chain.reshaped := by
    intro zero
    have none := chain.volume.symm.trans (List.prod_eq_zero_iff.mpr zero)
    exact positive (List.prod_eq_zero_iff.mp none)
  exact spills_iff_of_positive (fun zero => positive (permuted.mem_iff.mp zero)) positiveOutputs volumes

/-- A last dim of one that the reshape moves to the front: [1, 2] is permuted to [2, 1], reshaped to [1, 2] and
permuted again. -/
def movedOne : Chain where
  shape := [1, 2]
  original := [1, 0]
  reshaped := [1, 2]
  final := [1, 0]
  originalPermutes := by decide
  volume := by decide
  finalPermutes := by decide
  originalHasOneUse := true
  reshapeHasOneUse := true
  finalHasOneUse := true

theorem movedOne_not_consumed : matchAndRewrite movedOne = .error .notFullyConsumed ∧ ¬ movedOne.Fuses Nat := by
  have failed : matchAndRewrite movedOne = .error .notFullyConsumed := by decide
  refine ⟨failed, ?_⟩
  rintro ⟨rewritten, ends, _⟩
  rw [failed] at ends
  exact nomatch ends

end Exact

end TtMlir.Ttir.TMFusion
