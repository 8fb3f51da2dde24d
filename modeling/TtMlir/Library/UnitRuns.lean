import Mathlib

/-!
Shapes as dims other than one, each with the number of ones after it, and how far two
shapes agree from the back.
-/

namespace TtMlir.UnitRuns

/-- The dims other than one with the number of ones after each, and in front the number of leading ones, as those of a
dim of one. -/
def runsFrom (dim ones : Nat) : List Nat → List (Nat × Nat)
  | [] => [(dim, ones)]
  | extent :: shape => if extent = 1 then runsFrom dim (ones + 1) shape else (dim, ones) :: runsFrom extent 0 shape

def unitRuns (shape : List Nat) : List (Nat × Nat) := runsFrom 1 0 shape

def expand (runs : List (Nat × Nat)) : List Nat := runs.flatMap fun run => run.1 :: List.replicate run.2 1

/-- How many of the last runs have equal dims and more ones in the first list. -/
def agreeing (runs others : List (Nat × Nat)) : Nat :=
  ((runs.reverse.zip others.reverse).takeWhile fun pair => decide (pair.1.1 = pair.2.1 ∧ pair.2.2 < pair.1.2)).length

def Coarsens (dims others : List Nat) : Prop := ∃ groups : List (List Nat), groups.flatten = dims ∧ groups.map List.prod = others

section Expand

theorem runsFrom_expand (dim ones : Nat) (shape : List Nat) :
    ∃ leading runs, runsFrom dim ones shape = (dim, ones + leading) :: runs ∧
      shape = List.replicate leading 1 ++ expand runs ∧ runs.map Prod.fst = shape.filter (· ≠ 1) ∧
        ∀ run ∈ runs, run.1 ≠ 1 := by
  induction shape generalizing dim ones with
  | nil => exact ⟨0, [], rfl, rfl, rfl, by simp⟩
  | cons extent shape ih =>
      by_cases unit : extent = 1
      · obtain ⟨leading, runs, listed, dims, values, wide⟩ := ih dim (ones + 1)
        refine ⟨leading + 1, runs, ?_, ?_, ?_, wide⟩
        · rw [runsFrom, if_pos unit, listed, Nat.add_assoc, Nat.add_comm 1]
        · rw [dims, unit, List.replicate_succ, List.cons_append, ← dims]
        · rw [values, unit]
          rfl
      · obtain ⟨leading, runs, listed, dims, values, wide⟩ := ih extent 0
        refine ⟨0, (extent, leading) :: runs, ?_, ?_, ?_, ?_⟩
        · rw [runsFrom, if_neg unit, listed, Nat.zero_add, Nat.add_zero]
        · simpa [expand] using dims
        · simp [values, unit]
        · simpa [unit] using wide

theorem expand_cons (run : Nat × Nat) (runs : List (Nat × Nat)) :
    expand (run :: runs) = run.1 :: (List.replicate run.2 1 ++ expand runs) := rfl

theorem expand_append (front back : List (Nat × Nat)) : expand (front ++ back) = expand front ++ expand back :=
  List.flatMap_append

theorem expand_split {ones : Nat} {runs : List (Nat × Nat)} {front back : List Nat}
    (split : List.replicate ones 1 ++ expand runs = front ++ back) (following : ∀ next ∈ back.head?, 1 < next) :
    ∃ frontRuns backRuns, runs = frontRuns ++ backRuns ∧ front = List.replicate ones 1 ++ expand frontRuns ∧
      back = expand backRuns := by
  induction runs generalizing ones front with
  | nil =>
      have only : back = [] := by
        cases back with
        | nil => rfl
        | cons next back =>
            have unit : next ∈ List.replicate ones 1 := by
              rw [← List.append_nil (List.replicate ones 1)]
              exact split ▸ List.mem_append_right front List.mem_cons_self
            have := following next rfl
            rw [List.eq_of_mem_replicate unit] at this
            omega
      subst only
      exact ⟨[], [], rfl, by rw [← List.append_nil front, ← split], rfl⟩
  | cons run runs ih =>
      -- The cut falls behind the first run or inside its ones, and there the second part would start with a one.
      rcases List.append_eq_append_iff.mp split with ⟨more, fronted, rest⟩ | ⟨more, units, rest⟩
      · cases more with
        | nil =>
            rw [List.append_nil] at fronted
            exact ⟨[], run :: runs, rfl, by simpa [expand] using fronted, rest.symm⟩
        | cons first more =>
            obtain ⟨same, remains⟩ := List.cons.inj rest
            obtain ⟨frontRuns, backRuns, rfl, dims, backed⟩ := ih remains
            exact ⟨run :: frontRuns, backRuns, rfl, by rw [fronted, dims, ← same, expand_cons], backed⟩
      · cases more with
        | nil =>
            rw [List.append_nil] at units
            exact ⟨[], run :: runs, rfl, by simpa [expand] using units.symm, rest⟩
        | cons first more =>
            have unit : first ∈ List.replicate ones 1 := units ▸ List.mem_append_right front List.mem_cons_self
            have := following first (by rw [rest]; rfl)
            rw [List.eq_of_mem_replicate unit] at this
            omega

end Expand

section Coarsens

theorem Coarsens.nil : Coarsens [] [] := ⟨[], rfl, rfl⟩

theorem coarsens_cons_iff {dims others : List Nat} {dim : Nat} :
    Coarsens dims (dim :: others) ↔ ∃ front back, dims = front ++ back ∧ front.prod = dim ∧ Coarsens back others := by
  constructor
  · rintro ⟨groups, flat, products⟩
    cases groups with
    | nil => exact nomatch products
    | cons group groups =>
        obtain ⟨first, later⟩ := List.cons.inj products
        exact ⟨group, groups.flatten, flat.symm, first, groups, rfl, later⟩
  · rintro ⟨front, back, rfl, product, groups, rfl, products⟩
    exact ⟨front :: groups, rfl, by rw [List.map_cons, product, products]⟩

theorem coarsens_equal_iff {dims others : List Nat} {dim : Nat} (large : 1 < dim) (wide : ∀ dim ∈ dims, 1 < dim) :
    Coarsens (dim :: dims) (dim :: others) ↔ Coarsens dims others := by
  rw [coarsens_cons_iff]
  constructor
  · rintro ⟨front, back, listed, product, later⟩
    cases front with
    | nil => exact absurd product large.ne
    | cons first front =>
        obtain ⟨rfl, rfl⟩ := List.cons.inj listed
        cases front with
        | nil => exact later
        | cons second front =>
            rw [List.prod_cons, List.prod_cons] at product
            have one := Nat.eq_of_mul_eq_mul_left (Nat.lt_of_succ_lt large) (product.trans (Nat.mul_one dim).symm)
            exact absurd (Nat.eq_one_of_mul_eq_one_right one) (wide second (by simp)).ne'
  · exact fun later => ⟨[dim], dims, rfl, List.prod_singleton, later⟩

end Coarsens

section Agreeing

variable {front others back runs : List (Nat × Nat)}

/-- Behind lists of one length, what is in front counts only when all of the back agrees. -/
theorem agreeing_append_of_length (front others : List (Nat × Nat)) {runs back : List (Nat × Nat)}
    (length : runs.length = back.length) : agreeing (front ++ runs) (others ++ back) =
      if agreeing runs back = runs.length then runs.length + agreeing front others else agreeing runs back := by
  unfold agreeing
  rw [List.reverse_append, List.reverse_append, List.zip_append (by simp [length]), List.takeWhile_append]
  have total : (runs.reverse.zip back.reverse).length = runs.length := by simp [length]
  rw [total]
  split
  · rw [List.length_append, total]
  · rfl

theorem dims_eq_of_agreeing (length : runs.length = back.length) (all : agreeing runs back = runs.length) :
    runs.map Prod.fst = back.map Prod.fst := by
  have total : (runs.reverse.zip back.reverse).length = runs.length := by simp [length]
  have full := (List.takeWhile_sublist _).eq_of_length (all.trans total.symm)
  have equal : (runs.reverse.zip back.reverse).map (fun pair => pair.1.1) =
      (runs.reverse.zip back.reverse).map fun pair => pair.2.1 := by
    apply List.map_congr_left
    intro pair member
    have agrees := List.takeWhile_eq_self_iff.mp full pair member
    exact (of_decide_eq_true agrees).1
  have left : (runs.reverse.zip back.reverse).map (fun pair => pair.1.1) = (runs.map Prod.fst).reverse := by
    have firsts := List.map_fst_zip (show runs.reverse.length ≤ back.reverse.length by simp [length])
    rw [← List.map_reverse, ← congrArg (List.map Prod.fst) firsts, List.map_map]
    rfl
  have right : (runs.reverse.zip back.reverse).map (fun pair => pair.2.1) = (back.map Prod.fst).reverse := by
    have seconds := List.map_snd_zip (show back.reverse.length ≤ runs.reverse.length by simp [length])
    rw [← List.map_reverse, ← congrArg (List.map Prod.fst) seconds, List.map_map]
    rfl
  rw [left, right] at equal
  exact List.reverse_injective equal

def Wide (runs : List (Nat × Nat)) : Prop := ∀ run ∈ runs, 1 < run.1

def volume (runs : List (Nat × Nat)) : Nat := (runs.map Prod.fst).prod

theorem Wide.volume_pos (wide : Wide runs) : 0 < volume runs := by
  apply List.prod_pos
  intro dim member
  obtain ⟨run, here, rfl⟩ := List.mem_map.mp member
  exact Nat.lt_of_succ_lt (wide run here)

theorem Wide.nil_of_volume (wide : Wide runs) (one : volume runs = 1) : runs = [] := by
  cases runs with
  | nil => rfl
  | cons run rest =>
      have unit : run.1 = 1 := Nat.eq_one_of_mul_eq_one_right ((List.prod_cons (l := rest.map Prod.fst)).symm.trans one)
      have := wide run List.mem_cons_self
      omega

theorem volume_append (front back : List (Nat × Nat)) : volume (front ++ back) = volume front * volume back := by
  unfold volume
  rw [List.map_append, List.prod_append]

theorem Wide.append (wide : Wide (front ++ back)) : Wide front ∧ Wide back :=
  ⟨fun run member => wide run (List.mem_append_left _ member),
    fun run member => wide run (List.mem_append_right _ member)⟩

theorem extra_nil {extra : List (Nat × Nat)} (wide : Wide (extra ++ back))
    (volumes : volume (extra ++ back) = volume runs)
    (dims : runs.map Prod.fst = back.map Prod.fst) : extra = [] := by
  obtain ⟨wideExtra, wideBack⟩ := wide.append
  have same : volume runs = volume back := congrArg List.prod dims
  rw [volume_append, same] at volumes
  exact wideExtra.nil_of_volume (Nat.eq_of_mul_eq_mul_right wideBack.volume_pos (by rw [Nat.one_mul]; exact volumes))

theorem agreeing_append (front others : List (Nat × Nat)) (wide : Wide runs) (wideBack : Wide back)
    (volumes : volume runs = volume back) : agreeing (front ++ runs) (others ++ back) =
      if runs.length = back.length ∧ agreeing runs back = runs.length then runs.length + agreeing front others
      else agreeing runs back := by
  rcases Nat.lt_trichotomy runs.length back.length with shorter | equal | longer
  · rw [if_neg fun both => by omega]
    obtain ⟨extra, rest, rfl, length⟩ : ∃ extra rest, back = extra ++ rest ∧ runs.length = rest.length :=
      ⟨back.take (back.length - runs.length), back.drop (back.length - runs.length), (List.take_append_drop _ _).symm,
        by rw [List.length_drop]; omega⟩
    -- If all runs agreed, the longer list would have more volume.
    have differs : agreeing runs rest ≠ runs.length := by
      intro all
      rw [extra_nil wideBack volumes.symm (dims_eq_of_agreeing length all), List.nil_append] at shorter
      omega
    have short := agreeing_append_of_length [] extra length
    rw [if_neg differs, List.nil_append] at short
    rw [← List.append_assoc, agreeing_append_of_length front (others ++ extra) length, if_neg differs, short]
  · rw [agreeing_append_of_length front others equal]
    simp only [equal, true_and]
  · rw [if_neg fun both => by omega]
    obtain ⟨extra, rest, rfl, length⟩ : ∃ extra rest, runs = extra ++ rest ∧ rest.length = back.length :=
      ⟨runs.take (runs.length - back.length), runs.drop (runs.length - back.length), (List.take_append_drop _ _).symm,
        by rw [List.length_drop]; omega⟩
    have differs : agreeing rest back ≠ rest.length := by
      intro all
      rw [extra_nil wide volumes (dims_eq_of_agreeing length all).symm, List.nil_append] at longer
      omega
    have short := agreeing_append_of_length extra [] length
    rw [if_neg differs, List.nil_append] at short
    rw [← List.append_assoc, agreeing_append_of_length (front ++ extra) others length, if_neg differs, short]

theorem agreeing_singleton (run other : Nat × Nat) :
    agreeing [run] [other] = if run.1 = other.1 ∧ other.2 < run.2 then 1 else 0 := by
  unfold agreeing
  split <;> simp_all

theorem agreeing_pair (first second run : Nat × Nat) (front : List (Nat × Nat)) :
    agreeing (front ++ [run]) [first, second] =
      if run.1 = second.1 ∧ second.2 < run.2 then 1 + agreeing front [first] else 0 := by
  have step := agreeing_append_of_length front [first] (show [run].length = [second].length from rfl)
  rw [agreeing_singleton] at step
  refine step.trans ?_
  by_cases agrees : run.1 = second.1 ∧ second.2 < run.2
  · simp [agrees]
  · simp [agrees]

/-- A dim that is met by an equal one keeps the count where the ones before it were no more than those it meets. -/
theorem agreeing_equal {ones others dim : Nat} {run other : Nat} (wide : Wide runs) (wideBack : Wide back)
    (volumes : volume runs = volume back) (few : ones ≤ others) :
    agreeing ((1, ones) :: (dim, run) :: runs) ((1, others) :: (dim, other) :: back) =
      agreeing ((1, run) :: runs) ((1, other) :: back) := by
  have before := agreeing_append [(1, ones), (dim, run)] [(1, others), (dim, other)] wide wideBack volumes
  have after := agreeing_append [(1, run)] [(1, other)] wide wideBack volumes
  rw [List.cons_append, List.cons_append, List.nil_append, List.cons_append, List.cons_append, List.nil_append]
    at before
  rw [List.singleton_append, List.singleton_append] at after
  have pair := agreeing_pair (1, others) (dim, other) (dim, run) [(1, ones)]
  rw [List.singleton_append, agreeing_singleton] at pair
  rw [before, after, pair, agreeing_singleton]
  simp only [true_and]
  rw [if_neg (Nat.not_lt.mpr few)]

theorem agreeing_group {ones others dim other : Nat} {group : List (Nat × Nat)} (wide : Wide (group ++ runs))
    (wideBack : Wide back) (volumes : volume runs = volume back) (whole : volume group = dim) (nontrivial : dim ≠ 1)
    (distinct : others < ones ∨ (group ++ runs).head?.map Prod.fst ≠ some dim) :
    Odd (agreeing ((1, ones) :: (group ++ runs)) ((1, others) :: (dim, other) :: back)) ↔
      Odd (agreeing ((1, 0) :: runs) ((1, other) :: back)) := by
  obtain ⟨wideGroup, wideRuns⟩ := wide.append
  have before := agreeing_append ((1, ones) :: group) [(1, others), (dim, other)] wideRuns wideBack volumes
  have after := agreeing_append [(1, 0)] [(1, other)] wideRuns wideBack volumes
  rw [List.cons_append, List.cons_append, List.cons_append, List.nil_append] at before
  have none : agreeing [(1, 0)] [(1, other)] = 0 := by
    rw [agreeing_singleton, if_neg fun both => absurd both.2 (Nat.not_lt_zero _)]
  rw [List.singleton_append, List.singleton_append, none, Nat.add_zero] at after
  rw [before, after]
  split
  · obtain ⟨front, last, rfl⟩ : ∃ front last, group = front ++ [last] := by
      refine ⟨group.dropLast, group.getLast ?_, (List.dropLast_append_getLast _).symm⟩
      rintro rfl
      exact nontrivial whole.symm
    have pair := agreeing_pair (1, others) (dim, other) last ((1, ones) :: front)
    rw [List.cons_append] at pair
    rw [pair]
    split
    · rename_i agrees
      -- the last dim is the whole group, which then has no other dim
      obtain ⟨wideFront, _⟩ := wideGroup.append
      have alone : front = [] := by
        have same : last.1 = dim := agrees.1
        have single : volume [last] = dim := (List.prod_singleton (x := last.1)).trans same
        rw [volume_append, single] at whole
        have positive : 0 < dim := same ▸ Nat.lt_of_succ_lt (wideGroup last (by simp))
        exact wideFront.nil_of_volume (Nat.eq_of_mul_eq_mul_right positive (by rw [whole, Nat.one_mul]))
      subst alone
      rw [List.nil_append] at distinct
      have fewer : others < ones := distinct.resolve_right fun differs => differs (by simp [agrees.1])
      rw [agreeing_singleton, if_pos ⟨rfl, fewer⟩]
      simp [Nat.odd_add]
    · rw [Nat.add_zero]
  · rfl

theorem prod_expand (ones : Nat) (runs : List (Nat × Nat)) :
    (List.replicate ones 1 ++ expand runs).prod = volume runs := by
  induction runs generalizing ones with
  | nil => simp [expand, volume]
  | cons run runs ih =>
      have later := ih run.2
      rw [List.prod_append, List.prod_replicate, one_pow, one_mul, expand_cons, List.prod_cons, later]
      exact List.prod_cons.symm

end Agreeing

end TtMlir.UnitRuns
