import Mathlib

/-!
The groups of dims that a reshape maps to each other, `computeDimGroupMapping` in
TTNNMemoryManagement.cpp. A group ends as soon as its products agree. A dim of one in the
output makes a group of its own where the input has none at its place; one in the input does
not.
-/

namespace TtMlir.Ttnn.DimGroups

structure DimGroup where
  inStart : Nat
  inCount : Nat
  outStart : Nat
  outCount : Nat
  deriving DecidableEq, Repr

/-- How many more dims of the input and of the output a group takes until its products agree. -/
def growGroup (inProd outProd : Nat) (ins outs : List Nat) : Option (Nat × Nat) :=
  if inProd = outProd then some (0, 0)
  else if inProd < outProd then
    match ins with
    | [] => none
    | extent :: ins => (growGroup (inProd * extent) outProd ins outs).map fun taken => (taken.1 + 1, taken.2)
  else
    match outs with
    | [] => none
    | extent :: outs => (growGroup inProd (outProd * extent) ins outs).map fun taken => (taken.1, taken.2 + 1)
termination_by ins.length + outs.length

/-- The groups of the dims from `inIdx` and `outIdx`. -/
def mapDims (inIdx outIdx : Nat) : List Nat → List Nat → Option (List DimGroup)
  | [], [] => some []
  | [], outExtent :: outs =>
      if outExtent = 1 then (mapDims inIdx (outIdx + 1) [] outs).map (⟨inIdx, 0, outIdx, 1⟩ :: ·)
      else none
  | _ :: _, [] => none
  | inExtent :: ins, outExtent :: outs =>
      if outExtent = 1 ∧ inExtent ≠ 1 then
        (mapDims inIdx (outIdx + 1) (inExtent :: ins) outs).map (⟨inIdx, 0, outIdx, 1⟩ :: ·)
      else
        match growGroup inExtent outExtent ins outs with
        | none => none
        | some (moreIns, moreOuts) =>
            (mapDims (inIdx + (moreIns + 1)) (outIdx + (moreOuts + 1)) (ins.drop moreIns) (outs.drop moreOuts)).map
              (⟨inIdx, moreIns + 1, outIdx, moreOuts + 1⟩ :: ·)
termination_by ins outs => ins.length + outs.length
decreasing_by
  all_goals simp only [List.length_cons, List.length_nil, List.length_drop]
  all_goals omega

def computeDimGroupMapping (inputShape outputShape : List Nat) : Option (List DimGroup) :=
  mapDims 0 0 inputShape outputShape

/-- Consecutive groups of the dims from `inIdx` and `outIdx`, with one product on both sides. -/
inductive Grouped : Nat → Nat → List Nat → List Nat → List DimGroup → Prop
  | nil (inIdx outIdx : Nat) : Grouped inIdx outIdx [] [] []
  | cons {inIdx outIdx : Nat} {inSub outSub ins outs : List Nat} {groups : List DimGroup} :
      inSub.prod = outSub.prod → (inSub = [] → outSub = [1]) →
      Grouped (inIdx + inSub.length) (outIdx + outSub.length) ins outs groups →
      Grouped inIdx outIdx (inSub ++ ins) (outSub ++ outs) (⟨inIdx, inSub.length, outIdx, outSub.length⟩ :: groups)

section Grow
variable {inProd outProd moreIns moreOuts : Nat} {ins outs : List Nat}

theorem growGroup_equal (equal : inProd = outProd) : growGroup inProd outProd ins outs = some (0, 0) := by
  rw [growGroup.eq_def, if_pos equal]

theorem growGroup_in (less : inProd < outProd) (extent : Nat) :
    growGroup inProd outProd (extent :: ins) outs =
      (growGroup (inProd * extent) outProd ins outs).map fun taken => (taken.1 + 1, taken.2) := by
  rw [growGroup.eq_def, if_neg less.ne, if_pos less]

theorem growGroup_out (less : outProd < inProd) (extent : Nat) :
    growGroup inProd outProd ins (extent :: outs) =
      (growGroup inProd (outProd * extent) ins outs).map fun taken => (taken.1, taken.2 + 1) := by
  rw [growGroup.eq_def, if_neg less.ne', if_neg (Nat.not_lt.mpr less.le)]

theorem growGroup_spec (grown : growGroup inProd outProd ins outs = some (moreIns, moreOuts)) :
    moreIns ≤ ins.length ∧ moreOuts ≤ outs.length ∧
      inProd * (ins.take moreIns).prod = outProd * (outs.take moreOuts).prod ∧
        (inProd < outProd → 0 < moreIns) ∧ (outProd < inProd → 0 < moreOuts) ∧
          (∀ last ∈ (ins.take moreIns).getLast?, last ≠ 1) ∧ ∀ last ∈ (outs.take moreOuts).getLast?, last ≠ 1 := by
  induction inProd, outProd, ins, outs using growGroup.induct generalizing moreIns moreOuts with
  | case1 outProd ins outs =>
      rw [growGroup_equal rfl] at grown
      cases grown
      simp
  | case2 inProd outProd outs differ less =>
      rw [growGroup.eq_def, if_neg differ, if_pos less] at grown
      exact nomatch grown
  | case3 inProd outProd outs differ less extent ins ih =>
      rw [growGroup_in less] at grown
      obtain ⟨⟨innerIns, innerOuts⟩, inner, taken⟩ := Option.map_eq_some_iff.mp grown
      cases taken
      obtain ⟨inBound, outBound, product, moreIn, moreOut, lastIn, lastOut⟩ := ih inner
      refine ⟨by simpa using inBound, outBound, ?_, fun _ => Nat.succ_pos _, ?_, ?_, lastOut⟩
      · rw [List.take_succ_cons, List.prod_cons, ← Nat.mul_assoc]
        exact product
      · intro more
        omega
      · -- A dim of one does not end the group, for the products still differ.
        intro last found
        rw [List.take_succ_cons] at found
        cases innerIns with
        | zero =>
            have single : extent = last := by simpa using found
            intro one
            have still : inProd * extent < outProd := by rw [single, one, Nat.mul_one]; exact less
            exact Nat.lt_irrefl 0 (moreIn still)
        | succ count =>
            cases ins with
            | nil => simp at inBound
            | cons next ins =>
                apply lastIn last
                rw [List.take_succ_cons] at found ⊢
                rwa [List.getLast?_cons_cons] at found
  | case4 inProd outProd ins differ notLess =>
      rw [growGroup.eq_def, if_neg differ, if_neg notLess] at grown
      exact nomatch grown
  | case5 inProd outProd ins differ notLess extent outs ih =>
      have less : outProd < inProd := by omega
      rw [growGroup_out less] at grown
      obtain ⟨⟨innerIns, innerOuts⟩, inner, taken⟩ := Option.map_eq_some_iff.mp grown
      cases taken
      obtain ⟨inBound, outBound, product, moreIn, moreOut, lastIn, lastOut⟩ := ih inner
      refine ⟨inBound, by simpa using outBound, ?_, ?_, fun _ => Nat.succ_pos _, lastIn, ?_⟩
      · rw [List.take_succ_cons, List.prod_cons, ← Nat.mul_assoc]
        exact product
      · intro more
        omega
      · intro last found
        rw [List.take_succ_cons] at found
        cases innerOuts with
        | zero =>
            have single : extent = last := by simpa using found
            intro one
            have still : outProd * extent < inProd := by rw [single, one, Nat.mul_one]; exact less
            exact Nat.lt_irrefl 0 (moreOut still)
        | succ count =>
            cases outs with
            | nil => simp at outBound
            | cons next outs =>
                apply lastOut last
                rw [List.take_succ_cons] at found ⊢
                rwa [List.getLast?_cons_cons] at found

theorem growGroup_ends (positiveIn : 0 < inProd) (positiveOut : 0 < outProd) (ins outs : List Nat)
    (inExtents : ∀ extent ∈ ins, 0 < extent) (outExtents : ∀ extent ∈ outs, 0 < extent)
    (volume : inProd * ins.prod = outProd * outs.prod) : (growGroup inProd outProd ins outs).isSome := by
  induction inProd, outProd, ins, outs using growGroup.induct with
  | case1 outProd ins outs => rw [growGroup_equal rfl]; rfl
  | case2 inProd outProd outs differ less =>
      -- No input dims are left and the product is too small: the volumes would differ.
      have some : 0 < outs.prod := List.prod_pos outExtents
      have bound := Nat.le_mul_of_pos_right outProd some
      rw [List.prod_nil, Nat.mul_one] at volume
      omega
  | case3 inProd outProd outs differ less extent ins ih =>
      rw [growGroup_in less, Option.isSome_map]
      apply ih (Nat.mul_pos positiveIn (inExtents extent List.mem_cons_self)) positiveOut
      · exact fun other member => inExtents other (List.mem_cons_of_mem _ member)
      · exact outExtents
      · rw [Nat.mul_assoc, ← List.prod_cons]
        exact volume
  | case4 inProd outProd ins differ notLess =>
      -- The same on the other side.
      have some : 0 < ins.prod := List.prod_pos inExtents
      have bound := Nat.le_mul_of_pos_right inProd some
      rw [List.prod_nil, Nat.mul_one] at volume
      omega
  | case5 inProd outProd ins differ notLess extent outs ih =>
      have less : outProd < inProd := by omega
      rw [growGroup_out less, Option.isSome_map]
      apply ih positiveIn (Nat.mul_pos positiveOut (outExtents extent List.mem_cons_self))
      · exact inExtents
      · exact fun other member => outExtents other (List.mem_cons_of_mem _ member)
      · rw [Nat.mul_assoc, ← List.prod_cons]
        exact volume

end Grow

section Map
variable {inIdx outIdx : Nat} {ins outs inputShape outputShape : List Nat} {groups : List DimGroup}

theorem Grouped.insert (grouped : Grouped inIdx (outIdx + 1) ins outs groups) :
    Grouped inIdx outIdx ins (1 :: outs) (⟨inIdx, 0, outIdx, 1⟩ :: groups) :=
  @Grouped.cons inIdx outIdx [] [1] ins outs groups rfl (fun _ => rfl) grouped

theorem Grouped.take {inExtent outExtent moreIns moreOuts : Nat}
    (grown : growGroup inExtent outExtent ins outs = some (moreIns, moreOuts))
    (grouped : Grouped (inIdx + (moreIns + 1)) (outIdx + (moreOuts + 1)) (ins.drop moreIns)
      (outs.drop moreOuts) groups) :
    Grouped inIdx outIdx (inExtent :: ins) (outExtent :: outs)
      (⟨inIdx, moreIns + 1, outIdx, moreOuts + 1⟩ :: groups) := by
  obtain ⟨inBound, outBound, product, _⟩ := growGroup_spec grown
  have inLength : (inExtent :: ins.take moreIns).length = moreIns + 1 := by simp [inBound]
  have outLength : (outExtent :: outs.take moreOuts).length = moreOuts + 1 := by simp [outBound]
  rw [← inLength, ← outLength] at grouped ⊢
  have products : (inExtent :: ins.take moreIns).prod = (outExtent :: outs.take moreOuts).prod := by
    rw [List.prod_cons, List.prod_cons, product]
  have step := Grouped.cons products (fun empty => nomatch empty) grouped
  rw [List.cons_append, List.cons_append, List.take_append_drop, List.take_append_drop] at step
  exact step

theorem mapDims_grouped (found : mapDims inIdx outIdx ins outs = some groups) :
    Grouped inIdx outIdx ins outs groups := by
  induction inIdx, outIdx, ins, outs using mapDims.induct generalizing groups with
  | case1 inIdx outIdx =>
      rw [mapDims] at found
      cases found
      exact .nil inIdx outIdx
  -- Only ones of the output are left, each a group of its own.
  | case2 inIdx outIdx outs ih =>
      rw [mapDims, if_pos rfl] at found
      obtain ⟨rest, inner, taken⟩ := Option.map_eq_some_iff.mp found
      cases taken
      exact (ih inner).insert
  | case3 inIdx outIdx outExtent outs other =>
      rw [mapDims, if_neg other] at found
      exact nomatch found
  | case4 inIdx outIdx inExtent ins =>
      rw [mapDims] at found
      exact nomatch found
  -- A one that the reshape puts in front of a wider dim.
  | case5 inIdx outIdx inExtent ins outExtent outs unit ih =>
      rw [mapDims, if_pos unit] at found
      obtain ⟨rest, inner, taken⟩ := Option.map_eq_some_iff.mp found
      cases taken
      rw [unit.1]
      exact (ih inner).insert
  | case6 inIdx outIdx inExtent ins outExtent outs notUnit stuck =>
      rw [mapDims, if_neg notUnit, stuck] at found
      exact nomatch found
  | case7 inIdx outIdx inExtent ins outExtent outs notUnit moreIns moreOuts grown ih =>
      rw [mapDims, if_neg notUnit, grown] at found
      obtain ⟨rest, inner, taken⟩ := Option.map_eq_some_iff.mp found
      cases taken
      exact (ih inner).take grown

end Map

def trailingUnits (shape : List Nat) : Nat := (shape.reverse.takeWhile (· = 1)).length

section TrailingUnits
variable {shape front back : List Nat}

theorem trailingUnits_units (units : ∀ extent ∈ shape, extent = 1) : trailingUnits shape = shape.length := by
  unfold trailingUnits
  rw [List.takeWhile_eq_self_iff.mpr, List.length_reverse]
  intro extent member
  simpa using units extent (List.mem_reverse.mp member)

theorem trailingUnits_append (last : ∀ extent ∈ front.getLast?, extent ≠ 1) (back : List Nat) :
    trailingUnits (front ++ back) = trailingUnits back := by
  have none : front.reverse.takeWhile (· = 1) = [] := by
    cases reversed : front.reverse with
    | nil => rfl
    | cons extent rest =>
        have found : extent ∈ front.getLast? := by rw [← List.head?_reverse, reversed]; rfl
        simpa using last extent found
  unfold trailingUnits
  rw [List.reverse_append, List.takeWhile_append, none, List.append_nil]
  split
  · rename_i whole
    rw [whole]
  · rfl

theorem trailingUnits_cons (extent : Nat) (other : ∃ wide ∈ back, wide ≠ 1) :
    trailingUnits (extent :: back) = trailingUnits back := by
  obtain ⟨wide, member, large⟩ := other
  have short : (back.reverse.takeWhile (· = 1)).length ≠ back.reverse.length := by
    intro whole
    have all := (List.takeWhile_prefix (· = 1) (l := back.reverse)).eq_of_length whole
    exact large (by simpa using List.takeWhile_eq_self_iff.mp all wide (List.mem_reverse.mpr member))
  unfold trailingUnits
  rw [List.reverse_cons, List.takeWhile_append, if_neg short]

theorem units_of_prod (product : shape.prod = 1) : ∀ extent ∈ shape, extent = 1 := by
  intro extent member
  exact Nat.dvd_one.mp (product ▸ List.dvd_prod member)

end TrailingUnits

section Total
variable {inIdx outIdx : Nat} {ins outs inputShape outputShape : List Nat} {groups : List DimGroup}

theorem exists_wide (product : outs.prod ≠ 1) : ∃ wide ∈ outs, wide ≠ 1 := by
  by_contra none
  push Not at none
  exact product (List.prod_eq_one none)

/-- In front of dims of one volume, an equal dim on both sides does not change which side ends in more ones. -/
theorem trailingUnits_both (volume : ins.prod = outs.prod) :
    trailingUnits (1 :: ins) ≤ trailingUnits (1 :: outs) ↔ trailingUnits ins ≤ trailingUnits outs := by
  by_cases single : ins.prod = 1
  · have inUnits := units_of_prod single
    have outUnits := units_of_prod (volume ▸ single)
    rw [trailingUnits_units (List.forall_mem_cons.mpr ⟨rfl, inUnits⟩),
      trailingUnits_units (List.forall_mem_cons.mpr ⟨rfl, outUnits⟩),
      trailingUnits_units inUnits, trailingUnits_units outUnits, List.length_cons, List.length_cons]
    omega
  · rw [trailingUnits_cons 1 (exists_wide single), trailingUnits_cons 1 (exists_wide (volume ▸ single))]

theorem trailingUnits_grown {inExtent outExtent moreIns moreOuts : Nat}
    (grown : growGroup inExtent outExtent ins outs = some (moreIns, moreOuts)) (wide : inExtent ≠ 1 ∨ outExtent ≠ 1)
    (notInserted : ¬ (outExtent = 1 ∧ inExtent ≠ 1)) (positive : 0 < outExtent) :
    trailingUnits (inExtent :: ins) = trailingUnits (ins.drop moreIns) ∧
      trailingUnits (outExtent :: outs) = trailingUnits (outs.drop moreOuts) := by
  obtain ⟨_, _, _, moreIn, _, lastIn, lastOut⟩ := growGroup_spec grown
  constructor
  · rw [← List.take_append_drop moreIns ins, ← List.cons_append, List.take_append_drop]
    apply trailingUnits_append
    intro extent found
    cases taken : ins.take moreIns with
    | nil =>
        have single : inExtent = extent := by simpa [taken] using found
        rw [← single]
        intro one
        -- A first dim of one is less than the other one, so the group goes on.
        have more := moreIn (by omega)
        have empty : ins = [] := (List.take_eq_nil_iff.mp taken).resolve_left more.ne'
        rw [one, empty, growGroup.eq_def, if_neg (by omega), if_pos (by omega)] at grown
        exact nomatch grown
    | cons next rest =>
        rw [taken, List.getLast?_cons_cons] at found
        exact lastIn extent (taken ▸ found)
  · rw [← List.take_append_drop moreOuts outs, ← List.cons_append, List.take_append_drop]
    apply trailingUnits_append
    intro extent found
    cases taken : outs.take moreOuts with
    | nil =>
        have single : outExtent = extent := by simpa [taken] using found
        rw [← single]
        omega
    | cons next rest =>
        rw [taken, List.getLast?_cons_cons] at found
        exact lastOut extent (taken ▸ found)

theorem mapDims_isSome_iff (inExtents : ∀ extent ∈ ins, 0 < extent) (outExtents : ∀ extent ∈ outs, 0 < extent)
    (volume : ins.prod = outs.prod) :
    (mapDims inIdx outIdx ins outs).isSome ↔ trailingUnits ins ≤ trailingUnits outs := by
  induction inIdx, outIdx, ins, outs using mapDims.induct with
  | case1 inIdx outIdx => simp [mapDims]
  | case2 inIdx outIdx outs ih =>
      have later : ∀ extent ∈ outs, 0 < extent := fun extent member => outExtents extent (List.mem_cons_of_mem _ member)
      rw [List.prod_cons, Nat.one_mul] at volume
      rw [mapDims, if_pos rfl, Option.isSome_map, ih inExtents later volume]
      exact ⟨fun _ => Nat.zero_le _, fun _ => Nat.zero_le _⟩
  | case3 inIdx outIdx outExtent outs other =>
      exact absurd (units_of_prod volume.symm outExtent List.mem_cons_self) other
  -- The input has dims left and the output has none: the failure, and these dims are all ones.
  | case4 inIdx outIdx inExtent ins =>
      rw [mapDims, trailingUnits_units (units_of_prod volume)]
      simp [trailingUnits]
  | case5 inIdx outIdx inExtent ins outExtent outs unit ih =>
      have later : ∀ extent ∈ outs, 0 < extent := fun extent member => outExtents extent (List.mem_cons_of_mem _ member)
      rw [List.prod_cons (l := outs), unit.1, Nat.one_mul] at volume
      have wide : outs.prod ≠ 1 := fun single =>
          unit.2 (units_of_prod (volume.trans single) inExtent List.mem_cons_self)
      rw [mapDims, if_pos unit, Option.isSome_map, ih inExtents later volume, trailingUnits_cons _ (exists_wide wide)]
  | case6 inIdx outIdx inExtent ins outExtent outs notUnit stuck =>
      have ends := growGroup_ends (inExtents _ List.mem_cons_self) (outExtents _ List.mem_cons_self) ins outs
        (fun extent member => inExtents extent (List.mem_cons_of_mem _ member))
        (fun extent member => outExtents extent (List.mem_cons_of_mem _ member)) volume
      rw [stuck] at ends
      exact nomatch ends
  | case7 inIdx outIdx inExtent ins outExtent outs notUnit moreIns moreOuts grown ih =>
      obtain ⟨_, _, product, _⟩ := growGroup_spec grown
      have insLater : ∀ extent ∈ ins, 0 < extent := fun extent member =>
          inExtents extent (List.mem_cons_of_mem _ member)
      have outsLater : ∀ extent ∈ outs, 0 < extent := fun extent member =>
          outExtents extent (List.mem_cons_of_mem _ member)
      have group : 0 < inExtent * (ins.take moreIns).prod :=
        Nat.mul_pos (inExtents _ List.mem_cons_self)
          (List.prod_pos fun extent member => insLater extent (List.mem_of_mem_take member))
      -- What a group leaves has one volume again.
      have left : (ins.drop moreIns).prod = (outs.drop moreOuts).prod := by
        rw [List.prod_cons, List.prod_cons, ← List.prod_take_mul_prod_drop ins moreIns,
          ← List.prod_take_mul_prod_drop outs moreOuts, ← Nat.mul_assoc, ← Nat.mul_assoc, ← product] at volume
        exact Nat.eq_of_mul_eq_mul_left group volume
      rw [mapDims, if_neg notUnit, grown]
      simp only [Option.isSome_map]
      rw [ih (fun extent member => insLater extent (List.mem_of_mem_drop member))
        (fun extent member => outsLater extent (List.mem_of_mem_drop member)) left]
      -- A group of two ones is the only one that takes ones off the ends.
      by_cases wide : inExtent ≠ 1 ∨ outExtent ≠ 1
      · obtain ⟨inSame, outSame⟩ := trailingUnits_grown grown wide notUnit (outExtents _ List.mem_cons_self)
        rw [inSame, outSame]
      · push Not at wide
        obtain ⟨inOne, outOne⟩ := wide
        rw [inOne, outOne, growGroup_equal rfl] at grown
        cases grown
        rw [inOne, outOne]
        exact (trailingUnits_both left).symm

end Total

/-- Groups that are consecutive ranges of all dims, from the given positions to the ends. -/
def Consecutive (inEnd outEnd : Nat) : Nat → Nat → List DimGroup → Prop
  | inIdx, outIdx, [] => inIdx = inEnd ∧ outIdx = outEnd
  | inIdx, outIdx, group :: groups =>
      group.inStart = inIdx ∧ group.outStart = outIdx ∧
        Consecutive inEnd outEnd (inIdx + group.inCount) (outIdx + group.outCount) groups

def dimsOf (shape : List Nat) (start count : Nat) : List Nat := (shape.drop start).take count

/-- Consecutive ranges that cover every dim of both shapes once, with one product on both sides. -/
structure MapsReshape (inputShape outputShape : List Nat) (groups : List DimGroup) : Prop where
  consecutive : Consecutive inputShape.length outputShape.length 0 0 groups
  products : ∀ group ∈ groups, 0 < group.inCount →
    (dimsOf inputShape group.inStart group.inCount).prod = (dimsOf outputShape group.outStart group.outCount).prod

section Reshape
variable {inIdx outIdx : Nat} {ins outs inputShape outputShape : List Nat} {groups : List DimGroup}

theorem Grouped.consecutive (grouped : Grouped inIdx outIdx ins outs groups) :
    Consecutive (inIdx + ins.length) (outIdx + outs.length) inIdx outIdx groups := by
  induction grouped with
  | nil inIdx outIdx => exact ⟨rfl, rfl⟩
  | cons product inserted later ih =>
      refine ⟨rfl, rfl, ?_⟩
      rw [List.length_append, List.length_append, ← Nat.add_assoc, ← Nat.add_assoc]
      exact ih

theorem Grouped.prod (grouped : Grouped inIdx outIdx ins outs groups) : ins.prod = outs.prod := by
  induction grouped with
  | nil => rfl
  | cons product _ _ ih => rw [List.prod_append, List.prod_append, product, ih]

theorem dimsOf_append (front sub back : List Nat) : dimsOf (front ++ (sub ++ back)) front.length sub.length = sub := by
  unfold dimsOf
  rw [List.drop_left, List.take_left]

theorem Grouped.products (grouped : Grouped inIdx outIdx ins outs groups) (inFront outFront : List Nat)
    (inLength : inFront.length = inIdx) (outLength : outFront.length = outIdx) :
    ∀ group ∈ groups, (dimsOf (inFront ++ ins) group.inStart group.inCount).prod =
      (dimsOf (outFront ++ outs) group.outStart group.outCount).prod := by
  induction grouped generalizing inFront outFront with
  | nil => simp
  | @cons inIdx outIdx inSub outSub ins outs groups product inserted later ih =>
      intro group member
      rcases List.mem_cons.mp member with rfl | further
      · subst inLength outLength
        dsimp only
        rw [dimsOf_append, dimsOf_append, product]
      · have rest := ih (inFront ++ inSub) (outFront ++ outSub) (by rw [List.length_append, inLength])
          (by rw [List.length_append, outLength])
        rw [List.append_assoc, List.append_assoc] at rest
        exact rest group further

theorem mapping_mapsReshape (found : computeDimGroupMapping inputShape outputShape = some groups) :
    MapsReshape inputShape outputShape groups := by
  have grouped := mapDims_grouped found
  constructor
  · simpa using grouped.consecutive
  · intro group member _
    exact grouped.products [] [] rfl rfl group member

/-- Positive shapes of one volume have groups exactly when the input does not end in more ones than the output. -/
theorem computeDimGroupMapping_iff (inputShape outputShape : List Nat) (inputExtents : ∀ extent ∈ inputShape, 0 < extent)
    (outputExtents : ∀ extent ∈ outputShape, 0 < extent) (volume : inputShape.prod = outputShape.prod) :
    (∃ groups, computeDimGroupMapping inputShape outputShape = some groups ∧ MapsReshape inputShape outputShape groups) ↔
      trailingUnits inputShape ≤ trailingUnits outputShape := by
  rw [← @mapDims_isSome_iff 0 0 inputShape outputShape inputExtents outputExtents volume, Option.isSome_iff_exists]
  constructor
  · rintro ⟨groups, found, _⟩
    exact ⟨groups, found⟩
  · rintro ⟨groups, found⟩
    exact ⟨groups, found, mapping_mapsReshape found⟩

theorem split_row_mapped :
    (∃ groups, computeDimGroupMapping [1, 8, 16] [1, 2, 4, 16] = some groups ∧ MapsReshape [1, 8, 16] [1, 2, 4, 16] groups) ↔
      trailingUnits [1, 8, 16] ≤ trailingUnits [1, 2, 4, 16] :=
  computeDimGroupMapping_iff [1, 8, 16] [1, 2, 4, 16] (by decide) (by decide) (by decide)

/-- The reshape of the example beside the propagation of slices. -/
theorem example_not_mapped : [1, 8, 16, 1].prod = [1, 8, 16].prod ∧
    ¬ ∃ groups, computeDimGroupMapping [1, 8, 16, 1] [1, 8, 16] = some groups ∧ MapsReshape [1, 8, 16, 1] [1, 8, 16] groups := by
  refine ⟨by decide, ?_⟩
  rintro ⟨groups, found, _⟩
  simp [computeDimGroupMapping, mapDims, growGroup] at found

end Reshape

end TtMlir.Ttnn.DimGroups
