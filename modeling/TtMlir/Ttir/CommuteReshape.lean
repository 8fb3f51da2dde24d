import Mathlib.Algebra.BigOperators.Group.List.Lemmas
import Mathlib.Algebra.BigOperators.Ring.List
import TtMlir.Ttir.CommutePermute

/-!
Reshapes through reductions: the mapped dims have the extents and strides of the
reduced ones, so both reductions drop the same digits of every flat position.
-/

namespace TtMlir.Ttir.ReduceCommute

open Tensor

section Matching

def digitOf (shape : List Nat) (dim : Nat) : Nat × Nat := (shape.getD dim 0, stride shape dim)

theorem drop_prod (shape : List Nat) (dim : Nat) (known : dim < shape.length) :
    (shape.drop (dim + 1)).prod * shape.getD dim 0 = (shape.drop dim).prod := by
  rw [List.drop_eq_getElem_cons known, List.prod_cons, List.getD_eq_getElem _ _ known, Nat.mul_comm]

theorem findFrom_eq_some {toShape : List Nat} {fromStride dimSize count found : Nat} (known : count ≤ toShape.length)
    (here : findFrom toShape fromStride dimSize count (toShape.drop count).prod = some found) :
    found < toShape.length ∧ digitOf toShape found = (dimSize, fromStride) ∧ (toShape.drop count).prod ≤ fromStride := by
  induction count with
  | zero => cases here
  | succ count ih =>
      rw [findFrom] at here
      split at here
      · cases here
      · rename_i low
        split at here
        · rename_i matches_
          cases here
          refine ⟨known, ?_, by omega⟩
          simp only [digitOf, stride, matches_.1, matches_.2]
        · rw [drop_prod toShape count known] at here
          obtain ⟨inside, digit, _⟩ := ih (by omega) here
          exact ⟨inside, digit, by omega⟩

def matching (toShape : List Nat) (digit : Nat × Nat) : Option Nat :=
  findFrom toShape digit.2 digit.1 toShape.length 1

theorem findMatchingDim_eq (fromShape toShape : List Nat) {rank : Nat} (size : fromShape.length = rank) {d : Int}
    (bounds : -(rank : Int) ≤ d ∧ d < rank) : findMatchingDim fromShape toShape (normalized rank d) =
      matching toShape (digitOf fromShape (normalized rank d).toNat) := by
  have range := normalized_range bounds
  rw [findMatchingDim, if_neg (by omega)]
  rfl

theorem matching_eq_some {toShape : List Nat} {digit : Nat × Nat} {found : Nat}
    (here : matching toShape digit = some found) :
    found < toShape.length ∧ digitOf toShape found = digit ∧ 0 < digit.2 := by
  have start : (toShape.drop toShape.length).prod = 1 := by simp
  unfold matching at here
  rw [← start] at here
  obtain ⟨inside, same, bound⟩ := findFrom_eq_some le_rfl here
  rw [start] at bound
  exact ⟨inside, same, bound⟩

theorem mapDims_eq_some {fromShape toShape : List Nat} {dims : List Int} {mapped : List Nat}
    (inRange : ∀ d ∈ dims, -(fromShape.length : Int) ≤ d ∧ d < fromShape.length)
    (here : mapDims fromShape toShape dims = some mapped) :
    (dims.map fun d => digitOf fromShape (normalized fromShape.length d).toNat).map (matching toShape) =
      mapped.map some := by
  induction dims generalizing mapped with
  | nil =>
      cases here
      rfl
  | cons d dims ih =>
      rw [mapDims, findMatchingDim_eq fromShape toShape rfl (inRange d List.mem_cons_self)] at here
      split at here
      · rename_i first found
        obtain ⟨rest, restHere, rfl⟩ := Option.map_eq_some_iff.mp here
        rw [List.map_cons, List.map_cons, List.map_cons, found,
          ih (fun other member => inRange other (List.mem_cons_of_mem _ member)) restHere]
      · cases here

theorem matched_facts {toShape : List Nat} {wanted : List (Nat × Nat)} {mapped : List Nat}
    (matched : wanted.map (matching toShape) = mapped.map some) :
    mapped.map (digitOf toShape) = wanted ∧ (∀ dim ∈ mapped, dim < toShape.length) ∧ ∀ digit ∈ wanted, 0 < digit.2 := by
  induction wanted generalizing mapped with
  | nil =>
      cases mapped with
      | nil => simp
      | cons _ _ => simp at matched
  | cons digit wanted ih =>
      cases mapped with
      | nil => simp at matched
      | cons first rest =>
          simp only [List.map_cons, List.cons.injEq] at matched
          obtain ⟨inside, same, positive⟩ := matching_eq_some matched.1
          obtain ⟨digits, below, strides⟩ := ih matched.2
          refine ⟨by rw [List.map_cons, same, digits], ?_, ?_⟩
          · exact List.forall_mem_cons.mpr ⟨inside, below⟩
          · exact List.forall_mem_cons.mpr ⟨positive, strides⟩

structure Mapped (fromShape toShape dims mapped : List Nat) : Prop where
  inside : ∀ dim ∈ mapped, dim < toShape.length
  digits : mapped.map (digitOf toShape) = dims.map (digitOf fromShape)
  strides : ∀ digit ∈ dims.map (digitOf fromShape), 0 < digit.2
  distinct : mapped.Nodup ↔ (dims.map (digitOf fromShape)).Nodup

theorem mapped_of_some {fromShape toShape : List Nat} {listed : List Int} {mapped : List Nat}
    (inRange : InRange fromShape.length (some listed)) (here : mapDims fromShape toShape listed = some mapped) :
    Mapped fromShape toShape (getReduceDimValues fromShape.length (some listed)) mapped := by
  have all := mapDims_eq_some (inRange listed rfl) here
  have wanted : (listed.map fun d => digitOf fromShape (normalized fromShape.length d).toNat) =
      (getReduceDimValues fromShape.length (some listed)).map (digitOf fromShape) := by
    simp only [getReduceDimValues, List.map_map]
    rfl
  rw [wanted] at all
  obtain ⟨digits, inside, strides⟩ := matched_facts all
  refine ⟨inside, digits, strides, ?_, ?_⟩
  · intro nodup
    have once : (mapped.map some).Nodup := nodup.map (Option.some_injective _)
    rw [← all] at once
    exact once.of_map _
  · intro nodup
    rw [← digits] at nodup
    exact nodup.of_map _

theorem mem_digits_of_mask {shape dims : List Nat} (inside : ∀ dim ∈ dims, dim < shape.length) (digit : Nat × Nat) :
    digit ∈ maskedDigits (maskOf shape.length dims) shape ↔ digit ∈ dims.map (digitOf shape) := by
  rw [mem_maskedDigits (maskOf_length _ _), List.mem_map]
  constructor
  · rintro ⟨dim, known, marked, rfl⟩
    rw [maskOf_getD _ _ _ known, decide_eq_true_eq] at marked
    exact ⟨dim, marked, rfl⟩
  · rintro ⟨dim, member, rfl⟩
    have known := inside dim member
    exact ⟨dim, known, by rw [maskOf_getD _ _ _ known, decide_eq_true_eq]; exact member, rfl⟩

end Matching

section Forms

variable {K : Type} [Field K] [LinearOrder K]

theorem run_eq_reshape (attrs : Reduce) (tensor : Tensor K) {dims : List Nat}
    (mask : reduceDimsMask tensor.shape.length attrs.dimArg = maskOf tensor.shape.length dims) :
    Same (attrs.run tensor) ((tensor.reduce attrs.op.eval (keptDims (maskOf tensor.shape.length dims))).reshape
      (expectedOutputShape attrs.keepDim (maskOf tensor.shape.length dims) tensor.shape)) := by
  have sizes : (maskOf tensor.shape.length dims).length = tensor.shape.length := maskOf_length _ _
  have kept : gather tensor.shape (keptDims (maskOf tensor.shape.length dims)) =
      unmasked (maskOf tensor.shape.length dims) tensor.shape := gather_keptDims _ _ sizes
  simp only [Reduce.run, mask, expectedOutputShape]
  cases attrs.keepDim with
  | true => exact withUnits_reshape _ sizes kept
  | false =>
      have same := reshape_self (tensor.reduce attrs.op.eval (keptDims (maskOf tensor.shape.length dims)))
      change Same (Tensor.reshape _ (gather tensor.shape (keptDims (maskOf tensor.shape.length dims)))) _ at same
      rw [kept] at same
      exact same.symm

theorem expectedOutputShape_prod (keepDim : Bool) {mask : List Bool} {shape : List Nat}
    (length : mask.length = shape.length) :
    (expectedOutputShape keepDim mask shape).prod = (unmasked mask shape).prod := by
  cases keepDim with
  | true => exact prod_unitsAt length
  | false => rfl

variable (attrs attrs' : Reduce) (tensor : Tensor K) {mid dims dims' : List Nat}

/-- Reducing a reshaped tensor and reshaping the reduction are one reshape of the
reduction, if they are so without units. -/
theorem run_reshape (op : attrs'.op = attrs.op)
    (mask : reduceDimsMask mid.length attrs.dimArg = maskOf mid.length dims)
    (mask' : reduceDimsMask tensor.shape.length attrs'.dimArg = maskOf tensor.shape.length dims')
    (volume : (unmasked (maskOf mid.length dims) mid).prod =
      (unmasked (maskOf tensor.shape.length dims') tensor.shape).prod)
    (core : Same ((tensor.reshape mid).reduce attrs.op.eval (keptDims (maskOf mid.length dims)))
      ((tensor.reduce attrs.op.eval (keptDims (maskOf tensor.shape.length dims'))).reshape
        (unmasked (maskOf mid.length dims) mid)))
    (out : List Nat) (outVolume : out.prod = (unmasked (maskOf mid.length dims) mid).prod) :
    Same ((attrs'.run tensor).reshape out) ((attrs.run (tensor.reshape mid)).reshape out) := by
  have sizes : (maskOf mid.length dims).length = mid.length := maskOf_length _ _
  have sizes' : (maskOf tensor.shape.length dims').length = tensor.shape.length := maskOf_length _ _
  have left := run_eq_reshape attrs' tensor mask'
  have right := run_eq_reshape attrs (tensor.reshape mid) mask
  rw [op] at left
  have volumes := expectedOutputShape_prod attrs.keepDim sizes
  have volumes' := expectedOutputShape_prod attrs'.keepDim sizes'
  let reduced := tensor.reduce attrs.op.eval (keptDims (maskOf tensor.shape.length dims'))
  have leftForm : Same ((attrs'.run tensor).reshape out) (reduced.reshape out) := by
    have step := left.reshape out (by rw [left.1]; exact volumes'.trans (volume.symm.trans outVolume.symm))
    exact step.trans (reshape_reshape reduced _ out (volumes'.trans (volume.symm.trans outVolume.symm)))
  have rightForm : Same ((attrs.run (tensor.reshape mid)).reshape out) (reduced.reshape out) := by
    have step := right.reshape out (by rw [right.1]; exact volumes.trans outVolume.symm)
    have inner := (core.reshape (expectedOutputShape attrs.keepDim (maskOf mid.length dims) mid)
      (by rw [core.1]; exact volumes.symm)).reshape out (volumes.trans outVolume.symm)
    have first := (reshape_reshape reduced (unmasked (maskOf mid.length dims) mid)
      (expectedOutputShape attrs.keepDim (maskOf mid.length dims) mid) volumes.symm).reshape out
      (volumes.trans outVolume.symm)
    have second := reshape_reshape reduced (expectedOutputShape attrs.keepDim (maskOf mid.length dims) mid) out
      (volumes.trans outVolume.symm)
    exact ((step.trans inner).trans first).trans second
  exact leftForm.trans rightForm.symm

end Forms

section Volumes

variable {fromShape toShape dims mapped : List Nat} (maps : Mapped fromShape toShape dims mapped)
  (inside : ∀ dim ∈ dims, dim < fromShape.length)

include maps inside in
theorem sameDigits_of_mapped : ∀ digit : Nat × Nat, digit ∈ maskedDigits (maskOf fromShape.length dims) fromShape ↔
    digit ∈ maskedDigits (maskOf toShape.length mapped) toShape := by
  intro digit
  rw [mem_digits_of_mask inside, mem_digits_of_mask maps.inside, maps.digits]

include maps inside in
theorem drops_of_mapped :
    SameDigits (maskOf fromShape.length dims) fromShape (maskOf toShape.length mapped) toShape :=
  ⟨maskOf_length _ _, maskOf_length _ _, fun digit _ => sameDigits_of_mapped maps inside digit⟩

include maps inside in
theorem volume_iff (volume : fromShape.prod = toShape.prod) :
    (unmasked (maskOf fromShape.length dims) fromShape).prod = (unmasked (maskOf toShape.length mapped) toShape).prod ↔
      ((∃ dim ∈ dims, fromShape.getD dim 0 = 0) → headVolume fromShape = headVolume toShape) := by
  have digits := sameDigits_of_mapped maps inside
  by_cases empty : 0 ∈ fromShape
  · have empty' : 0 ∈ toShape := List.prod_eq_zero_iff.mp (volume.symm.trans (List.prod_eq_zero_iff.mpr empty))
    have strides : ∀ digit ∈ maskedDigits (maskOf fromShape.length dims) fromShape, 0 < digit.2 :=
      fun digit member => maps.strides digit ((mem_digits_of_mask inside digit).mp member)
    rw [kept_volume_iff (maskOf_length _ _) (maskOf_length _ _) digits strides empty empty']
    have reduced : (∃ digit ∈ maskedDigits (maskOf fromShape.length dims) fromShape, digit.1 = 0) ↔
        ∃ dim ∈ dims, fromShape.getD dim 0 = 0 := by
      constructor
      · rintro ⟨digit, member, zero⟩
        obtain ⟨dim, inDims, rfl⟩ := List.mem_map.mp ((mem_digits_of_mask inside digit).mp member)
        exact ⟨dim, inDims, zero⟩
      · rintro ⟨dim, inDims, zero⟩
        exact ⟨_, (mem_digits_of_mask inside _).mpr (List.mem_map_of_mem inDims), zero⟩
    rw [reduced]
  · have positive : ∀ extent ∈ fromShape, 0 < extent := fun extent member =>
      Nat.pos_of_ne_zero fun zero => empty (zero ▸ member)
    have some := List.prod_pos_iff_forall_pos_nat.mpr positive
    have positive' := List.prod_pos_iff_forall_pos_nat.mp (some.trans_eq volume)
    have none : ¬ ∃ dim ∈ dims, fromShape.getD dim 0 = 0 := by
      rintro ⟨dim, member, zero⟩
      have known := inside dim member
      rw [List.getD_eq_getElem _ _ known] at zero
      exact (positive _ (List.getElem_mem known)).ne' zero
    simp only [none, false_implies, iff_true]
    exact (drops_of_mapped maps inside).kept_volume positive positive' volume

end Volumes

section Downwards

variable {K : Type} [Field K] [LinearOrder K] {attrs : Reduce} {shape mid : List Nat} {new : Tm × Reduce}

theorem downwards_reshape_verified (valid : (resultShape (original .downwards (.reshape mid) attrs) shape).isSome) :
    shape.prod = mid.prod ∧ verifyReduceOp mid.length attrs.dimArg = true := by
  by_cases volume : shape.prod = mid.prod
  · refine ⟨volume, ?_⟩
    by_contra not
    simp [original, resultShape, Op.resultShape, volume, not] at valid
  · simp [original, resultShape, Op.resultShape, volume] at valid

theorem favorableDims_eq_some {fromShape toShape mapped : List Nat} {dimArg : Option (List Int)}
    (here : favorableDims fromShape toShape dimArg = some mapped) :
    mapReduceDims fromShape toShape dimArg = some mapped := by
  unfold favorableDims at here
  split at here
  · rename_i found
    cases here
    exact found
  · cases here

theorem preserves_of_core {mapped dims : List Nat} (volume : shape.prod = mid.prod)
    (verified : verifyReduceOp mid.length attrs.dimArg = true)
    (inside : ∀ dim ∈ mapped, dim < shape.length)
    (mask : reduceDimsMask mid.length attrs.dimArg = maskOf mid.length dims)
    (core : ∀ tensor : Tensor K, tensor.shape = shape →
      Same ((tensor.reshape mid).reduce attrs.op.eval (keptDims (maskOf mid.length dims)))
        ((tensor.reduce attrs.op.eval (keptDims (maskOf shape.length mapped))).reshape
          (unmasked (maskOf mid.length dims) mid))) :
    Preserves K .downwards (.reshape mid) attrs shape
        (.reshape (expectedOutputShape attrs.keepDim (maskOf mid.length dims) mid), createReduceOp attrs mapped) ↔
      mapped.Nodup ∧ (unmasked (maskOf mid.length dims) mid).prod =
        (unmasked (maskOf shape.length mapped) shape).prod := by
  have sizes : (maskOf mid.length dims).length = mid.length := maskOf_length _ _
  have sizes' : (maskOf shape.length mapped).length = shape.length := maskOf_length _ _
  have out := expectedOutputShape_prod attrs.keepDim sizes
  have out' := expectedOutputShape_prod attrs.keepDim sizes'
  have mask' : reduceDimsMask shape.length (createReduceOp attrs mapped).dimArg = maskOf shape.length mapped :=
    mask_natural inside
  have original_ : resultShape (original .downwards (.reshape mid) attrs) shape =
      some (expectedOutputShape attrs.keepDim (maskOf mid.length dims) mid) := by
    simp [original, resultShape, Op.resultShape, volume, verified, mask]
  -- the new reshape is accepted when the reduced volumes agree
  have rewritten_ : mapped.Nodup → resultShape (rewritten .downwards
      (.reshape (expectedOutputShape attrs.keepDim (maskOf mid.length dims) mid)) (createReduceOp attrs mapped)) shape =
      if (expectedOutputShape attrs.keepDim (maskOf shape.length mapped) shape).prod =
        (expectedOutputShape attrs.keepDim (maskOf mid.length dims) mid).prod then
        some (expectedOutputShape attrs.keepDim (maskOf mid.length dims) mid) else none := by
    intro nodup
    have verified' : verifyReduceOp shape.length (createReduceOp attrs mapped).dimArg = true :=
      verifyReduceOp_natural nodup inside
    simp only [rewritten, resultShape, List.foldlM_cons, List.foldlM_nil, Op.resultShape, verified', if_true, mask']
    exact bind_pure (m := Option) _
  constructor
  · intro preserves
    obtain ⟨listed, here, nodup, _⟩ := preserves.distinct
    obtain rfl := Option.some.inj here
    have distinct := nodup_natural.mp nodup
    refine ⟨distinct, ?_⟩
    have result := preserves.result
    rw [original_, rewritten_ distinct] at result
    obtain ⟨same, _⟩ := Option.ite_none_right_eq_some.mp result
    rw [← out, ← out', same]
  · rintro ⟨nodup, kept⟩
    refine ⟨⟨_, rfl, nodup_natural.mpr nodup, ?_⟩, ?_, ?_⟩
    · intro dim member
      obtain ⟨value, inMapped, rfl⟩ := List.mem_map.mp member
      have known := inside value inMapped
      change 0 ≤ (value : Int) ∧ (value : Int) < (shape.length : Nat)
      omega
    · rw [original_, rewritten_ nodup, if_pos (by rw [out, out', kept])]
    · rintro tensor rfl
      have same := run_reshape attrs (createReduceOp attrs mapped) tensor rfl mask mask' kept (core tensor rfl)
        (expectedOutputShape attrs.keepDim (maskOf mid.length dims) mid) out
      have shaped := run_eq_reshape attrs (tensor.reshape mid) mask
      have selfShape : (attrs.run (tensor.reshape mid)).shape =
          expectedOutputShape attrs.keepDim (maskOf mid.length dims) mid := shaped.1
      have itself := reshape_self (attrs.run (tensor.reshape mid))
      rw [selfShape] at itself
      exact same.trans itself

theorem survivors_all (rank : Nat) : survivors rank (List.range rank) = [] := by
  rw [List.eq_nil_iff_forall_not_mem]
  intro dim member
  obtain ⟨known, kept⟩ := mem_survivors.mp member
  exact kept (List.mem_range.mpr known)

theorem unmasked_all (shape : List Nat) : unmasked (maskOf shape.length (List.range shape.length)) shape = [] := by
  rw [← gather_keptDims _ _ (maskOf_length _ _), keptDims_maskOf, survivors_all]
  rfl

theorem core_all (op : ReduceOp) (tensor : Tensor K) (mid : List Nat) (volume : tensor.shape.prod = mid.prod) :
    Same ((tensor.reshape mid).reduce op.eval (keptDims (maskOf mid.length (List.range mid.length))))
      ((tensor.reduce op.eval (keptDims (maskOf tensor.shape.length (List.range tensor.shape.length)))).reshape
        (unmasked (maskOf mid.length (List.range mid.length)) mid)) := by
  rw [keptDims_maskOf, keptDims_maskOf, survivors_all, survivors_all, unmasked_all]
  exact (reduce_all_reshape tensor op.eval mid volume.symm).trans (reshape_self (tensor.reduce op.eval [])).symm

theorem preserves_reshape_downwards (valid : (resultShape (original .downwards (.reshape mid) attrs) shape).isSome)
    (rewrites : commuteReshapeDownwards attrs shape mid = some new) :
    Preserves K .downwards (.reshape mid) attrs shape new ↔ (attrs.dimArg ≠ none →
      ((getReduceDimValues mid.length attrs.dimArg).map (digitOf mid)).Nodup ∧
      ((∃ dim ∈ getReduceDimValues mid.length attrs.dimArg, mid.getD dim 0 = 0) →
        headVolume mid = headVolume shape)) := by
  obtain ⟨volume, verified⟩ := downwards_reshape_verified valid
  have inRange := inRange_of_verified verified
  have mask := reduceDimsMask_eq inRange
  obtain ⟨mapped, favorable, rfl⟩ := Option.map_eq_some_iff.mp rewrites
  have found := favorableDims_eq_some favorable
  rw [mask]
  cases dimArg : attrs.dimArg with
  | none =>
      rw [dimArg] at found mask
      obtain rfl := Option.some.inj found
      have all : getReduceDimValues mid.length none = List.range mid.length := rfl
      rw [all] at mask ⊢
      have inside : ∀ dim ∈ List.range shape.length, dim < shape.length := fun dim member => List.mem_range.mp member
      have both := preserves_of_core (K := K) volume verified inside (by rw [dimArg, mask]) fun tensor here => by
        subst here
        exact core_all attrs.op tensor mid volume
      rw [both, unmasked_all, unmasked_all]
      simp [List.nodup_range]
  | some listed =>
      rw [dimArg] at found mask inRange
      have maps := mapped_of_some inRange found
      have below := getReduceDimValues_lt inRange
      have both := preserves_of_core (K := K) volume verified maps.inside (by rw [dimArg, mask]) fun tensor here => by
        subst here
        exact reduce_reshape tensor attrs.op.eval (drops_of_mapped maps below) volume.symm
      rw [both, maps.distinct, volume_iff maps below volume.symm]
      simp

end Downwards

section Upwards

variable {K : Type} [Field K] [LinearOrder K] {attrs : Reduce} {shape target : List Nat} {new : Tm × Reduce}

theorem upwards_reshape_verified (valid : (resultShape (original .upwards (.reshape target) attrs) shape).isSome) :
    verifyReduceOp shape.length attrs.dimArg = true ∧ (expectedOutputShape attrs.keepDim
      (reduceDimsMask shape.length attrs.dimArg) shape).prod = target.prod := by
  by_cases verified : verifyReduceOp shape.length attrs.dimArg = true
  · refine ⟨verified, ?_⟩
    by_contra not
    simp [original, resultShape, Op.resultShape, verified, not] at valid
  · simp [original, resultShape, Op.resultShape, verified] at valid

theorem unitsAt_of_units {dims shape : List Nat} (units : ∀ dim ∈ dims, shape.getD dim 0 = 1) :
    unitsAt (maskOf shape.length dims) shape = shape := by
  have sizes : (maskOf shape.length dims).length = shape.length := maskOf_length _ _
  apply ext_getD 0 (unitsAt_length sizes)
  intro dim known
  rw [unitsAt_length sizes] at known
  rw [unitsAt_getD sizes dim known, maskOf_getD _ _ _ known]
  by_cases member : dim ∈ dims
  · rw [decide_eq_true member, if_pos rfl, units dim member]
  · rw [decide_eq_false member, if_neg Bool.false_ne_true]

theorem preserves_of_units {mapped dims : List Nat} (keepDim : attrs.keepDim = true)
    (verified : verifyReduceOp shape.length attrs.dimArg = true)
    (mask : reduceDimsMask shape.length attrs.dimArg = maskOf shape.length dims)
    (units : ∀ dim ∈ dims, shape.getD dim 0 = 1) (volume : shape.prod = target.prod)
    (inside : ∀ dim ∈ mapped, dim < target.length) (units' : ∀ dim ∈ mapped, target.getD dim 0 = 1)
    (core : ∀ tensor : Tensor K, tensor.shape = shape →
      Same ((tensor.reshape target).reduce attrs.op.eval (keptDims (maskOf target.length mapped)))
        ((tensor.reduce attrs.op.eval (keptDims (maskOf shape.length dims))).reshape
          (unmasked (maskOf target.length mapped) target))) :
    Preserves K .upwards (.reshape target) attrs shape (.reshape target, createReduceOp attrs mapped) ↔
      mapped.Nodup := by
  have sizes : (maskOf shape.length dims).length = shape.length := maskOf_length _ _
  have sizes' : (maskOf target.length mapped).length = target.length := maskOf_length _ _
  have whole := unitsAt_of_units units
  have whole' := unitsAt_of_units units'
  have mask' : reduceDimsMask target.length (createReduceOp attrs mapped).dimArg = maskOf target.length mapped :=
    mask_natural inside
  have kept : (unmasked (maskOf shape.length dims) shape).prod = shape.prod := by rw [← prod_unitsAt sizes, whole]
  have kept' : (unmasked (maskOf target.length mapped) target).prod = target.prod := by
    rw [← prod_unitsAt sizes', whole']
  have outShape : expectedOutputShape attrs.keepDim (maskOf target.length mapped) target = target := by
    rw [expectedOutputShape, if_pos keepDim, whole']
  constructor
  · intro preserves
    obtain ⟨listed, here, nodup, _⟩ := preserves.distinct
    obtain rfl := Option.some.inj here
    exact nodup_natural.mp nodup
  · intro nodup
    refine ⟨⟨_, rfl, nodup_natural.mpr nodup, ?_⟩, ?_, ?_⟩
    · intro dim member
      obtain ⟨value, inMapped, rfl⟩ := List.mem_map.mp member
      have known := inside value inMapped
      change 0 ≤ (value : Int) ∧ (value : Int) < (target.length : Nat)
      omega
    · have verified' : verifyReduceOp target.length (createReduceOp attrs mapped).dimArg = true :=
        verifyReduceOp_natural nodup inside
      have keepDim' : (createReduceOp attrs mapped).keepDim = true := keepDim
      simp [rewritten, original, resultShape, Op.resultShape, verified, verified', mask, mask', volume,
        expectedOutputShape, keepDim, keepDim', whole, whole']
    · rintro tensor rfl
      have same := run_reshape (createReduceOp attrs mapped) attrs tensor rfl mask' mask
        (by rw [kept, kept', volume]) (core tensor rfl) target kept'.symm
      have shaped := run_eq_reshape (createReduceOp attrs mapped) (tensor.reshape target) mask'
      have selfShape : ((createReduceOp attrs mapped).run (tensor.reshape target)).shape = target :=
        shaped.1.trans outShape
      have itself := reshape_self ((createReduceOp attrs mapped).run (tensor.reshape target))
      rw [selfShape] at itself
      exact itself.symm.trans same.symm

theorem preserves_reshape_upwards (valid : (resultShape (original .upwards (.reshape target) attrs) shape).isSome)
    (rewrites : commuteReshapeUpwards attrs shape target = some new) :
    Preserves K .upwards (.reshape target) attrs shape new ↔ (attrs.dimArg ≠ none →
      ((getReduceDimValues shape.length attrs.dimArg).map (digitOf shape)).Nodup) := by
  obtain ⟨verified, outVolume⟩ := upwards_reshape_verified valid
  have inRange := inRange_of_verified verified
  have mask := reduceDimsMask_eq inRange
  obtain ⟨viable, rewrites⟩ := Option.ite_none_right_eq_some.mp rewrites
  obtain ⟨mapped, favorable, rfl⟩ := Option.map_eq_some_iff.mp rewrites
  have found := favorableDims_eq_some favorable
  rw [isReshapeUpwardsViable, Bool.and_eq_true] at viable
  obtain ⟨keepDim, units⟩ := viable
  rw [mask, expectedOutputShape, if_pos keepDim] at outVolume
  cases dimArg : attrs.dimArg with
  -- all dims are reduced, and all of them are units
  | none =>
      rw [dimArg] at found mask units outVolume
      obtain rfl := Option.some.inj found
      have all : getReduceDimValues shape.length none = List.range shape.length := rfl
      rw [all] at mask outVolume
      have ones : ∀ extent ∈ shape, extent = 1 := by simpa using units
      have unitDims : ∀ dim ∈ List.range shape.length, shape.getD dim 0 = 1 := by
        intro dim member
        have known := List.mem_range.mp member
        rw [List.getD_eq_getElem _ _ known]
        exact ones _ (List.getElem_mem known)
      rw [unitsAt_of_units unitDims] at outVolume
      have unitTarget : ∀ dim ∈ List.range target.length, target.getD dim 0 = 1 := by
        intro dim member
        have known := List.mem_range.mp member
        have whole : target.prod = 1 := by rw [← outVolume, List.prod_eq_one ones]
        rw [List.getD_eq_getElem _ _ known]
        exact Nat.dvd_one.mp (whole ▸ List.dvd_prod (List.getElem_mem known))
      have both := preserves_of_units (K := K) keepDim verified (by rw [dimArg, mask]) unitDims outVolume
        (fun dim member => List.mem_range.mp member) unitTarget fun tensor here => by
          subst here
          exact core_all attrs.op tensor target outVolume
      rw [both]
      simp [List.nodup_range]
  -- the listed dims are found again in the target by their digits
  | some listed =>
      rw [dimArg] at found mask inRange units outVolume
      have maps := mapped_of_some inRange found
      have below := getReduceDimValues_lt inRange
      have unitDims : ∀ dim ∈ getReduceDimValues shape.length (some listed), shape.getD dim 0 = 1 := by
        intro dim member
        obtain ⟨d, inListed, rfl⟩ := List.mem_map.mp member
        simpa using List.all_eq_true.mp units d inListed
      have unitTarget : ∀ dim ∈ mapped, target.getD dim 0 = 1 := by
        intro dim member
        have digit : digitOf target dim ∈ (getReduceDimValues shape.length (some listed)).map (digitOf shape) := by
          rw [← maps.digits]
          exact List.mem_map_of_mem member
        obtain ⟨other, inDims, same⟩ := List.mem_map.mp digit
        rw [← (Prod.mk.inj same).1, unitDims other inDims]
      rw [unitsAt_of_units unitDims] at outVolume
      have drops : SameDigits (maskOf target.length mapped) target
          (maskOf shape.length (getReduceDimValues shape.length (some listed))) shape :=
        ⟨maskOf_length _ _, maskOf_length _ _, fun digit _ => (sameDigits_of_mapped maps below digit).symm⟩
      have both := preserves_of_units (K := K) keepDim verified (by rw [dimArg, mask]) unitDims outVolume maps.inside
        unitTarget fun tensor here => by
          subst here
          exact reduce_reshape tensor attrs.op.eval drops outVolume.symm
      rw [both, maps.distinct]
      simp

end Upwards

end TtMlir.Ttir.ReduceCommute
