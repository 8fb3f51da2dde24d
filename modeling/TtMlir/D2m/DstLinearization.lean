import Mathlib.Data.List.GetD
import TtMlir.Library.Affine
import TtMlir.Library.AffineBox

/-!
The indices with which values are put into DST and taken out, Shared.cpp of
InsertDstRegisterAccess. Results are counted through the trip counts of the loops around them;
operands and stored values through the dims of their buffer that a loop runs over. The slice is
scaled by whichever product was used, the capacity compared with the slice alone.
-/

namespace TtMlir.D2m.DstLinearization

open AffineBox

structure Loop where
  lowerBound : Int
  step : Nat
  tripCount : Nat
  stepPositive : 0 < step

/-- What an operand of an affine access is: the induction variable of a loop of the nest, or a value from outside. -/
inductive Index
  | loop (position : Nat)
  | outside
  deriving DecidableEq, Repr

structure DstAccess where
  affineMap : AffineMap
  affineIndices : List Index
  cbShape : List Nat

/-- How the register of a value is accessed: as an operand or a stored value with a circular buffer, or as a result. -/
inductive Access
  | buffer (access : DstAccess)
  | result

structure DstValue where
  dstSlice : Nat
  accesses : List Access

section Builders

def strides : List Nat → List Nat
  | [] => []
  | _ :: extents => extents.prod :: strides extents

def linearExpr (dstSlice : Nat) (extents : List Nat) (dims : List AffineExpr) : AffineExpr :=
  (dims.zip (strides extents)).foldl (fun expr term => expr.add (term.1.mul (.const term.2)))
    (.const (dstSlice * extents.prod : Nat))

def normalized (loop : Loop) (position : Nat) : AffineExpr :=
  let dimExpr := if loop.lowerBound ≠ 0 then AffineExpr.add (.dim position) (.const (-loop.lowerBound)) else .dim position
  if loop.step ≠ 1 then .floorDiv dimExpr (.const loop.step) else dimExpr

def buildLinearizedDstAccess (enclosingLoops : List Loop) (dstSlice : Nat) : AffineMap × List Nat :=
  if enclosingLoops.isEmpty then ({ numDims := 0, results := [.const dstSlice] }, [])
  else
    let dims := (enclosingLoops.zipIdx).map fun loop => normalized loop.1 loop.2
    ({ numDims := enclosingLoops.length
       results := [linearExpr dstSlice (enclosingLoops.map Loop.tripCount) dims] },
      List.range enclosingLoops.length)

def dimPositions : AffineExpr → List Nat
  | .dim position => [position]
  | .sym _ | .const _ => []
  | .add lhs rhs | .mul lhs rhs | .mod lhs rhs | .floorDiv lhs rhs | .ceilDiv lhs rhs =>
      (dimPositions lhs ++ dimPositions rhs).dedup

def scopeLoop (access : DstAccess) (expr : AffineExpr) : Option Nat :=
  match dimPositions expr with
  | [operandIdx] =>
      match access.affineIndices[operandIdx]? with
      | some (.loop position) => some position
      | _ => none
  | _ => none

def dstOperands (access : DstAccess) : List (Nat × Nat) :=
  (access.affineMap.results.zip access.cbShape).filterMap fun result =>
    (scopeLoop access result.1).map fun position => (position, result.2)

def buildIndices (access : DstAccess) (dstSlice : Nat) : AffineMap × List Nat :=
  let operands := dstOperands access
  if operands.isEmpty then ({ numDims := 0, results := [.const dstSlice] }, [])
  else
    ({ numDims := operands.length
       results := [linearExpr dstSlice (operands.map Prod.snd) ((List.range operands.length).map .dim)] },
      operands.map Prod.fst)

def build (nest : List Loop) (dstSlice : Nat) : Access → AffineMap × List Nat
  | .buffer access => buildIndices access dstSlice
  | .result => buildLinearizedDstAccess nest dstSlice

/-- The slots of DST, as many as it has room for, where the largest slice of the copies is below that. -/
def insertAcquireDst (values : List DstValue) (dstCapacity : Nat) : Option Nat :=
  let copied := values.filter fun value => value.accesses.any fun access => access matches .buffer _
  match (copied.map DstValue.dstSlice).max? with
  | none => none
  | some maxDstSlice => if maxDstSlice < dstCapacity then some dstCapacity else none

end Builders

section Runs

def inductionVar (nest : List Loop) (counts : Nat → Nat) (position : Nat) : Int :=
  match nest[position]? with
  | some loop => loop.lowerBound + loop.step * counts position
  | none => 0

def tripCount (nest : List Loop) (position : Nat) : Nat := (nest[position]?.map Loop.tripCount).getD 0

def Iteration (nest : List Loop) (counts : Nat → Nat) : Prop := InBox (tripCount nest) nest.length counts

def dstIndex (nest : List Loop) (dstSlice : Nat) (access : Access) (counts : Nat → Nat) : Int :=
  let built := build nest dstSlice access
  (built.1.evaluate (built.2.map (inductionVar nest counts))).getD 0 0

/-- Each value of a nest has registers of its own. -/
structure OwnRegisters (nest : List Loop) (values : List DstValue) (capacity : Nat) : Prop where
  agree : ∀ value ∈ values, ∀ access ∈ value.accesses, ∀ other ∈ value.accesses, ∀ counts, Iteration nest counts →
    dstIndex nest value.dstSlice access counts = dstIndex nest value.dstSlice other counts
  apart : ∀ value ∈ values, ∀ other ∈ values, value.dstSlice ≠ other.dstSlice →
    ∀ access ∈ value.accesses, ∀ otherAccess ∈ other.accesses,
      (∀ counts, Iteration nest counts → ∀ counts', Iteration nest counts' →
        dstIndex nest value.dstSlice access counts < dstIndex nest other.dstSlice otherAccess counts') ∨
      ∀ counts, Iteration nest counts → ∀ counts', Iteration nest counts' →
        dstIndex nest other.dstSlice otherAccess counts < dstIndex nest value.dstSlice access counts'
  below : ∀ value ∈ values, ∀ access ∈ value.accesses, ∀ counts, Iteration nest counts →
    0 ≤ dstIndex nest value.dstSlice access counts ∧ dstIndex nest value.dstSlice access counts < capacity

end Runs

section Closed

def lowerBound (nest : List Loop) (position : Nat) : Int := (nest[position]?.map Loop.lowerBound).getD 0

def step (nest : List Loop) (position : Nat) : Nat := (nest[position]?.map Loop.step).getD 0

def terms (access : DstAccess) : List (Nat × Nat) :=
  ((dstOperands access).map Prod.fst).zip (strides ((dstOperands access).map Prod.snd))

def startOf (nest : List Loop) (dstSlice : Nat) : Access → Int
  | .result => (dstSlice * (nest.map Loop.tripCount).prod : Nat)
  | .buffer access =>
      (dstSlice * ((dstOperands access).map Prod.snd).prod : Nat) +
        ((terms access).map fun term => term.2 * lowerBound nest term.1).sum

def paceOf (nest : List Loop) : Access → Nat → Int
  | .result, position => (strides (nest.map Loop.tripCount)).getD position 0
  | .buffer access, position =>
      (((terms access).filter (·.1 = position)).map fun term => term.2 * step nest position).sum

def endOf (nest : List Loop) (dstSlice : Nat) (access : Access) : Int :=
  lastAt (startOf nest dstSlice access) (paceOf nest access) (tripCount nest) nest.length

end Closed

section Evaluation
variable {nest : List Loop}

theorem strides_length (extents : List Nat) : (strides extents).length = extents.length := by
  induction extents with
  | nil => rfl
  | cons extent extents ih => rw [strides, List.length_cons, List.length_cons, ih]

theorem linearExpr_eval (dstSlice : Nat) (extents : List Nat) (dims : List AffineExpr) (values : List Int) :
    (linearExpr dstSlice extents dims).eval values [] = (dstSlice * extents.prod : Nat) +
      ((dims.zip (strides extents)).map fun term => term.1.eval values [] * (term.2 : Int)).sum := by
  have folded : ∀ (terms : List (AffineExpr × Nat)) (expr : AffineExpr),
      (terms.foldl (fun expr term => expr.add (term.1.mul (.const term.2))) expr).eval values [] =
        expr.eval values [] + (terms.map fun term => term.1.eval values [] * (term.2 : Int)).sum := by
    intro terms
    induction terms with
    | nil => simp
    | cons term terms ih =>
        intro expr
        rw [List.foldl_cons, ih, List.map_cons, List.sum_cons, ← Int.add_assoc]
        rfl
  exact folded _ _

theorem normalized_eval (loop : Loop) (position count : Nat) (values : List Int)
    (known : values.getD position 0 = loop.lowerBound + loop.step * count) :
    (normalized loop position).eval values [] = count := by
  have shifted : (if loop.lowerBound ≠ 0 then AffineExpr.add (.dim position) (.const (-loop.lowerBound))
      else .dim position).eval values [] = loop.step * count := by
    split
    · rw [AffineExpr.eval, AffineExpr.eval, AffineExpr.eval, known]
      ring
    · rename_i zero
      rw [AffineExpr.eval, known, not_not.mp zero, Int.zero_add]
  unfold normalized
  dsimp only
  split
  · rw [AffineExpr.eval, shifted, AffineExpr.eval]
    exact Int.mul_ediv_cancel_left _ (by have := loop.stepPositive; omega)
  · rename_i unit
    rw [shifted, not_not.mp unit, Nat.cast_one, one_mul]

theorem inductionVar_eq (counts : Nat → Nat) (position : Nat) :
    inductionVar nest counts position = lowerBound nest position + step nest position * counts position := by
  unfold inductionVar lowerBound step
  cases nest[position]? <;> simp

theorem inductionVars_getD (nest : List Loop) (counts : Nat → Nat) (positions : List Nat) {place : Nat}
    (known : place < positions.length) :
    (positions.map (inductionVar nest counts)).getD place 0 = inductionVar nest counts positions[place] := by
  rw [List.getD_eq_getElem _ _ (by simpa using known), List.getElem_map]

theorem result_index (dstSlice : Nat) (counts : Nat → Nat) :
    dstIndex nest dstSlice .result counts =
      affineAt (startOf nest dstSlice .result) (paceOf nest .result) nest.length counts := by
  rw [dstIndex, build, buildLinearizedDstAccess]
  split
  · rename_i empty
    rw [List.isEmpty_iff.mp empty]
    simp [AffineMap.evaluate, AffineExpr.eval, affineAt, startOf]
  · dsimp only
    rw [AffineMap.evaluate, List.map_singleton, List.getD_cons_zero, linearExpr_eval]
    refine congrArg _ ?_
    have listed : ((((nest.zipIdx).map fun loop => normalized loop.1 loop.2).zip
        (strides (nest.map Loop.tripCount))).map fun term =>
          term.1.eval ((List.range nest.length).map (inductionVar nest counts)) [] * (term.2 : Int)) =
        (List.range nest.length).map fun position =>
          ((strides (nest.map Loop.tripCount)).getD position 0 : Int) * counts position := by
      apply List.ext_getElem
      · simp [strides_length]
      intro position inside inside'
      have known : position < nest.length := by simpa using inside'
      have stride : position < (strides (nest.map Loop.tripCount)).length := by rw [strides_length]; simpa using known
      have known' := inductionVars_getD nest counts (List.range nest.length) (by simpa using known)
      rw [List.getElem_range, inductionVar, List.getElem?_eq_getElem known] at known'
      rw [List.getElem_map, List.getElem_zip, List.getElem_map, List.getElem_map, List.getElem_zipIdx,
        List.getElem_range, List.getD_eq_getElem _ _ stride, Nat.zero_add,
          normalized_eval _ _ (counts position) _ known',
        mul_comm]
    rw [listed]
    rfl

theorem terms_sum (nest : List Loop) (counts : Nat → Nat) (parts : List (Nat × Nat)) :
    (parts.map fun term => inductionVar nest counts term.1 * (term.2 : Int)).sum =
      (parts.map fun term => term.2 * lowerBound nest term.1).sum +
        ∑ position ∈ Finset.range nest.length,
          (((parts.filter (·.1 = position)).map fun term => term.2 * step nest position).sum : Nat) *
            (counts position : Int) := by
  induction parts with
  | nil => simp
  | cons term parts ih =>
      have split : ∀ position, (((((term :: parts).filter (·.1 = position)).map fun term =>
          term.2 * step nest position).sum : Nat) : Int) * counts position =
          (if position = term.1 then term.2 * step nest term.1 * (counts term.1 : Int) else 0) +
            (((parts.filter (·.1 = position)).map fun term => term.2 * step nest position).sum : Nat) *
              (counts position : Int) := by
        intro position
        by_cases same : term.1 = position
        · subst same
          rw [List.filter_cons_of_pos (by simp), List.map_cons, List.sum_cons, if_pos rfl]
          push_cast
          ring
        · rw [List.filter_cons_of_neg (by simpa using same), if_neg fun equal => same equal.symm, zero_add]
      have own : (∑ position ∈ Finset.range nest.length,
          if position = term.1 then term.2 * step nest term.1 * (counts term.1 : Int) else 0) =
            term.2 * step nest term.1 * (counts term.1 : Int) := by
        rw [Finset.sum_ite_eq']
        split
        · rfl
        · rename_i outside
          have none : nest[term.1]? = none := List.getElem?_eq_none (by simpa using outside)
          simp [step, none]
      rw [List.map_cons, List.sum_cons, ih, List.map_cons, List.sum_cons,
        Finset.sum_congr rfl fun position _ => split position,
        Finset.sum_add_distrib, own, inductionVar_eq]
      ring

theorem buffer_index (access : DstAccess) (dstSlice : Nat) (counts : Nat → Nat) :
    dstIndex nest dstSlice (.buffer access) counts =
      affineAt (startOf nest dstSlice (.buffer access)) (paceOf nest (.buffer access)) nest.length counts := by
  have summed := terms_sum nest counts (terms access)
  have whole : affineAt (startOf nest dstSlice (.buffer access)) (paceOf nest (.buffer access)) nest.length counts =
      (dstSlice * ((dstOperands access).map Prod.snd).prod : Nat) +
        ((terms access).map fun term => inductionVar nest counts term.1 * (term.2 : Int)).sum := by
    rw [summed, ← Int.add_assoc]
    rfl
  rw [whole, dstIndex, build, buildIndices]
  split
  · rename_i empty
    have none := List.isEmpty_iff.mp empty
    rw [terms, none]
    simp [AffineMap.evaluate, AffineExpr.eval]
  · dsimp only
    rw [AffineMap.evaluate, List.map_singleton, List.getD_cons_zero, linearExpr_eval]
    refine congrArg _ (congrArg List.sum ?_)
    apply List.ext_getElem
    · simp [terms, strides_length]
    intro place inside inside'
    have known : place < (dstOperands access).length := by
      simp [terms, strides_length] at inside'
      exact inside'
    have inPlace : place < ((dstOperands access).map Prod.fst).length := by simpa using known
    have value := inductionVars_getD nest counts ((dstOperands access).map Prod.fst) inPlace
    rw [List.getElem_map, List.getElem_zip, List.getElem_map, List.getElem_map]
    simp only [terms, List.getElem_zip, List.getElem_range, AffineExpr.eval]
    rw [value]

theorem dstIndex_eq (dstSlice : Nat) (access : Access) (counts : Nat → Nat) :
    dstIndex nest dstSlice access counts =
      affineAt (startOf nest dstSlice access) (paceOf nest access) nest.length counts := by
  cases access with
  | buffer access => exact buffer_index access dstSlice counts
  | result => exact result_index dstSlice counts

theorem paceOf_nonneg (nest : List Loop) (access : Access) (position : Nat) : 0 ≤ paceOf nest access position := by
  cases access <;> exact Int.natCast_nonneg _

end Evaluation

section Registers
variable {nest : List Loop} {values : List DstValue} {capacity : Nat}

theorem tripCount_pos (runs : ∀ loop ∈ nest, 0 < loop.tripCount) :
    ∀ position < nest.length, 0 < tripCount nest position := by
  intro position known
  rw [tripCount, List.getElem?_eq_getElem known]
  exact runs _ (List.getElem_mem known)

theorem idle (stops : ∃ loop ∈ nest, loop.tripCount = 0) (counts : Nat → Nat) : ¬ Iteration nest counts := by
  obtain ⟨loop, member, none⟩ := stops
  obtain ⟨position, known, rfl⟩ := List.mem_iff_getElem.mp member
  intro iteration
  have below := iteration position known
  rw [tripCount, List.getElem?_eq_getElem known] at below
  simp [none] at below

theorem ownRegisters_idle (stops : ∃ loop ∈ nest, loop.tripCount = 0) : OwnRegisters nest values capacity where
  agree _ _ _ _ _ _ counts iteration := absurd iteration (idle stops counts)
  apart _ _ _ _ _ _ _ _ _ := .inl fun counts iteration => absurd iteration (idle stops counts)
  below _ _ _ _ counts iteration := absurd iteration (idle stops counts)

/-- What the starts, the paces and the ends of the accesses have to be. -/
structure Laid (nest : List Loop) (values : List DstValue) (capacity : Nat) : Prop where
  agree : ∀ value ∈ values, ∀ access ∈ value.accesses, ∀ other ∈ value.accesses,
    startOf nest value.dstSlice access = startOf nest value.dstSlice other ∧
      ∀ position < nest.length, 2 ≤ tripCount nest position → paceOf nest access position = paceOf nest other position
  apart : ∀ value ∈ values, ∀ other ∈ values, value.dstSlice ≠ other.dstSlice →
    ∀ access ∈ value.accesses, ∀ otherAccess ∈ other.accesses,
      endOf nest value.dstSlice access < startOf nest other.dstSlice otherAccess ∨
        endOf nest other.dstSlice otherAccess < startOf nest value.dstSlice access
  below : ∀ value ∈ values, ∀ access ∈ value.accesses,
    0 ≤ startOf nest value.dstSlice access ∧ endOf nest value.dstSlice access < capacity

theorem ownRegisters_iff_laid (runs : ∀ loop ∈ nest, 0 < loop.tripCount) :
    OwnRegisters nest values capacity ↔ Laid nest values capacity := by
  have positive := tripCount_pos runs
  have forth := fun (access : Access) position (_ : position < nest.length) => paceOf_nonneg nest access position
  have under : ∀ (slice other : Nat) (access otherAccess : Access),
      (∀ counts, Iteration nest counts → ∀ counts', Iteration nest counts' →
        affineAt (startOf nest slice access) (paceOf nest access) nest.length counts <
          affineAt (startOf nest other otherAccess) (paceOf nest otherAccess) nest.length counts') ↔
        endOf nest slice access < startOf nest other otherAccess :=
    fun _ _ access otherAccess => below_iff positive (forth access) (forth otherAccess)
  constructor
  · intro own
    refine ⟨fun value member access here other there => ?_, fun value member other otherMember apart access here
      otherAccess there => ?_, fun value member access here => ?_⟩
    · have agree := own.agree value member access here other there
      simp only [dstIndex_eq] at agree
      exact (agree_iff positive).mp agree
    · have apart := own.apart value member other otherMember apart access here otherAccess there
      simp only [dstIndex_eq] at apart
      exact apart.imp (under _ _ _ _).mp (under _ _ _ _).mp
    · have below := own.below value member access here
      simp only [dstIndex_eq] at below
      exact (within_iff positive (forth access) capacity).mp below
  · intro laid
    refine ⟨fun value member access here other there => ?_, fun value member other otherMember apart access here
      otherAccess there => ?_, fun value member access here => ?_⟩
    · simp only [dstIndex_eq]
      exact (agree_iff positive).mpr (laid.agree value member access here other there)
    · simp only [dstIndex_eq]
      exact (laid.apart value member other otherMember apart access here otherAccess there).imp
        (under _ _ _ _).mpr (under _ _ _ _).mpr
    · simp only [dstIndex_eq]
      exact (within_iff positive (forth access) capacity).mpr (laid.below value member access here)

/-- DST that was acquired gives each value its own registers exactly where the accesses are laid out so. -/
theorem ownRegisters_iff {dstCapacity : Nat} (acquired : insertAcquireDst values dstCapacity = some capacity) :
    OwnRegisters nest values capacity ↔ (∃ loop ∈ nest, loop.tripCount = 0) ∨ Laid nest values capacity := by
  by_cases stops : ∃ loop ∈ nest, loop.tripCount = 0
  · exact iff_of_true (ownRegisters_idle stops) (.inl stops)
  · have runs : ∀ loop ∈ nest, 0 < loop.tripCount := fun loop member =>
      Nat.pos_of_ne_zero fun none => stops ⟨loop, member, none⟩
    rw [ownRegisters_iff_laid runs, or_iff_right stops]

def twice : Loop := ⟨0, 1, 2, Nat.one_pos⟩

def wholeValue (dstSlice : Nat) : DstValue :=
  ⟨dstSlice, [.buffer ⟨AffineMap.identity 2, [.loop 0, .loop 1], [2, 2]⟩, .result]⟩

def rowValue (dstSlice : Nat) : DstValue :=
  ⟨dstSlice, [.buffer ⟨{ numDims := 2, results := [.const 0, .dim 1] }, [.loop 0, .loop 1], [1, 2]⟩]⟩

theorem two_whole_values : OwnRegisters [twice, twice] [wholeValue 0, wholeValue 1] 8 := by
  have acquired : insertAcquireDst [wholeValue 0, wholeValue 1] 8 = some 8 := by decide
  refine (ownRegisters_iff acquired).mpr (.inr ⟨?_, ?_, ?_⟩)
  · decide
  · decide
  · decide

/-- The row's slice starts at two, in the middle of the first slice of four. -/
theorem row_inside_whole : ¬ OwnRegisters [twice, twice] [wholeValue 0, rowValue 1] 8 := by
  intro own
  have apart := own.apart (wholeValue 0) (by simp) (rowValue 1) (by simp) (by decide) _ List.mem_cons_self
    _ List.mem_cons_self
  have start : Iteration [twice, twice] fun _ => 0 := fun position known => tripCount_pos (by decide) position known
  have later : Iteration [twice, twice] fun position => if position = 0 then 1 else 0 := by
    unfold Iteration InBox
    decide
  rcases apart with below | below
  · exact absurd (below _ later _ start) (by decide)
  · exact absurd (below _ start _ start) (by decide)

end Registers

end TtMlir.D2m.DstLinearization
