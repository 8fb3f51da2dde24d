import Mathlib.Data.Nat.GCD.Basic
import TtMlir.Library.ProjectedPermutation

/-!
The operand grids of a generic op made to agree: first a common factor for the inputs that share
a loop dim, then, input by input, the extent that the output gives the loop dim.
-/

namespace TtMlir.D2m.Normalization

abbrev Grids := List (List Nat)

abbrev Entry := Nat × Nat

def extent (grids : Grids) (entry : Entry) : Nat := (grids.getD entry.1 []).getD entry.2 0

def setExtent (grids : Grids) (entry : Entry) (value : Nat) : Grids :=
  grids.set entry.1 ((grids.getD entry.1 []).set entry.2 value)

def Within (grids : Grids) (entry : Entry) : Prop := entry.2 < (grids.getD entry.1 []).length

theorem Within.operand {grids : Grids} {entry : Entry} (within : Within grids entry) :
    entry.1 < grids.length := by
  by_contra outside
  rw [Within, List.getD_eq_default _ _ (Nat.not_lt.mp outside)] at within
  exact absurd within (Nat.not_lt_zero _)

theorem setExtent_row (grids : Grids) (entry : Entry) (value operand : Nat) :
    (setExtent grids entry value).getD operand [] =
      if operand = entry.1 then (grids.getD operand []).set entry.2 value else grids.getD operand [] := by
  by_cases same : operand = entry.1
  · subst same
    rw [if_pos rfl, setExtent]
    by_cases known : entry.1 < grids.length
    · rw [List.getD_eq_getElem _ _ (by simpa using known)]
      simp
    · rw [List.getD_eq_default _ _ (by simpa using known), List.getD_eq_default _ _ (by simpa using known)]
      rfl
  · rw [if_neg same, setExtent, List.getD_eq_getElem?_getD, List.getElem?_set_ne (Ne.symm same),
      ← List.getD_eq_getElem?_getD]

theorem within_setExtent {grids : Grids} {entry other : Entry} {value : Nat} :
    Within (setExtent grids entry value) other ↔ Within grids other := by
  rw [Within, Within, setExtent_row]
  split <;> simp

theorem extent_setExtent_same {grids : Grids} {entry : Entry} (within : Within grids entry) (value : Nat) :
    extent (setExtent grids entry value) entry = value := by
  have inside : entry.2 < ((grids.getD entry.1 []).set entry.2 value).length := by
    rw [List.length_set]
    exact within
  rw [extent, setExtent_row, if_pos rfl, List.getD_eq_getElem _ _ inside]
  exact List.getElem_set_self inside

theorem extent_setExtent_other {entry other : Entry} (apart : other ≠ entry) (grids : Grids) (value : Nat) :
    extent (setExtent grids entry value) other = extent grids other := by
  rw [extent, extent, setExtent_row]
  split
  · next same =>
      have dims : entry.2 ≠ other.2 := fun equal => apart (Prod.ext same equal.symm)
      rw [List.getD_eq_getElem?_getD, List.getElem?_set_ne dims, ← List.getD_eq_getElem?_getD]
  · rfl

section Assign
variable {step : Grids → Entry → Grids} (value : Entry → Option Nat)

section
variable (steps : ∀ grids entry, step grids entry = (value entry).elim grids (setExtent grids entry))
  (entries : List Entry) (grids : Grids) (entry : Entry)
include steps

theorem within_foldl :
    Within (entries.foldl step grids) entry ↔ Within grids entry := by
  induction entries generalizing grids with
  | nil => rfl
  | cons first rest ih =>
      rw [List.foldl_cons, ih, steps]
      cases value first with
      | none => rfl
      | some size => exact within_setExtent

theorem extent_foldl (within : entry ∈ entries → Within grids entry) :
    extent (entries.foldl step grids) entry =
      if entry ∈ entries then (value entry).getD (extent grids entry) else extent grids entry := by
  induction entries generalizing grids with
  | nil => simp
  | cons first rest ih =>
      rw [List.foldl_cons, steps]
      cases written : value first with
      | none =>
          refine (ih grids fun later => within (List.mem_cons_of_mem _ later)).trans ?_
          by_cases same : entry = first
          · simp [same, written]
          · simp [same]
      | some size =>
          refine (ih (setExtent grids first size) fun later =>
            within_setExtent.mpr (within (List.mem_cons_of_mem _ later))).trans ?_
          by_cases same : entry = first
          · subst same
            simp [written, extent_setExtent_same (within List.mem_cons_self)]
          · simp [same, extent_setExtent_other same]

end

end Assign

def findLargestCommonFactor (physicalDims : List Nat) : Nat → Nat
  | 0 => 1
  | 1 => 1
  | factor + 2 =>
      if physicalDims.all fun dim => decide (dim % (factor + 2) = 0) then factor + 2
      else findLargestCommonFactor physicalDims (factor + 1)

theorem findLargestCommonFactor_dvd (physicalDims : List Nat) (maxFactor : Nat) :
    ∀ dim ∈ physicalDims, findLargestCommonFactor physicalDims maxFactor ∣ dim := by
  fun_induction findLargestCommonFactor physicalDims maxFactor with
  | case1 => exact fun dim _ => one_dvd dim
  | case2 => exact fun dim _ => one_dvd dim
  | case3 factor divides =>
      intro dim member
      exact Nat.dvd_of_mod_eq_zero (of_decide_eq_true (List.all_eq_true.mp divides dim member))
  | case4 factor divides ih => exact ih

theorem le_findLargestCommonFactor {physicalDims : List Nat} {maxFactor factor : Nat} (bound : factor ≤ maxFactor)
    (divides : ∀ dim ∈ physicalDims, factor ∣ dim) : factor ≤ findLargestCommonFactor physicalDims maxFactor := by
  fun_induction findLargestCommonFactor physicalDims maxFactor with
  | case1 => omega
  | case2 => omega
  | case3 candidate _ => exact bound
  | case4 candidate fails ih =>
      refine ih (Nat.le_of_lt_succ (lt_of_le_of_ne bound fun same => fails ?_))
      subst same
      exact List.all_eq_true.mpr fun dim member => decide_eq_true (Nat.mod_eq_zero_of_dvd (divides dim member))

def imposeConstraint (constrained : List Nat) (implied : Nat × Nat) : Option (List Nat) :=
  if implied.1 = 0 then some constrained
  else if constrained.getD implied.2 0 ≠ 0 ∧ constrained.getD implied.2 0 ≠ implied.1 then none
  else some (constrained.set implied.2 implied.1)

def computeDimConstraints (numDims : Nat) (operands : List (ProjectedPermutation × List Nat)) :
    Option (List Nat) :=
  operands.foldlM (fun constrained (operand : ProjectedPermutation × List Nat) =>
      (ProjectedPermutation.apply operand.1.inverseAndBroadcast operand.2).zipIdx.foldlM imposeConstraint
        constrained)
    (List.replicate numDims 0)

theorem foldlM_imposeConstraint (implied constrained : List Nat) (start : Nat)
    (room : start + implied.length ≤ constrained.length)
    (fresh : ∀ dim, start ≤ dim → constrained.getD dim 0 = 0) :
    ∃ constraints, (implied.zipIdx start).foldlM imposeConstraint constrained = some constraints ∧
      ∀ dim, constraints.getD dim 0 = if dim < start then constrained.getD dim 0 else implied.getD (dim - start) 0 := by
  induction implied generalizing constrained start with
  | nil =>
      refine ⟨constrained, rfl, fun dim => ?_⟩
      split
      · rfl
      · next late => exact fresh dim (Nat.not_lt.mp late)
  | cons first rest ih =>
      have here := fresh start le_rfl
      have imposed : imposeConstraint constrained (first, start) = some (constrained.set start first) := by
        rw [imposeConstraint]
        by_cases zero : first = 0
        · subst zero
          rw [if_pos rfl]
          refine congrArg some (List.ext_getElem (by simp) fun dim known _ => ?_)
          rw [List.getElem_set]
          split
          · next same =>
              subst same
              exact (List.getD_eq_getElem _ _ known).symm.trans here
          · rfl
        · rw [if_neg zero, if_neg fun other => other.1 here]
      have room' : start + (rest.length + 1) ≤ constrained.length := room
      have known : start < constrained.length := by omega
      obtain ⟨constraints, run, reads⟩ := ih (constrained.set start first) (start + 1)
        (by rw [List.length_set]; omega)
        (fun dim late => by
          rw [List.getD_eq_getElem?_getD, List.getElem?_set_ne (by omega), ← List.getD_eq_getElem?_getD]
          exact fresh dim (by omega))
      refine ⟨constraints, ?_, fun dim => ?_⟩
      · rw [List.zipIdx_cons, List.foldlM_cons, imposed]
        exact run
      · rw [reads]
        rcases Nat.lt_trichotomy dim start with before | same | after
        · rw [if_pos (by omega), if_pos before, List.getD_eq_getElem?_getD, List.getElem?_set_ne (by omega),
            ← List.getD_eq_getElem?_getD]
        · subst same
          simp [known]
        · rw [if_neg (by omega), if_neg (by omega)]
          obtain ⟨offset, rfl⟩ := Nat.exists_eq_add_of_lt after
          simp [show start + offset + 1 - (start + 1) = offset by omega,
            show start + offset + 1 - start = offset + 1 by omega]

/-- A generic op with the optimal grids and the physical shapes of its inputs, then its outputs. -/
structure GenericGrids where
  numInputs : Nat
  loopDims : Nat
  indexingMaps : List ProjectedPermutation
  optimalOperandGrids : Grids
  physicalShapes : Grids
  hasOutput : numInputs < indexingMaps.length
  sameLoops : ∀ map ∈ indexingMaps, map.numDims = loopDims
  gridRanks : optimalOperandGrids.map List.length = indexingMaps.map (·.results.length)
  physicalRanks : physicalShapes.map List.length = indexingMaps.map (·.results.length)
  gridsPositive : ∀ grid ∈ optimalOperandGrids, ∀ size ∈ grid, 0 < size
  gridsDivide : ∀ entry, extent optimalOperandGrids entry ∣ extent physicalShapes entry

namespace GenericGrids
variable (generic : GenericGrids)

def indexingMap (operand : Nat) : ProjectedPermutation := generic.indexingMaps.getD operand default

def loopDimOf (entry : Entry) : Option Nat := (generic.indexingMap entry.1).dimAt entry.2

def inputEntries : List Entry :=
  (List.range generic.numInputs).flatMap fun operand =>
    ((List.range (generic.indexingMap operand).results.length).map fun dim => (operand, dim)).filter
      fun entry => (generic.loopDimOf entry).isSome

/-- `dimToInputOperandDims`. -/
def entriesOf (loopDim : Nat) : List Entry :=
  generic.inputEntries.filter fun entry => decide (generic.loopDimOf entry = some loopDim)

def commonFactor (grids : Grids) (entries : List Entry) : Nat :=
  findLargestCommonFactor (entries.map (extent generic.physicalShapes))
    (entries.foldl (fun factor entry => max factor (extent grids entry)) 0)

/-- One loop dim of the first phase. -/
def shareFactor (grids : Grids) (loopDim : Nat) : Grids :=
  let entries := generic.entriesOf loopDim
  if entries.length < 2 then grids
  else entries.foldl (fun current entry => setExtent current entry (generic.commonFactor grids entries)) grids

def outputConstraints : Option (List Nat) :=
  computeDimConstraints (generic.indexingMap generic.numInputs).numDims
    [(generic.indexingMap generic.numInputs, generic.optimalOperandGrids.getD generic.numInputs [])]

def constrainedExtent (physDim constraint : Nat) : Nat :=
  if physDim % constraint = 0 then constraint
  else findLargestCommonFactor [physDim, constraint] constraint

theorem constrainedExtent_eq_gcd {physDim constraint : Nat} (positive : 0 < constraint) :
    constrainedExtent physDim constraint = Nat.gcd physDim constraint := by
  rw [constrainedExtent]
  split
  · next divides => exact (Nat.gcd_eq_right (Nat.dvd_of_mod_eq_zero divides)).symm
  · have divides := findLargestCommonFactor_dvd [physDim, constraint] constraint
    apply Nat.le_antisymm
    · exact Nat.le_of_dvd (Nat.gcd_pos_of_pos_right _ positive)
        (Nat.dvd_gcd (divides physDim (by simp)) (divides constraint (by simp)))
    · apply le_findLargestCommonFactor (Nat.gcd_le_right _ positive)
      simp [Nat.gcd_dvd_left, Nat.gcd_dvd_right]

def constrain (constraints : List Nat) (grids : Grids) (entry : Entry) : Grids :=
  match generic.loopDimOf entry with
  | none => grids
  | some dimPos =>
      let constraint := constraints.getD dimPos 0
      if constraint ≠ 0 then
        setExtent grids entry (constrainedExtent (extent generic.physicalShapes entry) constraint)
      else grids

/-- The loop dims of the inputs are visited in the order of a hash map, which is `keys`. -/
def normalizeOperandGridsForGeneric (keys : List Nat) : Grids :=
  if generic.optimalOperandGrids.isEmpty then []
  else
    let shared := keys.foldl generic.shareFactor generic.optimalOperandGrids
    match generic.outputConstraints with
    | none => shared
    | some constraints => generic.inputEntries.foldl (generic.constrain constraints) shared

def KeysOf (keys : List Nat) : Prop :=
  keys.Nodup ∧ ∀ loopDim, loopDim ∈ keys ↔ generic.entriesOf loopDim ≠ []

/-- The extent that the first output gives a loop dim; none without a dim of the output there. -/
def outputExtent (loopDim : Nat) : Option Nat :=
  ((generic.indexingMap generic.numInputs).positionOf loopDim).map fun position =>
    extent generic.optimalOperandGrids (generic.numInputs, position)

structure Normalized (grids : Grids) : Prop where
  divides : ∀ entry, entry.1 < generic.numInputs → extent grids entry ∣ extent generic.physicalShapes entry
  agree : ∀ loopDim, ∀ entry ∈ generic.entriesOf loopDim, ∀ other ∈ generic.entriesOf loopDim,
    extent grids entry = extent grids other
  follows : ∀ loopDim size, generic.outputExtent loopDim = some size →
    (∀ entry ∈ generic.entriesOf loopDim, size ∣ extent generic.physicalShapes entry) →
    ∀ entry ∈ generic.entriesOf loopDim, extent grids entry = size

/-- An output extent has one common divisor with all the inputs of its loop dim. -/
def OutputsFit : Prop :=
  ∀ loopDim size, generic.outputExtent loopDim = some size →
    ∀ entry ∈ generic.entriesOf loopDim, ∀ other ∈ generic.entriesOf loopDim,
      Nat.gcd (extent generic.physicalShapes entry) size = Nat.gcd (extent generic.physicalShapes other) size

variable {generic} {keys : List Nat} {entry other : Entry} {loopDim : Nat}

theorem mem_inputEntries : entry ∈ generic.inputEntries ↔
    entry.1 < generic.numInputs ∧ (generic.loopDimOf entry).isSome := by
  simp only [inputEntries, List.mem_flatMap, List.mem_range, List.mem_filter, List.mem_map]
  constructor
  · rintro ⟨operand, known, ⟨dim, -, rfl⟩, isDim⟩
    exact ⟨known, isDim⟩
  · rintro ⟨known, isDim⟩
    obtain ⟨dim, found⟩ := Option.isSome_iff_exists.mp isDim
    exact ⟨entry.1, known, ⟨entry.2, ProjectedPermutation.lt_of_dimAt found, rfl⟩, isDim⟩

theorem mem_entriesOf : entry ∈ generic.entriesOf loopDim ↔
    entry.1 < generic.numInputs ∧ generic.loopDimOf entry = some loopDim := by
  rw [entriesOf, List.mem_filter, mem_inputEntries, decide_eq_true_iff]
  constructor
  · rintro ⟨⟨known, -⟩, found⟩
    exact ⟨known, found⟩
  · rintro ⟨known, found⟩
    exact ⟨⟨known, by rw [found]; rfl⟩, found⟩

theorem within_optimal (found : (generic.loopDimOf entry).isSome) : Within generic.optimalOperandGrids entry := by
  obtain ⟨dim, found⟩ := Option.isSome_iff_exists.mp found
  have row : (generic.optimalOperandGrids.map List.length).getD entry.1 0 =
      (generic.indexingMap entry.1).results.length := by
    rw [generic.gridRanks]
    simp [indexingMap, List.getD_eq_getElem?_getD]
    cases generic.indexingMaps[entry.1]? <;> rfl
  have length : (generic.optimalOperandGrids.getD entry.1 []).length =
      (generic.optimalOperandGrids.map List.length).getD entry.1 0 := by
    simp only [List.getD_eq_getElem?_getD, List.getElem?_map]
    cases generic.optimalOperandGrids[entry.1]? <;> rfl
  rw [Within, length, row]
  exact ProjectedPermutation.lt_of_dimAt found

theorem loopDimOf_unique {second : Nat} (found : entry ∈ generic.entriesOf loopDim)
    (again : entry ∈ generic.entriesOf second) : loopDim = second :=
  Option.some.inj ((mem_entriesOf.mp found).2.symm.trans (mem_entriesOf.mp again).2)

/-- The grids between two rounds of the first phase. -/
structure Sharing (generic : GenericGrids) (visited : List Nat) (grids : Grids) : Prop where
  within : ∀ entry ∈ generic.inputEntries, Within grids entry
  divides : ∀ entry, extent grids entry ∣ extent generic.physicalShapes entry
  agree : ∀ loopDim ∈ visited, ∀ entry ∈ generic.entriesOf loopDim, ∀ other ∈ generic.entriesOf loopDim,
    extent grids entry = extent grids other

theorem shareFactor_cases (grids : Grids) (within : ∀ entry ∈ generic.inputEntries, Within grids entry)
    (loopDim : Nat) :
    (generic.shareFactor grids loopDim = grids ∧ (generic.entriesOf loopDim).length < 2) ∨
    ∃ factor, (∀ entry ∈ generic.entriesOf loopDim, factor ∣ extent generic.physicalShapes entry) ∧
      (∀ entry, Within (generic.shareFactor grids loopDim) entry ↔ Within grids entry) ∧
      ∀ entry, extent (generic.shareFactor grids loopDim) entry =
        if entry ∈ generic.entriesOf loopDim then factor else extent grids entry := by
  rw [shareFactor]
  split
  · next few => exact .inl ⟨rfl, few⟩
  · refine .inr ⟨generic.commonFactor grids (generic.entriesOf loopDim), fun entry member => ?_,
      within_foldl (fun _ => some _) (fun _ _ => rfl) _ _, fun entry => ?_⟩
    · exact findLargestCommonFactor_dvd _ _ _ (List.mem_map_of_mem member)
    · refine extent_foldl (fun _ => some _) (fun _ _ => rfl) _ _ entry fun member => ?_
      exact within entry (List.mem_of_mem_filter member)

theorem Sharing.step {visited : List Nat} {grids : Grids} (sharing : generic.Sharing visited grids)
    (loopDim : Nat) : generic.Sharing (loopDim :: visited) (generic.shareFactor grids loopDim) := by
  rcases shareFactor_cases grids sharing.within loopDim with ⟨same, few⟩ | ⟨factor, divides, stays, reads⟩
  · rw [same]
    refine ⟨sharing.within, sharing.divides, fun current member entry found other again => ?_⟩
    rcases List.mem_cons.mp member with rfl | earlier
    · match entries : generic.entriesOf current with
      | [] => simp [entries] at found
      | [only] =>
          rw [entries, List.mem_singleton] at found again
          rw [found, again]
      | _ :: _ :: _ =>
          rw [entries] at few
          exact absurd few (by simp)
    · exact sharing.agree current earlier entry found other again
  · refine ⟨fun entry known => (stays entry).mpr (sharing.within entry known), fun entry => ?_,
      fun current member entry found other again => ?_⟩
    · rw [reads]
      split
      · next here => exact divides entry here
      · exact sharing.divides entry
    · rw [reads, reads]
      by_cases same : current = loopDim
      · subst same
        rw [if_pos found, if_pos again]
      · -- the entries of another loop dim are none of these
        rw [if_neg fun here => same (loopDimOf_unique found here),
          if_neg fun here => same (loopDimOf_unique again here)]
        exact sharing.agree current ((List.mem_cons.mp member).resolve_left same) entry found other again

theorem Sharing.run {visited : List Nat} {grids : Grids} (sharing : generic.Sharing visited grids)
    (keys : List Nat) : generic.Sharing (keys.reverse ++ visited) (keys.foldl generic.shareFactor grids) := by
  induction keys generalizing visited grids with
  | nil => exact sharing
  | cons first rest ih =>
      rw [List.foldl_cons, List.reverse_cons, List.append_assoc]
      exact ih (sharing.step first)

theorem sharing_optimal (generic : GenericGrids) : generic.Sharing [] generic.optimalOperandGrids where
  within _ member := within_optimal (mem_inputEntries.mp member).2
  divides := generic.gridsDivide
  agree _ member := absurd member List.not_mem_nil

theorem indexingMap_output_numDims : (generic.indexingMap generic.numInputs).numDims = generic.loopDims := by
  rw [indexingMap, List.getD_eq_getElem _ _ generic.hasOutput]
  exact generic.sameLoops _ (List.getElem_mem generic.hasOutput)

theorem loopDim_lt (found : entry ∈ generic.entriesOf loopDim) : loopDim < generic.loopDims := by
  obtain ⟨known, found⟩ := mem_entriesOf.mp found
  have inside : entry.1 < generic.indexingMaps.length := known.trans generic.hasOutput
  have bound := ProjectedPermutation.dim_lt found
  rw [indexingMap, List.getD_eq_getElem _ _ inside, generic.sameLoops _ (List.getElem_mem inside)] at bound
  exact bound

theorem outputConstraints_spec (generic : GenericGrids) : ∃ constraints, generic.outputConstraints = some constraints ∧
    ∀ loopDim < generic.loopDims, constraints.getD loopDim 0 = (generic.outputExtent loopDim).getD 0 := by
  have length : (ProjectedPermutation.apply (generic.indexingMap generic.numInputs).inverseAndBroadcast
      (generic.optimalOperandGrids.getD generic.numInputs [])).length =
      (generic.indexingMap generic.numInputs).numDims := by
    simp [ProjectedPermutation.apply, ProjectedPermutation.inverseAndBroadcast]
  obtain ⟨constraints, run, reads⟩ := foldlM_imposeConstraint
    (ProjectedPermutation.apply (generic.indexingMap generic.numInputs).inverseAndBroadcast
      (generic.optimalOperandGrids.getD generic.numInputs []))
    (List.replicate (generic.indexingMap generic.numInputs).numDims 0) 0
    (by rw [length, List.length_replicate, Nat.zero_add])
    (fun dim _ => by
      rw [List.getD_eq_getElem?_getD, List.getElem?_replicate]
      split <;> rfl)
  refine ⟨constraints, ?_, fun loopDim inside => ?_⟩
  · rw [outputConstraints, computeDimConstraints, List.foldlM_cons, run]
    rfl
  · rw [reads, if_neg (Nat.not_lt_zero _), Nat.sub_zero]
    rw [← indexingMap_output_numDims] at inside
    rw [ProjectedPermutation.apply_getD, ProjectedPermutation.inverseAndBroadcast_getD inside]
    rfl

theorem outputExtent_pos {size : Nat} (gives : generic.outputExtent loopDim = some size) : 0 < size := by
  obtain ⟨position, found, rfl⟩ := Option.map_eq_some_iff.mp gives
  have within : Within generic.optimalOperandGrids (generic.numInputs, position) :=
    within_optimal (Option.isSome_iff_exists.mpr ⟨_, ProjectedPermutation.positionOf_eq_some.mp found⟩)
  have known := within.operand
  rw [Within, List.getD_eq_getElem _ _ known] at within
  rw [extent, List.getD_eq_getElem _ _ known, List.getD_eq_getElem _ _ within]
  exact generic.gridsPositive _ (List.getElem_mem known) _ (List.getElem_mem within)

def imposed (generic : GenericGrids) (constraints : List Nat) (entry : Entry) : Option Nat :=
  (generic.loopDimOf entry).bind fun dimPos =>
    if constraints.getD dimPos 0 ≠ 0 then
      some (constrainedExtent (extent generic.physicalShapes entry) (constraints.getD dimPos 0))
    else none

theorem constrain_eq (constraints : List Nat) (grids : Grids) (entry : Entry) :
    generic.constrain constraints grids entry =
      (generic.imposed constraints entry).elim grids (setExtent grids entry) := by
  rw [constrain, imposed]
  cases generic.loopDimOf entry with
  | none => rfl
  | some dimPos =>
      simp only [Option.bind_some]
      split <;> rfl

theorem imposed_of_output {constraints : List Nat} {size : Nat} (found : entry ∈ generic.entriesOf loopDim)
    (reads : constraints.getD loopDim 0 = (generic.outputExtent loopDim).getD 0)
    (gives : generic.outputExtent loopDim = some size) :
    generic.imposed constraints entry = some (Nat.gcd (extent generic.physicalShapes entry) size) := by
  have positive := outputExtent_pos gives
  rw [gives, Option.getD_some] at reads
  rw [imposed, (mem_entriesOf.mp found).2, Option.bind_some, reads, if_pos (Nat.ne_of_gt positive),
    constrainedExtent_eq_gcd positive]

theorem imposed_of_free {constraints : List Nat} (found : entry ∈ generic.entriesOf loopDim)
    (reads : constraints.getD loopDim 0 = (generic.outputExtent loopDim).getD 0)
    (free : generic.outputExtent loopDim = none) : generic.imposed constraints entry = none := by
  rw [free, Option.getD_none] at reads
  rw [imposed, (mem_entriesOf.mp found).2, Option.bind_some, if_neg (not_not_intro reads)]

/-- The extents at the end: under an output extent the common divisor, else those of the first phase. -/
theorem normalize_spec (generic : GenericGrids) (keys : List Nat) : ∃ shared, generic.Sharing keys.reverse shared ∧
    (∀ entry ∉ generic.inputEntries,
      extent (generic.normalizeOperandGridsForGeneric keys) entry = extent shared entry) ∧
    ∀ loopDim, ∀ entry ∈ generic.entriesOf loopDim,
      extent (generic.normalizeOperandGridsForGeneric keys) entry =
        (generic.outputExtent loopDim).elim (extent shared entry)
          (Nat.gcd (extent generic.physicalShapes entry)) := by
  have sharing := (sharing_optimal generic).run keys
  rw [List.append_nil] at sharing
  obtain ⟨constraints, output, reads⟩ := outputConstraints_spec generic
  have filled : generic.optimalOperandGrids.isEmpty = false := by
    have lengths := congrArg List.length generic.gridRanks
    rw [List.length_map, List.length_map] at lengths
    have outputs := generic.hasOutput
    cases grids : generic.optimalOperandGrids with
    | nil => rw [grids, List.length_nil] at lengths; omega
    | cons => rfl
  have run : generic.normalizeOperandGridsForGeneric keys =
      generic.inputEntries.foldl (generic.constrain constraints)
        (keys.foldl generic.shareFactor generic.optimalOperandGrids) := by
    rw [normalizeOperandGridsForGeneric, filled, output]
    rfl
  refine ⟨_, sharing, fun entry outside => ?_, fun loopDim entry found => ?_⟩
  · rw [run, extent_foldl _ (constrain_eq constraints) _ _ entry fun member => absurd member outside, if_neg outside]
  · have member : entry ∈ generic.inputEntries := List.mem_of_mem_filter found
    rw [run, extent_foldl _ (constrain_eq constraints) _ _ entry fun _ => sharing.within entry member, if_pos member]
    have here := reads loopDim (loopDim_lt found)
    cases gives : generic.outputExtent loopDim with
    | none => rw [imposed_of_free found here gives]; rfl
    | some size => rw [imposed_of_output found here gives]; rfl

theorem normalize_divides (generic : GenericGrids) (keys : List Nat) (entry : Entry) :
    extent (generic.normalizeOperandGridsForGeneric keys) entry ∣ extent generic.physicalShapes entry := by
  obtain ⟨shared, sharing, outside, inside⟩ := normalize_spec generic keys
  by_cases member : entry ∈ generic.inputEntries
  · obtain ⟨known, isDim⟩ := mem_inputEntries.mp member
    obtain ⟨loopDim, found⟩ := Option.isSome_iff_exists.mp isDim
    rw [inside loopDim entry (mem_entriesOf.mpr ⟨known, found⟩)]
    cases generic.outputExtent loopDim with
    | none => exact sharing.divides entry
    | some size => exact Nat.gcd_dvd_left _ _
  · rw [outside entry member]
    exact sharing.divides entry

theorem normalize_agree_iff (order : generic.KeysOf keys) :
    (∀ loopDim, ∀ entry ∈ generic.entriesOf loopDim, ∀ other ∈ generic.entriesOf loopDim,
      extent (generic.normalizeOperandGridsForGeneric keys) entry =
        extent (generic.normalizeOperandGridsForGeneric keys) other) ↔ generic.OutputsFit := by
  obtain ⟨shared, sharing, -, inside⟩ := normalize_spec generic keys
  constructor
  · intro agree loopDim size gives entry found other again
    have same := agree loopDim entry found other again
    rw [inside loopDim entry found, inside loopDim other again, gives] at same
    exact same
  · intro fit loopDim entry found other again
    rw [inside loopDim entry found, inside loopDim other again]
    cases gives : generic.outputExtent loopDim with
    | none =>
        -- the first phase visits every loop dim that an input has
        have visited : loopDim ∈ keys.reverse :=
          List.mem_reverse.mpr ((order.2 loopDim).mpr (List.ne_nil_of_mem found))
        exact sharing.agree loopDim visited entry found other again
    | some size => exact fit loopDim size gives entry found other again

/-- The inputs keep agreeing just where an output extent has one common divisor with all of them. -/
theorem normalize_iff (order : generic.KeysOf keys) :
    generic.Normalized (generic.normalizeOperandGridsForGeneric keys) ↔ generic.OutputsFit := by
  constructor
  · intro normalized
    exact (normalize_agree_iff order).mp normalized.agree
  · intro fit
    refine ⟨fun entry _ => normalize_divides generic keys entry, (normalize_agree_iff order).mpr fit, ?_⟩
    intro loopDim size gives divides entry found
    obtain ⟨shared, -, -, inside⟩ := normalize_spec generic keys
    rw [inside loopDim entry found, gives]
    exact Nat.gcd_eq_right (divides entry found)

end GenericGrids

def rows : ProjectedPermutation := ⟨2, [some 0, some 1], by decide, by decide⟩

def unevenRows : GenericGrids where
  numInputs := 2
  loopDims := 2
  indexingMaps := [rows, rows, rows]
  optimalOperandGrids := [[8, 8], [6, 8], [4, 8]]
  physicalShapes := [[8, 8], [6, 8], [8, 8]]
  hasOutput := by decide
  sameLoops := by decide
  gridRanks := rfl
  physicalRanks := rfl
  gridsPositive := by decide
  gridsDivide := by
    rintro ⟨operand, dim⟩
    match operand, dim with
    | 0, 0 | 0, 1 | 1, 0 | 1, 1 | 2, 0 | 2, 1 => decide
    | 0, _ + 2 | 1, _ + 2 | 2, _ + 2 | _ + 3, _ => exact dvd_refl 0

theorem unevenRows_keys : unevenRows.KeysOf [0, 1] := by
  refine ⟨by decide, fun loopDim => ?_⟩
  match loopDim with
  | 0 | 1 => decide
  | later + 2 =>
      refine iff_of_false (by simp) fun filled => ?_
      obtain ⟨entry, found⟩ := List.exists_mem_of_ne_nil _ filled
      exact absurd (GenericGrids.loopDim_lt found) (by simp [unevenRows])

/-- The output's 4 rows divide 8 and not 6, so the inputs end with 4 and 2. -/
theorem unevenRows_disagree : unevenRows.KeysOf [0, 1] ∧
    ¬unevenRows.Normalized (unevenRows.normalizeOperandGridsForGeneric [0, 1]) := by
  refine ⟨unevenRows_keys, fun normalized => ?_⟩
  have same := normalized.agree 0 (0, 0) (by decide) (1, 0) (by decide)
  exact absurd same (by decide)

theorem unevenRows_iff : unevenRows.KeysOf [0, 1] ∧
    (unevenRows.Normalized (unevenRows.normalizeOperandGridsForGeneric [0, 1]) ↔ unevenRows.OutputsFit) :=
  ⟨unevenRows_keys, GenericGrids.normalize_iff unevenRows_keys⟩

end TtMlir.D2m.Normalization
