import TtMlir.Library.Groups

/-!
Fusion of a permute, a reshape of equal rank and another permute into one reshape,
TTIRTMFusionPatterns.cpp. The axes of the first permute are grouped against the dims of the
reshape: a dim takes an equal axis, none when it is one, and else all axes that divide it.
-/

namespace TtMlir.Ttir.TMFusion

/-- What ends the scan without an answer. -/
inductive Stop
  | notFullyConsumed | moduloByZero
  deriving DecidableEq, Repr

def consume (output : Nat) : Nat → List (Nat × Nat) → Except Stop (Nat × List Nat × List (Nat × Nat))
  | consumed, [] => .ok (consumed, [], [])
  | consumed, (axis, extent) :: rest =>
      if consumed * extent = 0 then .error .moduloByZero
      else if output % (consumed * extent) = 0 then
        (consume output (consumed * extent) rest).map fun taken => (taken.1, axis :: taken.2.1, taken.2.2)
      else .ok (consumed, [], (axis, extent) :: rest)

def addGroup (group : List Nat) (answer : Except Stop (Option (List (List Nat)))) :
    Except Stop (Option (List (List Nat))) :=
  answer.map fun groups => groups.map (group :: ·)

/-- The groups of axes for the dims of the output, or none where they do not fit. -/
def groupDims : List (Nat × Nat) → List Nat → Except Stop (Option (List (List Nat)))
  | inputs, [] => if inputs = [] then .ok (some []) else .error .notFullyConsumed
  | inputs, output :: outputs =>
      match inputs with
      | [] =>
          if output = 1 then addGroup [] (groupDims [] outputs)
          else .ok none
      | (axis, extent) :: rest =>
          if extent = output then addGroup [axis] (groupDims rest outputs)
          else if output = 1 then addGroup [] (groupDims ((axis, extent) :: rest) outputs)
          else
            match consume output 1 ((axis, extent) :: rest) with
            | .error stop => .error stop
            | .ok (consumed, group, left) =>
                if consumed ≠ output then .ok none else addGroup group (groupDims left outputs)

def groupAxes (inputShape outputShape axesIds : List Nat) : Except Stop (Option (List (List Nat))) :=
  groupDims (axesIds.zip inputShape) outputShape

def applyPermutation (groups : List (List Nat)) (permutation : List Nat) : List (List Nat) :=
  permutation.map (groups.getD · [])

/-- A permute, a reshape and a permute, each the input of the next, as their verifiers have them. -/
structure Chain where
  shape : List Nat
  original : List Nat
  reshaped : List Nat
  final : List Nat
  originalPermutes : Permutes shape.length original
  volume : reshaped.prod = shape.prod
  finalPermutes : Permutes reshaped.length final
  originalHasOneUse : Bool
  reshapeHasOneUse : Bool
  finalHasOneUse : Bool

def matchAndRewrite (chain : Chain) : Except Stop (Option (List Nat)) :=
  if !chain.originalHasOneUse && !chain.reshapeHasOneUse && !chain.finalHasOneUse then .ok none
  else if chain.shape.length ≠ chain.reshaped.length then .ok none
  else
    (groupAxes (gather chain.shape chain.original) chain.reshaped chain.original).map fun axesGroups =>
      axesGroups.bind fun groups =>
        if (applyPermutation groups chain.final).flatten = List.range chain.shape.length then
          some (gather chain.reshaped chain.final)
        else none

section Meaning
variable {α : Type}

def Chain.run (chain : Chain) (tensor : Tensor α) : Tensor α :=
  ((tensor.permute chain.original).reshape chain.reshaped).permute chain.final

/-- The pattern comes to an end, and a reshape that it builds computes what the ops do. -/
def Chain.Fuses (α : Type) (chain : Chain) : Prop :=
  ∃ rewritten, matchAndRewrite chain = .ok rewritten ∧
    ∀ shape ∈ rewritten, ∀ tensor : Tensor α, tensor.shape = chain.shape →
      Tensor.Same (tensor.reshape shape) (chain.run tensor)

end Meaning

section Groups
variable {shape : List Nat}

theorem consume_spec {output consumed product : Nat} {inputs left : List (Nat × Nat)} {group : List Nat}
    (extents : ∀ input ∈ inputs, input.2 = shape.getD input.1 0)
    (taken : consume output consumed inputs = .ok (product, group, left)) :
    inputs.map Prod.fst = group ++ left.map Prod.fst ∧ product = consumed * (gather shape group).prod ∧
      ∀ input ∈ left, input.2 = shape.getD input.1 0 := by
  induction inputs generalizing consumed product group with
  | nil =>
      cases taken
      simp [gather]
  | cons input rest ih =>
      obtain ⟨axis, extent⟩ := input
      unfold consume at taken
      split at taken
      · exact nomatch taken
      split at taken
      · cases more : consume output (consumed * extent) rest with
        | error stop =>
            rw [more] at taken
            exact nomatch taken
        | ok result =>
            rw [more] at taken
            cases taken
            obtain ⟨axes, volume, known⟩ := ih (fun input member => extents input (List.mem_cons_of_mem _ member)) more
            have own : extent = shape.getD axis 0 := extents _ List.mem_cons_self
            refine ⟨by simp [axes], ?_, known⟩
            rw [volume, gather, gather, List.map_cons, List.prod_cons, ← own, Nat.mul_assoc]
      · cases taken
        exact ⟨by simp, by simp [gather], extents⟩

theorem addGroup_some {group : List Nat} {answer : Except Stop (Option (List (List Nat)))} {groups : List (List Nat)}
    (added : addGroup group answer = .ok (some groups)) : ∃ rest, answer = .ok (some rest) ∧
      groups = group :: rest := by
  rcases answer with stop | (_ | rest)
  · exact nomatch added
  · exact nomatch added
  · cases added
    exact ⟨rest, rfl, rfl⟩

theorem groupDims_spec {inputs : List (Nat × Nat)} {outputs : List Nat} {groups : List (List Nat)}
    (extents : ∀ input ∈ inputs, input.2 = shape.getD input.1 0)
    (grouped : groupDims inputs outputs = .ok (some groups)) :
    groups.flatten = inputs.map Prod.fst ∧ (groups.map (gather shape)).map List.prod = outputs := by
  induction outputs generalizing inputs groups with
  | nil =>
      unfold groupDims at grouped
      split at grouped
      · rename_i empty
        cases grouped
        simp [empty]
      · exact nomatch grouped
  | cons output outputs ih =>
      unfold groupDims at grouped
      cases inputs with
      | nil =>
          dsimp only at grouped
          split at grouped
          · rename_i unit
            obtain ⟨rest, later, rfl⟩ := addGroup_some grouped
            obtain ⟨axes, volumes⟩ := ih extents later
            exact ⟨axes, by simp [← volumes, gather, unit]⟩
          · exact nomatch grouped
      | cons input tail =>
          obtain ⟨axis, extent⟩ := input
          dsimp only at grouped
          have tailExtents : ∀ input ∈ tail, input.2 = shape.getD input.1 0 :=
            fun input member => extents input (List.mem_cons_of_mem _ member)
          split at grouped
          · rename_i equal
            obtain ⟨rest, later, rfl⟩ := addGroup_some grouped
            obtain ⟨axes, volumes⟩ := ih tailExtents later
            have own : extent = shape.getD axis 0 := extents _ List.mem_cons_self
            have size : (gather shape [axis]).prod = output := by
              rw [gather, List.map_singleton, List.prod_singleton, ← own, equal]
            exact ⟨by simp [axes], by rw [List.map_cons, List.map_cons, volumes, size]⟩
          split at grouped
          · rename_i unit
            obtain ⟨rest, later, rfl⟩ := addGroup_some grouped
            obtain ⟨axes, volumes⟩ := ih extents later
            exact ⟨axes, by simp [← volumes, gather, unit]⟩
          · split at grouped
            · exact nomatch grouped
            · rename_i consumed group left taken
              obtain ⟨listed, product, leftExtents⟩ := consume_spec extents taken
              split at grouped
              · exact nomatch grouped
              · rename_i exactly
                obtain ⟨rest, later, rfl⟩ := addGroup_some grouped
                obtain ⟨axes, volumes⟩ := ih leftExtents later
                refine ⟨by rw [listed, List.flatten_cons, axes], ?_⟩
                rw [List.map_cons, List.map_cons, volumes]
                have size : consumed = output := not_not.mp exactly
                rw [← size, product, Nat.one_mul]

end Groups

section Soundness
variable {α : Type}

theorem zip_extents (shape axes : List Nat) :
    ∀ input ∈ axes.zip (gather shape axes), input.2 = shape.getD input.1 0 := by
  intro input member
  obtain ⟨position, here, found⟩ := List.mem_iff_getElem.mp member
  rw [← found, List.getElem_zip]
  exact List.getElem_map _

theorem matchAndRewrite_same (chain : Chain) {shape : List Nat} (rewritten : matchAndRewrite chain = .ok (some shape))
    (tensor : Tensor α) (known : tensor.shape = chain.shape) : Tensor.Same (tensor.reshape shape)
    (chain.run tensor) := by
  unfold matchAndRewrite at rewritten
  split at rewritten
  · exact nomatch rewritten
  split at rewritten
  · exact nomatch rewritten
  cases grouped : groupAxes (gather chain.shape chain.original) chain.reshaped chain.original with
  | error stop =>
      rw [grouped] at rewritten
      exact nomatch rewritten
  | ok answer =>
      cases answer with
      | none =>
          rw [grouped] at rewritten
          exact nomatch rewritten
      | some groups =>
          rw [grouped] at rewritten
          simp only [Except.map, Option.bind_some, Except.ok.injEq] at rewritten
          split at rewritten
          · rename_i ordered
            cases rewritten
            obtain ⟨axes, volumes⟩ := groupDims_spec (zip_extents chain.shape chain.original) grouped
            rw [List.map_fst_zip (by rw [gather_length])] at axes
            have permutes := chain.originalPermutes
            rw [← known] at permutes ordered volumes
            exact tensor.permute_reshape_permute permutes axes volumes chain.finalPermutes ordered
          · exact nomatch rewritten

theorem fuses_iff (chain : Chain) : chain.Fuses α ↔ ∃ rewritten, matchAndRewrite chain = .ok rewritten := by
  constructor
  · rintro ⟨rewritten, ends, _⟩
    exact ⟨rewritten, ends⟩
  · rintro ⟨rewritten, ends⟩
    refine ⟨rewritten, ends, fun shape found tensor known => ?_⟩
    cases found
    exact matchAndRewrite_same chain ends tensor known

end Soundness

end TtMlir.Ttir.TMFusion
