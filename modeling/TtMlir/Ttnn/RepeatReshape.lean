import TtMlir.Library.MoveLast

/-!
Repeats whose factors move to the inner dims, `RepeatReshapeAdjusting` in
TTNNMemoryManagement.cpp. Between the two dims of a move the input has one position a dim, and
all users are reshapes, which do not see how that block is cut.
-/

namespace TtMlir.Ttnn.RepeatReshape

def tileExtent : Nat := 32

def hasNonTileAlignedInnerDims (shape : List Nat) : Bool :=
  2 ≤ shape.length ∧ (shape.getD (shape.length - 1) 0 % tileExtent ≠ 0 ∨ shape.getD (shape.length - 2) 0 % tileExtent ≠ 0)

def hasOnlySingletonDimsBetween (shape : List Nat) (src tgt : Nat) : Bool :=
  (List.range' (src + 1) (tgt - (src + 1))).all fun dim => shape.getD dim 0 = 1

/-- Whether the factor of `src` can move to `tgt`. -/
def takesFactor (inputShape adjustedDims : List Nat) (src tgt : Nat) : Bool :=
  inputShape.getD tgt 0 = 1 && adjustedDims.getD tgt 0 = 1 && hasOnlySingletonDimsBetween inputShape src tgt

def relocate (inputShape adjustedDims : List Nat) (src : Nat) : List Nat :=
  if adjustedDims.getD src 0 ≤ 1 ∨ inputShape.getD src 0 ≠ 1 then adjustedDims
  else
    match [inputShape.length - 2, inputShape.length - 1].find? (takesFactor inputShape adjustedDims src) with
    | none => adjustedDims
    | some tgt => (adjustedDims.set tgt (adjustedDims.getD src 0)).set src 1

def adjustDims (inputShape dims : List Nat) : List Nat :=
  (List.range (inputShape.length - 2)).foldl (relocate inputShape) dims

/-- What uses the result of a repeat. -/
inductive User where
  | reshape (shape : List Nat)
  | other
  deriving DecidableEq

/-- A verified repeat with its users. -/
structure RepeatOp where
  inputShape : List Nat
  repeatDims : List Nat
  users : List User
  ranks : repeatDims.length = inputShape.length
  positive : ∀ count ∈ repeatDims, 0 < count
  volumes : ∀ shape, .reshape shape ∈ users → shape.prod = (List.zipWith (· * ·) inputShape repeatDims).prod

/-- Dims that repeat as others do, up to a reshape. -/
structure RepeatsAs (shape dims moved : List Nat) : Prop where
  length : moved.length = dims.length
  product : moved.prod = dims.prod
  positive : (∀ count ∈ dims, 0 < count) → ∀ count ∈ moved, 0 < count
  source : ∀ flat, Tensor.repeatSource shape moved flat = Tensor.repeatSource shape dims flat

section Relocate
variable {shape dims moved last : List Nat} {src tgt : Nat}

theorem RepeatsAs.refl (shape dims : List Nat) : RepeatsAs shape dims dims := ⟨rfl, rfl, id, fun _ => rfl⟩

theorem RepeatsAs.trans (first : RepeatsAs shape dims moved) (second : RepeatsAs shape moved last) :
    RepeatsAs shape dims last :=
  ⟨second.length.trans first.length, second.product.trans first.product,
    fun positive => second.positive (first.positive positive),
    fun flat => (second.source flat).trans (first.source flat)⟩

theorem split_two (dims : List Nat) (order : src < tgt) (inside : tgt < dims.length) :
    ∃ outer between inner, dims = outer ++ dims.getD src 0 :: (between ++ dims.getD tgt 0 :: inner) ∧
      outer.length = src ∧
      src + 1 + between.length = tgt ∧ between = (dims.drop (src + 1)).take (tgt - (src + 1)) := by
  refine ⟨dims.take src, (dims.drop (src + 1)).take (tgt - (src + 1)), dims.drop (tgt + 1), ?_, ?_, ?_, rfl⟩
  · have first := split_getD 0 dims src (by omega)
    have second := split_getD 0 (dims.drop (src + 1)) (tgt - (src + 1)) (by rw [List.length_drop]; omega)
    have entry : (dims.drop (src + 1)).getD (tgt - (src + 1)) 0 = dims.getD tgt 0 := by
      rw [List.getD_eq_getElem?_getD, List.getElem?_drop, show src + 1 + (tgt - (src + 1)) = tgt by omega,
        ← List.getD_eq_getElem?_getD]
    rw [entry, List.drop_drop, show src + 1 + (tgt - (src + 1) + 1) = tgt + 1 by omega] at second
    rw [← second]
    exact first
  · rw [List.length_take]
    omega
  · rw [List.length_take, List.length_drop]
    omega

theorem between_ones (single : hasOnlySingletonDimsBetween shape src tgt) (inside : tgt ≤ shape.length) :
    (shape.drop (src + 1)).take (tgt - (src + 1)) = List.replicate (tgt - (src + 1)) 1 := by
  apply List.ext_getElem
  · rw [List.length_take, List.length_drop, List.length_replicate]
    omega
  · intro position below _
    rw [List.length_take, List.length_drop] at below
    unfold hasOnlySingletonDimsBetween at single
    rw [List.all_eq_true] at single
    have one := single (src + 1 + position) (List.mem_range'_1.mpr (by omega))
    rw [decide_eq_true_eq, List.getD_eq_getElem _ _ (by omega)] at one
    rw [List.getElem_take, List.getElem_drop, List.getElem_replicate, one]

theorem move_repeatsAs (ranks : dims.length = shape.length) (order : src < tgt) (inside : tgt < shape.length)
    (source : shape.getD src 0 = 1) (takes : takesFactor shape dims src tgt) :
    RepeatsAs shape dims ((dims.set tgt (dims.getD src 0)).set src 1) := by
  unfold takesFactor at takes
  rw [Bool.and_eq_true, Bool.and_eq_true, decide_eq_true_eq, decide_eq_true_eq] at takes
  obtain ⟨⟨target, free⟩, single⟩ := takes
  obtain ⟨front, ones, back, shapeSplit, frontLength, onesLength, onesAre⟩ := split_two shape order inside
  obtain ⟨outer, between, inner, split, outerLength, betweenLength, _⟩ := split_two dims order (ranks ▸ inside)
  rw [source, target] at shapeSplit
  rw [free] at split
  rw [between_ones single (Nat.le_of_lt inside)] at onesAre
  generalize dims.getD src 0 = factor at split ⊢
  -- The counts with the factor moved in, cut at the source and at the target.
  have result : (dims.set tgt factor).set src 1 = outer ++ ((1 :: (between ++ [factor])) ++ inner) := by
    have atTarget := set_middle (outer ++ factor :: between) inner 1 factor
    have atSource := set_middle outer (between ++ factor :: inner) factor 1
    rw [List.length_append, List.length_cons, outerLength, show src + (between.length + 1) = tgt by omega] at atTarget
    rw [outerLength] at atSource
    rw [split, ← List.cons_append, ← List.append_assoc, atTarget, List.append_assoc, List.cons_append, atSource]
    simp
  have counts : dims = outer ++ ((factor :: (between ++ [1])) ++ inner) := by
    rw [split]
    simp
  -- All dims from the source to the target are ones, so only the counts matter there.
  have block : shape = front ++ (List.replicate (factor :: (between ++ [1])).length 1 ++ back) := by
    have length : (factor :: (between ++ [1])).length = tgt - (src + 1) + 1 + 1 := by
      rw [List.length_cons, List.length_append, List.length_singleton]
      omega
    rw [length, List.replicate_succ', List.replicate_succ, ← onesAre]
    conv_lhs => rw [shapeSplit]
    simp
  have product : (1 :: (between ++ [factor])).prod = (factor :: (between ++ [1])).prod := by
    simp [Nat.mul_comm]
  constructor
  · rw [List.length_set, List.length_set]
  · rw [result, counts, List.prod_append, List.prod_append, List.prod_append, List.prod_append, product]
  · intro positive count member
    rw [result] at member
    rw [counts] at positive
    simp only [List.mem_append, List.mem_cons, List.not_mem_nil, or_false] at member positive
    grind
  · intro flat
    have moved := Tensor.repeatSource_moved front back outer inner (factor :: (between ++ [1]))
        (1 :: (between ++ [factor]))
      (outerLength.trans frontLength.symm) (by simp) product flat
    rw [← block, ← counts, ← result] at moved
    exact moved

theorem relocate_repeatsAs (ranks : dims.length = shape.length) (order : src < shape.length - 2) :
    RepeatsAs shape dims (relocate shape dims src) := by
  unfold relocate
  split
  · exact RepeatsAs.refl shape dims
  · rename_i moves
    push Not at moves
    split
    · exact RepeatsAs.refl shape dims
    · rename_i tgt found
      have candidates := List.mem_of_find?_eq_some found
      simp only [List.mem_cons, List.not_mem_nil, or_false] at candidates
      exact move_repeatsAs ranks (by omega) (by omega) moves.2 (List.find?_some found)

theorem foldl_repeatsAs (srcs : List Nat) (orders : ∀ src ∈ srcs, src < shape.length - 2)
    (ranks : dims.length = shape.length) :
    RepeatsAs shape dims (srcs.foldl (relocate shape) dims) := by
  induction srcs generalizing dims with
  | nil => exact RepeatsAs.refl shape dims
  | cons src srcs ih =>
      obtain ⟨here, later⟩ := List.forall_mem_cons.mp orders
      have step := relocate_repeatsAs ranks here
      exact step.trans (ih later (step.length.trans ranks))

theorem adjustDims_repeatsAs (ranks : dims.length = shape.length) : RepeatsAs shape dims (adjustDims shape dims) :=
  foldl_repeatsAs _ (fun _ member => List.mem_range.mp member) ranks

end Relocate

namespace RepeatOp

def adjusted (op : RepeatOp) : RepeatOp :=
  have same := adjustDims_repeatsAs op.ranks
  { inputShape := op.inputShape
    repeatDims := adjustDims op.inputShape op.repeatDims
    users := op.users
    ranks := same.length.trans op.ranks
    positive := same.positive op.positive
    volumes := by
      intro shape member
      have volume := op.volumes shape member
      rw [← List.prod_mul_prod_eq_prod_zipWith_of_length_eq _ _ op.ranks.symm] at volume
      rw [← List.prod_mul_prod_eq_prod_zipWith_of_length_eq _ _ (same.length.trans op.ranks).symm, same.product, volume] }

end RepeatOp

def matchAndRewrite (op : RepeatOp) : Option RepeatOp :=
  if .other ∈ op.users then none
  else if ¬hasNonTileAlignedInnerDims (List.zipWith (· * ·) op.inputShape op.repeatDims) then none
  else if adjustDims op.inputShape op.repeatDims = op.repeatDims then none
  else some op.adjusted

theorem matchAndRewrite_same {op replacement : RepeatOp} (found : matchAndRewrite op = some replacement) :
    replacement.users = op.users ∧ ∀ (α : Type) (tensor : Tensor α) (shape : List Nat), tensor.shape = op.inputShape →
      ((tensor.repeated replacement.repeatDims).reshape shape).Same ((tensor.repeated op.repeatDims).reshape shape) := by
  have known : op.adjusted = replacement := by
    unfold matchAndRewrite at found
    split_ifs at found
    exact Option.some.inj found
  subst known
  refine ⟨rfl, fun α tensor shape input => ⟨rfl, fun index _ => ?_⟩⟩
  have source := (adjustDims_repeatsAs op.ranks).source (flatten shape index)
  change tensor.get (List.zipWith _ tensor.shape
    (unflatten (List.zipWith _ tensor.shape (adjustDims op.inputShape op.repeatDims)) _)) =
    tensor.get (List.zipWith _ tensor.shape (unflatten (List.zipWith _ tensor.shape op.repeatDims) _))
  rw [input]
  exact congrArg tensor.get source

end TtMlir.Ttnn.RepeatReshape
