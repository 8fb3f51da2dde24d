import Mathlib
import TtMlir.Library.RowMajor

/-!
Blocks of a shape that lie together in row-major order: whole extents inside, one divisor of the
next extent, and single entries outside.
-/

namespace TtMlir

open MixedRadix RowMajor

inductive InnerBlock : List Int → List Int → Prop where
  | nil : InnerBlock [] []
  | whole {extent : Int} {shape block : List Int} (inner : InnerBlock shape block) :
      InnerBlock (extent :: shape) (extent :: block)
  | cut {extent size : Int} {shape : List Int} (positive : 0 < size) (divides : size ∣ extent) :
      InnerBlock (extent :: shape) (size :: List.replicate shape.length 1)

def RowMajorBlock (shape block : List Int) : Prop := InnerBlock shape.reverse block.reverse

def Contiguous (shape block : List Int) : Prop :=
  ∀ origin : List Int, origin.length = shape.length → ∀ flat : Int,
    (0 ≤ flat ∧ flat < block.prod) ↔
      ∃ index, Within block index ∧
        rowMajor shape (List.zipWith (· + ·) origin index) = rowMajor shape origin + flat

structure LargestBlock (shape : List Int) (capacity : Int) (block : List Int) : Prop where
  inOrder : RowMajorBlock shape block
  fits : block.prod ≤ capacity
  largest : ∀ other, RowMajorBlock shape other → other.prod ≤ capacity → other.prod ≤ block.prod

section Inner
variable {shape block other : List Int} {capacity : Int}

theorem InnerBlock.length (inner : InnerBlock shape block) : block.length = shape.length := by
  induction inner with
  | nil => rfl
  | whole _ ih => rw [List.length_cons, List.length_cons, ih]
  | cut => rw [List.length_cons, List.length_replicate, List.length_cons]

theorem InnerBlock.positive (inner : InnerBlock shape block) (positive : ∀ extent ∈ shape, 0 < extent) :
    ∀ size ∈ block, 0 < size := by
  induction inner with
  | nil => exact positive
  | whole _ ih =>
      obtain ⟨here, rest⟩ := List.forall_mem_cons.mp positive
      exact List.forall_mem_cons.mpr ⟨here, ih rest⟩
  | cut sizePositive =>
      refine List.forall_mem_cons.mpr ⟨sizePositive, fun one member => ?_⟩
      rw [List.eq_of_mem_replicate member]
      exact Int.one_pos

theorem InnerBlock.divides (inner : InnerBlock shape block) :
    List.Forall₂ (fun size extent => size ∣ extent) block shape := by
  induction inner with
  | nil => exact .nil
  | whole _ ih => exact .cons (dvd_refl _) ih
  | @cut extent size shape _ divides =>
      refine .cons divides ?_
      induction shape with
      | nil => exact .nil
      | cons head rest ih => exact .cons (one_dvd head) ih

theorem replicate_of_prod_one (sizes : List Int) (positive : ∀ size ∈ sizes, 0 < size) (one : sizes.prod = 1) :
    sizes = List.replicate sizes.length 1 := by
  induction sizes with
  | nil => rfl
  | cons size rest ih =>
      obtain ⟨here, later⟩ := List.forall_mem_cons.mp positive
      have restPositive := MixedRadix.prod_pos rest later
      rw [List.prod_cons] at one
      have sizeOne : size = 1 := by nlinarith
      rw [sizeOne, Int.one_mul] at one
      rw [sizeOne, List.length_cons, List.replicate_succ, ← ih later one]

/-- A block cut at an extent is no larger than one that holds the extent whole; of one volume they are the same. -/
theorem InnerBlock.whole_cut {extent size : Int} (inner : InnerBlock shape block)
    (positive : ∀ extent ∈ shape, 0 < extent) (extentPositive : 0 < extent)
    (divides : size ∣ extent)
    (same : (extent :: block).prod = (size :: List.replicate shape.length (1 : Int)).prod) :
    extent :: block = size :: List.replicate shape.length 1 := by
  have blockPositive := MixedRadix.prod_pos block (inner.positive positive)
  have bound := Int.le_of_dvd extentPositive divides
  rw [List.prod_cons, List.prod_cons, List.prod_replicate, one_pow, mul_one] at same
  have one : block.prod = 1 := by nlinarith
  rw [one, mul_one] at same
  rw [same, replicate_of_prod_one block (inner.positive positive) one, inner.length]

theorem InnerBlock.unique (inner : InnerBlock shape block) (otherInner : InnerBlock shape other)
    (positive : ∀ extent ∈ shape, 0 < extent) (same : block.prod = other.prod) : block = other := by
  induction inner generalizing other with
  | nil =>
      cases otherInner
      rfl
  | whole inside ih =>
      obtain ⟨here, rest⟩ := List.forall_mem_cons.mp positive
      cases otherInner with
      | whole otherInside =>
          rw [List.prod_cons, List.prod_cons] at same
          rw [ih otherInside rest (Int.eq_of_mul_eq_mul_left here.ne' same)]
      | cut _ divides => exact inside.whole_cut rest here divides same
  | cut _ divides =>
      obtain ⟨here, rest⟩ := List.forall_mem_cons.mp positive
      cases otherInner with
      | whole otherInside => exact (otherInside.whole_cut rest here divides same.symm).symm
      | cut =>
          rw [List.prod_cons, List.prod_cons, List.prod_replicate, one_pow, mul_one, mul_one] at same
          rw [same]

theorem encode_zeros (radices : List Int) (count : Nat) : encode radices (List.replicate count 0) = 0 := by
  induction radices generalizing count with
  | nil => cases count <;> rfl
  | cons radix radices ih =>
      cases count with
      | zero => rfl
      | succ count => rw [List.replicate_succ, MixedRadix.encode, ih, mul_zero, add_zero]

theorem InnerBlock.encode (inner : InnerBlock shape block) (index : List Int) (within : Within block index) :
    MixedRadix.encode shape index = MixedRadix.encode block index := by
  induction inner generalizing index with
  | nil => rfl
  | whole _ ih =>
      cases within with
      | cons _ rest => rw [MixedRadix.encode, MixedRadix.encode, ih _ rest]
  | @cut extent size shape _ _ =>
      cases within with
      | @cons digit _ digits _ _ rest =>
          -- the digits outside the cut are zero
          have zeros : digits = List.replicate shape.length 0 := by
            have length := within_length _ _ rest
            rw [List.length_replicate] at length
            refine List.eq_replicate_iff.mpr ⟨length, fun outer member => ?_⟩
            obtain ⟨position, inside, rfl⟩ := List.getElem_of_mem member
            have bound := ((within_iff _ _).mp rest).2 position (by rw [List.length_replicate]; omega)
            rw [List.getD_eq_getElem _ _ inside, List.getD_eq_getElem _ _ (by rw [List.length_replicate]; omega),
              List.getElem_replicate] at bound
            omega
          rw [MixedRadix.encode, MixedRadix.encode, zeros, encode_zeros, encode_zeros, mul_zero, mul_zero]

theorem rowMajor_add (shape origin index : List Int) (originLength : origin.length = shape.length)
    (indexLength : index.length = shape.length) :
    rowMajor shape (List.zipWith (· + ·) origin index) = rowMajor shape origin + rowMajor shape index := by
  induction shape generalizing origin index with
  | nil => simp [rowMajor]
  | cons extent shape ih =>
      obtain ⟨here, origin, rfl⟩ := List.exists_cons_of_length_eq_add_one originLength
      obtain ⟨move, index, rfl⟩ := List.exists_cons_of_length_eq_add_one indexLength
      rw [List.zipWith_cons_cons, rowMajor, rowMajor, rowMajor,
        ih origin index (Nat.succ.inj originLength) (Nat.succ.inj indexLength)]
      ring

theorem RowMajorBlock.contiguous (inOrder : RowMajorBlock shape block) (positive : ∀ extent ∈ shape, 0 < extent) :
    Contiguous shape block := by
  have blockPositive : ∀ size ∈ block, 0 < size := fun size member =>
    InnerBlock.positive inOrder (fun extent inShape => positive extent (List.mem_reverse.mp inShape)) size
      (List.mem_reverse.mpr member)
  have length : block.length = shape.length := by
    simpa using InnerBlock.length inOrder
  have moved : ∀ origin : List Int, origin.length = shape.length → ∀ index, Within block index →
      rowMajor shape (List.zipWith (· + ·) origin index) = rowMajor shape origin + rowMajor block index := by
    intro origin originLength index within
    have indexLength := within_length block index within
    rw [rowMajor_add shape origin index originLength (indexLength.trans length),
      rowMajor_eq_encode shape index (indexLength.trans length), rowMajor_eq_encode block index indexLength,
      InnerBlock.encode inOrder index.reverse (List.rel_reverse within)]
  intro origin originLength flat
  constructor
  · intro bounds
    refine ⟨delinearize block flat, delinearize_within block blockPositive flat, ?_⟩
    rw [moved origin originLength _ (delinearize_within block blockPositive flat),
      rowMajor_delinearize block blockPositive, Int.emod_eq_of_lt bounds.1 bounds.2]
  · rintro ⟨index, within, same⟩
    rw [moved origin originLength index within] at same
    have bounds := rowMajor_bounds block index within
    omega

theorem LargestBlock.unique {left right : List Int} (positive : ∀ extent ∈ shape, 0 < extent)
    (first : LargestBlock shape capacity left) (second : LargestBlock shape capacity right) : left = right := by
  have volume : left.reverse.prod = right.reverse.prod := by
    rw [List.prod_reverse, List.prod_reverse]
    exact le_antisymm (second.largest left first.inOrder first.fits) (first.largest right second.inOrder second.fits)
  exact List.reverse_injective (InnerBlock.unique first.inOrder second.inOrder
    (fun extent member => positive extent (List.mem_reverse.mp member)) volume)

end Inner

end TtMlir
