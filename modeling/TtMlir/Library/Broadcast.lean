import Mathlib.Algebra.Order.BigOperators.GroupWithZero.List
import Mathlib.Data.List.Chain
import TtMlir.Library.Reshape

/-!
Broadcasts of tensors by flat positions. The dims of a broadcast are chunks, of data or of
repetitions, and lists of chunks without ones that alternate are the same when they find the same
positions.
-/

namespace TtMlir

/-- Chunks of a volume with the fastest first, each of its own data or repeated. -/
abbrev Chunks := List (Nat × Bool)

namespace Chunks

def volume (chunks : Chunks) : Nat := (chunks.map Prod.fst).prod

def ownVolume : Chunks → Nat
  | [] => 1
  | (size, own) :: chunks => (if own then size else 1) * ownVolume chunks

def source : Chunks → Nat → Nat
  | [], _ => 0
  | (size, own) :: chunks, flat =>
      if own then flat % size + size * source chunks (flat / size) else source chunks (flat / size)

def merge : Chunks → Chunks
  | [] => []
  | (size, own) :: chunks =>
      if size = 1 then merge chunks
      else
        match merge chunks with
        | [] => [(size, own)]
        | (next, kind) :: rest => if own = kind then (size * next, own) :: rest else (size, own) :: (next, kind) :: rest

def Canonical (chunks : Chunks) : Prop := (∀ chunk ∈ chunks, 1 < chunk.1) ∧ chunks.IsChain fun one next => one.2 ≠ next.2

structure Alike (chunks others : Chunks) : Prop where
  volume : chunks.volume = others.volume
  own : chunks.ownVolume = others.ownVolume
  source : ∀ flat, chunks.source flat = others.source flat

variable {chunks others rest : Chunks} {size next : Nat} {own kind : Bool}

theorem volume_cons (size : Nat) (own : Bool) (chunks : Chunks) :
    volume ((size, own) :: chunks) = size * chunks.volume :=
  List.prod_cons

namespace Alike

theorem refl (chunks : Chunks) : Alike chunks chunks := ⟨rfl, rfl, fun _ => rfl⟩

theorem symm (alike : Alike chunks others) : Alike others chunks :=
  ⟨alike.volume.symm, alike.own.symm, fun flat => (alike.source flat).symm⟩

theorem trans (first : Alike chunks others) (second : Alike others rest) : Alike chunks rest :=
  ⟨first.volume.trans second.volume, first.own.trans second.own,
    fun flat => (first.source flat).trans (second.source flat)⟩

theorem cons (size : Nat) (own : Bool) (alike : Alike chunks others) : Alike ((size, own) :: chunks)
    ((size, own) :: others) where
  volume := by rw [volume_cons, volume_cons, alike.volume]
  own := by rw [ownVolume, ownVolume, alike.own]
  source flat := by rw [Chunks.source, Chunks.source, alike.source]

theorem unit (own : Bool) (chunks : Chunks) : Alike ((1, own) :: chunks) chunks where
  volume := by rw [volume_cons, Nat.one_mul]
  own := by rw [ownVolume, ite_self, Nat.one_mul]
  source flat := by
    rw [Chunks.source, Nat.mod_one, Nat.div_one, Nat.one_mul, Nat.zero_add, ite_self]

theorem fuse (size next : Nat) (own : Bool) (chunks : Chunks) :
    Alike ((size, own) :: (next, own) :: chunks) ((size * next, own) :: chunks) where
  volume := by rw [volume_cons, volume_cons, volume_cons, Nat.mul_assoc]
  own := by
    rw [ownVolume, ownVolume, ownVolume]
    split
    · rw [Nat.mul_assoc]
    · rw [Nat.one_mul, Nat.one_mul]
  source flat := by
    rw [Chunks.source, Chunks.source, Chunks.source, Nat.div_div_eq_div_mul]
    split
    · rw [Nat.mod_mul]
      ring
    · rfl

end Alike

theorem merge_alike (chunks : Chunks) : Alike chunks.merge chunks := by
  induction chunks with
  | nil => exact .refl []
  | cons chunk chunks ih =>
      obtain ⟨size, own⟩ := chunk
      unfold merge
      split
      · rename_i one
        rw [one]
        exact ih.trans (Alike.unit own chunks).symm
      · split
        · rename_i empty
          rw [empty] at ih
          exact ih.cons size own
        · rename_i next kind rest merged
          rw [merged] at ih
          split
          · rename_i same
            subst same
            exact (Alike.fuse size next own rest).symm.trans (ih.cons size own)
          · exact ih.cons size own

theorem merge_canonical (positive : ∀ chunk ∈ chunks, 0 < chunk.1) : Canonical chunks.merge := by
  induction chunks with
  | nil => exact ⟨by simp [merge], by simp [merge]⟩
  | cons chunk chunks ih =>
      obtain ⟨size, own⟩ := chunk
      obtain ⟨wide, changes⟩ := ih fun chunk member => positive chunk (List.mem_cons_of_mem _ member)
      have some : 0 < size := positive _ List.mem_cons_self
      unfold merge
      split
      · exact ⟨wide, changes⟩
      rename_i other
      have large : 1 < size := by omega
      split
      · exact ⟨by simpa using large, List.isChain_singleton _⟩
      · rename_i next kind rest merged
        rw [merged] at wide changes
        obtain ⟨nextLarge, wideRest⟩ := List.forall_mem_cons.mp wide
        split
        · rename_i same
          subst same
          refine ⟨List.forall_mem_cons.mpr ⟨?_, wideRest⟩, ?_⟩
          · exact Nat.lt_of_lt_of_le large (Nat.le_mul_of_pos_right size (Nat.lt_of_succ_lt nextLarge))
          · cases rest with
            | nil => exact List.isChain_singleton _
            | cons third rest => exact List.isChain_cons_cons.mpr (List.isChain_cons_cons.mp changes)
        · rename_i differs
          exact ⟨List.forall_mem_cons.mpr ⟨large, wide⟩, List.isChain_cons_cons.mpr ⟨differs, changes⟩⟩

theorem source_zero (chunks : Chunks) : chunks.source 0 = 0 := by
  induction chunks with
  | nil => rfl
  | cons chunk chunks ih =>
      obtain ⟨size, own⟩ := chunk
      rw [source, Nat.zero_div, ih, Nat.zero_mod, Nat.mul_zero, Nat.add_zero, ite_self]

theorem volume_pos (positive : ∀ chunk ∈ chunks, 0 < chunk.1) : 0 < chunks.volume := by
  apply List.prod_pos
  intro size member
  obtain ⟨chunk, here, rfl⟩ := List.mem_map.mp member
  exact positive chunk here

theorem Canonical.volume_pos (canonical : Canonical chunks) : 0 < chunks.volume :=
  Chunks.volume_pos fun chunk member => Nat.lt_of_succ_lt (canonical.1 chunk member)

theorem Canonical.tail (canonical : Canonical ((size, own) :: chunks)) : Canonical chunks :=
  ⟨fun chunk member => canonical.1 chunk (List.mem_cons_of_mem _ member), canonical.2.tail⟩

theorem Canonical.size_le_volume (canonical : Canonical ((size, own) :: chunks)) :
    size ≤ volume ((size, own) :: chunks) := by
  rw [volume_cons]
  exact Nat.le_mul_of_pos_right size canonical.tail.volume_pos

theorem source_one (large : 1 < size) : source ((size, own) :: chunks) 1 = if own then 1 else 0 := by
  rw [source, Nat.div_eq_of_lt large, source_zero, Nat.mod_eq_of_lt large, Nat.mul_zero]

theorem source_ne (canonical : Canonical ((size, own) :: chunks)) (less : size < next)
    (below : next ≤ volume ((size, own) :: chunks)) :
    source ((size, own) :: chunks) size ≠ source ((next, own) :: others) size := by
  have large : 1 < size := canonical.1 _ List.mem_cons_self
  cases chunks with
  | nil =>
      rw [volume_cons] at below
      simp [volume] at below
      omega
  | cons chunk chunks =>
      obtain ⟨second, kind⟩ := chunk
      have secondLarge : 1 < second := canonical.1 _ (List.mem_cons_of_mem _ List.mem_cons_self)
      have changes : own ≠ kind := (List.isChain_cons_cons.mp canonical.2).1
      have step : size / size = 1 := Nat.div_self (Nat.lt_of_succ_lt large)
      rw [source, step, source_one secondLarge, Nat.mod_self, source, Nat.div_eq_of_lt less, source_zero,
        Nat.mod_eq_of_lt less]
      cases own with
      | true =>
          have other : kind = false := by simpa using changes
          simp only [other]
          simp
          omega
      | false =>
          have other : kind = true := by simpa using changes
          simp [other]

theorem Canonical.unique (canonical : Canonical chunks) (otherCanonical : Canonical others)
    (volumes : chunks.volume = others.volume) (same : ∀ flat < chunks.volume, chunks.source flat = others.source flat) :
    chunks = others := by
  induction chunks generalizing others with
  | nil =>
      cases others with
      | nil => rfl
      | cons chunk others =>
          obtain ⟨size, own⟩ := chunk
          have large : 1 < size := otherCanonical.1 _ List.mem_cons_self
          have small := otherCanonical.size_le_volume
          rw [← volumes] at small
          simp [volume] at small
          omega
  | cons chunk chunks ih =>
      obtain ⟨size, own⟩ := chunk
      have large : 1 < size := canonical.1 _ List.mem_cons_self
      have bound := canonical.size_le_volume
      cases others with
      | nil =>
          rw [volumes] at bound
          simp [volume] at bound
          omega
      | cons other others =>
          obtain ⟨next, kind⟩ := other
          have nextLarge : 1 < next := otherCanonical.1 _ List.mem_cons_self
          have nextBound := otherCanonical.size_le_volume
          -- Position one tells the kind of the first chunk, and where the first change is tells its size.
          have kinds : own = kind := by
            have one := same 1 (by omega)
            rw [source_one large, source_one nextLarge] at one
            cases own <;> cases kind <;> simp_all
          subst kinds
          have sizes : size = next := by
            rcases Nat.lt_trichotomy size next with less | equal | more
            · exact absurd (same size (by omega)) (source_ne canonical less (volumes ▸ nextBound))
            · exact equal
            · exact absurd (same next (by omega)).symm (source_ne otherCanonical more (volumes ▸ bound))
          subst sizes
          have positive : 0 < size := Nat.lt_of_succ_lt large
          rw [volume_cons, volume_cons] at volumes
          have rest := Nat.eq_of_mul_eq_mul_left positive volumes
          rw [ih canonical.tail otherCanonical.tail rest fun flat inside => ?_]
          -- Behind the first chunk the positions are read at its multiples.
          have scaled := same (size * flat) (by rw [volume_cons]; exact Nat.mul_lt_mul_of_pos_left inside positive)
          rw [source, source, Nat.mul_div_cancel_left _ positive, Nat.mul_mod_right] at scaled
          cases own with
          | false => simpa using scaled
          | true => simpa [positive.ne'] using scaled

theorem source_append (chunks : Chunks) (size : Nat) (own : Bool) (flat : Nat) :
    source (chunks ++ [(size, own)]) flat =
      source chunks flat + chunks.ownVolume * (if own then flat / chunks.volume % size else 0) := by
  induction chunks generalizing flat with
  | nil => cases own <;> simp [source, ownVolume, volume]
  | cons chunk chunks ih =>
      obtain ⟨first, kind⟩ := chunk
      rw [List.cons_append, source, source, ih, volume_cons, ownVolume, Nat.div_div_eq_div_mul]
      cases kind with
      | true =>
          simp only [if_true]
          ring
      | false => simp

theorem ownVolume_append (chunks : Chunks) (size : Nat) (own : Bool) :
    ownVolume (chunks ++ [(size, own)]) = (if own then size else 1) * chunks.ownVolume := by
  induction chunks with
  | nil => rfl
  | cons chunk chunks ih =>
      obtain ⟨first, kind⟩ := chunk
      rw [List.cons_append, ownVolume, ih, ownVolume, Nat.mul_left_comm]

theorem source_lt (positive : ∀ chunk ∈ chunks, 0 < chunk.1) (flat : Nat) : source chunks flat < chunks.ownVolume := by
  induction chunks generalizing flat with
  | nil => exact Nat.one_pos
  | cons chunk chunks ih =>
      obtain ⟨size, own⟩ := chunk
      have below := ih (fun chunk member => positive chunk (List.mem_cons_of_mem _ member)) (flat / size)
      have some : 0 < size := positive _ List.mem_cons_self
      rw [source, ownVolume]
      split
      · calc flat % size + size * source chunks (flat / size)
            < size + size * source chunks (flat / size) := Nat.add_lt_add_right (Nat.mod_lt flat some) _
          _ = size * (source chunks (flat / size) + 1) := by ring
          _ ≤ size * ownVolume chunks := Nat.mul_le_mul_left size below
      · rwa [Nat.one_mul]

end Chunks

namespace Broadcasting

def Broadcasts : List Nat → List Nat → Prop :=
  List.Forall₂ fun extent count => 0 < extent ∧ 0 < count ∧ (extent = 1 ∨ count = 1)

def scaled (shape dims : List Nat) : List Nat := List.zipWith (· * ·) shape dims

def chunkOf (extent count : Nat) : Nat × Bool := (extent * count, decide (count = 1))

def parts (shape dims : List Nat) : Chunks := (List.zipWith chunkOf shape dims).reverse

def pinned (extent position : Nat) : Nat := if extent = 1 then 0 else position

end Broadcasting

def Tensor.broadcast {α : Type} (tensor : Tensor α) (dims : List Nat) : Tensor α :=
  { shape := Broadcasting.scaled tensor.shape dims
    get := fun index => tensor.get (List.zipWith Broadcasting.pinned tensor.shape index) }

namespace Broadcasting

section Parts
variable {shape dims : List Nat}

theorem parts_cons (extent count : Nat) (shape dims : List Nat) :
    parts (extent :: shape) (count :: dims) = parts shape dims ++ [chunkOf extent count] :=
  List.reverse_cons

theorem parts_volume (shape dims : List Nat) : (parts shape dims).volume = (scaled shape dims).prod := by
  unfold parts scaled Chunks.volume
  rw [List.map_reverse, List.prod_reverse, List.map_zipWith]
  rfl

theorem parts_positive (broadcasts : Broadcasts shape dims) : ∀ chunk ∈ parts shape dims, 0 < chunk.1 := by
  induction broadcasts with
  | nil => simp [parts]
  | @cons extent count shape dims valid _ ih =>
      intro chunk member
      rw [parts_cons, List.mem_append, List.mem_singleton] at member
      rcases member with inner | rfl
      · exact ih chunk inner
      · exact Nat.mul_pos valid.1 valid.2.1

theorem parts_ownVolume (broadcasts : Broadcasts shape dims) : (parts shape dims).ownVolume = shape.prod := by
  induction broadcasts with
  | nil => rfl
  | @cons extent count shape dims valid _ ih =>
      rw [parts_cons, chunkOf, Chunks.ownVolume_append, ih, List.prod_cons]
      rcases valid.2.2 with unit | unit
      · by_cases single : count = 1
        · simp [unit, single]
        · simp [unit, single]
      · simp [unit]

theorem flatten_pinned (broadcasts : Broadcasts shape dims) (flat : Nat) :
    flatten shape (List.zipWith pinned shape (unflatten (scaled shape dims) flat)) = (parts shape dims).source flat := by
  induction broadcasts with
  | nil => rfl
  | @cons extent count shape dims valid later ih =>
      have shapes : scaled (extent :: shape) (count :: dims) = extent * count :: scaled shape dims := rfl
      rw [shapes, unflatten, List.zipWith_cons_cons, flatten, ih, parts_cons, chunkOf, Chunks.source_append,
        parts_ownVolume later, parts_volume, Nat.add_comm, Nat.mul_comm]
      congr 2
      unfold pinned
      rcases valid.2.2 with unit | unit
      · by_cases single : count = 1
        · simp [unit, single, Nat.mod_one]
        · simp [unit, single]
      · by_cases single : extent = 1
        · simp [unit, single, Nat.mod_one]
        · simp [unit, single]

theorem pinned_inside_of {full index : List Nat}
    (agrees : List.Forall₂ (fun extent all => extent = all ∨ extent = 1) shape full)
    (inside : Inside full index) : Inside shape (List.zipWith pinned shape index) := by
  induction agrees generalizing index with
  | nil =>
      cases inside
      exact .nil
  | @cons extent all shape full here later ih =>
      cases inside with
      | cons below rest =>
          apply List.Forall₂.cons _ (ih rest)
          unfold pinned
          split
          · omega
          · rename_i large
            rw [here.resolve_right large]
            exact below

theorem scaled_agrees (broadcasts : Broadcasts shape dims) :
    List.Forall₂ (fun extent all => extent = all ∨ extent = 1) shape (scaled shape dims) := by
  induction broadcasts with
  | nil => exact .nil
  | @cons extent count shape dims valid _ ih =>
      refine .cons ?_ ih
      rcases valid.2.2 with unit | single
      · exact .inr unit
      · exact .inl (by simp [single])

theorem pinned_inside (broadcasts : Broadcasts shape dims) {index : List Nat}
    (inside : Inside (scaled shape dims) index) :
    Inside shape (List.zipWith pinned shape index) :=
  pinned_inside_of (scaled_agrees broadcasts) inside

end Parts

/-- Reshapes to one side or the other of a broadcast to a shape give the same tensors. -/
def Commutes (α : Type) (shape dims final newShape newDims : List Nat) : Prop :=
  ∀ tensor : Tensor α, tensor.shape = shape →
    ((tensor.reshape newShape).broadcast newDims).Same ((tensor.broadcast dims).reshape final)

section Commutes
variable {α : Type} {shape dims newShape newDims : List Nat}

theorem broadcast_reshape_get (tensor : Tensor α) (broadcasts : Broadcasts tensor.shape dims) (final : List Nat)
    (volume : final.prod = (scaled tensor.shape dims).prod) (flat : Nat) (below : flat < final.prod) :
    ((tensor.broadcast dims).reshape final).get (unflatten final flat) =
      tensor.get (unflatten tensor.shape ((parts tensor.shape dims).source flat)) := by
  have inside := Tensor.inside_of_flat (scaled tensor.shape dims) flat (volume ▸ below)
  rw [← flatten_pinned broadcasts, unflatten_flatten _ _ (pinned_inside broadcasts inside)]
  change tensor.get (List.zipWith pinned tensor.shape
    (unflatten (scaled tensor.shape dims) (flatten final (unflatten final flat)))) = _
  rw [flatten_unflatten final flat below]

theorem reshape_broadcast_get (tensor : Tensor α) (broadcasts : Broadcasts newShape newDims) (flat : Nat) :
    ((tensor.reshape newShape).broadcast newDims).get (unflatten (scaled newShape newDims) flat) =
      tensor.get (unflatten tensor.shape ((parts newShape newDims).source flat)) := by
  rw [← flatten_pinned broadcasts]
  rfl

theorem commutes_of_source (broadcasts : Broadcasts shape dims) (moved : Broadcasts newShape newDims)
    (volume : (scaled newShape newDims).prod = (scaled shape dims).prod)
    (same : ∀ flat, (parts newShape newDims).source flat = (parts shape dims).source flat) :
    Commutes α shape dims (scaled newShape newDims) newShape newDims := by
  rintro tensor rfl
  constructor
  · rfl
  · intro index inside
    have shaped : Inside (scaled newShape newDims) index := inside
    have below := flatten_lt _ _ shaped
    rw [← unflatten_flatten _ _ shaped, reshape_broadcast_get tensor moved, same]
    exact (broadcast_reshape_get tensor broadcasts _ volume _ below).symm

theorem source_of_commutes [Nontrivial α] (broadcasts : Broadcasts shape dims) (moved : Broadcasts newShape newDims)
    (own : newShape.prod = shape.prod) (volume : (scaled newShape newDims).prod = (scaled shape dims).prod)
    (commutes : Commutes α shape dims (scaled newShape newDims) newShape newDims) :
    ∀ flat < (scaled newShape newDims).prod, (parts newShape newDims).source flat = (parts shape dims).source flat := by
  classical
  intro flat below
  obtain ⟨here, other, distinct⟩ := exists_pair_ne α
  -- The tensor that marks one position.
  let marked : Tensor α :=
    { shape, get := fun index => if flatten shape index = (parts shape dims).source flat then here else other }
  have inside := Tensor.inside_of_flat (scaled newShape newDims) flat below
  have entry := (commutes marked rfl).2 _ inside
  rw [reshape_broadcast_get marked moved, broadcast_reshape_get marked broadcasts _ volume flat below] at entry
  have first := Chunks.source_lt (parts_positive broadcasts) flat
  have second := Chunks.source_lt (parts_positive moved) flat
  rw [parts_ownVolume broadcasts] at first
  rw [parts_ownVolume moved, own] at second
  dsimp only [marked] at entry
  rw [flatten_unflatten _ _ first, flatten_unflatten _ _ second, if_pos rfl] at entry
  by_contra differs
  rw [if_neg differs] at entry
  exact distinct entry.symm

end Commutes

end Broadcasting

end TtMlir
