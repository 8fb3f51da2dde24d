import TtMlir.Spill.SumTracker

/-!
What carving a slot out of a free list and releasing it again do to the bytes
that are free. Blocks stand in order and never touch.
-/

namespace TtMlir.Spill

def Free (freeList : List FreeBlock) (byte : Nat) : Prop := ∃ block ∈ freeList, block.start ≤ byte ∧ byte < block.stop

/-- Sorted, disjoint and coalesced: between two blocks there is a byte that is not free. -/
structure Coalesced (freeList : List FreeBlock) : Prop where
  apart : freeList.Pairwise fun low high => low.stop < high.start
  nonempty : ∀ block ∈ freeList, block.start < block.stop

theorem free_nil (byte : Nat) : ¬ Free [] byte := fun ⟨_, member, _⟩ => List.not_mem_nil member

theorem free_cons (block : FreeBlock) (rest : List FreeBlock) (byte : Nat) :
    Free (block :: rest) byte ↔ (block.start ≤ byte ∧ byte < block.stop) ∨ Free rest byte := by
  simp [Free]

theorem free_append (low high : List FreeBlock) (byte : Nat) : Free (low ++ high) byte ↔ Free low byte ∨
    Free high byte := by
  simp [Free, or_and_right, exists_or]

theorem Coalesced.sublist {part freeList : List FreeBlock} (coalesced : Coalesced freeList)
    (sub : part.Sublist freeList) :
    Coalesced part :=
  ⟨coalesced.apart.sublist sub, fun block member => coalesced.nonempty block (sub.subset member)⟩

theorem carve_starts (size : Nat) (freeList remaining : List FreeBlock) (start : Nat)
    (carved : carve size freeList = some (start, remaining)) :
    ∀ left ∈ remaining, ∃ block ∈ freeList, block.start = left.start := by
  induction freeList generalizing remaining with
  | nil => cases carved
  | cons block higher ih =>
      rw [carve] at carved
      cases above : carve size higher with
      | some slot =>
          rw [above] at carved
          cases carved
          intro left member
          rcases List.mem_cons.mp member with rfl | later
          · exact ⟨left, List.mem_cons_self, rfl⟩
          · obtain ⟨origin, inHigher, same⟩ := ih slot.2 above left later
            exact ⟨origin, List.mem_cons_of_mem _ inHigher, same⟩
      | none =>
          rw [above] at carved
          simp only at carved
          split at carved
          · cases carved
            intro left member
            split at member
            · exact ⟨left, List.mem_cons_of_mem _ member, rfl⟩
            · rcases List.mem_cons.mp member with rfl | later
              · exact ⟨block, List.mem_cons_self, rfl⟩
              · exact ⟨left, List.mem_cons_of_mem _ later, rfl⟩
          · cases carved

theorem free_above {block : FreeBlock} {higher : List FreeBlock}
    (apart : ∀ above ∈ higher, block.stop < above.start) {byte : Nat} (free : Free higher byte) :
      block.stop < byte := by
  obtain ⟨above, member, low, _⟩ := free
  have := apart above member
  omega

theorem carve_spec (size : Nat) (positive : 0 < size) (freeList remaining : List FreeBlock) (start : Nat)
    (coalesced : Coalesced freeList) (carved : carve size freeList = some (start, remaining)) :
    Coalesced remaining ∧ (∀ byte, start ≤ byte ∧ byte < start + size → Free freeList byte) ∧
      ∀ byte, Free remaining byte ↔ Free freeList byte ∧ ¬ (start ≤ byte ∧ byte < start + size) := by
  -- the highest fitting block is taken: a slot found above leaves this block alone
  induction freeList generalizing remaining with
  | nil => cases carved
  | cons block higher ih =>
      have rest := coalesced.sublist (List.sublist_cons_self block higher)
      have apart := (List.pairwise_cons.mp coalesced.apart).1
      have filled := coalesced.nonempty block List.mem_cons_self
      rw [carve] at carved
      cases above : carve size higher with
      | some slot =>
          rw [above] at carved
          cases carved
          obtain ⟨kept, wasFree, left⟩ := ih slot.2 rest above
          refine ⟨⟨List.pairwise_cons.mpr ⟨?_, kept.apart⟩, ?_⟩, ?_, ?_⟩
          · intro part member
            obtain ⟨origin, inHigher, same⟩ := carve_starts size higher slot.2 slot.1 above part member
            exact same ▸ apart origin inHigher
          · intro part member
            rcases List.mem_cons.mp member with rfl | later
            · exact filled
            · exact kept.nonempty part later
          · exact fun byte inSlot => (free_cons _ _ _).mpr (Or.inr (wasFree byte inSlot))
          · intro byte
            have beyond : slot.1 ≤ byte ∧ byte < slot.1 + size → block.stop < byte :=
              fun inSlot => free_above apart (wasFree byte inSlot)
            simp only [free_cons, left byte]
            constructor
            · rintro (here | ⟨free, outside⟩)
              · exact ⟨Or.inl here, fun inSlot => absurd (beyond inSlot) (by omega)⟩
              · exact ⟨Or.inr free, outside⟩
            · rintro ⟨here | free, outside⟩
              · exact Or.inl here
              · exact Or.inr ⟨free, outside⟩
      | none =>
          rw [above] at carved
          simp only at carved
          split at carved
          · rename_i fits
            cases carved
            simp only [FreeBlock.size] at fits
            have free := fun (byte : Nat) (later : Free higher byte) => free_above apart later
            split
            · -- the slot is the whole block
              rename_i whole
              simp only [FreeBlock.size] at whole
              refine ⟨rest, fun byte inSlot => (free_cons _ _ _).mpr (Or.inl (by omega)), fun byte => ?_⟩
              rw [free_cons]
              constructor
              · exact fun later => ⟨Or.inr later, by have := free byte later; omega⟩
              · rintro ⟨here | later, outside⟩
                · omega
                · exact later
            · -- the slot is the top of the block
              rename_i part
              simp only [FreeBlock.size] at part
              refine ⟨⟨List.pairwise_cons.mpr ⟨?_, rest.apart⟩, ?_⟩, ?_, fun byte => ?_⟩
              · intro other member
                have := apart other member
                simp only
                omega
              · intro other member
                rcases List.mem_cons.mp member with rfl | later
                · simp only
                  omega
                · exact rest.nonempty other later
              · exact fun byte inSlot => (free_cons _ _ _).mpr (Or.inl (by omega))
              · simp only [free_cons]
                constructor
                · rintro (here | later)
                  · exact ⟨Or.inl (by omega), by omega⟩
                  · exact ⟨Or.inr later, by have := free byte later; omega⟩
                · rintro ⟨here | later, outside⟩
                  · exact Or.inl (by omega)
                  · exact Or.inr later
          · cases carved

theorem merge_below (before : List FreeBlock) (start : Nat) (coalesced : Coalesced before)
    (below : ∀ block ∈ before, block.stop ≤ start) :
    let mergePrev := before.getLast?.any fun block => block.stop = start
    let front := if mergePrev then before.dropLast else before
    let low := if mergePrev then (before.getLast?.map (·.start)).getD start else start
    front.Sublist before ∧ (∀ block ∈ front, block.stop < low) ∧ low ≤ start ∧
      ∀ byte, Free before byte ↔ Free front byte ∨ (low ≤ byte ∧ byte < start) := by
  rcases List.eq_nil_or_concat before with rfl | ⟨front, prev, rfl⟩
  · simp [free_nil]
  · rw [List.concat_eq_append] at coalesced below ⊢
    have ends := below prev (by simp)
    have filled := coalesced.nonempty prev (by simp)
    have apart : ∀ block ∈ front, block.stop < prev.start :=
      fun block member => (List.pairwise_append.mp coalesced.apart).2.2 block member prev List.mem_cons_self
    simp only [List.getLast?_append, List.getLast?_singleton, Option.some_or, Option.any_some, decide_eq_true_eq,
      List.dropLast_concat, Option.map_some, Option.getD_some, free_append, free_cons]
    split
    · rename_i touches
      refine ⟨List.sublist_append_left _ _, apart, by omega, fun byte => ?_⟩
      simp [free_nil, ← touches]
    · rename_i gap
      refine ⟨List.Sublist.refl _, ?_, le_rfl, fun byte => ?_⟩
      · intro block member
        rcases List.mem_append.mp member with early | last
        · have := apart block early
          omega
        · rw [List.mem_singleton.mp last]
          omega
      · simp only [free_append, free_cons]
        constructor
        · exact Or.inl
        · rintro (free | nothing)
          · exact free
          · omega

theorem merge_above (after : List FreeBlock) (stop : Nat) (coalesced : Coalesced after)
    (beyond : ∀ block ∈ after, stop ≤ block.start) :
    let mergeNext := after.head?.any fun block => block.start = stop
    let back := if mergeNext then after.tail else after
    let high := if mergeNext then (after.head?.map (·.stop)).getD stop else stop
    back.Sublist after ∧ (∀ block ∈ back, high < block.start) ∧ stop ≤ high ∧
      ∀ byte, Free after byte ↔ (stop ≤ byte ∧ byte < high) ∨ Free back byte := by
  cases after with
  | nil => simp [free_nil]
  | cons next back =>
      have starts := beyond next List.mem_cons_self
      have filled := coalesced.nonempty next List.mem_cons_self
      have apart := (List.pairwise_cons.mp coalesced.apart).1
      simp only [List.head?_cons, Option.any_some, decide_eq_true_eq, List.tail_cons, Option.map_some, Option.getD_some]
      split
      · rename_i touches
        refine ⟨List.sublist_cons_self _ _, apart, by omega, fun byte => ?_⟩
        rw [free_cons, touches]
      · rename_i gap
        refine ⟨List.Sublist.refl _, ?_, le_rfl, fun byte => ?_⟩
        · intro block member
          rcases List.mem_cons.mp member with rfl | later
          · omega
          · have := apart block later
            omega
        · constructor
          · exact Or.inr
          · rintro (nothing | free)
            · omega
            · exact free

theorem dropWhile_starts (start : Nat) (freeList : List FreeBlock) (coalesced : Coalesced freeList) :
    ∀ block ∈ freeList.dropWhile (fun block => decide (block.start < start)), start ≤ block.start := by
  induction freeList with
  | nil => exact fun _ member => nomatch member
  | cons head rest ih =>
      intro block member
      have apart := (List.pairwise_cons.mp coalesced.apart).1
      have filled := coalesced.nonempty head List.mem_cons_self
      by_cases low : head.start < start
      · rw [List.dropWhile_cons_of_pos (by simpa using low)] at member
        exact ih (coalesced.sublist (List.sublist_cons_self _ _)) block member
      · rw [List.dropWhile_cons_of_neg (by simpa using low)] at member
        rcases List.mem_cons.mp member with rfl | later
        · omega
        · have := apart block later
          omega

theorem release_spec (start stop : Nat) (sized : start < stop) (freeList : List FreeBlock)
    (coalesced : Coalesced freeList) (taken : ∀ byte, start ≤ byte ∧ byte < stop → ¬ Free freeList byte) :
    Coalesced (release start stop freeList) ∧
      ∀ byte, Free (release start stop freeList) byte ↔ Free freeList byte ∨ (start ≤ byte ∧ byte < stop) := by
  have split := List.takeWhile_append_dropWhile (p := fun block : FreeBlock => decide (block.start < start))
      (l := freeList)
  -- the blocks in front end below the slot, as none of its bytes is free
  have below : ∀ block ∈ freeList.takeWhile (fun block => decide (block.start < start)), block.stop ≤ start := by
    intro block member
    have starts : block.start < start := by simpa using List.all_eq_true.mp List.all_takeWhile block member
    have inList := (List.takeWhile_sublist _).subset member
    by_contra excess
    exact taken start ⟨le_rfl, sized⟩ ⟨block, inList, by omega, by omega⟩
  -- those behind begin above it
  have beyond : ∀ block ∈ freeList.dropWhile (fun block => decide (block.start < start)), stop ≤ block.start := by
    intro block member
    have starts := dropWhile_starts start freeList coalesced block member
    have inList := (List.dropWhile_sublist _).subset member
    have filled := coalesced.nonempty block inList
    by_contra inside
    exact taken block.start ⟨starts, by omega⟩ ⟨block, inList, le_rfl, filled⟩
  obtain ⟨frontSub, frontApart, lowLe, freeBefore⟩ := merge_below _ start
    (coalesced.sublist (List.takeWhile_sublist _)) below
  obtain ⟨backSub, backApart, highGe, freeAfter⟩ := merge_above _ stop
    (coalesced.sublist (List.dropWhile_sublist _)) beyond
  have frontKept := coalesced.sublist (frontSub.trans (List.takeWhile_sublist _))
  have backKept := coalesced.sublist (backSub.trans (List.dropWhile_sublist _))
  constructor
  · constructor
    · refine List.pairwise_append.mpr ⟨frontKept.apart, List.pairwise_cons.mpr ⟨backApart, backKept.apart⟩, ?_⟩
      intro low inFront high member
      have lowApart := frontApart low inFront
      rcases List.mem_cons.mp member with rfl | inBack
      · exact lowApart
      · have := backApart high inBack
        omega
    · intro block member
      rcases List.mem_append.mp member with inFront | member
      · exact frontKept.nonempty block inFront
      · rcases List.mem_cons.mp member with rfl | inBack
        · exact lt_of_le_of_lt lowLe (lt_of_lt_of_le sized highGe)
        · exact backKept.nonempty block inBack
  · intro byte
    have whole : Free freeList byte ↔ Free (freeList.takeWhile fun block => decide (block.start < start)) byte ∨
        Free (freeList.dropWhile fun block => decide (block.start < start)) byte := by
      rw [← free_append, split]
    rw [whole, freeBefore, freeAfter, release, free_append, free_cons]
    constructor
    · -- the merged block covers the slot and the neighbours that touch it
      rintro (front | here | back)
      · exact Or.inl (Or.inl (Or.inl front))
      · rcases lt_or_ge byte start with early | late
        · exact Or.inl (Or.inl (Or.inr ⟨here.1, early⟩))
        · rcases lt_or_ge byte stop with inSlot | after
          · exact Or.inr ⟨late, inSlot⟩
          · exact Or.inl (Or.inr (Or.inl ⟨after, here.2⟩))
      · exact Or.inl (Or.inr (Or.inr back))
    · rintro (((front | lower) | (upper | back)) | inSlot)
      · exact Or.inl front
      · exact Or.inr (Or.inl ⟨lower.1, lt_trans lower.2 (lt_of_lt_of_le sized highGe)⟩)
      · exact Or.inr (Or.inl ⟨le_trans lowLe (le_trans (le_of_lt sized) upper.1), upper.2⟩)
      · exact Or.inr (Or.inr back)
      · exact Or.inr (Or.inl ⟨le_trans lowLe inSlot.1, lt_of_lt_of_le inSlot.2 highGe⟩)

section Unique
variable {block : FreeBlock} {rest : List FreeBlock} (coalesced : Coalesced (block :: rest))
include coalesced

theorem free_rest (byte : Nat) : Free rest byte ↔ Free (block :: rest) byte ∧ block.stop < byte := by
  rw [free_cons]
  constructor
  · exact fun free => ⟨.inr free, free_above (List.pairwise_cons.mp coalesced.apart).1 free⟩
  · rintro ⟨here | free, above⟩
    · omega
    · exact free

theorem block_start : IsLeast {byte | Free (block :: rest) byte} block.start := by
  have filled := coalesced.nonempty block List.mem_cons_self
  refine ⟨⟨block, List.mem_cons_self, le_rfl, filled⟩, fun byte free => ?_⟩
  rcases (free_cons _ _ _).mp free with here | later
  · exact here.1
  · exact filled.le.trans ((free_rest coalesced byte).mp later).2.le

theorem block_stop : IsLeast {byte | block.start ≤ byte ∧ ¬ Free (block :: rest) byte} block.stop := by
  refine ⟨⟨(coalesced.nonempty block List.mem_cons_self).le, fun free => ?_⟩, fun byte taken => ?_⟩
  · rcases (free_cons _ _ _).mp free with here | later
    · exact lt_irrefl _ here.2
    · exact lt_irrefl _ ((free_rest coalesced _).mp later).2
  · by_contra inside
    exact taken.2 ⟨block, List.mem_cons_self, taken.1, not_le.mp inside⟩

end Unique

/-- The free bytes decide a coalesced list. -/
theorem Coalesced.unique {left right : List FreeBlock} (leftCoalesced : Coalesced left)
    (rightCoalesced : Coalesced right) (same : ∀ byte, Free left byte ↔ Free right byte) : left = right := by
  induction left generalizing right with
  | nil =>
      cases right with
      | nil => rfl
      | cons block rest => exact absurd ((same _).mpr (block_start rightCoalesced).1) (free_nil _)
  | cons first left ih =>
      cases right with
      | nil => exact absurd ((same _).mp (block_start leftCoalesced).1) (free_nil _)
      | cons second right =>
          have start := block_start leftCoalesced
          have stop := block_stop leftCoalesced
          simp only [same] at start stop
          have starts := start.unique (block_start rightCoalesced)
          rw [starts] at stop
          have stops := stop.unique (block_stop rightCoalesced)
          have blocks : first = second := by
            cases first
            cases second
            simp_all
          subst blocks
          rw [ih (leftCoalesced.sublist (List.sublist_cons_self _ _))
            (rightCoalesced.sublist (List.sublist_cons_self _ _))
            fun byte => by rw [free_rest leftCoalesced, free_rest rightCoalesced, same]]

end TtMlir.Spill
