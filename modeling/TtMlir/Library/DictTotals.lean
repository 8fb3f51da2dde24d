import Mathlib

/-!
Sums over the entries of an association list: what inserting and erasing a key
does to a total of weights and to the number of entries of a kind.
-/

namespace TtMlir

variable {Key Entry : Type} [DecidableEq Key]

def total (weight : Entry → Nat) (dict : AList fun _ : Key => Entry) : Nat :=
  (dict.entries.map fun entry => weight entry.2).sum

def keysWith (kind : Entry → Prop) [DecidablePred kind] (dict : AList fun _ : Key => Entry) : Nat :=
  total (fun entry => if kind entry then 1 else 0) dict

theorem entries_perm_erase {dict : AList fun _ : Key => Entry} {key : Key} {entry : Entry}
    (found : dict.lookup key = some entry) : dict.entries.Perm (⟨key, entry⟩ :: (dict.erase key).entries) := by
  have member : key ∈ dict.entries.keys := AList.lookup_isSome.mp (by rw [found]; rfl)
  obtain ⟨here, before, after, absent, split, erased⟩ := List.exists_of_kerase member
  have same : here = entry := by
    rw [AList.lookup, split, List.dlookup_append, List.dlookup_eq_none.mpr absent, Option.none_or,
      List.dlookup_cons_eq] at found
    exact Option.some.inj found
  change dict.entries.Perm (_ :: List.kerase key dict.entries)
  rw [erased, split, same]
  exact List.perm_middle

theorem erase_of_absent {dict : AList fun _ : Key => Entry} {key : Key} (absent : dict.lookup key = none) :
    dict.erase key = dict := by
  apply AList.ext
  exact List.kerase_of_notMem_keys (AList.lookup_eq_none.mp absent)

theorem erase_insert {dict : AList fun _ : Key => Entry} {key : Key} {entry : Entry}
    (absent : dict.lookup key = none) : (dict.insert key entry).erase key = dict := by
  apply AList.ext
  change List.kerase key (dict.insert key entry).entries = _
  rw [AList.entries_insert_of_notMem (AList.lookup_eq_none.mp absent)]
  exact List.kerase_cons_eq rfl

section Total
variable (weight : Entry → Nat) (dict : AList fun _ : Key => Entry) (key : Key) (entry : Entry)

omit [DecidableEq Key] in
@[simp] theorem total_empty : total weight (∅ : AList fun _ : Key => Entry) = 0 := rfl

theorem total_insert : total weight (dict.insert key entry) = weight entry + total weight (dict.erase key) := by
  rw [total, AList.entries_insert, List.map_cons, List.sum_cons]
  rfl

theorem total_insert_fresh (fresh : dict.lookup key = none) :
    total weight (dict.insert key entry) = weight entry + total weight dict := by
  rw [total_insert, erase_of_absent fresh]

theorem total_erase (found : dict.lookup key = some entry) :
    total weight dict = weight entry + total weight (dict.erase key) := by
  rw [total, ((entries_perm_erase found).map _).sum_eq, List.map_cons, List.sum_cons]
  rfl

end Total

theorem keysWith_pos (kind : Entry → Prop) [DecidablePred kind] (dict : AList fun _ : Key => Entry) :
    0 < keysWith kind dict ↔ ∃ key entry, dict.lookup key = some entry ∧ kind entry := by
  constructor
  · intro positive
    by_contra none
    push Not at none
    have zero : keysWith kind dict = 0 := by
      refine List.sum_eq_zero fun count member => ?_
      obtain ⟨⟨key, entry⟩, inDict, rfl⟩ := List.mem_map.mp member
      exact if_neg (none key entry (AList.mem_lookup_iff.mpr inDict))
    omega
  · rintro ⟨key, entry, found, holds⟩
    rw [keysWith, total_erase _ dict key entry found, if_pos holds]
    omega

end TtMlir
