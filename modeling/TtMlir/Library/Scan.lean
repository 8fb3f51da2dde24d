import Mathlib.Data.List.TakeWhile

/-!
Scans of a text by the next occurrence of a character. A position in the text is the rest of
the text from there.
-/

namespace TtMlir.Scan

def findPast (char : Char) (text : List Char) : Option (List Char) :=
  match text.dropWhile (· ≠ char) with
  | [] => none
  | _ :: rest => some rest

section Scan
variable {char : Char} {drop keep : Char → Bool} {front text rest : List Char}

theorem dropWhile_length (keep : Char → Bool) (text : List Char) : (text.dropWhile keep).length ≤ text.length :=
  (List.dropWhile_sublist keep).length_le

theorem findPast_length (found : findPast char text = some rest) :
    rest.length < text.length := by
  unfold findPast at found
  have bound := dropWhile_length (· ≠ char) text
  split at found
  · exact nomatch found
  · rename_i split
    cases found
    rw [split, List.length_cons] at bound
    exact bound

theorem findPast_append (absent : char ∉ front) (rest : List Char) :
    findPast char (front ++ char :: rest) = some rest := by
  unfold findPast
  rw [List.dropWhile_append_of_pos]
  · simp
  · intro other member
    simpa using fun same : other = char => absent (same ▸ member)

theorem findPast_cons (char : Char) (rest : List Char) : findPast char (char :: rest) = some rest :=
  findPast_append List.not_mem_nil rest

theorem takeWhile_append_stop (kept : ∀ char ∈ front, keep char) (rest : List Char)
    (stops : ∀ char ∈ rest.head?, keep char = false) :
    (front ++ rest).takeWhile keep = front ∧ (front ++ rest).dropWhile keep = rest := by
  rw [List.takeWhile_append_of_pos kept, List.dropWhile_append_of_pos kept]
  cases rest with
  | nil => simp
  | cons char rest =>
      have stop := stops char rfl
      simp [stop]

theorem dropWhile_none (none : ∀ char ∈ text, drop char = false) : text.dropWhile drop = text := by
  cases text with
  | nil => rfl
  | cons char text => simp [none char List.mem_cons_self]

theorem dropWhile_dropWhile (stops : drop char = false) (text : List Char) :
    (text.dropWhile drop).dropWhile (· ≠ char) = text.dropWhile (· ≠ char) := by
  induction text with
  | nil => rfl
  | cons first text ih =>
      by_cases dropped : drop first
      · have other : first ≠ char := by
          rintro rfl
          rw [dropped] at stops
          exact nomatch stops
        rw [List.dropWhile_cons_of_pos dropped, ih, List.dropWhile_cons_of_pos (by simpa using other)]
      · rw [List.dropWhile_cons_of_neg dropped]

theorem findPast_skip (absent : char ∉ front) (rest : List Char) :
    findPast char (front ++ rest) = findPast char rest := by
  unfold findPast
  rw [List.dropWhile_append_of_pos]
  intro other member
  simpa using fun same : other = char => absent (same ▸ member)

theorem findPast_none (absent : char ∉ text) : findPast char text = none := by
  have skipped := findPast_skip absent []
  rwa [List.append_nil] at skipped

theorem takeWhile_past (absent : char ∉ front) (rest : List Char) : (front ++ char :: rest).takeWhile (· ≠ char) =
    front := by
  refine (takeWhile_append_stop ?_ _ ?_).1
  · intro other member
    simpa using fun same : other = char => absent (same ▸ member)
  · intro other first
    cases first
    simp

theorem takeWhile_inside (member : char ∈ front) (rest : List Char) :
    (front ++ rest).takeWhile (· ≠ char) = front.takeWhile (· ≠ char) := by
  rw [List.takeWhile_append, if_neg]
  intro whole
  have all := (List.takeWhile_prefix (· ≠ char) (l := front)).eq_of_length whole
  simpa using List.takeWhile_eq_self_iff.mp all char member

end Scan

end TtMlir.Scan
