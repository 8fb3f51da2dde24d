import TtMlir.Gspmd.Text
import TtMlir.Library.Scan

/-!
The axes of a mesh string, `parseAxisDefinitions` in GSPMDUtils.cpp. A size ends at the first
space, also between the equals sign and the size: then the axis is left out without an error.
-/

namespace TtMlir.Gspmd.AxisDefinitions

open Scan

inductive Failure where
  | invalidArgument | outOfRange
  deriving DecidableEq, Repr

/-- The blanks of `std::isspace`, with the vertical tab and the form feed. -/
def isSpace (char : Char) : Bool := char.isWhitespace || char.toNat = 11 || char.toNat = 12

/-- `std::stoi`: blanks, a sign and the digits up to another character. -/
def stoi (text : List Char) : Except Failure Int :=
  let rest := text.dropWhile isSpace
  let digits := (if rest.head? = some '-' ∨ rest.head? = some '+' then rest.tail else rest).takeWhile Char.isDigit
  if digits = [] then .error .invalidArgument
  else
    let magnitude : Int := Nat.ofDigitChars 10 digits 0
    let value := if rest.head? = some '-' then -magnitude else magnitude
    if -2 ^ 31 ≤ value ∧ value < 2 ^ 31 then .ok value else .error .outOfRange

def isSeparator (char : Char) : Bool := char = ' ' || char = ','

def endsSize (char : Char) : Bool := char = ',' || char = ']' || char = ' '

def trimTrailing (text : List Char) : List Char := (text.reverse.dropWhile fun char => char = ' ' || char = '\t').reverse

/-- The name of the next axis, its size as text and the text from where the size ends. A position is the text from
there. -/
def nextAxis (text : List Char) : Option (List Char × List Char × List Char) := do
  let quoted ← findPast '"' (text.dropWhile isSeparator)
  let named ← findPast '"' quoted
  let sized ← findPast '=' named
  return (quoted.takeWhile (· ≠ '"'), trimTrailing (sized.takeWhile (!endsSize ·)), sized.dropWhile (!endsSize ·))

theorem nextAxis_length {text name size rest : List Char} (found : nextAxis text = some (name, size, rest)) :
    rest.length < text.length := by
  unfold nextAxis at found
  simp only [Option.bind_eq_bind, Option.bind_eq_some_iff, Option.pure_def, Option.some.injEq, Prod.mk.injEq] at found
  obtain ⟨quoted, first, named, second, sized, third, _, _, last⟩ := found
  have skipped := dropWhile_length isSeparator text
  have cut := dropWhile_length (!endsSize ·) sized
  have one := findPast_length first
  have two := findPast_length second
  have three := findPast_length third
  rw [last] at cut
  omega

def parseAxisDefinitions (axesContent : List Char) : Except Failure (List (List Char × Int)) :=
  match h : nextAxis axesContent with
  | none => .ok []
  | some (axisName, sizeStr, rest) =>
      if sizeStr = [] then parseAxisDefinitions rest
      else
        match stoi sizeStr with
        | .error failure => .error failure
        | .ok size => (parseAxisDefinitions rest).map ((axisName, size) :: ·)
termination_by axesContent.length
decreasing_by
  all_goals exact nextAxis_length h

/-- An axis with the separators in front of it and the spaces around its equals sign. -/
structure WrittenAxis where
  before : List Char
  name : List Char
  spacesBefore : Nat
  spacesAfter : Nat
  size : Nat
  separators : ∀ char ∈ before, isSeparator char
  unquoted : '"' ∉ name
  positive : 1 ≤ size
  bounded : size < 2 ^ 31

def WrittenAxis.text (axis : WrittenAxis) : List Char :=
  axis.before ++ '"' :: (axis.name ++ '"' :: (List.replicate axis.spacesBefore ' ' ++ '=' ::
    (List.replicate axis.spacesAfter ' ' ++ number axis.size)))

def WrittenAxis.definition (axis : WrittenAxis) : List Char × Int := (axis.name, axis.size)

/-- A list of axes with separators between any two and after the last one. -/
structure WrittenAxes where
  axes : List WrittenAxis
  after : List Char
  nonempty : axes ≠ []
  separated : ∀ axis ∈ axes.tail, axis.before ≠ []
  separators : ∀ char ∈ after, isSeparator char

def textFrom (after : List Char) (axes : List WrittenAxis) : List Char := axes.flatMap (·.text) ++ after

def WrittenAxes.text (written : WrittenAxes) : List Char := textFrom written.after written.axes

section Reading
variable {text rest : List Char} {axis : WrittenAxis}

theorem digit_ne {char : Char} (other : Char) (digit : char.isDigit = true) (notDigit : other.isDigit = false) :
    char ≠ other := by
  rintro rfl
  rw [digit] at notDigit
  exact nomatch notDigit

theorem number_spec (size : Nat) : number size ≠ [] ∧ (∀ char ∈ number size, (!endsSize char) = true) ∧
    trimTrailing (number size) = number size := by
  have digits := digit_of_number size
  refine ⟨Nat.toDigits_ne_nil, ?_, ?_⟩
  · intro char member
    have comma := digit_ne ',' (digits char member) (by decide)
    have bracket := digit_ne ']' (digits char member) (by decide)
    have space := digit_ne ' ' (digits char member) (by decide)
    simp [endsSize, comma, bracket, space]
  · unfold trimTrailing
    rw [dropWhile_none, List.reverse_reverse]
    intro char member
    have space := digit_ne ' ' (digits char (List.mem_reverse.mp member)) (by decide)
    have tab := digit_ne '\t' (digits char (List.mem_reverse.mp member)) (by decide)
    simp [space, tab]

theorem digit_not_space {char : Char} (digit : char.isDigit = true) : isSpace char = false := by
  have bounds : 48 ≤ char.toNat ∧ char.toNat ≤ 57 := by
    simp only [Char.isDigit, Bool.and_eq_true, decide_eq_true_eq] at digit
    exact ⟨UInt32.le_iff_toNat_le.mp digit.1, UInt32.le_iff_toNat_le.mp digit.2⟩
  have blank : char.isWhitespace = false := by
    have space := digit_ne ' ' digit (by decide)
    have tab := digit_ne '\t' digit (by decide)
    have carriage := digit_ne '\r' digit (by decide)
    have newline := digit_ne '\n' digit (by decide)
    simp [Char.isWhitespace, space, tab, carriage, newline]
  have vertical : char.toNat ≠ 11 ∧ char.toNat ≠ 12 := by omega
  simp [isSpace, blank, vertical]

theorem stoi_number (size : Nat) (bounded : size < 2 ^ 31) : stoi (number size) = .ok size := by
  have nonempty := (number_spec size).1
  have digits := digit_of_number size
  have unspaced : (number size).dropWhile isSpace = number size :=
    dropWhile_none fun char member => digit_not_space (digits char member)
  have head : ∀ char ∈ (number size).head?, char.isDigit = true := fun char first =>
      digits char (List.mem_of_mem_head? first)
  have positive : (number size).head? ≠ some '-' := fun first => absurd (head '-' first) (by decide)
  have unsigned : (number size).head? ≠ some '+' := fun first => absurd (head '+' first) (by decide)
  have whole : (number size).takeWhile Char.isDigit = number size := List.takeWhile_eq_self_iff.mpr digits
  have value : Nat.ofDigitChars 10 (number size) 0 = size := Nat.ofDigitChars_ten_toDigits
  unfold stoi
  simp only [unspaced, positive, unsigned, or_self, if_false, whole, nonempty, value]
  rw [if_pos]
  omega

theorem nextAxis_skip {front : List Char} (unquoted : '"' ∉ front) (rest : List Char) :
    nextAxis (front ++ rest) = nextAxis rest := by
  have separators : isSeparator '"' = false := by decide
  have skipped : (front ++ rest).dropWhile (· ≠ '"') = rest.dropWhile (· ≠ '"') := by
    apply List.dropWhile_append_of_pos
    intro char member
    simpa using fun same : char = '"' => unquoted (same ▸ member)
  unfold nextAxis findPast
  rw [dropWhile_dropWhile separators, dropWhile_dropWhile separators, skipped]

theorem parse_none (none : nextAxis text = none) : parseAxisDefinitions text = .ok [] := by
  rw [parseAxisDefinitions]
  split
  · rfl
  · rename_i found
    rw [none] at found
    exact nomatch found

theorem parse_some {name size : List Char} (next : nextAxis text = some (name, size, rest)) :
    parseAxisDefinitions text =
      if size = [] then parseAxisDefinitions rest
      else
        match stoi size with
        | .error failure => .error failure
        | .ok value => (parseAxisDefinitions rest).map ((name, value) :: ·) := by
  rw [parseAxisDefinitions]
  split
  · rename_i found
    rw [next] at found
    exact nomatch found
  · rename_i found
    rw [next] at found
    cases found
    rfl

theorem parse_skip {front : List Char} (unquoted : '"' ∉ front) (rest : List Char) :
    parseAxisDefinitions (front ++ rest) = parseAxisDefinitions rest := by
  have same := nextAxis_skip unquoted rest
  cases next : nextAxis rest with
  | none => rw [parse_none next, parse_none (same.trans next)]
  | some found =>
      obtain ⟨name, size, left⟩ := found
      rw [parse_some next, parse_some (same.trans next)]

theorem unquoted_separators {front : List Char} (separators : ∀ char ∈ front, isSeparator char) : '"' ∉ front :=
  fun member => absurd (separators _ member) (by decide)

theorem nextAxis_text (axis : WrittenAxis) (rest : List Char) :
    nextAxis (axis.text ++ rest) =
      some (axis.name,
        trimTrailing ((List.replicate axis.spacesAfter ' ' ++ (number axis.size ++ rest)).takeWhile (!endsSize ·)),
        (List.replicate axis.spacesAfter ' ' ++ (number axis.size ++ rest)).dropWhile (!endsSize ·)) := by
  have shape : axis.text ++ rest =
      axis.before ++ ('"' :: (axis.name ++ '"' :: (List.replicate axis.spacesBefore ' ' ++ '=' ::
      (List.replicate axis.spacesAfter ' ' ++ (number axis.size ++ rest))))) := by
    simp [WrittenAxis.text]
  rw [shape, nextAxis_skip (unquoted_separators axis.separators)]
  generalize List.replicate axis.spacesAfter ' ' ++ (number axis.size ++ rest) = sized
  have spaces : '=' ∉ List.replicate axis.spacesBefore ' ' := by
    intro member
    exact absurd (List.eq_of_mem_replicate member) (by decide)
  have named := findPast_append spaces sized
  have quoted := findPast_append axis.unquoted (List.replicate axis.spacesBefore ' ' ++ '=' :: sized)
  have start : findPast '"' (('"' ::
      (axis.name ++ '"' :: (List.replicate axis.spacesBefore ' ' ++ '=' :: sized))).dropWhile isSeparator) =
      some (axis.name ++ '"' :: (List.replicate axis.spacesBefore ' ' ++ '=' :: sized)) := by
    rw [List.dropWhile_cons_of_neg (by decide)]
    exact findPast_cons _ _
  have name : (axis.name ++ '"' :: (List.replicate axis.spacesBefore ' ' ++ '=' :: sized)).takeWhile (· ≠ '"') =
      axis.name :=
    takeWhile_past axis.unquoted _
  unfold nextAxis
  rw [start]
  simp only [Option.bind_eq_bind, Option.bind_some, quoted, named, name]
  rfl

/-- A text with an axis, and after its size a separator or nothing, has the axis where no space is before the size. -/
theorem parse_axis (axis : WrittenAxis) (stops : ∀ char ∈ rest.head?, isSeparator char) :
    parseAxisDefinitions (axis.text ++ rest) =
      if axis.spacesAfter = 0 then (parseAxisDefinitions rest).map
        (axis.definition :: ·) else parseAxisDefinitions rest := by
  obtain ⟨nonempty, kept, trimmed⟩ := number_spec axis.size
  rw [parse_some (nextAxis_text axis rest)]
  cases spaces : axis.spacesAfter with
  | zero =>
      have ends : ∀ char ∈ rest.head?, (!endsSize char) = false := by
        intro char first
        have separator := stops char first
        simp only [isSeparator, Bool.or_eq_true, decide_eq_true_eq] at separator
        simp only [endsSize, Bool.not_eq_false', Bool.or_eq_true, decide_eq_true_eq]
        tauto
      obtain ⟨digits, left⟩ := takeWhile_append_stop kept rest ends
      rw [List.replicate_zero, List.nil_append, digits, left, trimmed, if_neg nonempty, if_pos rfl,
        stoi_number _ axis.bounded]
      rfl
  | succ count =>
      have cut : endsSize ' ' = true := by decide
      rw [List.replicate_succ, List.cons_append, List.takeWhile_cons_of_neg (by simp [cut]),
        List.dropWhile_cons_of_neg (by simp [cut])]
      rw [if_pos (by rfl), if_neg (Nat.succ_ne_zero count), ← List.cons_append, ← List.replicate_succ, ← List.append_assoc]
      apply parse_skip
      intro member
      rcases List.mem_append.mp member with blank | digit
      · exact absurd (List.eq_of_mem_replicate blank) (by decide)
      · exact absurd (digit_of_number axis.size _ digit) (by decide)

theorem parse_textFrom (after : List Char) (separators : ∀ char ∈ after, isSeparator char) (axes : List WrittenAxis)
    (separated : ∀ axis ∈ axes.tail, axis.before ≠ []) :
    parseAxisDefinitions (textFrom after axes) = .ok ((axes.filter (·.spacesAfter = 0)).map (·.definition)) := by
  induction axes with
  | nil =>
      have none : nextAxis after = none := by
        have skipped := nextAxis_skip (unquoted_separators separators) []
        rw [List.append_nil] at skipped
        rw [skipped]
        rfl
      exact parse_none none
  | cons axis axes ih =>
      -- What follows the axis is a separator, which ends the scan of its size.
      have stops : ∀ char ∈ (textFrom after axes).head?, isSeparator char := by
        intro char first
        cases axes with
        | nil => exact separators char (List.mem_of_mem_head? first)
        | cons next axes =>
            have nonempty := separated next List.mem_cons_self
            apply next.separators char
            cases listed : next.before with
            | nil => exact absurd listed nonempty
            | cons start before =>
                have same : start = char := by simpa [textFrom, WrittenAxis.text, listed] using first
                rw [same]
                exact List.mem_cons_self
      have later := ih fun next member => separated next (List.mem_of_mem_tail member)
      have split : textFrom after (axis :: axes) = axis.text ++ textFrom after axes := by
        simp [textFrom]
      rw [split, parse_axis axis stops, later]
      -- A space in front of the size ends it at once, and the axis is dropped.
      by_cases spaces : axis.spacesAfter = 0
      · rw [if_pos spaces, List.filter_cons_of_pos (by simpa using spaces), List.map_cons]
        rfl
      · rw [if_neg spaces, List.filter_cons_of_neg (by simpa using spaces)]

/-- A list of axes is read back exactly where no size has a space in front of it. -/
theorem parseAxisDefinitions_iff (written : WrittenAxes) :
    parseAxisDefinitions written.text = .ok (written.axes.map (·.definition)) ↔ ∀ axis ∈ written.axes, axis.spacesAfter = 0 := by
  unfold WrittenAxes.text
  rw [parse_textFrom written.after written.separators written.axes written.separated]
  constructor
  · intro same
    have lengths := congrArg List.length (Except.ok.inj same)
    rw [List.length_map, List.length_map] at lengths
    have all := List.filter_eq_self.mp (List.filter_sublist.eq_of_length lengths)
    intro axis member
    simpa using all axis member
  · intro none
    rw [List.filter_eq_self.mpr]
    intro axis member
    simpa using none axis member

end Reading

def dataAndModel : WrittenAxes where
  axes := [⟨[' '], "data".toList, 1, 1, 4, by simp [isSeparator], by decide, by decide, by decide⟩,
    ⟨[' ', ',', ' '], "model".toList, 1, 1, 2, by simp [isSeparator], by decide, by decide, by decide⟩]
  after := [' ']
  nonempty := by simp
  separated := by decide
  separators := by simp [isSeparator]

theorem dataAndModel_lost : dataAndModel.text = " \"data\" = 4 , \"model\" = 2 ".toList ∧
    parseAxisDefinitions dataAndModel.text ≠ .ok (dataAndModel.axes.map (·.definition)) := by
  refine ⟨by decide, ?_⟩
  have read := parse_textFrom dataAndModel.after dataAndModel.separators dataAndModel.axes dataAndModel.separated
  rw [WrittenAxes.text, read]
  decide

end TtMlir.Gspmd.AxisDefinitions
