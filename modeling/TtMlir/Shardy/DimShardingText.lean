import TtMlir.Gspmd.AxisDefinitions
import TtMlir.Shardy.MeshSharding

/-!
The dim shardings of a text, `parseDimensionShardings` in ShardyUtils.cpp. What stands between
the axis names is skipped, so a sub-axis is read as the whole axis; the name of an axis can end a dim
or open it.
-/

namespace TtMlir.Shardy

open Gspmd Scan

section Parse

def nextRef (dimContent : List Char) : Option (AxisRef × List Char) := do
  let quoted ← findPast '"' dimContent
  let rest ← findPast '"' quoted
  return (⟨String.ofList (quoted.takeWhile (· ≠ '"')), none⟩, rest)

theorem nextRef_length {text rest : List Char} {axis : AxisRef} (found : nextRef text = some (axis, rest)) :
    rest.length < text.length := by
  unfold nextRef at found
  simp only [Option.bind_eq_bind, Option.bind_eq_some_iff, Option.pure_def, Option.some.injEq, Prod.mk.injEq] at found
  obtain ⟨quoted, first, after, second, _, last⟩ := found
  have one := findPast_length first
  have two := findPast_length second
  rw [last] at two
  omega

def readAxisRefs (dimContent : List Char) : List AxisRef :=
  match h : nextRef dimContent with
  | none => []
  | some (axis, rest) => axis :: readAxisRefs rest
termination_by dimContent.length
decreasing_by exact nextRef_length h

/-- The priority after a brace, or none where `std::stoll` is out of range. -/
def readPriority : List Char → Option (Option Nat)
  | 'p' :: rest =>
      let digits := rest.takeWhile Char.isDigit
      if digits = [] then some none
      else if Nat.ofDigitChars 10 digits 0 < 2 ^ 63 then some (some (Nat.ofDigitChars 10 digits 0))
      else none
  | _ => some none

def nextDim (dimsContent : List Char) : Option (Option DimSharding × List Char) := do
  let inside ← findPast '{' dimsContent
  let after ← findPast '}' inside
  let dimContent := inside.takeWhile (· ≠ '}')
  return ((readPriority after).map fun priority =>
    if dimContent = [] then ⟨[], true, priority⟩ else ⟨readAxisRefs dimContent, !dimContent.contains '?', priority⟩, after)

theorem nextDim_length {text rest : List Char} {dim : Option DimSharding} (found : nextDim text = some (dim, rest)) :
    rest.length < text.length := by
  unfold nextDim at found
  simp only [Option.bind_eq_bind, Option.bind_eq_some_iff, Option.pure_def, Option.some.injEq, Prod.mk.injEq] at found
  obtain ⟨inside, first, after, second, _, last⟩ := found
  have one := findPast_length first
  have two := findPast_length second
  rw [last] at two
  omega

/-- The dim shardings of a text. There is no answer only where a priority is out of range, which ends the program. -/
def parseDimensionShardings (dimsContent : List Char) : Option (List DimSharding) :=
  match h : nextDim dimsContent with
  | none => some []
  | some (none, _) => none
  | some (some dim, rest) => (parseDimensionShardings rest).map (dim :: ·)
termination_by dimsContent.length
decreasing_by exact nextDim_length h

end Parse

section Print

def AxisRef.text (axis : AxisRef) : List Char :=
  '"' :: (axis.name.toList ++ '"' :: match axis.subAxisInfo with
    | none => []
    | some sub => ':' :: '(' :: (number sub.preSize ++ ')' :: number sub.size))

def dimContent : List AxisRef → Bool → List Char
  | [], isClosed => if isClosed then [] else ['?']
  | axis :: axes, isClosed =>
      axis.text ++ ((if axes = [] ∧ isClosed then [] else [',', ' ']) ++ dimContent axes isClosed)

def priorityText : Option Nat → List Char
  | none => []
  | some priority => 'p' :: number priority

def DimSharding.text (dim : DimSharding) : List Char :=
  '{' :: (dimContent dim.axes dim.isClosed ++ '}' :: priorityText dim.priority)

def dimsText : List DimSharding → List Char
  | [] => []
  | dim :: dims => dim.text ++ ((if dims = [] then [] else [',', ' ']) ++ dimsText dims)

/-- Dim shardings that can be printed: a name holds no quote, a priority has 64 bits. -/
structure PrintedShardings where
  dims : List DimSharding
  unquoted : ∀ dim ∈ dims, ∀ axis ∈ dim.axes, '"' ∉ axis.name.toList
  priorities : ∀ dim ∈ dims, ∀ priority ∈ dim.priority, priority < 2 ^ 63

/-- A dim of whole axes whose names hold no closing brace and, where it is closed, no question mark. -/
def Plain (dim : DimSharding) : Prop :=
  ∀ axis ∈ dim.axes, axis.subAxisInfo = none ∧ '}' ∉ axis.name.toList ∧ (dim.isClosed → '?' ∉ axis.name.toList)

end Print

section AxisRefs
variable {axes : List AxisRef} {rest : List Char} {char : Char}

theorem readAxisRefs_none (none : nextRef rest = none) : readAxisRefs rest = [] := by
  rw [readAxisRefs]
  split
  · rfl
  · rename_i found
    rw [none] at found
    exact nomatch found

theorem readAxisRefs_some {text : List Char} {axis : AxisRef} (next : nextRef text = some (axis, rest)) :
    readAxisRefs text = axis :: readAxisRefs rest := by
  rw [readAxisRefs]
  split
  · rename_i found
    rw [next] at found
    exact nomatch found
  · rename_i found
    rw [next] at found
    cases found
    rfl

theorem readAxisRefs_name {name : List Char} (unquoted : '"' ∉ name) (rest : List Char) :
    readAxisRefs ('"' :: (name ++ '"' :: rest)) = ⟨String.ofList name, none⟩ :: readAxisRefs rest := by
  have first : findPast '"' ('"' :: (name ++ '"' :: rest)) = some (name ++ '"' :: rest) :=
    findPast_cons _ _
  apply readAxisRefs_some
  unfold nextRef
  rw [first]
  simp only [Option.bind_eq_bind, Option.bind_some, findPast_append unquoted rest, takeWhile_past unquoted]
  rfl

theorem readAxisRefs_skip {front : List Char} (unquoted : '"' ∉ front) (rest : List Char) :
    readAxisRefs (front ++ rest) = readAxisRefs rest := by
  have same : nextRef (front ++ rest) = nextRef rest := by
    unfold nextRef
    rw [findPast_skip unquoted]
  cases next : nextRef rest with
  | none => rw [readAxisRefs_none next, readAxisRefs_none (same.trans next)]
  | some found =>
      obtain ⟨axis, left⟩ := found
      rw [readAxisRefs_some next, readAxisRefs_some (same.trans next)]

def subAxisText : Option SubAxisInfo → List Char
  | none => []
  | some sub => ':' :: '(' :: (number sub.preSize ++ ')' :: number sub.size)

theorem AxisRef.text_eq (axis : AxisRef) :
    axis.text = '"' :: (axis.name.toList ++ '"' :: subAxisText axis.subAxisInfo) := by
  unfold AxisRef.text subAxisText
  cases axis.subAxisInfo with
  | none => rfl
  | some sub => rfl

theorem not_mem_number {char : Char} (notDigit : char.isDigit = false) (value : Nat) : char ∉ number value := by
  intro member
  rw [digit_of_number value char member] at notDigit
  exact nomatch notDigit

theorem not_mem_subAxisText (notDigit : char.isDigit = false) (other : char ∉ [':', '(', ')'])
    (sub : Option SubAxisInfo) :
    char ∉ subAxisText sub := by
  cases sub with
  | none => simp [subAxisText]
  | some sub =>
      have first := not_mem_number notDigit sub.preSize
      have second := not_mem_number notDigit sub.size
      simp only [List.mem_cons, List.not_mem_nil, or_false, not_or] at other
      simp [subAxisText, first, second, other]

theorem mem_text (notDigit : char.isDigit = false) (other : char ∉ [':', '(', ')', '"']) (axis : AxisRef) :
    char ∈ axis.text ↔ char ∈ axis.name.toList := by
  simp only [List.mem_cons, List.not_mem_nil, or_false, not_or] at other
  have sub := not_mem_subAxisText notDigit (by simp [other]) axis.subAxisInfo
  rw [axis.text_eq]
  simp [sub, other]

theorem mem_dimContent (notDigit : char.isDigit = false)
    (other : char ∉ [':', '(', ')', '"', ',', ' ']) (axes : List AxisRef)
    (isClosed : Bool) :
    char ∈ dimContent axes isClosed ↔ (∃ axis ∈ axes, char ∈ axis.name.toList) ∨ (isClosed = false ∧ char = '?') := by
  simp only [List.mem_cons, List.not_mem_nil, or_false, not_or] at other
  induction axes with
  | nil => cases isClosed <;> simp [dimContent]
  | cons axis axes ih =>
      have here := mem_text notDigit (by simp [other]) axis
      have separator : char ∉ (if axes = [] ∧ isClosed then [] else [',', ' ']) := by
        split <;> simp [other]
      rw [dimContent, List.mem_append, List.mem_append, here, ih]
      simp only [separator, false_or, List.mem_cons, exists_eq_or_imp]
      rw [or_assoc]

theorem dimContent_eq_nil (axes : List AxisRef) (isClosed : Bool) : dimContent axes isClosed = [] ↔ axes = [] ∧
    isClosed := by
  cases axes with
  | nil => cases isClosed <;> simp [dimContent]
  | cons axis axes => simp [dimContent, AxisRef.text]

def wholeAxis (axis : AxisRef) : AxisRef := ⟨axis.name, none⟩

theorem readAxisRefs_axis (axis : AxisRef) (unquoted : '"' ∉ axis.name.toList) (rest : List Char) :
    readAxisRefs (axis.text ++ rest) = wholeAxis axis :: readAxisRefs rest := by
  have sub : '"' ∉ subAxisText axis.subAxisInfo := not_mem_subAxisText (by decide) (by decide) _
  rw [axis.text_eq, List.cons_append, List.append_assoc, List.cons_append, readAxisRefs_name unquoted,
    readAxisRefs_skip sub,
    String.ofList_toList]
  rfl

theorem unquoted_separator (axes : List AxisRef) (isClosed : Bool) :
    '"' ∉ (if axes = [] ∧ isClosed then [] else [',', ' ']) := by
  split <;> simp

theorem readAxisRefs_content (unquoted : ∀ axis ∈ axes, '"' ∉ axis.name.toList) (isClosed : Bool) :
    readAxisRefs (dimContent axes isClosed) = axes.map wholeAxis := by
  induction axes with
  | nil => cases isClosed <;> exact readAxisRefs_none rfl
  | cons axis axes ih =>
      obtain ⟨here, later⟩ := List.forall_mem_cons.mp unquoted
      rw [dimContent, readAxisRefs_axis axis here, readAxisRefs_skip (unquoted_separator axes isClosed), ih later,
        List.map_cons]

theorem readAxisRefs_cut (unquoted : ∀ axis ∈ axes, '"' ∉ axis.name.toList) (isClosed : Bool) (rest : List Char)
    (braced : ∃ axis ∈ axes, '}' ∈ axis.name.toList) :
    (readAxisRefs ((dimContent axes isClosed ++ rest).takeWhile (· ≠ '}'))).length < axes.length := by
  induction axes with
  | nil => simp at braced
  | cons axis axes ih =>
      obtain ⟨here, later⟩ := List.forall_mem_cons.mp unquoted
      rw [dimContent, List.append_assoc, List.append_assoc]
      by_cases inName : '}' ∈ axis.name.toList
      · -- The brace ends the dim before the name does.
        have cut : (axis.text ++ ((if axes = [] ∧ isClosed then [] else [',', ' ']) ++
            (dimContent axes isClosed ++ rest))).takeWhile (· ≠ '}') =
            '"' :: axis.name.toList.takeWhile (· ≠ '}') := by
          rw [axis.text_eq, List.cons_append, List.append_assoc,
            List.takeWhile_cons_of_pos (by decide), takeWhile_inside inName]
        have none : nextRef ('"' :: axis.name.toList.takeWhile (· ≠ '}')) = none := by
          have first : findPast '"' ('"' :: axis.name.toList.takeWhile (· ≠ '}')) =
              some (axis.name.toList.takeWhile (· ≠ '}')) :=
            findPast_cons _ _
          have second : findPast '"' (axis.name.toList.takeWhile (· ≠ '}')) = none :=
            findPast_none fun member => here (List.takeWhile_subset _ member)
          unfold nextRef
          rw [first]
          simp only [Option.bind_eq_bind, Option.bind_some, second]
          rfl
        rw [cut, readAxisRefs_none none]
        exact Nat.succ_pos _
      · -- The name is read whole, and the brace comes with a later one.
        have later' : ∃ axis ∈ axes, '}' ∈ axis.name.toList := by
          obtain ⟨other, member, brace⟩ := braced
          rcases List.mem_cons.mp member with rfl | inside
          · exact absurd brace inName
          · exact ⟨other, inside, brace⟩
        have unbraced : ∀ char ∈ axis.text, decide (char ≠ '}') = true := by
          intro char member
          have other : char ≠ '}' := by
            rintro rfl
            exact inName ((mem_text (by decide) (by decide) axis).mp member)
          simpa using other
        have separator : ∀ char ∈ (if axes = [] ∧ isClosed then [] else [',', ' ']), decide (char ≠ '}') = true := by
          split <;> simp
        rw [List.takeWhile_append_of_pos unbraced, List.takeWhile_append_of_pos separator, readAxisRefs_axis axis here,
          readAxisRefs_skip (unquoted_separator axes isClosed), List.length_cons, List.length_cons]
        exact Nat.succ_lt_succ (ih later later')

end AxisRefs

section Dims
variable {rest text : List Char} {dim : DimSharding} {dims : List DimSharding}

theorem parse_none (none : nextDim text = none) : parseDimensionShardings text = some [] := by
  rw [parseDimensionShardings]
  split
  · rfl
  · rename_i found
    rw [none] at found
    exact nomatch found
  · rename_i found
    rw [none] at found
    exact nomatch found

theorem parse_some {found : Option DimSharding} (next : nextDim text = some (found, rest)) :
    parseDimensionShardings text =
      match found with
      | none => none
      | some dim => (parseDimensionShardings rest).map (dim :: ·) := by
  rw [parseDimensionShardings]
  split
  · rename_i other
    rw [next] at other
    exact nomatch other
  · rename_i other
    rw [next] at other
    cases other
    rfl
  · rename_i other
    rw [next] at other
    cases other
    rfl

theorem parse_skip {front : List Char} (unopened : '{' ∉ front) (rest : List Char) :
    parseDimensionShardings (front ++ rest) = parseDimensionShardings rest := by
  have same : nextDim (front ++ rest) = nextDim rest := by
    unfold nextDim
    rw [findPast_skip unopened]
  cases next : nextDim rest with
  | none => rw [parse_none next, parse_none (same.trans next)]
  | some found =>
      obtain ⟨dim, left⟩ := found
      rw [parse_some next, parse_some (same.trans next)]
      cases dim with
      | none => rfl
      | some dim => rfl

theorem readPriority_text (priority : Option Nat) (bounded : ∀ value ∈ priority, value < 2 ^ 63)
    (stops : ∀ char ∈ rest.head?, char = ',') : readPriority (priorityText priority ++ rest) = some priority := by
  cases priority with
  | none =>
      cases rest with
      | nil => rfl
      | cons char rest =>
          have comma : char = ',' := stops char rfl
          subst comma
          rfl
  | some value =>
      have digits : (number value ++ rest).takeWhile Char.isDigit = number value := by
        refine (takeWhile_append_stop (digit_of_number value) rest ?_).1
        intro char first
        rw [stops char first]
        decide
      have nonempty : number value ≠ [] := Nat.toDigits_ne_nil
      have same : Nat.ofDigitChars 10 (number value) 0 = value := Nat.ofDigitChars_ten_toDigits
      rw [priorityText, List.cons_append, readPriority]
      simp only [digits, nonempty, if_false, same]
      rw [if_pos (bounded value rfl)]

theorem dim_text (dim : DimSharding) (rest : List Char) :
    dim.text ++ rest = '{' :: (dimContent dim.axes dim.isClosed ++ '}' :: (priorityText dim.priority ++ rest)) := by
  simp [DimSharding.text]

theorem findPast_text (dim : DimSharding) (rest : List Char) :
    findPast '{' (dim.text ++ rest) =
      some (dimContent dim.axes dim.isClosed ++ '}' :: (priorityText dim.priority ++ rest)) := by
  rw [dim_text]
  exact findPast_cons _ _

def readDim (dim : DimSharding) : DimSharding :=
  ⟨dim.axes.map wholeAxis, !(dimContent dim.axes dim.isClosed).contains '?', dim.priority⟩

theorem nextDim_text (unquoted : ∀ axis ∈ dim.axes, '"' ∉ axis.name.toList)
    (bounded : ∀ priority ∈ dim.priority, priority < 2 ^ 63)
    (unbraced : ∀ axis ∈ dim.axes, '}' ∉ axis.name.toList) (stops : ∀ char ∈ rest.head?, char = ',') :
    nextDim (dim.text ++ rest) = some (some (readDim dim), priorityText dim.priority ++ rest) := by
  -- The first closing brace is that of the dim.
  have absent : '}' ∉ dimContent dim.axes dim.isClosed := by
    rw [mem_dimContent (by decide) (by decide)]
    rintro (⟨axis, member, brace⟩ | ⟨_, same⟩)
    · exact unbraced axis member brace
    · exact absurd same (by decide)
  have read : (if dimContent dim.axes dim.isClosed = [] then (⟨[], true, dim.priority⟩ : DimSharding)
      else ⟨readAxisRefs (dimContent dim.axes dim.isClosed), !(dimContent dim.axes dim.isClosed).contains '?',
        dim.priority⟩) =
        readDim dim := by
    unfold readDim
    split
    · rename_i empty
      have none := ((dimContent_eq_nil _ _).mp empty).1
      rw [empty, none]
      rfl
    · rw [readAxisRefs_content unquoted]
  unfold nextDim
  rw [findPast_text]
  simp only [Option.bind_eq_bind, Option.bind_some, findPast_append absent, takeWhile_past absent,
    readPriority_text dim.priority bounded stops, Option.map_some, read]
  rfl

theorem nextDim_braced (unquoted : ∀ axis ∈ dim.axes, '"' ∉ axis.name.toList)
    (braced : ∃ axis ∈ dim.axes, '}' ∈ axis.name.toList) (rest : List Char) :
    ∃ found after, nextDim (dim.text ++ rest) = some (found, after) ∧
      ∀ other ∈ found, other.axes.length < dim.axes.length := by
  have member : '}' ∈ dimContent dim.axes dim.isClosed := by
    rw [mem_dimContent (by decide) (by decide)]
    exact .inl braced
  have fewer := readAxisRefs_cut unquoted dim.isClosed ('}' :: (priorityText dim.priority ++ rest)) braced
  have start := findPast_text dim rest
  -- The dim ends at the first brace of a name.
  obtain ⟨front, back, split, fresh⟩ := List.eq_append_cons_of_mem member
  have inside : dimContent dim.axes dim.isClosed ++ '}' :: (priorityText dim.priority ++ rest) =
      front ++ '}' :: (back ++ '}' :: (priorityText dim.priority ++ rest)) := by
    rw [split, List.append_assoc, List.cons_append]
  rw [inside] at start fewer
  rw [takeWhile_past fresh] at fewer
  refine ⟨(readPriority (back ++ '}' :: (priorityText dim.priority ++ rest))).map fun priority =>
    if front = [] then ⟨[], true, priority⟩ else ⟨readAxisRefs front, !front.contains '?', priority⟩,
    back ++ '}' :: (priorityText dim.priority ++ rest), ?_, ?_⟩
  · unfold nextDim
    rw [start]
    simp only [Option.bind_eq_bind, Option.bind_some, findPast_append fresh, takeWhile_past fresh]
    rfl
  · intro other found
    obtain ⟨priority, _, same⟩ := Option.map_eq_some_iff.mp found
    split at same
    · rw [← same]
      exact Nat.lt_of_le_of_lt (Nat.zero_le _) fewer
    · rw [← same]
      exact fewer

theorem readDim_iff (unbraced : ∀ axis ∈ dim.axes, '}' ∉ axis.name.toList) : readDim dim = dim ↔ Plain dim := by
  have question : '?' ∈ dimContent dim.axes dim.isClosed ↔ _ := mem_dimContent (by decide) (by decide) _ _
  obtain ⟨axes, isClosed, priority⟩ := dim
  dsimp only at unbraced question
  have whole : axes.map wholeAxis = axes ↔ ∀ axis ∈ axes, axis.subAxisInfo = none := by
    clear unbraced question
    induction axes with
    | nil => simp
    | cons axis axes ih =>
        obtain ⟨name, sub⟩ := axis
        rw [List.map_cons, List.cons.injEq, ih, List.forall_mem_cons]
        simp [wholeAxis, eq_comm]
  have closed : (!(dimContent axes isClosed).contains '?') = isClosed ↔
      ∀ axis ∈ axes, isClosed = true → '?' ∉ axis.name.toList := by
    cases isClosed with
    | true => simp [question]
    | false => simp [question]
  unfold readDim Plain
  simp only [DimSharding.mk.injEq, and_true]
  rw [whole, closed]
  constructor
  · rintro ⟨subAxes, names⟩ axis member
    exact ⟨subAxes axis member, unbraced axis member, names axis member⟩
  · intro plain
    exact ⟨fun axis member => (plain axis member).1, fun axis member => (plain axis member).2.2⟩

theorem parse_dims_iff (unquoted : ∀ dim ∈ dims, ∀ axis ∈ dim.axes, '"' ∉ axis.name.toList)
    (bounded : ∀ dim ∈ dims, ∀ priority ∈ dim.priority, priority < 2 ^ 63) :
    parseDimensionShardings (dimsText dims) = some dims ↔ ∀ dim ∈ dims, Plain dim := by
  induction dims with
  | nil =>
      have none : parseDimensionShardings (dimsText []) = some [] := parse_none rfl
      rw [none]
      simp
  | cons dim dims ih =>
      obtain ⟨names, laterNames⟩ := List.forall_mem_cons.mp unquoted
      obtain ⟨priority, laterPriorities⟩ := List.forall_mem_cons.mp bounded
      have inner := ih laterNames laterPriorities
      rw [dimsText, List.forall_mem_cons]
      -- A brace in a name gives a dim of fewer axes, so the lists differ at once.
      by_cases braced : ∃ axis ∈ dim.axes, '}' ∈ axis.name.toList
      · obtain ⟨found, after, next, fewer⟩ :=
          nextDim_braced names braced ((if dims = [] then [] else [',', ' ']) ++ dimsText dims)
        rw [parse_some next]
        constructor
        · intro same
          cases found with
          | none => exact nomatch same
          | some other =>
              obtain ⟨later, _, equal⟩ := Option.map_eq_some_iff.mp same
              have first := (List.cons.inj equal).1
              have less := fewer other rfl
              rw [first] at less
              exact absurd less (Nat.lt_irrefl _)
        · rintro ⟨plain, _⟩
          obtain ⟨axis, member, brace⟩ := braced
          exact absurd brace (plain axis member).2.1
      · push Not at braced
        have stops : ∀ char ∈ ((if dims = [] then [] else [',', ' ']) ++ dimsText dims).head?, char = ',' := by
          cases dims with
          | nil => simp [dimsText]
          | cons next dims => simp
        have next := nextDim_text names priority braced stops
        -- What stands between two dims holds no brace and is stepped past.
        have skipped : parseDimensionShardings
            (priorityText dim.priority ++ ((if dims = [] then [] else [',', ' ']) ++ dimsText dims)) =
            parseDimensionShardings (dimsText dims) := by
          rw [← List.append_assoc]
          apply parse_skip
          intro member
          rcases List.mem_append.mp member with inPriority | inSeparator
          · cases known : dim.priority with
            | none => simp [known, priorityText] at inPriority
            | some value =>
                have digits : '{' ∉ number value := not_mem_number (by decide) value
                simp [known, priorityText, digits] at inPriority
          · split at inSeparator
            · exact nomatch inSeparator
            · exact absurd inSeparator (by decide)
        rw [parse_some next]
        dsimp only
        rw [skipped, ← inner, ← readDim_iff braced]
        constructor
        · intro same
          obtain ⟨later, found, equal⟩ := Option.map_eq_some_iff.mp same
          obtain ⟨first, tail⟩ := List.cons.inj equal
          exact ⟨first, tail ▸ found⟩
        · rintro ⟨first, found⟩
          rw [first, found]
          rfl

/-- Dim shardings are read back exactly where all axes are whole and no name holds a closing brace or, in a closed dim, a
question mark. -/
theorem parseDimensionShardings_iff (printed : PrintedShardings) :
    parseDimensionShardings (dimsText printed.dims) = some printed.dims ↔ ∀ dim ∈ printed.dims, Plain dim :=
  parse_dims_iff printed.unquoted printed.priorities

def subAxisDim : PrintedShardings where
  dims := [⟨[⟨"a", some ⟨1, 2⟩⟩], true, none⟩]
  unquoted := by decide
  priorities := by decide

/-- The part is read as the whole axis. -/
theorem subAxisDim_whole : dimsText subAxisDim.dims = "\x7b\"a\":(1)2\x7d".toList ∧
    parseDimensionShardings (dimsText subAxisDim.dims) = some [⟨[⟨"a", none⟩], true, none⟩] := by
  refine ⟨by decide, ?_⟩
  have next : nextDim (DimSharding.text ⟨[⟨"a", some ⟨1, 2⟩⟩], true, none⟩ ++ []) = _ :=
    nextDim_text (by decide) (by decide) (by decide) (by simp)
  have ended : parseDimensionShardings (priorityText none ++ []) = some [] := parse_none rfl
  have text : dimsText subAxisDim.dims = DimSharding.text ⟨[⟨"a", some ⟨1, 2⟩⟩], true, none⟩ ++ [] := rfl
  rw [text, parse_some next]
  dsimp only
  rw [ended]
  decide

end Dims

end TtMlir.Shardy
