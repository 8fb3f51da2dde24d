import TtMlir.Library.Outcome
import TtMlir.Library.Tensor
import TtMlir.Gspmd.Sharding

/-!
Tile assignments of GSPMD and the strings that write them. The devices are either
listed or an iota that is reshaped and transposed; every string is read back as
the lists that wrote it, as far as its numbers have 64 bits.
-/

namespace TtMlir.Gspmd

inductive DeviceOrder where
  | listed (ids : List Nat)
  | iota (reshape : List Nat) (transpose : Option (List Nat))
  deriving DecidableEq

def DeviceOrder.Covers (count : Nat) : DeviceOrder → Prop
  | .listed ids => ids.Perm (List.range count)
  | .iota reshape transpose => reshape.prod = count ∧ ∀ axes, transpose = some axes → axes.Perm (List.range reshape.length)

def DeviceOrder.deviceAt : DeviceOrder → Nat → Nat
  | .listed ids, position => ids.getD position 0
  | .iota _ none, position => position
  | .iota reshape (some axes), position =>
      let index := unflatten (axes.map fun axis => reshape.getD axis 0) position
      flatten reshape ((List.range reshape.length).map fun axis => index.getD (axes.idxOf axis) 0)

structure TileAssignment where
  dims : List Nat
  order : DeviceOrder
  lastTileDimReplicate : Bool
  nonempty : dims ≠ []
  positive : ∀ size ∈ dims, 0 < size
  covers : order.Covers dims.prod

section Writing

def number (value : Nat) : List Char := Nat.toDigits 10 value

def numbers (values : List Nat) : List Char := [','].intercalate (values.map number)

def bracketed (values : List Nat) : List Char := ['['] ++ numbers values ++ [']']

def DeviceOrder.text : DeviceOrder → List Char
  | .listed ids => numbers ids
  | .iota reshape none => ['<', '='] ++ bracketed reshape
  | .iota reshape (some axes) => ['<', '='] ++ (bracketed reshape ++ (['T', '('] ++ numbers axes ++ [')']))

def TileAssignment.devicesText (assignment : TileAssignment) : List Char :=
  bracketed assignment.dims ++ assignment.order.text

def TileAssignment.tokenTexts (assignment : TileAssignment) : List (List Char) :=
  ("devices=".toList ++ assignment.devicesText) ::
    (if assignment.lastTileDimReplicate then ["last_tile_dim_replicate".toList] else [])

def TileAssignment.text (assignment : TileAssignment) : List Char :=
  ['{'] ++ [' '].intercalate assignment.tokenTexts ++ ['}']

end Writing

section Characters

def Plain (char : Char) : Prop := char.isDigit = true ∨ char ∈ [',', '[', ']', '<', '=', 'T', '(', ')']

instance (char : Char) : Decidable (Plain char) := by
  unfold Plain
  infer_instance

theorem digit_of_number (value : Nat) (char : Char) (member : char ∈ number value) : char.isDigit = true :=
  Nat.isDigit_of_mem_toDigits (by decide) (by decide) member

theorem mem_intercalate (char separator : Char) (texts : List (List Char))
    (member : char ∈ [separator].intercalate texts) : char = separator ∨ ∃ text ∈ texts, char ∈ text := by
  induction texts with
  | nil => cases member
  | cons text rest ih =>
      cases rest with
      | nil =>
          rw [List.intercalate_singleton] at member
          exact Or.inr ⟨text, List.mem_singleton_self text, member⟩
      | cons next others =>
          rw [List.intercalate_cons_cons, List.mem_append, List.mem_append] at member
          rcases member with (here | between) | later
          · exact Or.inr ⟨text, List.mem_cons_self, here⟩
          · exact Or.inl (List.mem_singleton.mp between)
          · rcases ih later with same | ⟨other, known, inside⟩
            · exact Or.inl same
            · exact Or.inr ⟨other, List.mem_cons_of_mem _ known, inside⟩

theorem mem_numbers (values : List Nat) (char : Char) (member : char ∈ numbers values) :
    char = ',' ∨ char.isDigit = true := by
  rcases mem_intercalate char ',' _ member with comma | ⟨text, written, inside⟩
  · exact Or.inl comma
  · obtain ⟨value, _, rfl⟩ := List.mem_map.mp written
    exact Or.inr (digit_of_number value char inside)

theorem mem_bracketed (values : List Nat) (char : Char) (member : char ∈ bracketed values) :
    char ∈ [',', '[', ']'] ∨ char.isDigit = true := by
  simp only [bracketed, List.mem_append, List.mem_singleton] at member
  rcases member with (rfl | inside) | rfl
  · exact Or.inl (by decide)
  · rcases mem_numbers values char inside with rfl | digit
    · exact Or.inl (by decide)
    · exact Or.inr digit
  · exact Or.inl (by decide)

theorem plain_bracketed (values : List Nat) (char : Char) (member : char ∈ bracketed values) : Plain char := by
  rcases mem_bracketed values char member with mark | digit
  · right
    revert mark
    simp only [List.mem_cons, List.not_mem_nil, or_false]
    tauto
  · exact Or.inl digit

theorem plain_numbers (values : List Nat) (char : Char) (member : char ∈ numbers values) : Plain char :=
  plain_bracketed values char (List.mem_append_left _ (List.mem_append_right _ member))

theorem plain_devicesText (assignment : TileAssignment) (char : Char) (member : char ∈ assignment.devicesText) :
    Plain char := by
  rcases List.mem_append.mp member with dims | order
  · exact plain_bracketed _ char dims
  · cases written : assignment.order with
    | listed ids =>
        rw [written] at order
        exact plain_numbers ids char order
    | iota reshape transpose =>
        rw [written] at order
        cases transpose with
        | none =>
            rcases List.mem_append.mp order with arrow | inside
            · right
              revert arrow
              simp only [List.mem_cons, List.not_mem_nil, or_false]
              tauto
            · exact plain_bracketed reshape char inside
        | some axes =>
            simp only [DeviceOrder.text, List.mem_append, List.mem_cons, List.not_mem_nil, or_false] at order
            rcases order with arrow | inside | (opened | axis) | closed
            · right
              simp only [List.mem_cons, List.not_mem_nil, or_false]
              tauto
            · exact plain_bracketed reshape char inside
            · right
              simp only [List.mem_cons, List.not_mem_nil, or_false]
              tauto
            · exact plain_numbers axes char axis
            · right
              simp only [List.mem_cons, List.not_mem_nil, or_false]
              tauto

end Characters

section Parsing

def ints (values : List Nat) : List Int := values.map fun value : Nat => (value : Int)

theorem length_ints (values : List Nat) : (ints values).length = values.length := List.length_map _

theorem getAsUnsigned_number (value : Nat) : getAsUnsigned (number value) = some value := by
  unfold getAsUnsigned number
  have digits : Nat.toDigits 10 value ≠ [] ∧ (Nat.toDigits 10 value).all Char.isDigit = true :=
    ⟨Nat.toDigits_ne_nil, List.all_eq_true.mpr (digit_of_number value)⟩
  rw [if_pos digits, Nat.ofDigitChars_ten_toDigits]

theorem getAsInteger_number (value : Nat) (result : Int) (read : getAsInteger (number value) = some result) :
    result = value := by
  unfold getAsInteger at read
  split at read
  · rename_i digits written
    have minus : '-' ∈ number value := by
      rw [written]
      exact List.mem_cons_self
    exact absurd (digit_of_number value '-' minus) (by decide)
  · rw [getAsUnsigned_number, Option.bind_some] at read
    split at read
    · exact (Option.some.inj read).symm
    · cases read

theorem mapM_number (values : List Nat) (result : List Int)
    (read : (values.map number).mapM getAsInteger = some result) : result = ints values := by
  induction values generalizing result with
  | nil =>
      cases read
      rfl
  | cons value rest ih =>
      rw [List.map_cons, List.mapM_cons] at read
      obtain ⟨first, firstRead, read⟩ := Option.bind_eq_some_iff.mp read
      obtain ⟨others, othersRead, read⟩ := Option.bind_eq_some_iff.mp read
      cases read
      rw [ints, List.map_cons, ih others othersRead, getAsInteger_number value first firstRead, ints]

theorem splitOn_numbers (values : List Nat) (some : values ≠ []) :
    (numbers values).splitOn ',' = values.map number := by
  unfold numbers
  apply List.splitOn_intercalate
  · intro text written comma
    obtain ⟨value, _, rfl⟩ := List.mem_map.mp written
    exact absurd (digit_of_number value ',' comma) (by decide)
  · exact fun none => some (List.map_eq_nil_iff.mp none)

theorem parse_numbers (values : List Nat) (result : List Int)
    (read : ((numbers values).splitOn ',').mapM getAsInteger = some result) :
    result = ints values := by
  by_cases none : values = []
  · subst none
    cases read
  · rw [splitOn_numbers values none] at read
    exact mapM_number values result read

theorem consumeFront_append (first text : List Char) : consumeFront first (first ++ text) = some text := by
  unfold consumeFront
  rw [if_pos (List.prefix_append first text), List.drop_left]

theorem consumeBack_append (last text : List Char) : consumeBack last (text ++ last) = some text := by
  unfold consumeBack
  rw [if_pos (List.suffix_append text last), List.length_append, Nat.add_sub_cancel, List.take_left]

theorem parse_bracketed (values : List Nat) (result : List Int)
    (read : parseDimsFromDimensionStr (bracketed values) true = some result) :
    result = ints values := by
  unfold parseDimsFromDimensionStr bracketed at read
  rw [if_pos rfl, List.append_assoc, consumeFront_append, Option.bind_some, consumeBack_append] at read
  exact parse_numbers values result read

theorem parse_listed (values : List Nat) (result : List Int)
    (read : parseDimsFromDimensionStr (numbers values) false = some result) :
    result = ints values := by
  unfold parseDimsFromDimensionStr at read
  exact parse_numbers values result read

theorem takeWhile_bracketed (values : List Nat) (rest : List Char) :
    (bracketed values ++ rest).takeWhile (· ≠ ']') = ['['] ++ numbers values := by
  have inside : ∀ char ∈ ['['] ++ numbers values, decide (char ≠ ']') = true := by
    intro char member
    rcases List.mem_append.mp member with opening | written
    · rw [List.mem_singleton.mp opening]
      rfl
    · rcases mem_numbers values char written with rfl | digit
      · rfl
      · refine decide_eq_true fun closing => ?_
        rw [closing] at digit
        cases digit
  have split : bracketed values ++ rest = ['['] ++ numbers values ++ (']' :: rest) := by
    rw [bracketed, List.append_assoc]
    rfl
  rw [split, List.takeWhile_append_of_pos inside, List.takeWhile_cons_of_neg (by decide), List.append_nil]

theorem takeWhile_reshape (values : List Nat) (rest : List Char)
    (follows : rest = [] ∨ ∃ others, rest = 'T' :: others) :
    (bracketed values ++ rest).takeWhile (· ≠ 'T') = bracketed values := by
  have inside : ∀ char ∈ bracketed values, decide (char ≠ 'T') = true := by
    intro char member
    refine decide_eq_true fun same => ?_
    rw [same] at member
    rcases mem_bracketed values 'T' member with mark | digit
    · exact absurd mark (by decide)
    · exact absurd digit (by decide)
  rw [List.takeWhile_append_of_pos inside]
  rcases follows with rfl | ⟨others, rfl⟩
  · rw [List.takeWhile_nil, List.append_nil]
  · rw [List.takeWhile_cons_of_neg (by decide), List.append_nil]

def TileAssignment.lists (assignment : TileAssignment) : List Int × List Int × List Int :=
  (ints assignment.dims,
    match assignment.order with
    | .listed ids => ([(ids.length : Int)], ints ids)
    | .iota reshape _ => (ints reshape, []))

theorem parse_devicesText (assignment : TileAssignment) (result : List Int × List Int × List Int)
    (read : parseGSPMDDevicesStr assignment.devicesText = .ok result) : result = assignment.lists := by
  have axes : assignment.devicesText.takeWhile (· ≠ ']') = ['['] ++ numbers assignment.dims :=
    takeWhile_bracketed assignment.dims assignment.order.text
  have length : (bracketed assignment.dims).length = (['['] ++ numbers assignment.dims).length + 1 := List.length_append
  unfold parseGSPMDDevicesStr at read
  dsimp only at read
  rw [axes, ← length] at read
  split at read
  · cases read
  · rw [TileAssignment.devicesText, List.take_left, List.drop_left] at read
    split at read
    · cases read
    · rename_i shardShape shardRead
      have shards := parse_bracketed assignment.dims shardShape shardRead
      unfold TileAssignment.lists
      cases written : assignment.order with
      | listed ids =>
          rw [written] at read
          have noArrow : ¬ ['<', '='] <:+: bracketed assignment.dims ++ DeviceOrder.text (.listed ids) := by
            intro arrow
            have less : '<' ∈ bracketed assignment.dims ++ numbers ids := arrow.subset List.mem_cons_self
            rcases List.mem_append.mp less with dims | listed
            · rcases mem_bracketed _ '<' dims with mark | digit
              · exact absurd mark (by decide)
              · exact absurd digit (by decide)
            · rcases mem_numbers ids '<' listed with comma | digit
              · exact absurd comma (by decide)
              · exact absurd digit (by decide)
          rw [if_neg noArrow] at read
          split at read
          · cases read
          · rename_i deviceIds idsRead
            cases read
            have ids := parse_listed ids deviceIds idsRead
            rw [shards, ids, length_ints]
      | iota reshape transpose =>
          rw [written] at read
          have arrow : ['<', '='] <:+: bracketed assignment.dims ++ DeviceOrder.text (.iota reshape transpose) := by
            cases transpose with
            | none => exact List.infix_append' _ _ _
            | some axes => exact List.infix_append' _ _ _
          have reshapeText : ((DeviceOrder.text (.iota reshape transpose)).drop 2).takeWhile (· ≠ 'T') =
              bracketed reshape := by
            cases transpose with
            | none =>
                have whole := takeWhile_reshape reshape [] (Or.inl rfl)
                rw [List.append_nil] at whole
                exact whole
            | some axes => exact takeWhile_reshape reshape _ (Or.inr ⟨_, rfl⟩)
          rw [if_pos arrow, reshapeText] at read
          split at read
          · cases read
          · rename_i meshShape meshRead
            cases read
            rw [shards, parse_bracketed reshape meshShape meshRead]

end Parsing

section Reading

section
variable (assignment : TileAssignment)

theorem token_plain (token : List Char) (member : token ∈ assignment.tokenTexts) :
    ' ' ∉ token := by
  intro blank
  rcases List.mem_cons.mp member with rfl | replicate
  · rcases List.mem_append.mp blank with keyword | written
    · exact absurd keyword (by decide)
    · rcases plain_devicesText assignment ' ' written with digit | mark
      · exact absurd digit (by decide)
      · exact absurd mark (by decide)
  · split at replicate
    · rw [List.mem_singleton.mp replicate] at blank
      exact absurd blank (by decide)
    · cases replicate

theorem tokens_text : tokens assignment.text = some assignment.tokenTexts := by
  unfold tokens TileAssignment.text
  rw [List.append_assoc, consumeFront_append]
  dsimp only [bind, Option.bind]
  rw [consumeBack_append]
  dsimp only
  rw [List.splitOn_intercalate ' ' (token_plain assignment) (List.cons_ne_nil _ _)]

theorem keyword_absent (keyword : String) (letter : Char)
    (inKeyword : letter ∈ keyword.toList) (notPlain : ¬ Plain letter) (notDevices : letter ∉ "devices=".toList) :
    ¬ keyword.toList <:+: "devices=".toList ++ assignment.devicesText := by
  intro inside
  rcases List.mem_append.mp (inside.subset inKeyword) with devices | written
  · exact notDevices devices
  · exact notPlain (plain_devicesText assignment letter written)

theorem containsKeyword_text (keyword : String) (letter : Char)
    (inKeyword : letter ∈ keyword.toList) (notPlain : ¬ Plain letter) (notDevices : letter ∉ "devices=".toList) :
    containsKeyword assignment.tokenTexts keyword = (assignment.lastTileDimReplicate &&
      decide (keyword.toList <:+: "last_tile_dim_replicate".toList)) := by
  unfold containsKeyword TileAssignment.tokenTexts
  rw [List.any_cons, decide_eq_false (keyword_absent assignment keyword letter inKeyword notPlain notDevices),
    Bool.false_or]
  cases assignment.lastTileDimReplicate with
  | false => rfl
  | true => rw [if_pos rfl, List.any_cons, List.any_nil, Bool.or_false, Bool.true_and]

theorem containsKeyword_devices :
    containsKeyword assignment.tokenTexts "devices=" = true := by
  unfold containsKeyword TileAssignment.tokenTexts
  rw [List.any_cons, decide_eq_true (List.prefix_append _ _).isInfix, Bool.true_or]

theorem readDevices_text (start result : List Int × List Int × List Int)
    (read : readDevices assignment.tokenTexts start = .ok result) : result = assignment.lists := by
  unfold TileAssignment.tokenTexts at read
  rw [readDevices, consumeFront_append] at read
  dsimp only at read
  cases parsed : parseGSPMDDevicesStr assignment.devicesText with
  | error failure =>
      rw [parsed] at read
      cases read
  | ok lists =>
      have same := parse_devicesText assignment lists parsed
      rw [parsed] at read
      change readDevices _ lists = .ok result at read
      -- the other token does not start with the keyword
      have rest : readDevices (if assignment.lastTileDimReplicate then ["last_tile_dim_replicate".toList] else []) lists =
          .ok lists := by
        split
        · rw [readDevices, show consumeFront "devices=".toList "last_tile_dim_replicate".toList = none by decide,
            readDevices]
        · rfl
      rw [rest] at read
      cases read
      exact same

end

/-- The strings of an assignment: both operands may carry it, or one of them says manual. -/
def TileAssignment.Writes (assignment : TileAssignment) (opShardingStr operandShardingStr : List Char) : Prop :=
  opShardingStr = assignment.text ∧ (operandShardingStr = assignment.text ∨ operandShardingStr = "{manual}".toList) ∨
    opShardingStr = "{manual}".toList ∧ operandShardingStr = assignment.text

theorem tokens_manual : tokens "{manual}".toList = some ["manual".toList] := by decide

theorem readSharding_text (assignment : TileAssignment) (opShardingStr operandShardingStr : List Char)
    (writes : assignment.Writes opShardingStr operandShardingStr) (reading : Reading)
    (read : readSharding opShardingStr operandShardingStr = .ok reading) :
    reading.shardType = some .devices ∧
      (reading.shardShape, reading.meshShape, reading.deviceIds) = assignment.lists ∧
        reading.lastTileDimReplicate = assignment.lastTileDimReplicate := by
  have maximal : containsKeyword assignment.tokenTexts "maximal" = false := by
    rw [containsKeyword_text assignment "maximal" 'm' (by decide) (by decide) (by decide)]
    exact Bool.and_false _
  have replicate : containsKeyword assignment.tokenTexts "last_tile_dim_replicate" =
      assignment.lastTileDimReplicate := by
    rw [containsKeyword_text assignment "last_tile_dim_replicate" 'l' (by decide) (by decide) (by decide)]
    exact Bool.and_true _
  have devices := containsKeyword_devices assignment
  have noMaximal : containsKeyword ["manual".toList] "maximal" = false := by decide
  have noReplicate : containsKeyword ["manual".toList] "last_tile_dim_replicate" = false := by decide
  have noDevices : containsKeyword ["manual".toList] "devices=" = false := by decide
  unfold readSharding at read
  rcases writes with ⟨rfl, rfl | rfl⟩ | ⟨rfl, rfl⟩
  all_goals
    simp only [tokens_text, tokens_manual, maximal, noMaximal, replicate, noReplicate, devices, noDevices,
      Bool.or_false, Bool.false_or, Bool.or_self, Bool.false_eq_true, if_false, if_true] at read
    obtain ⟨lists, listsRead, rest⟩ := bind_ended read
    cases rest
    exact ⟨rfl, readDevices_text assignment _ lists listsRead, rfl⟩

end Reading

end TtMlir.Gspmd
