import BraceCompiler.Json.Encode
import Mathlib.Data.List.Forall2

/-! A reader of data text, and that it finds again every value that was written without a fraction. Each part of the
reader takes a value from the front of a text and gives what is left. -/

namespace BraceCompiler

namespace Json

/-- The blanks that may stand between the parts of a text. -/
def isBlank (c : Char) : Bool := c = ' ' || c = '\n' || c = '\r' || c = '\t'

/-- What a letter after a backslash stands for. -/
def unescape? : Char → Option Char
  | '"' => some '"'
  | '\\' => some '\\'
  | '/' => some '/'
  | 'b' => some (Char.ofNat 0x08)
  | 'f' => some (Char.ofNat 0x0C)
  | 'n' => some '\n'
  | 'r' => some '\r'
  | 't' => some '\t'
  | _ => none

def hexValue? (c : Char) : Option Nat := "0123456789abcdef".toList.idxOf? c.toLower

/-- A character by the four digits of its code. -/
def ofCode? (digits : List Char) : Option Char := do
  let code ← digits.foldlM (fun value digit => (hexValue? digit).map (16 * value + ·)) 0
  if code.isValidChar then some (Char.ofNat code) else none

/-- The characters up to the closing quote. -/
def readQuoted : List Char → Option (List Char × List Char)
  | [] => none
  | '"' :: rest => some ([], rest)
  | '\\' :: 'u' :: a :: b :: c :: d :: rest =>
    (ofCode? [a, b, c, d]).bind fun meant =>
      (readQuoted rest).map fun (others, left) => (meant :: others, left)
  | '\\' :: c :: rest =>
    (unescape? c).bind fun meant => (readQuoted rest).map fun (others, left) => (meant :: others, left)
  | c :: rest =>
    if c.toNat < 0x20 then none
    else (readQuoted rest).map fun (others, left) => (c :: others, left)

/-- A whole number without a sign. -/
def readNatural (text : List Char) : Option (Nat × List Char) :=
  let digits := text.takeWhile Char.isDigit
  if digits = [] then none else some (Nat.ofDigitChars 10 digits 0, text.dropWhile Char.isDigit)

section

variable {α : Type} (part : List Char → Option (α × List Char)) (close : Char)

/-- At least one part, with commas between the parts, up to the closing bracket. -/
def readSeries : (limit : Nat) → List Char → Option (List α × List Char)
  | 0, _ => none
  | limit + 1, chars =>
    (part chars).bind fun (first, rest) =>
      match rest.dropWhile isBlank with
      | [] => none
      | c :: left =>
        if c = close then some ([first], left)
        else if c = ',' then
          (readSeries limit left).map fun (others, left) => (first :: others, left)
        else none

/-- Any number of parts up to the closing bracket. -/
def readParts (text : List Char) : Option (List α × List Char) :=
  match text.dropWhile isBlank with
  | [] => none
  | c :: left => if c = close then some ([], left) else readSeries part close text.length text

/-- A name, a colon and a part. -/
def readField (text : List Char) : Option ((String × α) × List Char) :=
  match text.dropWhile isBlank with
  | '"' :: quoted =>
    (readQuoted quoted).bind fun (name, rest) =>
      match rest.dropWhile isBlank with
      | ':' :: value => (part value).map fun (value, left) => ((String.ofList name, value), left)
      | _ => none
  | _ => none

end

/-- A value that starts right here; `inner` reads the values in it. -/
def readHere (inner : List Char → Option (Json × List Char)) : List Char → Option (Json × List Char)
  | 'n' :: 'u' :: 'l' :: 'l' :: rest => some (.null, rest)
  | 't' :: 'r' :: 'u' :: 'e' :: rest => some (.boolean true, rest)
  | 'f' :: 'a' :: 'l' :: 's' :: 'e' :: rest => some (.boolean false, rest)
  | '"' :: rest => (readQuoted rest).map fun (chars, left) => (.text (String.ofList chars), left)
  | '[' :: rest => (readParts inner ']' rest).map fun (items, left) => (.list items, left)
  | '\x7b' :: rest =>
    (readParts (readField inner) '\x7d' rest).map fun (fields, left) => (.object fields, left)
  | '-' :: rest => (readNatural rest).map fun (value, left) => (.integer (-value), left)
  | rest => (readNatural rest).map fun (value, left) => (.integer value, left)

/-- A value with at most this many levels. -/
def readValue : (levels : Nat) → List Char → Option (Json × List Char)
  | 0, _ => none
  | levels + 1, chars => readHere (readValue levels) (chars.dropWhile isBlank)

/-- The value of a whole text. No value has more levels than its text has characters. -/
def read (text : String) : Option Json :=
  (readValue text.toList.length text.toList).bind fun (value, rest) =>
    if rest.all isBlank then some value else none

/-- A number cannot go on here. -/
def Stops (rest : List Char) : Prop := ∀ c ∈ rest.head?, c.isDigit = false

/-- After any blanks the text is read as the value, whatever follows it. -/
def Reads {α : Type} (part : List Char → Option (α × List Char)) (text : List Char) (value : α) : Prop :=
  ∀ gap rest, gap.all isBlank = true → Stops rest → part (gap ++ (text ++ rest)) = some (value, rest)

/-- The text starts with a character that is neither a blank nor the closing bracket around it. -/
def Opens (close : Char) (text : List Char) : Prop :=
  ∃ c others, text = c :: others ∧ isBlank c = false ∧ c ≠ close

/-- The text can be a part before the bracket: with enough levels for it, it is read as the value. -/
structure Found {α : Type} (close : Char) (read : Nat → List Char → Option (α × List Char)) (text : List Char)
    (value : α) : Prop where
  opens : Opens close text
  reads : ∀ levels, text.length ≤ levels → Reads (read levels) text value

/-- The text is read as the value. -/
def Readable : List Char → Json → Prop := Found ']' readValue

/-- The text is read as the field. -/
def ReadableField : List Char → String × Json → Prop := Found '\x7d' fun levels => readField (readValue levels)

theorem stops_cons {c : Char} {rest : List Char} (other : c.isDigit = false) : Stops (c :: rest) := by
  intro head member
  cases Option.some.inj member
  exact other

theorem isDigit_blank {c : Char} (blank : isBlank c = true) : c.isDigit = false := by
  simp only [isBlank, Bool.or_eq_true, decide_eq_true_eq] at blank
  rcases blank with ((rfl | rfl) | rfl) | rfl <;> rfl

theorem isBlank_digit {c : Char} (digit : c.isDigit = true) : isBlank c = false := by
  by_contra blank
  rw [isDigit_blank (by simpa using blank)] at digit
  cases digit

theorem stops_gap {gap rest : List Char} (blank : gap.all isBlank = true) (stops : Stops rest) :
    Stops (gap ++ rest) := by
  cases gap with
  | nil => exact stops
  | cons c gap => exact stops_cons (isDigit_blank (List.all_eq_true.mp blank c List.mem_cons_self))

theorem dropWhile_gap {gap : List Char} (blank : gap.all isBlank = true) {c : Char} (solid : isBlank c = false)
    (rest : List Char) : (gap ++ c :: rest).dropWhile isBlank = c :: rest := by
  rw [List.dropWhile_append_of_pos (List.all_eq_true.mp blank), List.dropWhile_cons_of_neg (by simp [solid])]

theorem readable_of_readHere {c : Char} {text : List Char} {value : Json} (solid : isBlank c = false)
    (notClose : c ≠ ']')
    (here : ∀ levels, text.length ≤ levels → ∀ rest, Stops rest →
      readHere (readValue levels) (c :: (text ++ rest)) = some (value, rest)) : Readable (c :: text) value := by
  refine ⟨⟨c, text, rfl, solid, notClose⟩, fun levels enough gap rest blank stops => ?_⟩
  cases levels with
  | zero => exact absurd enough (by simp)
  | succ levels =>
      rw [readValue, List.cons_append, dropWhile_gap blank solid]
      exact here levels (by simpa using enough) rest stops

theorem readable_null : Readable "null".toList .null :=
  readable_of_readHere (by decide) (by decide) fun _ _ _ _ => rfl

theorem readable_boolean (value : Bool) : Readable (atom (.boolean value)).toList (.boolean value) := by
  cases value with
  | true => exact readable_of_readHere (by decide) (by decide) fun _ _ _ _ => rfl
  | false => exact readable_of_readHere (by decide) (by decide) fun _ _ _ _ => rfl

theorem readable_emptyList : Readable (atom (.list [])).toList (.list []) :=
  readable_of_readHere (by decide) (by decide) fun _ _ _ _ => rfl

theorem readable_emptyObject : Readable (atom (.object [])).toList (.object []) :=
  readable_of_readHere (by decide) (by decide) fun _ _ _ _ => rfl

theorem readNatural_toDigits (value : Nat) {rest : List Char} (stops : Stops rest) :
    readNatural (Nat.toDigits 10 value ++ rest) = some (value, rest) := by
  have digits : ∀ c ∈ Nat.toDigits 10 value, c.isDigit = true :=
    fun _ member => Nat.isDigit_of_mem_toDigits (by decide) (by decide) member
  have ended : rest.takeWhile Char.isDigit = [] ∧ rest.dropWhile Char.isDigit = rest := by
    cases rest with
    | nil => exact ⟨rfl, rfl⟩
    | cons c rest =>
        have other : ¬c.isDigit = true := by simp [stops c rfl]
        exact ⟨List.takeWhile_cons_of_neg other, List.dropWhile_cons_of_neg other⟩
  rw [readNatural, List.takeWhile_append_of_pos digits, List.dropWhile_append_of_pos digits, ended.1, ended.2,
    List.append_nil, if_neg Nat.toDigits_ne_nil, Nat.ofDigitChars_toDigits (by decide) (by decide)]

theorem readHere_digit (inner : List Char → Option (Json × List Char)) {c : Char} (digit : c.isDigit = true)
    (rest : List Char) :
    readHere inner (c :: rest) = (readNatural (c :: rest)).map fun (value, left) => (.integer value, left) := by
  rw [readHere.eq_def]
  split
  case h_8 => rfl
  all_goals
    rename_i same
    cases same
    exact absurd digit (by decide)

theorem readable_integer (value : Int) : Readable (toString value).toList (.integer value) := by
  cases value with
  | ofNat value =>
      have shown : (toString (Int.ofNat value)).toList = Nat.toDigits 10 value :=
        (congrArg String.toList Nat.toString_eq_ofList_toDigits).trans String.toList_ofList
      rw [shown]
      cases digits : Nat.toDigits 10 value with
      | nil => exact absurd digits Nat.toDigits_ne_nil
      | cons c others =>
          have digit : c.isDigit = true :=
            Nat.isDigit_of_mem_toDigits (by decide) (by decide) (digits ▸ List.mem_cons_self)
          have notClose : c ≠ ']' := by
            rintro rfl
            exact absurd digit (by decide)
          refine readable_of_readHere (isBlank_digit digit) notClose fun levels _ rest stops => ?_
          rw [readHere_digit _ digit, ← List.cons_append, ← digits, readNatural_toDigits value stops]
          rfl
  | negSucc value =>
      have shown : (toString (Int.negSucc value)).toList = '-' :: Nat.toDigits 10 (value + 1) :=
        (congrArg (fun digits => ("-" ++ digits).toList) Nat.repr_eq_ofList_toDigits).trans (by simp)
      rw [shown]
      refine readable_of_readHere (by decide) (by decide) fun levels _ rest stops => ?_
      have read := readNatural_toDigits (value + 1) stops
      simp only [readHere, read]
      rfl

theorem hexValue_digitChar : ∀ value < 16, hexValue? (Nat.digitChar value) = some value := by decide

theorem ofCode_control {c : Char} (control : c.toNat < 0x20) :
    ofCode? ['0', '0', Nat.digitChar (c.toNat / 16), Nat.digitChar (c.toNat % 16)] = some c := by
  have zero : hexValue? '0' = some 0 := by decide
  have high := hexValue_digitChar (c.toNat / 16) (by omega)
  have low := hexValue_digitChar (c.toNat % 16) (by omega)
  have valid : c.toNat.isValidChar := c.valid
  simp [ofCode?, zero, high, low, Nat.div_add_mod, valid]

theorem readQuoted_plain {c : Char} (notQuote : c ≠ '"') (notBackslash : c ≠ '\\') (shown : ¬c.toNat < 0x20)
    (rest : List Char) :
    readQuoted (c :: rest) = (readQuoted rest).map fun (others, left) => (c :: others, left) := by
  rw [readQuoted.eq_def]
  split
  case h_1 same => cases same
  case h_2 same => exact absurd (List.cons.inj same).1 notQuote
  case h_3 same => exact absurd (List.cons.inj same).1 notBackslash
  case h_4 same => exact absurd (List.cons.inj same).1 notBackslash
  case h_5 same =>
      cases same
      exact if_neg shown

theorem readQuoted_escape (c : Char) (rest : List Char) :
    readQuoted ((escape c).toList ++ rest) = (readQuoted rest).map fun (others, left) => (c :: others, left) := by
  unfold escape
  split_ifs with quote backslash backspace tab lineFeed formFeed carriage control
  · rw [quote]; rfl
  · rw [backslash]; rfl
  -- Backspace and form feed are told by their codes, so the character is made of its code first.
  · rw [← Char.ofNat_toNat c, backspace]; rfl
  · rw [tab]; rfl
  · rw [lineFeed]; rfl
  · rw [← Char.ofNat_toNat c, formFeed]; rfl
  · rw [carriage]; rfl
  · rw [String.toList_ofList]
    simp only [List.cons_append, List.nil_append]
    rw [readQuoted, ofCode_control control, Option.bind_some]
  · rw [String.toList_ofList]
    exact readQuoted_plain quote backslash control rest

/-- A text in quotes, after the first of them. -/
def enclosed (value : String) : List Char := value.toList.flatMap (fun c => (escape c).toList) ++ ['"']

theorem toList_quote (value : String) : (quote value).toList = '"' :: enclosed value := by
  simp [quote, enclosed, List.flatMap_map]

theorem readQuoted_enclosed (value : String) (rest : List Char) :
    readQuoted (enclosed value ++ rest) = some (value.toList, rest) := by
  unfold enclosed
  induction value.toList with
  | nil => rfl
  | cons c others ih =>
      rw [List.flatMap_cons, List.append_assoc, List.append_assoc, readQuoted_escape, ← List.append_assoc, ih]
      rfl

theorem readable_text (value : String) : Readable (quote value).toList (.text value) := by
  rw [toList_quote]
  refine readable_of_readHere (by decide) (by decide) fun levels _ rest _ => ?_
  simp only [readHere, readQuoted_enclosed, Option.map_some, String.ofList_toList]

/-- The parts after the first, each after a comma and a gap. -/
def spread (gap : List Char) (parts : List (List Char)) : List Char := parts.flatMap fun shown => ',' :: (gap ++ shown)

theorem spread_cons (gap shown : List Char) (parts : List (List Char)) :
    spread gap (shown :: parts) = ',' :: (gap ++ (shown ++ spread gap parts)) := by
  simp [spread]

theorem length_le_spread (gap : List Char) (parts : List (List Char)) : parts.length ≤ (spread gap parts).length := by
  induction parts with
  | nil => exact Nat.le_refl 0
  | cons shown parts ih =>
      rw [spread_cons]
      simp only [List.length_cons, List.length_append]
      omega

/-- A closing bracket is neither a blank nor a comma nor a digit. -/
structure Closes (close : Char) : Prop where
  solid : isBlank close = false
  notComma : ',' ≠ close
  notDigit : close.isDigit = false

section

variable {α : Type} {close : Char} {gap last : List Char} {shown : List Char} {texts : List (List Char)} {value : α}
  {values : List α}

theorem readSeries_spread {part : List Char → Option (α × List Char)} (closes : Closes close)
    (blank : gap.all isBlank = true) (blankLast : last.all isBlank = true) (first : Reads part shown value)
    (others : List.Forall₂ (Reads part) texts values) {limit : Nat} (enough : texts.length < limit)
    (rest : List Char) :
    readSeries part close limit (gap ++ (shown ++ (spread gap texts ++ (last ++ close :: rest)))) =
      some (value :: values, rest) := by
  -- On the parts after the first: each comma makes the next of them the first of a shorter series.
  induction others generalizing shown value limit with
  | nil =>
      obtain ⟨limit, rfl⟩ : ∃ less, limit = less + 1 := ⟨limit - 1, by omega⟩
      have read := first gap (last ++ close :: rest) blank (stops_gap blankLast (stops_cons closes.notDigit))
      rw [spread, List.flatMap_nil, List.nil_append, readSeries, read]
      simp only [Option.bind_some, dropWhile_gap blankLast closes.solid, if_true]
  | cons second _ ih =>
      obtain ⟨limit, rfl⟩ : ∃ less, limit = less + 1 := ⟨limit - 1, by omega⟩
      have later := ih second (by simpa using enough)
      rw [spread_cons, List.cons_append, readSeries, first gap _ blank (stops_cons (by decide))]
      simp only [Option.bind_some, List.dropWhile_cons_of_neg (show ¬isBlank ',' = true by decide),
        if_neg closes.notComma, if_true, List.append_assoc, later, Option.map_some]

/-- A part is shorter than the series, so levels that are enough for the series are enough for it. -/
theorem Found.all {read : Nat → List Char → Option (α × List Char)}
    (others : List.Forall₂ (Found close read) texts values) {levels : Nat} (gap : List Char)
    (enough : (spread gap texts).length ≤ levels) : List.Forall₂ (Reads (read levels)) texts values := by
  induction others with
  | nil => exact .nil
  | cons found _ ih =>
      rw [spread_cons] at enough
      simp only [List.length_cons, List.length_append] at enough
      exact .cons (found.reads levels (by omega)) (ih (by omega))

theorem Found.series {read : Nat → List Char → Option (α × List Char)} (closes : Closes close)
    (blank : gap.all isBlank = true) (blankLast : last.all isBlank = true) (first : Found close read shown value)
    (others : List.Forall₂ (Found close read) texts values) {levels : Nat}
    (enough : (shown ++ spread gap texts).length ≤ levels) (rest : List Char) :
    readParts (read levels) close (gap ++ (shown ++ (spread gap texts ++ (last ++ close :: rest)))) =
      some (value :: values, rest) := by
  rw [List.length_append] at enough
  have count := length_le_spread gap texts
  have few : texts.length < (gap ++ (shown ++ (spread gap texts ++ (last ++ close :: rest)))).length := by
    simp only [List.length_append, List.length_cons]
    omega
  have series := readSeries_spread closes blank blankLast (first.reads levels (by omega))
    (Found.all others gap (by omega)) few rest
  obtain ⟨c, more, rfl, solid, notClose⟩ := first.opens
  rw [readParts, series, List.cons_append, dropWhile_gap blank solid]
  simp only [if_neg notClose]

end

theorem readable_list {shown : List Char} {texts : List (List Char)} {value : Json} {values : List Json}
    (gap last : List Char) (blank : gap.all isBlank = true) (blankLast : last.all isBlank = true)
    (first : Readable shown value)
    (others : List.Forall₂ Readable texts values) :
    Readable ('[' :: (gap ++ (shown ++ (spread gap texts ++ (last ++ [']']))))) (.list (value :: values)) := by
  refine readable_of_readHere (by decide) (by decide) fun levels enough rest _ => ?_
  have room : (shown ++ spread gap texts).length ≤ levels := by
    simp only [List.length_append] at enough ⊢
    omega
  have series := first.series ⟨by decide, by decide, by decide⟩ blank blankLast others room rest
  simp only [readHere, List.append_assoc, List.cons_append, List.nil_append, series, Option.map_some]

theorem readable_object {shown : List Char} {texts : List (List Char)} {field : String × Json}
    {fields : List (String × Json)} (gap last : List Char) (blank : gap.all isBlank = true)
    (blankLast : last.all isBlank = true)
    (first : ReadableField shown field) (others : List.Forall₂ ReadableField texts fields) :
    Readable ('\x7b' :: (gap ++ (shown ++ (spread gap texts ++ (last ++ ['\x7d']))))) (.object (field :: fields)) := by
  refine readable_of_readHere (by decide) (by decide) fun levels enough rest _ => ?_
  have room : (shown ++ spread gap texts).length ≤ levels := by
    simp only [List.length_append] at enough ⊢
    omega
  have series := first.series ⟨by decide, by decide, by decide⟩ blank blankLast others room rest
  simp only [readHere, List.append_assoc, List.cons_append, List.nil_append, series, Option.map_some]

theorem readable_field (name : String) {shown : List Char} {value : Json} (gap : List Char)
    (blank : gap.all isBlank = true) (found : Readable shown value) :
    ReadableField ((quote name).toList ++ ':' :: (gap ++ shown)) (name, value) := by
  rw [toList_quote]
  refine ⟨⟨'"', _, rfl, by decide, by decide⟩, fun levels enough front rest blankFront stops => ?_⟩
  have read := found.reads levels (by simp only [List.length_append, List.length_cons] at enough; omega) gap rest
    blank stops
  rw [readField, List.cons_append, List.cons_append, dropWhile_gap blankFront (by decide)]
  simp only [List.append_assoc, readQuoted_enclosed, Option.bind_some, List.cons_append,
    List.dropWhile_cons_of_neg (show ¬isBlank ':' = true by decide), read, Option.map_some, String.ofList_toList]

mutual

/-- No part of the value is a fraction. -/
def Exact : Json → Prop
  | .real _ => False
  | .list items => AllExact items
  | .object fields => FieldsExact fields
  | .null | .boolean _ | .integer _ | .text _ => True

def AllExact : List Json → Prop
  | [] => True
  | item :: rest => item.Exact ∧ AllExact rest

def FieldsExact : List (String × Json) → Prop
  | [] => True
  | (_, value) :: rest => value.Exact ∧ FieldsExact rest

end

theorem intercalate_comma (first : List Char) (others : List (List Char)) :
    [','].intercalate (first :: others) = first ++ spread [] others := by
  induction others generalizing first with
  | nil => simp [spread]
  | cons second others ih =>
      rw [List.intercalate_cons_cons, ih, spread_cons]
      simp

theorem toList_compact_list (item : Json) (rest : List Json) : (compact (.list (item :: rest))).toList =
    '[' :: (item.compact.toList ++ (spread [] ((compactItems rest).map String.toList) ++ [']'])) := by
  simp [compact, compactItems, intercalate_comma]

theorem toList_compact_object (name : String) (value : Json) (rest : List (String × Json)) :
    (compact (.object ((name, value) :: rest))).toList = '\x7b' :: ((quote name ++ ":" ++ value.compact).toList ++
      (spread [] ((compactFields rest).map String.toList) ++ ['\x7d'])) := by
  simp [compact, compactFields, intercalate_comma, openObject, closeObject]

theorem readable_compactField (name : String) {value : Json} (found : Readable value.compact.toList value) :
    ReadableField (quote name ++ ":" ++ value.compact).toList (name, value) := by
  have field := readable_field name [] rfl found
  simpa [String.toList_append] using field

mutual

theorem readable_compact : (value : Json) → value.Exact → Readable value.compact.toList value
  | .null, _ => readable_null
  | .boolean value, _ => readable_boolean value
  | .integer value, _ => readable_integer value
  | .text value, _ => readable_text value
  | .list [], _ => readable_emptyList
  | .object [], _ => readable_emptyObject
  | .list (item :: rest), isExact => by
      rw [toList_compact_list]
      have found := readable_list [] [] rfl rfl (readable_compact item isExact.1) (readable_compactItems rest isExact.2)
      rwa [List.nil_append, List.nil_append] at found
  | .object ((name, value) :: rest), isExact => by
      rw [toList_compact_object]
      have first := readable_compactField name (readable_compact value isExact.1)
      have found := readable_object [] [] rfl rfl first (readable_compactFields rest isExact.2)
      rwa [List.nil_append, List.nil_append] at found

theorem readable_compactItems : (items : List Json) → AllExact items →
    List.Forall₂ Readable ((compactItems items).map String.toList) items
  | [], _ => .nil
  | item :: rest, isExact => .cons (readable_compact item isExact.1) (readable_compactItems rest isExact.2)

theorem readable_compactFields : (fields : List (String × Json)) → FieldsExact fields →
    List.Forall₂ ReadableField ((compactFields fields).map String.toList) fields
  | [], _ => .nil
  | (name, value) :: rest, isExact =>
    .cons (readable_compactField name (readable_compact value isExact.1)) (readable_compactFields rest isExact.2)

end

theorem blank_newLine (level : Nat) : (newLine level).toList.all isBlank = true := by
  simp [newLine, isBlank]

theorem toList_prettyItems (level : Nat) (items : List Json) : (prettyItems level items).toList =
    spread (newLine level).toList (items.map fun item => (item.pretty level).toList) := by
  induction items with
  | nil => rfl
  | cons item rest ih => simp [prettyItems, spread_cons, ih]

theorem toList_prettyFields (level : Nat) (fields : List (String × Json)) : (prettyFields level fields).toList =
    spread (newLine level).toList
      (fields.map fun (name, value) => (quote name).toList ++ ':' :: ([' '] ++ (value.pretty level).toList)) := by
  induction fields with
  | nil => rfl
  | cons field rest ih => simp [prettyFields, spread_cons, ih]

mutual

theorem readable_pretty (level : Nat) : (value : Json) → value.Exact → Readable (value.pretty level).toList value
  | .null, _ => readable_null
  | .boolean value, _ => readable_boolean value
  | .integer value, _ => readable_integer value
  | .text value, _ => readable_text value
  | .list [], _ => by simpa [pretty] using readable_emptyList
  | .object [], _ => by simpa [pretty] using readable_emptyObject
  | .list (item :: rest), isExact => by
      have found := readable_list _ _ (blank_newLine (level + 1)) (blank_newLine level)
        (readable_pretty (level + 1) item isExact.1) (readable_prettyItems (level + 1) rest isExact.2)
      simpa [pretty, toList_prettyItems] using found
  | .object ((name, value) :: rest), isExact => by
      have first := readable_field name [' '] rfl (readable_pretty (level + 1) value isExact.1)
      have found := readable_object _ _ (blank_newLine (level + 1)) (blank_newLine level) first
        (readable_prettyFields (level + 1) rest isExact.2)
      simpa [pretty, toList_prettyFields, openObject, closeObject] using found

theorem readable_prettyItems (level : Nat) : (items : List Json) → AllExact items →
    List.Forall₂ Readable (items.map fun item => (item.pretty level).toList) items
  | [], _ => .nil
  | item :: rest, isExact => .cons (readable_pretty level item isExact.1) (readable_prettyItems level rest isExact.2)

theorem readable_prettyFields (level : Nat) : (fields : List (String × Json)) → FieldsExact fields →
    List.Forall₂ ReadableField
      (fields.map fun (name, value) => (quote name).toList ++ ':' :: ([' '] ++ (value.pretty level).toList)) fields
  | [], _ => .nil
  | (name, value) :: rest, isExact =>
    .cons (readable_field name [' '] rfl (readable_pretty level value isExact.1))
      (readable_prettyFields level rest isExact.2)

end

/-- Blanks after the value do not count. -/
theorem Readable.read {text last : String} {value : Json} (found : Readable text.toList value)
    (blank : last.toList.all isBlank = true) : read (text ++ last) = some value := by
  have stops : Stops (last.toList ++ []) := stops_gap blank nofun
  have enough : text.toList.length ≤ (text ++ last).toList.length := by simp
  have read := found.reads _ enough [] last.toList rfl (by simpa using stops)
  rw [Json.read]
  simp only [List.nil_append, ← String.toList_append] at read
  simp only [read, Option.bind_some, blank, if_true]

theorem allExact_map {α : Type} {encode : α → Json} (exacts : ∀ item, (encode item).Exact) (items : List α) :
    AllExact (items.map encode) := by
  induction items with
  | nil => trivial
  | cons item rest ih => exact ⟨exacts item, ih⟩

theorem mapM_decode {α : Type} {encode : α → Json} {decode? : Json → Option α}
    (decodes : ∀ item, decode? (encode item) = some item) (items : List α) :
    (items.map encode).mapM decode? = some items := by
  induction items with
  | nil => rfl
  | cons item rest ih =>
      rw [List.map_cons, List.mapM_cons, decodes, ih]
      rfl

end Json

def Severity.ofName? : String → Option Severity
  | "warning" => some .warning
  | "note" => some .note
  | _ => none

def Position.ofJson? : Json → Option Position
  | .object [("line", .integer (.ofNat line)), ("column", .integer (.ofNat column))] => some ⟨line, column⟩
  | _ => none

def Notice.ofJson? : Json → Option Notice
  | .object [("severity", .text severity), ("code", .text code), ("message", .text message), ("span", .null)] =>
    (Severity.ofName? severity).map fun severity => ⟨severity, code, message, none⟩
  | .object [("severity", .text severity), ("code", .text code), ("message", .text message), ("span", place)] =>
    (Severity.ofName? severity).bind fun severity =>
      (Position.ofJson? place).map fun place => ⟨severity, code, message, some place⟩
  | _ => none

/-- The notices that a text lists. -/
def Notices.ofText? (text : String) : Option Notices :=
  match Json.read text with
  | some (.list items) => items.mapM Notice.ofJson?
  | _ => none

theorem Notice.toJson_exact (notice : Notice) : notice.toJson.Exact := by
  unfold Notice.toJson
  cases notice.position with
  | none => simp [Json.Exact, Json.FieldsExact, Json.ofOption]
  | some place => simp [Json.Exact, Json.FieldsExact, Json.ofOption, Position.toJson]

theorem Notice.ofJson_toJson (notice : Notice) : ofJson? notice.toJson = some notice := by
  obtain ⟨severity, code, message, position⟩ := notice
  cases severity <;> cases position <;> rfl

theorem Notices.ofText_toJson (notices : Notices) {last : String} (blank : last.toList.all Json.isBlank = true) :
    ofText? ((Json.list (notices.map Notice.toJson)).compact ++ last) = some notices := by
  have isExact := Json.allExact_map Notice.toJson_exact notices
  rw [ofText?, (Json.readable_compact (.list _) isExact).read blank]
  exact Json.mapM_decode Notice.ofJson_toJson notices

end BraceCompiler
