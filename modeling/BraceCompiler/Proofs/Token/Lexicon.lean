import BraceCompiler.Proofs.Token.Clean
import BraceCompiler.Proofs.Token.Pattern
import Mathlib.Data.List.Forall2

/-! The lexicon: the pattern of every kind of token, in the order in which the kinds are tried. The table of rules takes
the same texts; each shape is compared with its pattern, by the recursion of the shape. -/

namespace BraceCompiler

open Text Pattern

namespace Lexicon

def nameStart : CharClass := ⟨[('a', 'z'), ('A', 'Z'), ('_', '_')], false⟩

def namePart : CharClass := ⟨[('a', 'z'), ('A', 'Z'), ('0', '9'), ('_', '_')], false⟩

def digit : CharClass := ⟨[('0', '9')], false⟩

/-- Comments: `//[^\n]*|/\*(?s:.*?)\*/`. -/
def comment : Pattern :=
  .alt (.seq (spelled ['/', '/']) (.many true (.one (.noneOf ['\n']))))
    (.seq (spelled ['/', '*']) (.seq (.many false (.one .any)) (spelled ['*', '/'])))

/-- Layout: `[ \t\r\n]+`. -/
def layout : Pattern := plus (.one (.oneOf [' ', '\t', '\r', '\n']))

/-- Words of a list: `\b(?:…|…)\b`. -/
def word (words : List String) : Pattern :=
  .seq .boundary (.seq (oneOf (words.map fun word => spelled word.toList)) .boundary)

/-- Names: `[a-zA-Z_][a-zA-Z0-9_]*`. -/
def name : Pattern := .seq (.one nameStart) (.many true (.one namePart))

/-- Whole numbers: `[0-9]+\b`. -/
def number : Pattern := .seq (plus (.one digit)) .boundary

/-- Numbers with a point: `[0-9]+\.[0-9]+\b`. -/
def float : Pattern := .seq (plus (.one digit)) (.seq (char '.') number)

/-- One unit of a text literal: `[^"\\]|(?s:\\.)`. -/
def unit : Pattern := .alt (.one (.noneOf ['"', '\\'])) (.seq (char '\\') (.one .any))

/-- Text literals: `"(?:[^"\\]|(?s:\\.))*(")?`. -/
def literal : Pattern := .seq (char '"') (.seq (.many true unit) (perhaps (.capture (char '"'))))

/-- Operators: `[+\-*/%=!<>]=|[+\-*/%<>&|]`. -/
def operator : Pattern :=
  .alt (.seq (.one (.oneOf ['+', '-', '*', '/', '%', '=', '!', '<', '>'])) (char '='))
    (.one (.oneOf ['+', '-', '*', '/', '%', '<', '>', '&', '|']))

/-- All patterns in the order in which they are tried, without the start of the text that each of them asks for. -/
def entries : List (TokenKind × Pattern) := [
  (.comment, comment),
  (.blank, layout),
  (.keyword, word Words.keywords),
  (.dataType, word Words.dataTypes),
  (.boolean, word Words.booleans),
  (.identifier, name),
  (.float, float),
  (.number, number),
  (.text, literal),
  (.arrayStart, char '['),
  (.arrayEnd, char ']'),
  (.tupleStart, char '('),
  (.tupleEnd, char ')'),
  (.colon, char ':'),
  (.comma, char ','),
  (.operator, operator),
  (.assignment, char '='),
  (.delimiter, .one (.oneOf ['\x7b', '\x7d', '(', ')', '[', ']', ',', ';', ':'])),
  (.mismatch, .one .any)]

/-- The kinds and their whole patterns. -/
def table : List (TokenKind × Pattern) := entries.map fun (kind, pattern) => (kind, .seq .start pattern)

/-- The lazy loop of a comment stops at the first close, and digits that a letter follows are no number, however few
of them are taken. -/
example : (Pattern.seq .start comment).find ['/', '*', ' ', '*', '/', '*', '/'] =
    some ⟨['/', '*', ' ', '*', '/'], none⟩ ∧ (Pattern.seq .start number).find ['1', '2', 'é'] = none := by
  decide

/-- The kinds of words, which are left out right after a character that words do not follow. -/
def wordKinds : List TokenKind := [.keyword, .dataType, .boolean]

def Applies (before : Option Char) (kind : TokenKind) : Prop :=
  kind ∈ wordKinds → before.any precedesWord = false

instance (before : Option Char) (kind : TokenKind) : Decidable (Applies before kind) :=
  inferInstanceAs (Decidable (_ → _))

theorem accepts_nameStart : nameStart.accepts = startsName := by
  funext c
  have underscore := CharClass.accepts_oneOf ['_'] c
  simp only [CharClass.accepts, CharClass.oneOf, List.map_cons, List.map_nil, List.any_cons, List.any_nil,
    Bool.or_false, Bool.bne_false, List.contains_cons, List.contains_nil] at underscore
  simp only [nameStart, CharClass.accepts, List.any_cons, List.any_nil, Bool.or_false, Bool.bne_false, underscore,
    startsName, isLetter, Bool.or_assoc]

theorem accepts_digit : digit.accepts = isDigit := by
  funext c
  simp only [digit, CharClass.accepts, List.any_cons, List.any_nil, Bool.or_false, Bool.bne_false, isDigit]

theorem accepts_namePart : namePart.accepts = continuesName := by
  funext c
  rw [continuesName, ← accepts_nameStart, ← accepts_digit]
  simp only [namePart, nameStart, digit, CharClass.accepts, List.any_cons, List.any_nil, Bool.or_false,
    Bool.bne_false]
  grind

section Accepting

variable {β : Type} {accept : Point → Option β}

/-- One character and then a greedy loop, where the loop takes the longest run. -/
theorem first_plus {set : CharClass}
    (longest : ∀ last passed source group, set.accepts last = true →
      first (.many true (.one set)) accept ⟨last :: passed, source, group⟩ =
        accept ⟨(source.takeWhile set.accepts).reverse ++ last :: passed, source.dropWhile set.accepts, group⟩)
    (passed source : List Char) (group : Option (List Char)) :
    first (plus (.one set)) accept ⟨passed, source, group⟩ = (Shape.run set.accepts source).bind fun taken =>
      accept ⟨taken.reverse ++ passed, source.dropWhile set.accepts, group⟩ := by
  rw [plus, first_seq]
  cases source with
  | nil => rfl
  | cons c rest =>
      rw [first_one_cons]
      by_cases accepted : set.accepts c = true
      · rw [if_pos accepted, longest c passed rest group accepted]
        simp [Shape.run, accepted]
      · rw [if_neg accepted]
        simp [Shape.run, accepted]

/-- Right after a run of word characters, a word ends where none of them follows. -/
theorem atBoundary_after {taken : List Char} (nonempty : taken ≠ []) (inside : ∀ c ∈ taken, extendsWord c = true)
    (passed rest : List Char) (group : Option (List Char)) :
    Point.atBoundary ⟨taken.reverse ++ passed, rest, group⟩ = atWordEnd rest := by
  have last : (taken.reverse ++ passed).head?.any extendsWord = true := by
    rw [List.head?_append, List.head?_reverse, List.getLast?_eq_some_getLast nonempty]
    exact inside _ (List.getLast_mem nonempty)
  rw [Point.atBoundary, last]
  cases rest <;> simp [atWordEnd]

/-- Between two digits no word ends, so digits are never given back. -/
theorem first_digits_boundary (passed source : List Char) (group : Option (List Char)) :
    first number accept ⟨passed, source, group⟩ = (Shape.number source).bind fun taken =>
      accept ⟨taken.reverse ++ passed, source.dropWhile isDigit, group⟩ := by
  have whole : ∀ last passed next rest group, digit.accepts last = true → digit.accepts next = true →
      first .boundary accept ⟨last :: passed, next :: rest, group⟩ = none := by
    intro last passed next rest group before after
    rw [accepts_digit] at before after
    simp [Point.atBoundary, extendsWord_of_continuesName (continuesName_of_isDigit before),
      extendsWord_of_continuesName (continuesName_of_isDigit after)]
  rw [number, first_seq, first_plus fun last passed source group accepted =>
    first_many_of_whole whole accepted passed source group, accepts_digit, Shape.number]
  cases taken : Shape.run isDigit source with
  | none => rfl
  | some digits =>
      obtain ⟨nonempty, -, -, digitsOnly⟩ := Shape.run_cuts isDigit _ _ taken
      have inside : ∀ c ∈ digits, extendsWord c = true := fun c member =>
        extendsWord_of_continuesName (continuesName_of_isDigit (digitsOnly c member))
      simp only [Option.bind_some, Option.bind_eq_bind, first_boundary, atBoundary_after nonempty inside]
      split <;> rfl

/-- A point comes after all the digits before it, so they are not given back either. -/
theorem first_float (passed source : List Char) (group : Option (List Char)) :
    first float accept ⟨passed, source, group⟩ = (Shape.run isDigit source).bind fun whole =>
      first (.seq (char '.') number) accept ⟨whole.reverse ++ passed, source.dropWhile isDigit, group⟩ := by
  have whole : ∀ last passed next rest group, digit.accepts last = true → digit.accepts next = true →
      first (.seq (char '.') number) accept ⟨last :: passed, next :: rest, group⟩ = none := by
    intro last passed next rest group _ after
    have noPoint : next ≠ '.' := by
      rintro rfl
      exact absurd after (by decide)
    rw [first_seq, first_char_cons, if_neg noPoint]
  rw [float, first_seq, first_plus fun last passed source group accepted =>
    first_many_of_whole whole accepted passed source group, accepts_digit]

/-- A lazy loop over all characters stops at the first close. -/
theorem first_blockEnd (willing : ∀ point, (accept point).isSome) (passed source : List Char)
    (group : Option (List Char)) :
    first (.seq (.many false (.one .any)) (spelled ['*', '/'])) accept ⟨passed, source, group⟩ =
      (Shape.blockEnd source).bind fun taken =>
        accept ⟨taken.reverse ++ passed, source.drop taken.length, group⟩ := by
  rw [first_seq]
  induction source generalizing passed with
  | nil => rfl
  | cons c rest ih =>
      rw [first_many, if_neg Bool.false_ne_true]
      by_cases close : ['*', '/'] <+: c :: rest
      · obtain ⟨later, split⟩ := close
        obtain ⟨rfl, rfl⟩ : '*' = c ∧ '/' :: later = rest := by simpa using split
        rw [first_spelled split, Option.or_of_isSome (willing _)]
        rfl
      · rw [first_spelled_elsewhere close, Option.none_or, another_cons, if_pos (CharClass.accepts_any c), ih,
          Shape.blockEnd]
        · cases Shape.blockEnd rest <;> simp
        · rintro later rfl rfl
          exact close ⟨later, rfl⟩

/-- A character that is neither a quote nor a backslash is a unit. -/
theorem first_unit_plain {c : Char} (noQuote : c ≠ '"') (noEscape : c ≠ '\\') (passed rest : List Char)
    (group : Option (List Char)) :
    first unit accept ⟨passed, c :: rest, group⟩ = accept ⟨c :: passed, rest, group⟩ := by
  simp [unit, noQuote, noEscape]

/-- A backslash and the character after it, whatever that is, are a unit. -/
theorem first_unit_escape (c : Char) (passed rest : List Char) (group : Option (List Char)) :
    first unit accept ⟨passed, '\\' :: c :: rest, group⟩ = accept ⟨c :: '\\' :: passed, rest, group⟩ := by
  simp [unit]

/-- The units of a text literal and its last quote. -/
theorem first_textBody (willing : ∀ point, (accept point).isSome) (passed source : List Char) :
    first (.seq (.many true unit) (perhaps (.capture (char '"')))) accept ⟨passed, source, none⟩ =
      accept ⟨(Shape.textBody source).1.reverse ++ passed, source.drop (Shape.textBody source).1.length,
        if (Shape.textBody source).2 then some ['"'] else none⟩ := by
  rw [first_seq]
  fun_induction Shape.textBody source generalizing passed with
  | case1 rest =>
      rw [first_many_stop fun judge => by simp [unit]]
      simp [perhaps, Point.textTo, Option.or_of_isSome (willing _)]
  | case2 c rest body closed same ih =>
      rw [same] at ih
      rw [first_many_step (fun judge => first_unit_escape c passed rest none) (by simp only [List.length_cons]; omega)
        (by rw [ih]; exact willing _), ih]
      simp
  | case3 =>
      rw [first_many_stop fun judge => by simp [unit]]
      simp [perhaps]
  | case4 c rest noQuote noEscape noLast body closed same ih =>
      have plain : c ≠ '\\' := by
        rintro rfl
        cases rest with
        | nil => exact noLast rfl rfl
        | cons d rest => exact noEscape d rest rfl rfl
      rw [same] at ih
      rw [first_many_step (fun judge => first_unit_plain noQuote plain passed rest none) (by simp)
        (by rw [ih]; exact willing _), ih]
      simp
  | case5 =>
      rw [first_many_stop fun judge => by simp [unit]]
      simp [perhaps]

/-- A word of the list is there if the longest run of word characters is that word. -/
theorem first_listed {text : List Char} (nonempty : text ≠ []) (inside : ∀ c ∈ text, extendsWord c = true)
    (passed source : List Char) (group : Option (List Char)) :
    first (spelled text) (first .boundary accept) ⟨passed, source, group⟩ =
      if source.takeWhile extendsWord = text then accept ⟨text.reverse ++ passed, source.dropWhile extendsWord, group⟩
      else none := by
  by_cases starts : text <+: source
  · obtain ⟨rest, rfl⟩ := starts
    rw [first_spelled rfl, first_boundary, atBoundary_after nonempty inside, List.takeWhile_append_of_pos inside,
      List.dropWhile_append_of_pos inside]
    cases rest with
    | nil => simp [atWordEnd]
    | cons c rest => cases goesOn : extendsWord c <;> simp [atWordEnd, goesOn]
  · rw [first_spelled_elsewhere starts, if_neg]
    rintro rfl
    exact starts (List.takeWhile_prefix _)

theorem findSome?_congr {α : Type} {items : List α} {f g : α → Option β} (same : ∀ item ∈ items, f item = g item) :
    items.findSome? f = items.findSome? g := by
  induction items with
  | nil => rfl
  | cons item items ih =>
      rw [List.findSome?_cons, List.findSome?_cons, same item List.mem_cons_self,
        ih fun other member => same other (List.mem_cons_of_mem item member)]

theorem findSome?_listed (words : List String) (text : List Char) (result : Option β) :
    (words.findSome? fun word => if text = word.toList then result else none) =
      if words.contains (String.ofList text) then result else none := by
  induction words with
  | nil => rfl
  | cons word words ih =>
      rw [List.findSome?_cons, ih, List.contains_cons]
      by_cases same : text = word.toList
      · subst same
        cases result <;> simp
      · have differs : String.ofList text ≠ word := by
          rintro rfl
          exact same String.toList_ofList.symm
        simp [same, differs]

/-- The boundary after a word is where its run ends; the one before it is left to `first_word`. -/
theorem first_words {words : List String} (noEmpty : "" ∉ words)
    (inside : ∀ word ∈ words, ∀ c ∈ word.toList, extendsWord c = true) (passed source : List Char)
    (group : Option (List Char)) :
    first (.seq (oneOf (words.map fun word => spelled word.toList)) .boundary) accept ⟨passed, source, group⟩ =
      (Shape.word words source).bind fun taken =>
        accept ⟨taken.reverse ++ passed, source.dropWhile extendsWord, group⟩ := by
  rw [first_seq, first_oneOf, List.findSome?_map]
  calc
    _ = words.findSome? fun word => if source.takeWhile extendsWord = word.toList then
          accept ⟨(source.takeWhile extendsWord).reverse ++ passed, source.dropWhile extendsWord, group⟩ else none := by
      refine findSome?_congr fun word member => ?_
      have nonempty : word.toList ≠ [] := by
        intro empty
        rw [String.toList_eq_nil_iff.mp empty] at member
        exact noEmpty member
      rw [Function.comp_apply, first_listed nonempty (inside word member)]
      split
      · rename_i same
        rw [same]
      · rfl
    _ = _ := by
      rw [findSome?_listed, Shape.word]
      split <;> rfl

/-- Where no run of word characters starts, there is no word: none of the list is empty. -/
theorem word_of_no_run {words : List String} (noEmpty : "" ∉ words) {source : List Char}
    (noRun : source.head?.any extendsWord = false) : Shape.word words source = none := by
  have empty : source.takeWhile extendsWord = [] := by
    cases source with
    | nil => rfl
    | cons c rest => exact List.takeWhile_cons_of_neg (Bool.eq_false_iff.mp noRun)
  rw [Shape.word, empty]
  exact if_neg fun member => noEmpty (List.contains_iff_mem.mp member)

/-- The boundary before a word looks back at the last character that was passed, and at nothing before it. -/
theorem first_word {words : List String} (noEmpty : "" ∉ words)
    (inside : ∀ word ∈ words, ∀ c ∈ word.toList, extendsWord c = true) (passed source : List Char)
    (group : Option (List Char)) :
    first (word words) accept ⟨passed, source, group⟩ =
      if passed.head?.any extendsWord then none
      else (Shape.word words source).bind fun taken =>
        accept ⟨taken.reverse ++ passed, source.dropWhile extendsWord, group⟩ := by
  rw [word, first_seq, first_boundary, first_words noEmpty inside, Point.atBoundary]
  cases runs : source.head?.any extendsWord with
  | true => cases passed.head?.any extendsWord <;> rfl
  | false =>
      rw [word_of_no_run noEmpty runs]
      simp only [Option.bind_none, ite_self]

end Accepting

/-- The pattern finds what the shape takes, and the group takes no part. -/
def Finds (pattern : Pattern) (shape : List Char → Option (List Char)) : Prop :=
  ∀ source, first pattern (report ⟨[], source, none⟩) ⟨[], source, none⟩ = (shape source).map (⟨·, none⟩)

theorem report_willing (start point : Point) : (report start point).isSome = true := rfl

/-- What was taken is reported if the rest comes right after it. -/
theorem bind_report {passed source : List Char} {taken? : Option (List Char)} {after rest : List Char → List Char}
    (split : ∀ taken, taken? = some taken → taken ++ rest taken = source) :
    (taken?.bind fun taken => report ⟨passed, source, none⟩ ⟨after taken, rest taken, none⟩) =
      taken?.map (⟨·, none⟩) := by
  cases taken? with
  | none => rfl
  | some taken => exact report_eq (split taken rfl) _ _ _

theorem comment_finds : Finds comment Shape.comment := by
  intro source
  rw [comment, first_alt, first_seq, first_seq, Shape.comment.eq_def]
  split
  · rename_i rest
    have same : (CharClass.noneOf ['\n']).accepts = (· != '\n') := by
      funext c
      rw [CharClass.accepts_noneOf, List.contains_cons, List.contains_nil, Bool.or_false]
      rfl
    have split : ('/' :: '/' :: rest.takeWhile (· != '\n')) ++ rest.dropWhile (· != '\n') = '/' :: '/' :: rest := by
      rw [List.cons_append, List.cons_append, List.takeWhile_append_dropWhile]
    rw [first_spelled (show ['/', '/'] ++ rest = '/' :: '/' :: rest from rfl),
      first_many_of_willing (report_willing _), same, report_eq split]
    rfl
  · rename_i rest
    rw [first_spelled_elsewhere (by simp), Option.none_or,
      first_spelled (show ['/', '*'] ++ rest = '/' :: '*' :: rest from rfl), first_blockEnd (report_willing _)]
    cases taken : Shape.blockEnd rest with
    | none => rfl
    | some text =>
        obtain ⟨-, -, before, -⟩ := Shape.blockEnd_eq_some taken
        have split : ('/' :: '*' :: text) ++ rest.drop text.length = '/' :: '*' :: rest := by
          rw [List.cons_append, List.cons_append, List.prefix_iff_eq_append.mp before]
        exact report_eq split _ _ _
  · rename_i noLine noBlock
    rw [first_spelled_elsewhere, first_spelled_elsewhere]
    · rfl
    · rintro ⟨rest, rfl⟩
      exact noBlock rest rfl
    · rintro ⟨rest, rfl⟩
      exact noLine rest rfl

theorem layout_finds : Finds layout (Shape.run Shape.isLayout) := by
  intro source
  have same : (CharClass.oneOf [' ', '\t', '\r', '\n']).accepts = Shape.isLayout := by
    funext c
    rw [CharClass.accepts_oneOf]
    simp only [List.contains_cons, List.contains_nil, Bool.or_false, Shape.isLayout, Bool.or_assoc]
  rw [layout, first_plus fun last passed source group _ =>
    first_many_of_willing (report_willing _) _ _ source group, same]
  refine bind_report fun taken found => ?_
  rw [(Shape.run_eq_some_iff.mp found).1, List.takeWhile_append_dropWhile]

/-- The words of a list, anywhere in a text: not right after a word character, and with the run of word characters
for the word. -/
theorem findAt_word {words : List String} (noEmpty : "" ∉ words)
    (inside : ∀ word ∈ words, ∀ c ∈ word.toList, extendsWord c = true) (passed source : List Char) :
    (word words).findAt passed source =
      if passed.head?.any extendsWord then none else (Shape.word words source).map (⟨·, none⟩) := by
  rw [findAt_eq, first_word noEmpty inside]
  congr 1
  refine bind_report fun taken found => ?_
  rw [(Shape.word_eq_some_iff.mp found).1, List.takeWhile_append_dropWhile]

theorem word_finds {words : List String} (noEmpty : "" ∉ words)
    (inside : ∀ word ∈ words, ∀ c ∈ word.toList, extendsWord c = true) : Finds (word words) (Shape.word words) := by
  intro source
  rw [← findAt_eq, findAt_word noEmpty inside]
  rfl

theorem name_finds : Finds name Shape.identifier := by
  intro source
  rw [name, first_seq]
  cases source with
  | nil => rfl
  | cons c rest =>
      rw [first_one_cons, accepts_nameStart, first_many_of_willing (report_willing _), accepts_namePart,
        Shape.identifier]
      split
      · exact report_eq (by simp) _ _ _
      · rfl

theorem number_finds : Finds number Shape.number := by
  intro source
  rw [first_digits_boundary]
  refine bind_report fun taken found => ?_
  rw [(Shape.number_eq_some_iff.mp found).1, List.takeWhile_append_dropWhile]

theorem float_finds : Finds float Shape.float := by
  intro source
  rw [first_float, Shape.float]
  cases found : Shape.run isDigit source with
  | none => rfl
  | some whole =>
      have split : whole ++ source.dropWhile isDigit = source := by
        rw [(Shape.run_eq_some_iff.mp found).1, List.takeWhile_append_dropWhile]
      simp only [Option.bind_some, Option.bind_eq_bind]
      rw [first_seq]
      split
      · rename_i rest point
        rw [point, first_char_cons, if_pos rfl, first_digits_boundary]
        cases fraction : Shape.number rest with
        | none => rfl
        | some digits =>
            have all : (whole ++ '.' :: digits) ++ rest.dropWhile isDigit = source := by
              rw [List.append_assoc, List.cons_append, (Shape.number_eq_some_iff.mp fraction).1,
                List.takeWhile_append_dropWhile, ← point, split]
            exact report_eq all _ _ _
      · rename_i noPoint
        cases after : source.dropWhile isDigit with
        | nil => rfl
        | cons c rest =>
            rw [first_char_cons, if_neg fun same => noPoint rest (by rw [after, same])]
            rfl

theorem one_finds {set : CharClass} {p : Char → Bool} (same : ∀ c, set.accepts c = p c) :
    Finds (.one set) (Shape.single p) := by
  intro source
  cases source with
  | nil => rfl
  | cons c rest =>
      rw [first_one_cons, same, Shape.single]
      split
      · exact report_eq (show [c] ++ rest = c :: rest from rfl) _ _ _
      · rfl

theorem operator_finds : Finds operator Shape.operator := by
  intro source
  rw [operator, first_alt, first_seq, Shape.operator.eq_def]
  split
  · rename_i c rest
    rw [first_one_cons, first_one_cons, first_char_cons, if_pos rfl, CharClass.accepts_oneOf,
      CharClass.accepts_oneOf, report_eq (show [c, '='] ++ rest = c :: '=' :: rest from rfl),
      report_eq (show [c] ++ '=' :: rest = c :: '=' :: rest from rfl), Shape.beforeEquals, Shape.operators]
    split
    · rfl
    · split <;> rfl
  · rename_i c rest noEquals
    have single : first (char '=') (report ⟨[], c :: rest, none⟩) ⟨[c], rest, none⟩ = none := by
      cases rest with
      | nil => rfl
      | cons d rest =>
          rw [first_char_cons, if_neg]
          rintro rfl
          exact noEquals rest rfl
    rw [first_one_cons, first_one_cons, CharClass.accepts_oneOf, CharClass.accepts_oneOf, single, ite_self,
      Option.none_or, report_eq (show [c] ++ rest = c :: rest from rfl), Shape.operators]
    split <;> rfl
  · rfl

/-- The group takes part if there is a last quote. -/
theorem literal_finds (source : List Char) :
    first literal (report ⟨[], source, none⟩) ⟨[], source, none⟩ = (Rule.textLiteral.take source).map fun
      (text, closed) => ⟨text, if closed then some ['"'] else none⟩ := by
  rw [literal, first_seq, Rule.textLiteral]
  dsimp only
  split
  · rename_i rest
    have split : ('"' :: (Shape.textBody rest).1) ++ rest.drop (Shape.textBody rest).1.length = '"' :: rest := by
      rw [List.cons_append, List.prefix_iff_eq_append.mp (Shape.textBody_prefix rest)]
    rw [first_char_cons, if_pos rfl, first_textBody (report_willing _), report_eq split]
    rfl
  · rename_i noQuote
    cases source with
    | nil => rfl
    | cons c rest =>
        rw [first_char_cons, if_neg]
        · rfl
        · rintro rfl
          exact noQuote rest rfl

/-- The rule of a kind takes what the pattern of the kind finds. -/
structure Realizes (rule : Rule) (entry : TokenKind × Pattern) : Prop where
  kind : rule.kind = entry.1
  word : rule.startsWord = true ↔ entry.1 ∈ wordKinds
  finds : ∀ source, (Pattern.seq .start entry.2).find source = (rule.take source).map fun
    (text, closed) => ⟨text, if closed then some ['"'] else none⟩

theorem plain_realizes {kind : TokenKind} {pattern : Pattern} {shape : List Char → Option (List Char)}
    (noWord : kind ∉ wordKinds) (finds : Finds pattern shape) : Realizes (.plain kind shape) (kind, pattern) := by
  refine ⟨rfl, iff_of_false Bool.false_ne_true noWord, fun source => ?_⟩
  rw [find_anchored, finds source, Rule.plain, Option.map_map]
  rfl

theorem words_realizes {kind : TokenKind} {words : List String} (isWord : kind ∈ wordKinds)
    (spelled : words.all (fun word => word.toList.all extendsWord && word != "") = true) :
    Realizes (.words kind words) (kind, word words) := by
  have each : ∀ word ∈ words, (∀ c ∈ word.toList, extendsWord c = true) ∧ word ≠ "" := by simpa using spelled
  refine ⟨rfl, iff_of_true rfl isWord, fun source => ?_⟩
  rw [find_anchored, word_finds (fun member => (each "" member).2 rfl) (fun word member => (each word member).1),
    Rule.words, Option.map_map]
  rfl

theorem char_realizes {kind : TokenKind} (noWord : kind ∉ wordKinds) (c : Char) :
    Realizes (.char kind c) (kind, char c) :=
  plain_realizes noWord (one_finds fun d => CharClass.accepts_single c d)

theorem literal_realizes : Realizes .textLiteral (.text, literal) := by
  refine ⟨rfl, by decide, fun source => ?_⟩
  rw [find_anchored, literal_finds]

/-- The table of rules and the lexicon go together, entry by entry. -/
theorem table_realizes : List.Forall₂ Realizes Rule.table entries := by
  simp only [Rule.table, entries, List.forall₂_cons, List.forall₂_nil_left_iff, and_true]
  refine ⟨plain_realizes (by decide) comment_finds, plain_realizes (by decide) layout_finds,
    words_realizes (by decide) (by decide), words_realizes (by decide) (by decide),
    words_realizes (by decide) (by decide), plain_realizes (by decide) name_finds,
    plain_realizes (by decide) float_finds, plain_realizes (by decide) number_finds, literal_realizes,
    char_realizes (by decide) _, char_realizes (by decide) _, char_realizes (by decide) _,
    char_realizes (by decide) _, char_realizes (by decide) _, char_realizes (by decide) _,
    plain_realizes (by decide) operator_finds, char_realizes (by decide) _,
    plain_realizes (by decide) (one_finds fun c => ?_), plain_realizes (by decide) (one_finds fun c => ?_)⟩
  · rw [CharClass.accepts_oneOf, Shape.delimiters]
  · exact CharClass.accepts_any c

/-- The match of one entry after the character `before`. -/
def matchOf (before : Option Char) (source : List Char) (entry : TokenKind × Pattern) : Option Match :=
  if Applies before entry.1 then
    (entry.2.find source).map fun finding => ⟨entry.1, finding.text, finding.group.isSome⟩
  else none

theorem matchOf_eq_some_iff {before : Option Char} {source : List Char} {entry : TokenKind × Pattern} {found : Match} :
    matchOf before source entry = some found ↔ Applies before entry.1 ∧
      ∃ finding, entry.2.find source = some finding ∧ ⟨entry.1, finding.text, finding.group.isSome⟩ = found := by
  rw [matchOf]
  split
  · rename_i applies
    rw [Option.map_eq_some_iff]
    exact (and_iff_right applies).symm
  · rename_i blocked
    exact iff_of_false (Option.some_ne_none found).symm fun ⟨applies, _⟩ => blocked applies

theorem matchOf_eq_none {before : Option Char} {source : List Char} {entry : TokenKind × Pattern}
    (missing : matchOf before source entry = none) (applies : Applies before entry.1) :
    entry.2.find source = none := by
  rwa [matchOf, if_pos applies, Option.map_eq_none_iff] at missing

theorem Realizes.apply_eq {rule : Rule} {entry : TokenKind × Pattern} (realizes : Realizes rule entry)
    (before : Option Char) (source : List Char) :
    rule.apply before source = matchOf before source (entry.1, .seq .start entry.2) := by
  rw [Rule.apply, matchOf, realizes.finds]
  by_cases applies : Applies before entry.1
  · have free : ¬ (rule.startsWord && before.any precedesWord) = true := by
      intro blocked
      obtain ⟨word, precedes⟩ := Bool.and_eq_true_iff.mp blocked
      rw [applies (realizes.word.mp word)] at precedes
      exact Bool.false_ne_true precedes
    rw [if_neg free, if_pos applies, Option.map_map, realizes.kind]
    congr 1
    funext taken
    obtain ⟨text, closed⟩ := taken
    cases closed <;> rfl
  · have blocked : (rule.startsWord && before.any precedesWord) = true := by
      obtain ⟨word, precedes⟩ := Classical.not_imp.mp applies
      rw [realizes.word.mpr word, Bool.true_and]
      exact Bool.not_eq_false _ |>.mp precedes
    rw [if_pos blocked, if_neg applies]

theorem findSome?_forall₂ {α β γ : Type} {f : α → Option γ} {g : β → Option γ} {items : List α} {others : List β}
    (same : List.Forall₂ (fun item other => f item = g other) items others) :
    items.findSome? f = others.findSome? g := by
  induction same with
  | nil => rfl
  | cons first _ ih => rw [List.findSome?_cons, List.findSome?_cons, first, ih]

theorem firstMatch_eq_findSome? (before : Option Char) (source : List Char) :
    firstMatch before source = table.findSome? (matchOf before source) := by
  rw [firstMatch, table, List.findSome?_map]
  exact findSome?_forall₂ (table_realizes.imp fun rule entry realizes => realizes.apply_eq before source)

end Lexicon

/-- At every place before the end of a source, the match is that of the first pattern of the lexicon that is found
there, the patterns of words left out after a character that words do not follow. Its text is what the pattern finds,
it is closed if the group of the pattern takes part, and it is not empty. -/
theorem firstMatch_of_lexicon (passed rest : List Char) (nonempty : rest ≠ []) :
    ∃ found, firstMatch passed.getLast? rest = some found ∧ found.text ≠ [] ∧
      ∃ earlier pattern later group, Lexicon.table = earlier ++ (found.kind, pattern) :: later ∧
        Lexicon.Applies passed.getLast? found.kind ∧ pattern.find rest = some ⟨found.text, group⟩ ∧
        found.closed = group.isSome ∧
        ∀ kind other, (kind, other) ∈ earlier → Lexicon.Applies passed.getLast? kind → other.find rest = none := by
  obtain ⟨c, later, rfl⟩ := List.exists_cons_of_ne_nil nonempty
  obtain ⟨found, matched⟩ := firstMatch_cons passed.getLast? c later
  refine ⟨found, matched, (firstMatch_isCut matched).1, ?_⟩
  rw [Lexicon.firstMatch_eq_findSome?] at matched
  obtain ⟨earlier, ⟨kind, pattern⟩, others, split, decided, skipped⟩ := List.findSome?_eq_some_iff.mp matched
  obtain ⟨applies, ⟨text, group⟩, finds, rfl⟩ := Lexicon.matchOf_eq_some_iff.mp decided
  refine ⟨earlier, pattern, others, group, split, applies, finds, rfl, fun kind other member applies => ?_⟩
  exact Lexicon.matchOf_eq_none (skipped _ member) applies

/-- A text literal at the end of a source, with a backslash that has no character after it: the backslash stays outside,
and the group of the pattern takes no part. -/
theorem firstMatch_of_lexicon_unclosed :
    firstMatch (some '=') ['"', 'a', '\\'] = some ⟨.text, ['"', 'a'], false⟩ ∧
      ∃ pattern, (TokenKind.text, pattern) ∈ Lexicon.table ∧
        pattern.find ['"', 'a', '\\'] = some ⟨['"', 'a'], none⟩ := by
  have matched : firstMatch (some '=') ['"', 'a', '\\'] = some ⟨.text, ['"', 'a'], false⟩ := by decide
  obtain ⟨found, same, -, earlier, pattern, later, group, split, -, finds, closed, -⟩ :=
    firstMatch_of_lexicon ['x', '='] ['"', 'a', '\\'] (List.cons_ne_nil _ _)
  obtain rfl : found = ⟨.text, ['"', 'a'], false⟩ := Option.some.inj (same.symm.trans matched)
  have noGroup : group = none := Option.not_isSome_iff_eq_none.mp (Bool.eq_false_iff.mp closed.symm)
  refine ⟨matched, pattern, ?_, ?_⟩
  · rw [split]
    simp
  · rw [finds, noGroup]

end BraceCompiler
