import BraceCompiler.Proofs.Token.Clean
import Mathlib.Tactic.FinCases

/-! How words and marks are cut when they are written next to one another. A word has to stand between
characters that part words; a mark starts and ends with such characters and can stand anywhere. -/

namespace BraceCompiler

open Text

/-- The characters that part words. -/
def breaks : List Char := [' ', '\n', '(', ')', '[', ']', '\x7b', '\x7d', ',', ';', ':']

/-- The text is empty or starts with a character that parts words. -/
def AtBreak (text : List Char) : Prop := ∀ c ∈ text.head?, c ∈ breaks

theorem AtBreak.apart {text : List Char} (atBreak : AtBreak text) : text.head?.any precedesWord = false := by
  have all : ∀ c ∈ breaks, precedesWord c = false := List.all_iff_forall_prop.mp (by decide)
  cases text with
  | nil => rfl
  | cons c text => exact all c (atBreak c rfl)

theorem AtBreak.not_extendsWord {text : List Char} (atBreak : AtBreak text) :
    ∀ c ∈ text.head?, extendsWord c = false := by
  have all : ∀ c ∈ breaks, extendsWord c = false := List.all_iff_forall_prop.mp (by decide)
  exact fun c first => all c (atBreak c first)

theorem AtBreak.append {text : List Char} (atBreak : AtBreak text) (nonempty : text ≠ []) (rest : List Char) :
    AtBreak (text ++ rest) := by
  cases text with
  | nil => exact absurd rfl nonempty
  | cons c text => exact atBreak

theorem atBreak_space {text : List Char} : AtBreak (' ' :: text) := by
  rintro c ⟨⟩
  decide

/-- A rule decides where the rules before it take nothing. -/
theorem firstMatch_eq {before : Option Char} {source : List Char} {rule : Rule} {later : List Rule}
    {found : Match} (count : Nat) (rest : Rule.table.drop count = rule :: later)
    (skipped : ∀ other ∈ Rule.table.take count, other.apply before source = none)
    (applied : rule.apply before source = some found) : firstMatch before source = some found := by
  refine List.findSome?_eq_some_iff.mpr ⟨_, rule, later, ?_, applied, skipped⟩
  rw [← rest, List.take_append_drop]

theorem Rule.apply_eq_none {rule : Rule} {source : List Char} (before : Option Char)
    (untaken : rule.take source = none) : rule.apply before source = none := by
  rw [apply, untaken]
  exact ite_self _

theorem Rule.plain_apply {shape : List Char → Option (List Char)} {source text : List Char} (kind : TokenKind)
    (before : Option Char) (taken : shape source = some text) :
    (plain kind shape).apply before source = some ⟨kind, text, false⟩ :=
  apply_of_take (fun starts => absurd starts Bool.false_ne_true)
    (Option.map_eq_some_iff.mpr ⟨text, taken, rfl⟩)

theorem Rule.plain_apply_none {kind : TokenKind} {shape : List Char → Option (List Char)} {source : List Char}
    {before : Option Char} (untaken : shape source = none) : (plain kind shape).apply before source = none :=
  apply_eq_none before (Option.map_eq_none_iff.mpr untaken)

theorem Rule.words_apply_none {kind : TokenKind} {list : List String} {source : List Char}
    {before : Option Char} (untaken : Shape.word list source = none) :
    (words kind list).apply before source = none :=
  apply_eq_none before (Option.map_eq_none_iff.mpr untaken)

/-- The rules that do not look behind, at a source on which all of them can be tried. -/
theorem firstMatch_of_take {before : Option Char} {source text : List Char} {closed : Bool} {rule : Rule}
    {later : List Rule} (count : Nat) (rest : Rule.table.drop count = rule :: later)
    (untaken : (Rule.table.take count).all (fun other => (other.take source).isNone) = true)
    (free : rule.startsWord = false) (taken : rule.take source = some (text, closed)) :
    firstMatch before source = some ⟨rule.kind, text, closed⟩ := by
  refine firstMatch_eq count rest ?_ (Rule.apply_of_take (fun starts => ?_) taken)
  · exact fun other member => Rule.apply_eq_none before
      (Option.isNone_iff_eq_none.mp (List.all_eq_true.mp untaken other member))
  · rw [free] at starts
    cases starts

/-- The kind of a name by the lists of reserved words. -/
def wordKind (word : String) : TokenKind :=
  if word ∈ Words.keywords then .keyword
  else if word ∈ Words.dataTypes then .dataType
  else if word ∈ Words.booleans then .boolean
  else .identifier

theorem startsName_not_layout {c : Char} (starts : startsName c = true) : Shape.isLayout c = false := by
  refine Bool.eq_false_iff.mpr fun layout => ?_
  rcases Shape.isLayout_cases layout with rfl | rfl | rfl | rfl <;> cases starts

theorem Shape.comment_eq_none {c : Char} (differs : c ≠ '/') (rest : List Char) :
    comment (c :: rest) = none := by
  rw [comment.eq_def]
  split
  · rename_i same
    exact absurd (List.cons.inj same).1 differs
  · rename_i same
    exact absurd (List.cons.inj same).1 differs
  · rfl

theorem Shape.run_eq_none {p : Char → Bool} {c : Char} (fails : p c = false) (rest : List Char) :
    run p (c :: rest) = none := by
  rw [run, List.takeWhile_cons_of_neg (by rw [fails]; decide)]

theorem Shape.word_eq_none {words : List String} {text rest : List Char}
    (word : ∀ c ∈ text, extendsWord c = true) (next : ∀ c ∈ rest.head?, extendsWord c = false)
    (unlisted : String.ofList text ∉ words) : Shape.word words (text ++ rest) = none := by
  refine Option.eq_none_iff_forall_ne_some.mpr fun taken same => ?_
  obtain ⟨longest, listed⟩ := word_eq_some_iff.mp same
  rw [takeWhile_eq word next] at longest
  rw [longest] at listed
  exact unlisted listed

/-- A name starts neither a comment nor a blank. -/
theorem IsName.skipped {text : List Char} (name : IsName text) (before : Option Char) (rest : List Char) :
    (Rule.plain .comment Shape.comment).apply before (text ++ rest) = none ∧
      (Rule.plain .blank (Shape.run Shape.isLayout)).apply before (text ++ rest) = none := by
  cases name with
  | spelled starts _ =>
      refine ⟨Rule.plain_apply_none (Shape.comment_eq_none ?_ _),
        Rule.plain_apply_none (Shape.run_eq_none (startsName_not_layout starts) _)⟩
      rintro rfl
      cases starts

theorem IsName.identifier {text rest : List Char} (name : IsName text)
    (next : ∀ c ∈ rest.head?, Text.extendsWord c = false) : Shape.identifier (text ++ rest) = some text := by
  cases name with
  | spelled starts continues =>
      refine Shape.identifier_eq_some_iff.mpr ⟨_, _, List.cons_append, starts, ?_⟩
      rw [takeWhile_eq continues fun c first => continuesName_eq_false (next c first)]

theorem firstMatch_name {before : Option Char} {text rest : List Char} (name : IsName text)
    (apart : before.any precedesWord = false) (next : ∀ c ∈ rest.head?, extendsWord c = false) :
    firstMatch before (text ++ rest) = some ⟨wordKind (String.ofList text), text, false⟩ := by
  have longest := (takeWhile_eq name.extendsWord next).symm
  have taken : ∀ {kind list}, String.ofList text ∈ list →
      (Rule.words kind list).apply before (text ++ rest) = some ⟨kind, text, false⟩ :=
    fun listed => Rule.words_apply _ apart (Shape.word_eq_some_iff.mpr ⟨longest, listed⟩)
  have untaken : ∀ {kind list}, String.ofList text ∉ list →
      (Rule.words kind list).apply before (text ++ rest) = none :=
    fun unlisted => Rule.words_apply_none (Shape.word_eq_none name.extendsWord next unlisted)
  obtain ⟨noComment, noBlank⟩ := name.skipped before rest
  rw [wordKind]
  -- One rule after the other: keywords, data types, booleans, and names last.
  split
  · rename_i keyword
    exact firstMatch_eq 2 rfl (by simpa [Rule.table] using ⟨noComment, noBlank⟩) (taken keyword)
  · rename_i noKeyword
    split
    · rename_i dataType
      exact firstMatch_eq 3 rfl (by simpa [Rule.table] using ⟨noComment, noBlank, untaken noKeyword⟩)
        (taken dataType)
    · rename_i noType
      split
      · rename_i boolean
        exact firstMatch_eq 4 rfl (by simpa [Rule.table] using
          ⟨noComment, noBlank, untaken noKeyword, untaken noType⟩) (taken boolean)
      · rename_i noBoolean
        refine firstMatch_eq 5 rfl (by simpa [Rule.table] using
          ⟨noComment, noBlank, untaken noKeyword, untaken noType, untaken noBoolean⟩) ?_
        exact Rule.plain_apply .identifier _ (name.identifier next)

theorem extendsWord_of_isDigit {c : Char} (digit : isDigit c = true) : extendsWord c = true :=
  extendsWord_of_continuesName (continuesName_of_isDigit digit)

/-- A digit starts nothing but a number. -/
theorem isDigit_alone {c : Char} (digit : isDigit c = true) :
    c ≠ '/' ∧ Shape.isLayout c = false ∧ startsName c = false := by
  have ascii := ascii_of_continuesName (continuesName_of_isDigit digit)
  revert digit
  exact of_ascii (P := fun c => isDigit c = true → c ≠ '/' ∧ Shape.isLayout c = false ∧ startsName c = false)
    (by decide) ascii

theorem dropWhile_eq {p : Char → Bool} {text rest : List Char} (all : ∀ c ∈ text, p c = true)
    (next : ∀ c ∈ rest.head?, p c = false) : (text ++ rest).dropWhile p = rest := by
  have whole : (text ++ rest).takeWhile p ++ (text ++ rest).dropWhile p = text ++ rest :=
    List.takeWhile_append_dropWhile
  rw [takeWhile_eq all next] at whole
  exact List.append_cancel_left whole

theorem AtBreak.not_isDigit {text : List Char} (atBreak : AtBreak text) :
    ∀ c ∈ text.head?, isDigit c = false := by
  have all : ∀ c ∈ breaks, isDigit c = false := List.all_iff_forall_prop.mp (by decide)
  exact fun c first => all c (atBreak c first)

theorem Shape.float_eq_none {text rest : List Char} (digits : IsDigits text) (after : AtBreak rest) :
    float (text ++ rest) = none := by
  have split := dropWhile_eq digits.2 after.not_isDigit
  have longest := takeWhile_eq digits.2 after.not_isDigit
  rw [float, run_eq_some_iff.mpr ⟨longest.symm, digits.1⟩, split]
  cases rest with
  | nil => rfl
  | cons c rest =>
      have point : c ≠ '.' := by
        rintro rfl
        exact absurd (after '.' rfl) (by decide)
      dsimp only [Option.bind_eq_bind, Option.bind_some]
      split
      · rename_i same
        exact absurd (List.cons.inj same).1 point
      · rfl

/-- No reserved word starts with a digit. -/
theorem IsDigits.unreserved {text : List Char} (digits : IsDigits text) :
    Unreserved (String.ofList text) := by
  have unlisted : ∀ words : List String, (∀ word ∈ words, word.toList.head?.any isDigit = false) →
      String.ofList text ∉ words := by
    intro words all listed
    cases text with
    | nil => exact digits.1 rfl
    | cons c text =>
        have other := all _ listed
        rw [String.toList_ofList, List.head?_cons, Option.any_some, digits.2 c List.mem_cons_self] at other
        cases other
  exact ⟨unlisted _ (by decide), unlisted _ (by decide), unlisted _ (by decide)⟩

theorem Shape.number_eq_some {text rest : List Char} (digits : IsDigits text) (after : AtBreak rest) :
    number (text ++ rest) = some text := by
  have longest := takeWhile_eq digits.2 after.not_isDigit
  have split := dropWhile_eq digits.2 after.not_isDigit
  refine number_eq_some_iff.mpr ⟨longest.symm, digits.1, ?_⟩
  rw [split]
  cases rest with
  | nil => rfl
  | cons c rest => rw [atWordEnd, after.not_extendsWord c rfl]; rfl

/-- The rules before those for numbers take nothing where digits start. -/
theorem IsDigits.skipped {text rest : List Char} (digits : IsDigits text)
    (next : ∀ c ∈ rest.head?, extendsWord c = false) (before : Option Char) :
    ∀ rule ∈ Rule.table.take 6, rule.apply before (text ++ rest) = none := by
  have word : ∀ c ∈ text, extendsWord c = true := fun c member => extendsWord_of_isDigit (digits.2 c member)
  have untaken : ∀ {kind list}, String.ofList text ∉ list →
      (Rule.words kind list).apply before (text ++ rest) = none :=
    fun unlisted => Rule.words_apply_none (Shape.word_eq_none word next unlisted)
  obtain ⟨noKeyword, noType, noBoolean⟩ := digits.unreserved
  cases text with
  | nil => exact absurd rfl digits.1
  | cons c text =>
      obtain ⟨noSlash, noLayout, noName⟩ := isDigit_alone (digits.2 c List.mem_cons_self)
      have noIdentifier : Shape.identifier (c :: text ++ rest) = none := if_neg (by rw [noName]; decide)
      simpa [Rule.table] using ⟨Rule.plain_apply_none (Shape.comment_eq_none noSlash _),
        Rule.plain_apply_none (Shape.run_eq_none noLayout _), untaken noKeyword, untaken noType,
        untaken noBoolean, Rule.plain_apply_none noIdentifier⟩

theorem firstMatch_number {before : Option Char} {text rest : List Char} (digits : IsDigits text)
    (after : AtBreak rest) : firstMatch before (text ++ rest) = some ⟨.number, text, false⟩ := by
  have taken := Shape.number_eq_some digits after
  refine firstMatch_eq 7 rfl ?_ (Rule.plain_apply .number before taken)
  rw [show Rule.table.take 7 = Rule.table.take 6 ++ [.plain .float Shape.float] from rfl]
  refine List.forall_mem_append.mpr ⟨digits.skipped after.not_extendsWord before, ?_⟩
  exact List.forall_mem_singleton.mpr (Rule.plain_apply_none (Shape.float_eq_none digits after))

theorem Shape.float_eq_some {whole fraction rest : List Char} (digits : IsDigits whole)
    (digitsAfter : IsDigits fraction) (after : AtBreak rest) :
    float (whole ++ '.' :: (fraction ++ rest)) = some (whole ++ '.' :: fraction) := by
  have point : ∀ c ∈ ('.' :: (fraction ++ rest)).head?, isDigit c = false := by
    rintro c ⟨⟩
    decide
  have longest := takeWhile_eq digits.2 point
  simp only [float, run_eq_some_iff.mpr ⟨longest.symm, digits.1⟩, dropWhile_eq digits.2 point,
    number_eq_some digitsAfter after, Option.bind_eq_bind, Option.bind_some]

theorem firstMatch_float {before : Option Char} {whole fraction rest : List Char} (digits : IsDigits whole)
    (digitsAfter : IsDigits fraction) (after : AtBreak rest) :
    firstMatch before (whole ++ '.' :: fraction ++ rest) = some ⟨.float, whole ++ '.' :: fraction, false⟩ := by
  rw [List.append_assoc, List.cons_append]
  refine firstMatch_eq 6 rfl (digits.skipped ?_ before)
    (Rule.plain_apply .float before (Shape.float_eq_some digits digitsAfter after))
  rintro c ⟨⟩
  decide

theorem firstMatch_quote (before : Option Char) (rest : List Char) : firstMatch before ('"' :: rest) =
    some ⟨.text, '"' :: (Shape.textBody rest).1, (Shape.textBody rest).2⟩ :=
  firstMatch_of_take 8 rfl rfl rfl rfl

theorem Shape.textBody_cons {c : Char} (noQuote : c ≠ '"') (noSlash : c ≠ '\\') (rest : List Char) :
    textBody (c :: rest) = (c :: (textBody rest).1, (textBody rest).2) := by
  rw [textBody]
  · exact noQuote
  · exact fun _ _ same => absurd same noSlash
  · exact fun same => absurd same noSlash

/-- A literal with its closing quote is read again as it is, whatever comes after the quote. -/
theorem Shape.textBody_again {source : List Char} (more : List Char) (closed : (textBody source).2 = true) :
    textBody ((textBody source).1 ++ more) = textBody source := by
  fun_induction textBody source with
  | case1 rest => rfl
  | case2 c rest body ends same ih =>
      rw [same] at ih
      simp only [List.cons_append, textBody, ih closed]
  | case3 => cases closed
  | case4 c rest quote pair slash body ends same ih =>
      rw [same] at ih
      have noSlash : c ≠ '\\' := by
        rintro rfl
        cases rest with
        | nil => exact slash rfl rfl
        | cons d rest => exact pair d rest rfl rfl
      rw [List.cons_append, textBody_cons quote noSlash, ih closed]
  | case5 => cases closed

theorem Shape.textBody_append {source : List Char} (more : List Char) (closed : (textBody source).2 = true) :
    textBody (source ++ more) = textBody source := by
  obtain ⟨rest, split⟩ := textBody_prefix source
  calc textBody (source ++ more) = textBody ((textBody source).1 ++ (rest ++ more)) := by
        rw [← List.append_assoc, split]
    _ = textBody source := textBody_again _ closed

theorem Shape.operator_eq_none {c : Char} (alone : c ∉ operators) (withEquals : c ∉ beforeEquals)
    (rest : List Char) : operator (c :: rest) = none := by
  have refuse : ∀ {list : List Char}, c ∉ list → ¬ list.contains c = true :=
    fun unlisted listed => unlisted (List.contains_iff_mem.mp listed)
  rw [operator.eq_def]
  split
  · rename_i same
    cases same
    rw [if_neg (refuse withEquals), if_neg (refuse alone)]
  · rename_i same
    cases same
    exact if_neg (refuse alone)
  · rfl

/-- A character that starts no operator is tried by the other rules on its own. -/
theorem untaken_of_others {c : Char} (alone : c ∉ Shape.operators) (withEquals : c ∉ Shape.beforeEquals)
    (rest : List Char) (count : Nat) (others : ((Rule.table.take count).filter (·.kind != .operator)).all
      (fun rule => (rule.take (c :: rest)).isNone) = true) :
    (Rule.table.take count).all (fun rule => (rule.take (c :: rest)).isNone) = true := by
  refine List.all_eq_true.mpr fun rule listed => ?_
  by_cases kind : rule.kind = .operator
  · rw [Rule.eq_of_kind (List.mem_of_mem_take listed) kind rfl]
    simp only [Rule.plain, Shape.operator_eq_none alone withEquals, Option.map_none, Option.isNone_none]
  · exact List.all_eq_true.mp others rule (List.mem_filter.mpr ⟨listed, bne_iff_ne.mpr kind⟩)

/-- A symbol of one character that is cut off whatever stands around it. -/
structure IsMark (c : Char) (kind : TokenKind) : Prop where
  parts : c ∈ breaks
  matched : ∀ before rest, firstMatch before (c :: rest) = some ⟨kind, [c], false⟩
  kept : ∀ passed source, Match.fate ⟨kind, [c], false⟩ passed source = .kept kind

/-- The characters that have a rule of their own, with its kind. -/
def punctuation : List (Char × TokenKind) :=
  [('[', .arrayStart), (']', .arrayEnd), ('(', .tupleStart), (')', .tupleEnd), (':', .colon), (',', .comma)]

theorem isMark_punctuation {c : Char} {kind : TokenKind} (listed : (c, kind) ∈ punctuation) :
    IsMark c kind := by
  simp only [punctuation, List.mem_cons, Prod.mk.injEq, List.not_mem_nil, or_false] at listed
  rcases listed with ⟨rfl, rfl⟩ | ⟨rfl, rfl⟩ | ⟨rfl, rfl⟩ | ⟨rfl, rfl⟩ | ⟨rfl, rfl⟩ | ⟨rfl, rfl⟩
  · exact ⟨by decide, fun _ _ => firstMatch_of_take 9 rfl rfl rfl rfl, fun _ _ => rfl⟩
  · exact ⟨by decide, fun _ _ => firstMatch_of_take 10 rfl rfl rfl rfl, fun _ _ => rfl⟩
  · exact ⟨by decide, fun _ _ => firstMatch_of_take 11 rfl rfl rfl rfl, fun _ _ => rfl⟩
  · exact ⟨by decide, fun _ _ => firstMatch_of_take 12 rfl rfl rfl rfl, fun _ _ => rfl⟩
  · exact ⟨by decide, fun _ _ => firstMatch_of_take 13 rfl rfl rfl rfl, fun _ _ => rfl⟩
  · exact ⟨by decide, fun _ _ => firstMatch_of_take 14 rfl rfl rfl rfl, fun _ _ => rfl⟩

theorem isMark_delimiter {c : Char} (listed : c ∈ [';', '\x7b', '\x7d']) : IsMark c .delimiter := by
  have alone : ∀ c ∈ [';', '\x7b', '\x7d'],
      c ∉ Shape.operators ∧ c ∉ Shape.beforeEquals ∧ c ∈ breaks :=
    List.all_iff_forall_prop.mp (by decide)
  obtain ⟨noOperator, noEquals, parts⟩ := alone c listed
  refine ⟨parts, fun before rest => ?_, fun _ _ => rfl⟩
  have untaken := untaken_of_others noOperator noEquals rest 17 (by fin_cases listed <;> rfl)
  fin_cases listed <;> exact firstMatch_of_take 17 rfl untaken rfl rfl

/-- A delimiter is none of the characters that have a rule of their own. -/
theorem firstMatch_delimiter {before : Option Char} {rest : List Char} {c : Char} {closed : Bool}
    (matched : firstMatch before (c :: rest) = some ⟨.delimiter, [c], closed⟩)
    (listed : c ∈ Shape.delimiters) : c ∈ [';', '\x7b', '\x7d'] := by
  have split : ∀ c ∈ Shape.delimiters, c ∈ [';', '\x7b', '\x7d'] ∨ c ∈ punctuation.map Prod.fst :=
    List.all_iff_forall_prop.mp (by decide)
  rcases split c listed with rare | known
  · exact rare
  · obtain ⟨⟨c, kind⟩, marked, rfl⟩ := List.mem_map.mp known
    rw [(isMark_punctuation marked).matched] at matched
    cases matched
    exact absurd rfl ((by decide : ∀ mark ∈ punctuation, mark.2 ≠ .delimiter) _ marked)

theorem Shape.operator_eq_some {text rest : List Char} (isOperator : IsOperator text)
    (single : rest.head? ≠ some '=') : operator (text ++ rest) = some text := by
  cases isOperator with
  | single listed =>
      cases rest with
      | nil => exact if_pos (List.contains_iff_mem.mpr listed)
      | cons d rest =>
          have other : d ≠ '=' := fun same => single (congrArg some same)
          simp [operator, other, listed]
  | withEquals listed => exact if_pos (List.contains_iff_mem.mpr listed)

theorem Shape.comment_operator {text rest : List Char} (isOperator : IsOperator text) (after : AtBreak rest) :
    comment (text ++ rest) = none := by
  cases isOperator with
  | @single c =>
      by_cases slash : c = '/'
      · subst slash
        cases rest with
        | nil => rfl
        | cons d rest =>
            have all : ∀ c ∈ breaks, c ≠ '/' ∧ c ≠ '*' := List.all_iff_forall_prop.mp (by decide)
            obtain ⟨noLine, noBlock⟩ := all d (after d rfl)
            simp [comment, noLine, noBlock]
      · exact comment_eq_none slash rest
  | @withEquals c =>
      by_cases slash : c = '/'
      · subst slash
        rfl
      · exact comment_eq_none slash _

/-- No rule before the one for operators takes anything where an operator starts, but for comments. -/
theorem operator_untaken {c : Char} (listed : c ∈ Shape.operators ++ ['=', '!']) (rest : List Char) :
    (Rule.table.take 15).tail.all (fun rule => (rule.take (c :: rest)).isNone) = true := by
  fin_cases listed <;> rfl

theorem IsOperator.untaken {text : List Char} (isOperator : IsOperator text) (rest : List Char) :
    (Rule.table.take 15).tail.all (fun rule => (rule.take (text ++ rest)).isNone) = true := by
  have starts : ∀ c ∈ Shape.beforeEquals, c ∈ Shape.operators ++ ['=', '!'] :=
    List.all_iff_forall_prop.mp (by decide)
  cases isOperator with
  | single listed => exact operator_untaken (List.mem_append_left _ listed) rest
  | withEquals listed => exact operator_untaken (starts _ listed) _

theorem firstMatch_operator {before : Option Char} {text rest : List Char} (isOperator : IsOperator text)
    (after : AtBreak rest) : firstMatch before (text ++ rest) = some ⟨.operator, text, false⟩ := by
  have single : rest.head? ≠ some '=' := fun first => absurd (after '=' first) (by decide)
  have taken := Shape.operator_eq_some isOperator single
  refine firstMatch_eq 15 rfl ?_ (Rule.plain_apply .operator before taken)
  refine List.forall_mem_cons.mpr ⟨Rule.plain_apply_none (Shape.comment_operator isOperator after), ?_⟩
  exact fun rule member => Rule.apply_eq_none before
    (Option.isNone_iff_eq_none.mp (List.all_eq_true.mp (isOperator.untaken rest) rule member))

theorem firstMatch_assignment {before : Option Char} {rest : List Char} (single : rest.head? ≠ some '=') :
    firstMatch before ('=' :: rest) = some ⟨.assignment, ['='], false⟩ := by
  have noOperator : Shape.operator ('=' :: rest) = none := by
    cases rest with
    | nil => rfl
    | cons d rest =>
        have other : d ≠ '=' := fun same => single (congrArg some same)
        simp [Shape.operator, other, Shape.operators]
  refine firstMatch_of_take 16 rfl ?_ rfl rfl
  rw [show Rule.table.take 16 = Rule.table.take 15 ++ [.plain .operator Shape.operator] from rfl,
    List.all_append]
  simp only [List.all_cons, List.all_nil, Rule.plain, noOperator]
  rfl

/-- Between characters that part words, the text is cut into the symbols. -/
structure Word (text : String) (symbols : List Symbol) : Prop where
  lexes : ∀ {passed rest later}, AtBreak passed → AtBreak rest →
    Lexes (text.toList.reverse ++ passed) rest later → Lexes passed (text.toList ++ rest) (symbols ++ later)

theorem Word.alone {text : String} {symbols : List Symbol} (word : Word text symbols) :
    Lexes [] text.toList symbols := by
  have lexes : Lexes [] (text.toList ++ []) (symbols ++ []) := word.lexes nofun nofun .finish
  rwa [List.append_nil, List.append_nil] at lexes

/-- Anywhere the text is cut into the symbols, and it parts words. -/
structure Mark (text : String) (symbols : List Symbol) : Prop where
  nonempty : text.toList ≠ []
  first : AtBreak text.toList
  last : AtBreak text.toList.reverse
  lexes : ∀ {passed rest later}, Lexes (text.toList.reverse ++ passed) rest later →
    Lexes passed (text.toList ++ rest) (symbols ++ later)

theorem Mark.word {text : String} {symbols : List Symbol} (mark : Mark text symbols) : Word text symbols :=
  ⟨fun _ _ lexes => mark.lexes lexes⟩

theorem Mark.atBreak {text : String} {symbols : List Symbol} (mark : Mark text symbols) (rest : List Char) :
    AtBreak (text.toList ++ rest) := mark.first.append mark.nonempty rest

theorem Mark.atBreak_reverse {text : String} {symbols : List Symbol} (mark : Mark text symbols)
    (passed : List Char) : AtBreak (text.toList.reverse ++ passed) :=
  mark.last.append (List.reverse_ne_nil_iff.mpr mark.nonempty) passed

theorem Mark.append {text other : String} {symbols others : List Symbol} (mark : Mark text symbols)
    (markOther : Mark other others) : Mark (text ++ other) (symbols ++ others) where
  nonempty := by
    rw [String.toList_append]
    exact List.append_ne_nil_of_left_ne_nil mark.nonempty _
  first := by
    rw [String.toList_append]
    exact mark.atBreak _
  last := by
    rw [String.toList_append, List.reverse_append]
    exact markOther.atBreak_reverse _
  lexes := by
    intro passed rest later lexes
    rw [String.toList_append, List.reverse_append, List.append_assoc] at lexes
    rw [String.toList_append, List.append_assoc, List.append_assoc]
    exact mark.lexes (markOther.lexes lexes)

namespace Word

variable {text other mark close : String} {symbols others marks closes : List Symbol}

theorem append_mark (word : Word text symbols) (parts : Mark mark marks) :
    Word (text ++ mark) (symbols ++ marks) := by
  refine ⟨fun before _ lexes => ?_⟩
  rw [String.toList_append, List.reverse_append, List.append_assoc] at lexes
  rw [String.toList_append, List.append_assoc, List.append_assoc]
  exact word.lexes before (parts.atBreak _) (parts.lexes lexes)

theorem mark_append (parts : Mark mark marks) (word : Word text symbols) :
    Word (mark ++ text) (marks ++ symbols) := by
  refine ⟨fun _ after lexes => ?_⟩
  rw [String.toList_append, List.reverse_append, List.append_assoc] at lexes
  rw [String.toList_append, List.append_assoc, List.append_assoc]
  exact parts.lexes (word.lexes (parts.atBreak_reverse _) after lexes)

/-- Two words with a mark between them. -/
theorem between (word : Word text symbols) (parts : Mark mark marks) (wordOther : Word other others) :
    Word (text ++ mark ++ other) (symbols ++ marks ++ others) := by
  refine ⟨fun before after lexes => ?_⟩
  simp only [String.toList_append, List.reverse_append, List.append_assoc] at lexes ⊢
  have lexesOther := wordOther.lexes (parts.atBreak_reverse _) after lexes
  exact word.lexes before (parts.atBreak _) (parts.lexes lexesOther)

/-- A word with a mark on each side. -/
theorem enclose (parts : Mark mark marks) (word : Word text symbols) (partsAfter : Mark close closes) :
    Word (mark ++ text ++ close) (marks ++ symbols ++ closes) :=
  (mark_append parts word).append_mark partsAfter

end Word

section

variable {passed text rest : List Char} {symbols : List Symbol} {kind : TokenKind} {closed : Bool}

theorem Lexes.token (matched : firstMatch passed.head? (text ++ rest) = some ⟨kind, text, closed⟩)
    (fate : Match.fate ⟨kind, text, closed⟩ passed (text ++ rest) = .kept kind)
    (lexes : Lexes (text.reverse ++ passed) rest symbols) :
    Lexes passed (text ++ rest) (⟨kind, String.ofList text⟩ :: symbols) :=
  @Lexes.kept passed rest symbols kind ⟨kind, text, closed⟩ matched fate lexes

theorem Lexes.gap (matched : firstMatch passed.head? (text ++ rest) = some ⟨.blank, text, closed⟩)
    (lexes : Lexes (text.reverse ++ passed) rest symbols) : Lexes passed (text ++ rest) symbols :=
  @Lexes.dropped passed rest symbols ⟨.blank, text, closed⟩ matched rfl lexes

end

/-- What a source that lexes starts with, and that what comes after it lexes too. -/
theorem Lexes.of_match {passed rest : List Char} {symbols : List Symbol} (found : Match)
    (lexes : Lexes passed (found.text ++ rest) symbols)
    (matched : firstMatch passed.head? (found.text ++ rest) = some found) :
    found.fate passed (found.text ++ rest) = .dropped ∧ Lexes (found.text.reverse ++ passed) rest symbols ∨
      ∃ kind later, found.fate passed (found.text ++ rest) = .kept kind ∧
        symbols = ⟨kind, String.ofList found.text⟩ :: later ∧
        Lexes (found.text.reverse ++ passed) rest later := by
  have nonempty := (firstMatch_isCut matched).1
  generalize same : found.text ++ rest = source at lexes matched ⊢
  cases lexes with
  | finish => exact absurd (List.append_eq_nil_iff.mp same).1 nonempty
  | dropped matchedOther fate lexes =>
      cases matched.symm.trans matchedOther
      rw [List.append_cancel_left same]
      exact .inl ⟨fate, lexes⟩
  | kept matchedOther fate lexes =>
      cases matched.symm.trans matchedOther
      rw [List.append_cancel_left same]
      exact .inr ⟨_, _, fate, rfl, lexes⟩

/-- A word keeps its kind; the declarator is left aside, since its kind depends on what follows it. -/
theorem Match.fate_word {text : List Char} (other : String.ofList text ≠ Words.declarator)
    (passed source : List Char) : Match.fate ⟨wordKind (String.ofList text), text, false⟩ passed source =
      .kept (wordKind (String.ofList text)) := by
  rw [wordKind]
  split
  · exact if_neg fun declares => other declares.1
  · split
    · rfl
    · split <;> rfl

theorem word_name {word : String} (name : IsName word.toList) (other : word ≠ Words.declarator) :
    Word word [⟨wordKind word, word⟩] := by
  refine ⟨fun before after lexes => ?_⟩
  have step := Lexes.token (firstMatch_name name before.apart after.not_extendsWord)
    (Match.fate_word (by rwa [String.ofList_toList]) _ _) lexes
  rwa [String.ofList_toList] at step

theorem word_identifier {name : String} (isName : IsName name.toList) (unreserved : Unreserved name) :
    Word name [⟨.identifier, name⟩] := by
  obtain ⟨noKeyword, noType, noBoolean⟩ := unreserved
  have kind : wordKind name = .identifier := by
    rw [wordKind, if_neg noKeyword, if_neg noType, if_neg noBoolean]
  rw [← kind]
  refine word_name isName ?_
  rintro rfl
  exact noKeyword (by decide)

theorem word_keyword {word : String} (listed : word ∈ Words.keywords) (other : word ≠ Words.declarator) :
    Word word [⟨.keyword, word⟩] := by
  have names : ∀ word ∈ Words.keywords, IsName word.toList := by decide
  have kind : wordKind word = .keyword := if_pos listed
  rw [← kind]
  exact word_name (names word listed) other

theorem word_dataType {word : String} (listed : word ∈ Words.dataTypes) : Word word [⟨.dataType, word⟩] := by
  have all : ∀ word ∈ Words.dataTypes,
      IsName word.toList ∧ wordKind word = .dataType ∧ word ≠ Words.declarator := by decide
  obtain ⟨isName, kind, other⟩ := all word listed
  rw [← kind]
  exact word_name isName other

theorem word_number {text : List Char} (digits : IsDigits text) :
    Word (String.ofList text) [⟨.number, String.ofList text⟩] := by
  refine ⟨fun _ after lexes => ?_⟩
  rw [String.toList_ofList] at lexes ⊢
  exact Lexes.token (firstMatch_number digits after) rfl lexes

theorem word_boolean {word : String} (listed : word ∈ Words.booleans) : Word word [⟨.boolean, word⟩] := by
  have all : ∀ word ∈ Words.booleans,
      IsName word.toList ∧ wordKind word = .boolean ∧ word ≠ Words.declarator := by decide
  obtain ⟨isName, kind, other⟩ := all word listed
  rw [← kind]
  exact word_name isName other

theorem word_float {whole fraction : List Char} (digits : IsDigits whole) (digitsAfter : IsDigits fraction) :
    Word (String.ofList (whole ++ '.' :: fraction)) [⟨.float, String.ofList (whole ++ '.' :: fraction)⟩] := by
  refine ⟨fun _ after lexes => ?_⟩
  rw [String.toList_ofList] at lexes ⊢
  exact Lexes.token (firstMatch_float digits digitsAfter after) rfl lexes

/-- A text literal that was read with its closing quote. -/
theorem word_text {source : List Char} (closed : (Shape.textBody source).2 = true) :
    Word (String.ofList ('"' :: (Shape.textBody source).1))
      [⟨.text, String.ofList ('"' :: (Shape.textBody source).1)⟩] := by
  refine ⟨fun {passed rest _} _ _ lexes => ?_⟩
  have matched := firstMatch_quote passed.head? ((Shape.textBody source).1 ++ rest)
  rw [Shape.textBody_again rest closed, closed] at matched
  rw [String.toList_ofList] at lexes ⊢
  exact Lexes.token matched rfl lexes

theorem word_operator {operator : String} (isOperator : IsOperator operator.toList) :
    Word operator [⟨.operator, operator⟩] := by
  refine ⟨fun _ after lexes => ?_⟩
  have step := Lexes.token (firstMatch_operator isOperator after) rfl lexes
  rwa [String.ofList_toList] at step

theorem word_assignment : Word "=" [⟨.assignment, "="⟩] := by
  refine ⟨fun {passed rest _} _ after lexes => ?_⟩
  have single : rest.head? ≠ some '=' := fun first => absurd (after '=' first) (by decide)
  exact @Lexes.token _ ['='] _ _ _ _ (firstMatch_assignment single) rfl lexes

/-- A text that starts and ends with characters that part words is a mark. -/
theorem mark_of_ends {text : String} {symbols : List Symbol} {c d : Char} {tail init : List Char}
    (starts : text.toList = c :: tail) (parts : c ∈ breaks) (ends : text.toList = init ++ [d])
    (partsAfter : d ∈ breaks)
    (lexes : ∀ {passed rest later}, Lexes (text.toList.reverse ++ passed) rest later →
      Lexes passed (text.toList ++ rest) (symbols ++ later)) : Mark text symbols where
  nonempty := by
    rw [starts]
    exact List.cons_ne_nil _ _
  first := by
    rw [starts]
    rintro _ ⟨⟩
    exact parts
  last := by
    rw [ends, List.reverse_append]
    rintro _ ⟨⟩
    exact partsAfter
  lexes := lexes

theorem mark_single {c : Char} {symbols : List Symbol} (parts : c ∈ breaks)
    (lexes : ∀ {passed rest later}, Lexes (c :: passed) rest later →
      Lexes passed (c :: rest) (symbols ++ later)) : Mark (String.ofList [c]) symbols := by
  have single : (String.ofList [c]).toList = [c] := String.toList_ofList
  have ends : (String.ofList [c]).toList = [] ++ [c] := single
  refine mark_of_ends single parts ends parts fun lexesAfter => ?_
  rw [single] at lexesAfter ⊢
  exact lexes lexesAfter

theorem IsMark.mark {c : Char} {kind : TokenKind} (isMark : IsMark c kind) :
    Mark (String.ofList [c]) [⟨kind, String.ofList [c]⟩] :=
  mark_single isMark.parts fun lexes =>
    @Lexes.token _ [c] _ _ _ _ (isMark.matched _ _) (isMark.kept _ _) lexes

theorem mark_tupleStart : Mark "(" [⟨.tupleStart, "("⟩] := (isMark_punctuation (by decide)).mark

theorem mark_tupleEnd : Mark ")" [⟨.tupleEnd, ")"⟩] := (isMark_punctuation (by decide)).mark

theorem mark_arrayStart : Mark "[" [⟨.arrayStart, "["⟩] := (isMark_punctuation (by decide)).mark

theorem mark_arrayEnd : Mark "]" [⟨.arrayEnd, "]"⟩] := (isMark_punctuation (by decide)).mark

theorem mark_colon : Mark ":" [⟨.colon, ":"⟩] := (isMark_punctuation (by decide)).mark

theorem mark_comma : Mark "," [⟨.comma, ","⟩] := (isMark_punctuation (by decide)).mark

theorem mark_semicolon : Mark ";" [⟨.delimiter, ";"⟩] := (isMark_delimiter (by decide)).mark

theorem mark_opening : Mark "\x7b" [⟨.delimiter, "\x7b"⟩] := (isMark_delimiter (by decide)).mark

theorem mark_closing : Mark "\x7d" [⟨.delimiter, "\x7d"⟩] := (isMark_delimiter (by decide)).mark

/-- A run of blanks is one blank. -/
theorem firstMatch_layout (before : Option Char) {c : Char} (rest : List Char)
    (layout : Shape.isLayout c = true) :
    firstMatch before (c :: rest) = some ⟨.blank, c :: rest.takeWhile Shape.isLayout, false⟩ := by
  have noSlash : c ≠ '/' := by
    rintro rfl
    cases layout
  have taken : Shape.run Shape.isLayout (c :: rest) = some (c :: rest.takeWhile Shape.isLayout) :=
    Shape.run_eq_some_iff.mpr ⟨(List.takeWhile_cons_of_pos layout).symm, List.cons_ne_nil _ _⟩
  refine firstMatch_eq 1 rfl ?_ (Rule.plain_apply .blank before taken)
  simpa [Rule.table] using Rule.plain_apply_none (Shape.comment_eq_none noSlash rest)

/-- A run of blanks in front of a source can be passed over. -/
theorem lexes_dropWhile_layout {passed : List Char} (source : List Char) {symbols : List Symbol} :
    Lexes passed source symbols ↔ Lexes ((source.takeWhile Shape.isLayout).reverse ++ passed)
      (source.dropWhile Shape.isLayout) symbols := by
  cases source with
  | nil => exact Iff.rfl
  | cons c rest =>
      by_cases layout : Shape.isLayout c = true
      · have matched := firstMatch_layout passed.head? rest layout
        have split : c :: rest = (c :: rest.takeWhile Shape.isLayout) ++ rest.dropWhile Shape.isLayout := by
          rw [List.cons_append, List.takeWhile_append_dropWhile]
        rw [List.takeWhile_cons_of_pos layout, List.dropWhile_cons_of_pos layout]
        rw [split] at matched ⊢
        constructor
        · intro lexes
          rcases Lexes.of_match ⟨.blank, _, false⟩ lexes matched with ⟨-, later⟩ | ⟨kind, later, kept, -⟩
          · exact later
          · cases kept
        · exact Lexes.gap matched
      · rw [List.takeWhile_cons_of_neg layout, List.dropWhile_cons_of_neg layout]
        exact Iff.rfl

/-- A blank in front of a source changes none of its symbols, also where it joins other blanks. -/
theorem lexes_cons_layout {passed rest : List Char} {symbols : List Symbol} {c : Char}
    (layout : Shape.isLayout c = true) : Lexes passed (c :: rest) symbols ↔ Lexes (c :: passed) rest symbols := by
  rw [lexes_dropWhile_layout, lexes_dropWhile_layout rest, List.takeWhile_cons_of_pos layout,
    List.dropWhile_cons_of_pos layout, List.reverse_cons, List.append_assoc, List.singleton_append]

theorem Lexes.blank {passed rest : List Char} {symbols : List Symbol} {c : Char}
    (layout : Shape.isLayout c = true) (lexes : Lexes (c :: passed) rest symbols) :
    Lexes passed (c :: rest) symbols := (lexes_cons_layout layout).mpr lexes

theorem mark_blank {c : Char} (layout : Shape.isLayout c = true) (parts : c ∈ breaks) :
    Mark (String.ofList [c]) [] := mark_single parts fun lexes => lexes.blank layout

theorem mark_space : Mark " " [] := mark_blank (by decide : Shape.isLayout ' ' = true) (by decide)

theorem mark_commaSpace : Mark ", " [⟨.comma, ","⟩] := mark_comma.append mark_space

theorem mark_lineFeed : Mark "\n" [] := mark_blank (by decide : Shape.isLayout '\n' = true) (by decide)

/-- A word with a space on each side can stand anywhere. -/
theorem Word.spaced {text : String} {symbols : List Symbol} (word : Word text symbols) :
    Mark (" " ++ text ++ " ") symbols := by
  have spaced : (" " ++ text ++ " ").toList = ' ' :: text.toList ++ [' '] := by
    rw [String.toList_append, String.toList_append]
    rfl
  refine mark_of_ends spaced (by decide) spaced (by decide) fun {passed rest later} lexes => ?_
  rw [spaced, List.reverse_append, List.reverse_cons] at lexes
  rw [spaced, List.append_assoc, List.cons_append]
  refine Lexes.blank (by decide) (word.lexes atBreak_space atBreak_space (Lexes.blank (by decide) ?_))
  simpa using lexes

theorem mark_operator {operator : String} (isOperator : IsOperator operator.toList) :
    Mark (" " ++ operator ++ " ") [⟨.operator, operator⟩] := (word_operator isOperator).spaced

theorem mark_assignment : Mark " = " [⟨.assignment, "="⟩] := word_assignment.spaced

/-- Lines that are cut into the symbols one after the other. -/
inductive Lines : List String → List Symbol → Prop
  | nil : Lines [] []
  | cons {line lines symbols others} : Word line symbols → Lines lines others →
      Lines (line :: lines) (symbols ++ others)

theorem Lines.one {line : String} {symbols : List Symbol} (word : Word line symbols) :
    Lines [line] symbols := by
  rw [← List.append_nil symbols]
  exact .cons word .nil

theorem Lines.append {lines others : List String} {symbols more : List Symbol} (first : Lines lines symbols)
    (second : Lines others more) : Lines (lines ++ others) (symbols ++ more) := by
  induction first with
  | nil => exact second
  | cons word _ ih =>
      rw [List.append_assoc]
      exact .cons word ih

/-- The lines with line feeds between them are one text with all the symbols. -/
theorem Lines.word {line : String} {lines : List String} {symbols : List Symbol}
    (stand : Lines (line :: lines) symbols) : Word ("\n".intercalate (line :: lines)) symbols := by
  induction lines generalizing line symbols with
  | nil =>
      cases stand with
      | cons word none =>
          cases none
          rw [String.intercalate_singleton, List.append_nil]
          exact word
  | cons next lines ih =>
      cases stand with
      | cons word others =>
          rw [String.intercalate_cons_cons]
          have joined := word.between mark_lineFeed (ih others)
          rwa [List.append_nil] at joined

theorem Lines.lexes {lines : List String} {symbols : List Symbol} (stand : Lines lines symbols) :
    Lexes [] ("\n".intercalate lines).toList symbols := by
  cases lines with
  | nil =>
      cases stand
      exact .finish
  | cons line lines =>
      exact stand.word.alone

end BraceCompiler
