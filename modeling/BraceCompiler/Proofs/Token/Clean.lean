import BraceCompiler.Proofs.Reading.Phrase
import BraceCompiler.Proofs.Token.Scan
import Mathlib.Data.Bool.AllAny

/-! Sources that are cut without a warning, places left aside, and what their names can be. -/

namespace BraceCompiler

open Text

/-- What holds of the first 128 code points holds of every ASCII character. -/
theorem Text.of_ascii {P : Char → Prop} (all : ∀ n < 128, P (Char.ofNat n)) {c : Char} (ascii : c.toNat < 128) :
    P c := by
  have holds := all c.toNat ascii
  rwa [Char.ofNat_toNat] at holds

/-- Among ASCII characters a word goes on as a name does. -/
theorem Text.extendsWord_eq {c : Char} (ascii : c.toNat < 128) : extendsWord c = continuesName c :=
  of_ascii (P := fun c => extendsWord c = continuesName c) (by decide) ascii

theorem Text.ascii_of_continuesName {c : Char} (continues : continuesName c = true) : c.toNat < 128 := by
  have bounded : ∀ {low high : Char}, high.toNat < 128 → (decide (low ≤ c) && decide (c ≤ high)) = true →
      c.toNat < 128 := by
    intro low high small within
    obtain ⟨-, above⟩ := Bool.and_eq_true_iff.mp within
    exact Nat.lt_of_le_of_lt (of_decide_eq_true above) small
  rw [continuesName, startsName, isLetter, isDigit] at continues
  simp only [Bool.or_eq_true] at continues
  rcases continues with ((within | within) | same) | within
  · exact bounded (by decide) within
  · exact bounded (by decide) within
  · rw [beq_iff_eq.mp same]
    decide
  · exact bounded (by decide) within

theorem Text.extendsWord_of_continuesName {c : Char} (continues : continuesName c = true) :
    extendsWord c = true := by rw [extendsWord_eq (ascii_of_continuesName continues), continues]

theorem Text.continuesName_of_startsName {c : Char} (starts : startsName c = true) :
    continuesName c = true := by rw [continuesName, starts, Bool.true_or]

theorem Text.continuesName_of_isDigit {c : Char} (digit : isDigit c = true) : continuesName c = true := by
  rw [continuesName, digit, Bool.or_true]

theorem Text.startsName_eq_false {c : Char} (ends : continuesName c = false) : startsName c = false :=
  Bool.eq_false_iff.mpr fun starts => Bool.eq_false_iff.mp ends (continuesName_of_startsName starts)

theorem Text.continuesName_eq_false {c : Char} (ends : extendsWord c = false) : continuesName c = false :=
  Bool.eq_false_iff.mpr fun continues => Bool.eq_false_iff.mp ends (extendsWord_of_continuesName continues)

/-- A source after the text `passed`, nearest character first, gives these symbols and no warning. -/
inductive Lexes : (passed source : List Char) → List Symbol → Prop
  | finish {passed} : Lexes passed [] []
  | dropped {passed rest symbols} {found : Match} :
      firstMatch passed.head? (found.text ++ rest) = some found →
      found.fate passed (found.text ++ rest) = .dropped →
      Lexes (found.text.reverse ++ passed) rest symbols → Lexes passed (found.text ++ rest) symbols
  | kept {passed rest symbols kind} {found : Match} :
      firstMatch passed.head? (found.text ++ rest) = some found →
      found.fate passed (found.text ++ rest) = .kept kind →
      Lexes (found.text.reverse ++ passed) rest symbols →
      Lexes passed (found.text ++ rest) (⟨kind, String.ofList found.text⟩ :: symbols)

theorem Lexes.piecesFrom {passed source : List Char} {symbols : List Symbol}
    (lexes : Lexes passed source symbols) (place : Position) :
    ((BraceCompiler.piecesFrom passed place 0 source).filterMap Piece.token?).map Token.symbol = symbols ∧
      (BraceCompiler.piecesFrom passed place 0 source).filterMap Piece.warning? = [] := by
  induction lexes generalizing place with
  | finish => exact ⟨rfl, rfl⟩
  | dropped matched fate _ ih =>
      rw [piecesFrom_step place matched, fate]
      exact ih _
  | kept matched fate _ ih =>
      rw [piecesFrom_step place matched, fate]
      exact ⟨congrArg _ (ih _).1, (ih _).2⟩

/-- A source that lexes has these symbols and no warning. -/
theorem Lexes.tokensOf {source : String} {symbols : List Symbol} (lexes : Lexes [] source.toList symbols) :
    (tokensOf source).map Token.symbol = symbols ∧ warningsOf source = [] :=
  lexes.piecesFrom .origin

theorem Scan.lexes {passed source : List Char} {place : Position} {pieces : List Piece}
    (scan : Scan passed place source pieces) (clean : pieces.filterMap Piece.warning? = []) :
    Lexes passed source ((pieces.filterMap Piece.token?).map Token.symbol) := by
  induction scan with
  | finish => exact .finish
  | @step passed place rest later found matched _ ih =>
      cases fate : found.fate passed (found.text ++ rest) with
      | dropped =>
          rw [fate] at clean
          exact .dropped matched fate (ih clean)
      | kept kind =>
          rw [fate] at clean
          exact .kept matched fate (ih clean)
      | closed | replaced | skipped =>
          rw [fate] at clean
          cases clean

theorem language_of_symbol {source : String} {symbol : Symbol} (listed : symbol ∈ (tokensOf source).map Token.symbol) :
    symbol.kind.Language symbol.lexeme.toList := by
  obtain ⟨token, member, rfl⟩ := List.mem_map.mp listed
  exact (tokensOf_language member).2

theorem lexes_of_clean {source : String} (clean : warningsOf source = []) :
    Lexes [] source.toList ((tokensOf source).map Token.symbol) := (scan_pieces source).lexes clean

/-- No name starts or goes on right after a character that words do not follow. -/
def Parted (passed source : List Char) : Prop :=
  ∀ before ∈ passed.head?, precedesWord before = true → ∀ c ∈ source.head?, continuesName c = false

/-- What a shape takes keeps names apart from what comes after it. -/
def Shape.Parts (shape : List Char → Option (List Char)) : Prop :=
  ∀ text rest, shape (text ++ rest) = some text → Parted text.reverse rest

/-- A text that no word follows too closely. -/
theorem parted_of_last {text rest : List Char} (last : ∀ c ∈ text.getLast?, precedesWord c = false) :
    Parted text.reverse rest := by
  intro before first precedes
  rw [List.head?_reverse] at first
  rw [last before first] at precedes
  cases precedes

theorem parted_of_next {text rest : List Char} (next : ∀ c ∈ rest.head?, continuesName c = false) :
    Parted text.reverse rest := fun _ _ _ => next

theorem Parted.append {text passed rest : List Char} (parted : Parted text.reverse rest)
    (nonempty : text ≠ []) : Parted (text.reverse ++ passed) rest := by
  cases back : text.reverse with
  | nil => exact absurd (List.reverse_eq_nil_iff.mp back) nonempty
  | cons c back' =>
      rw [back] at parted
      exact parted

/-- What comes after a longest run does not belong to it. -/
theorem not_of_takeWhile {p : Char → Bool} {source rest : List Char}
    (split : source.takeWhile p ++ rest = source) : ∀ c ∈ rest.head?, p c = false := by
  intro c first
  have whole : source.takeWhile p ++ source.dropWhile p = source := List.takeWhile_append_dropWhile
  have ends := List.head?_dropWhile_not p source
  rw [List.append_cancel_left (whole.trans split.symm), first] at ends
  exact ends

namespace Shape

theorem isLayout_cases {c : Char} (layout : isLayout c = true) :
    c = ' ' ∨ c = '\t' ∨ c = '\r' ∨ c = '\n' := by
  simpa only [isLayout, Bool.or_eq_true, beq_iff_eq, or_assoc] using layout

theorem comment_parts : Parts comment := by
  intro text rest taken
  rw [comment.eq_def] at taken
  split at taken
  · rename_i later same
    cases taken
    have split : later.takeWhile (· != '\n') ++ rest = later := (List.cons.inj (List.cons.inj same).2).2
    refine parted_of_next fun c first => ?_
    have feed := not_of_takeWhile split c first
    rw [bne_eq_false_iff_eq.mp feed]
    decide
  · obtain ⟨body, takenBody, rfl⟩ := Option.map_eq_some_iff.mp taken
    obtain ⟨inside, rfl, -, -⟩ := blockEnd_eq_some takenBody
    refine parted_of_last fun c last => ?_
    rw [show '/' :: '*' :: (inside ++ ['*', '/']) = ('/' :: '*' :: inside ++ ['*']) ++ ['/'] by
      simp only [List.cons_append, List.append_assoc, List.nil_append], List.getLast?_concat] at last
    cases last
    decide
  · cases taken

theorem precedesWord_of_isLayout {c : Char} (layout : isLayout c = true) : precedesWord c = false := by
  rcases isLayout_cases layout with rfl | rfl | rfl | rfl <;> decide

theorem layout_parts : Parts (run isLayout) := by
  intro text rest taken
  refine parted_of_last fun c last => precedesWord_of_isLayout ?_
  exact (run_cuts isLayout _ _ taken).2.2.2 c (List.mem_of_getLast? last)

theorem word_parts (words : List String) : Parts (word words) := by
  intro text rest taken
  refine parted_of_next fun c first => ?_
  have ends := not_of_takeWhile (by rw [← (word_eq_some_iff.mp taken).1]) c first
  exact continuesName_eq_false ends

theorem identifier_eq_some_iff {source text : List Char} :
    identifier source = some text ↔ ∃ c rest, source = c :: rest ∧ startsName c = true ∧
      text = c :: rest.takeWhile continuesName := by
  cases source with
  | nil => simp [identifier]
  | cons c rest =>
      rw [identifier]
      constructor
      · intro taken
        split at taken
        · rename_i starts
          cases taken
          exact ⟨c, rest, rfl, starts, rfl⟩
        · cases taken
      · rintro ⟨_, _, ⟨⟩, starts, rfl⟩
        exact if_pos starts

/-- A name goes on as far as it can. -/
theorem identifier_longest {text rest : List Char} (taken : identifier (text ++ rest) = some text) :
    ∀ c ∈ rest.head?, continuesName c = false := by
  obtain ⟨first, later, same, -, rfl⟩ := identifier_eq_some_iff.mp taken
  exact not_of_takeWhile (List.cons.inj same).2

theorem identifier_parts : Parts identifier := fun _ _ taken => parted_of_next (identifier_longest taken)

theorem number_parts : Parts number := by
  intro text rest taken
  obtain ⟨longest, -, ends⟩ := number_eq_some_iff.mp taken
  have whole : (text ++ rest).takeWhile isDigit ++ (text ++ rest).dropWhile isDigit = text ++ rest :=
    List.takeWhile_append_dropWhile
  rw [← longest] at whole
  rw [List.append_cancel_left whole] at ends
  refine parted_of_next fun c first => continuesName_eq_false ?_
  cases rest with
  | nil => cases first
  | cons d rest =>
      cases first
      exact (Bool.not_eq_true' _).mp ends

theorem float_parts : Parts float := by
  intro text rest taken
  obtain ⟨whole, takenWhole, taken⟩ := Option.bind_eq_some_iff.mp taken
  obtain ⟨longest, -⟩ := run_eq_some_iff.mp takenWhole
  split at taken
  · rename_i later point
    obtain ⟨fraction, takenFraction, same⟩ := Option.bind_eq_some_iff.mp taken
    have source : whole ++ '.' :: later = text ++ rest := by
      rw [longest, ← point, List.takeWhile_append_dropWhile]
    cases same
    rw [List.append_assoc] at source
    obtain ⟨-, rfl⟩ := List.cons.inj (List.append_cancel_left source)
    -- What comes after the fraction comes after a number.
    rw [List.reverse_append, List.reverse_cons, List.append_assoc]
    exact (number_parts _ _ takenFraction).append (number_cuts _ _ takenFraction).1
  · cases taken

theorem textBody_last {source : List Char} (closed : (textBody source).2 = true) :
    (textBody source).1.getLast? = some '"' := by
  fun_induction textBody source with
  | case1 rest => rfl
  | case2 c rest body ends same ih =>
      rw [same] at ih
      rw [List.getLast?_cons, List.getLast?_cons, ih closed]
      rfl
  | case3 => cases closed
  | case4 c rest _ _ _ body ends same ih =>
      rw [same] at ih
      rw [List.getLast?_cons, ih closed]
      rfl
  | case5 => cases closed

theorem single_parts {p : Char → Bool} (apart : ∀ c, p c = true → precedesWord c = false) :
    Parts (single p) := by
  intro text rest taken
  obtain ⟨c, _, _, holds, rfl⟩ := single_eq_some_iff.mp taken
  refine parted_of_last fun d last => ?_
  cases last
  exact apart c holds

theorem operator_parts : Parts operator := by
  intro text rest taken
  refine parted_of_last fun c last => ?_
  obtain ⟨-, -, isOperator⟩ := operator_cuts _ _ taken
  have apart : ∀ c ∈ operators, precedesWord c = false := List.all_iff_forall_prop.mp (by decide)
  cases isOperator with
  | single listed =>
      cases last
      exact apart _ listed
  | withEquals _ =>
      cases last
      exact (by decide : precedesWord '=' = false)

end Shape

namespace Rule

/-- What a rule takes keeps names apart from what comes after it, unless it is a text without its close. -/
def Parts (rule : Rule) : Prop :=
  ∀ text rest closed, rule.take (text ++ rest) = some (text, closed) → (rule.kind = .text → closed = true) →
    Parted text.reverse rest

theorem plain_parts (kind : TokenKind) {shape : List Char → Option (List Char)} (parts : Shape.Parts shape) :
    (plain kind shape).Parts := by
  intro text rest closed taken _
  obtain ⟨_, takenShape, same⟩ := Option.map_eq_some_iff.mp taken
  cases same
  exact parts text rest takenShape

theorem words_parts {kind : TokenKind} {list : List String} : (words kind list).Parts :=
  plain_parts kind (Shape.word_parts list)

theorem char_parts {kind : TokenKind} {c : Char} (apart : precedesWord c = false) : (char kind c).Parts :=
  plain_parts _ (Shape.single_parts fun d same => by rw [beq_iff_eq.mp same]; exact apart)

theorem textLiteral_parts : textLiteral.Parts := by
  intro text rest closed taken close
  rw [textLiteral] at taken
  dsimp only at taken
  split at taken
  · cases taken
    have last := Shape.textBody_last (close rfl)
    refine parted_of_last fun c same => ?_
    rw [List.getLast?_cons, last] at same
    cases same
    decide
  · cases taken

theorem table_parts : ∀ rule ∈ table, rule.kind ≠ .mismatch → rule.Parts := by
  have delimiters : ∀ c ∈ Shape.delimiters, precedesWord c = false := List.all_iff_forall_prop.mp (by decide)
  simp only [table, List.forall_mem_cons]
  refine ⟨fun _ => plain_parts _ Shape.comment_parts, fun _ => plain_parts _ Shape.layout_parts,
    fun _ => words_parts, fun _ => words_parts, fun _ => words_parts,
    fun _ => plain_parts _ Shape.identifier_parts,
    fun _ => plain_parts _ Shape.float_parts, fun _ => plain_parts _ Shape.number_parts,
    fun _ => textLiteral_parts, fun _ => char_parts (by decide), fun _ => char_parts (by decide),
    fun _ => char_parts (by decide), fun _ => char_parts (by decide), fun _ => char_parts (by decide),
    fun _ => char_parts (by decide), fun _ => plain_parts _ Shape.operator_parts,
    fun _ => char_parts (by decide), fun _ => plain_parts _ (Shape.single_parts ?_),
    fun other => absurd rfl other, fun _ member => absurd member List.not_mem_nil⟩
  exact fun c listed => delimiters c (List.contains_iff_mem.mp listed)

end Rule

theorem firstMatch_parted {before : Option Char} {rest : List Char} {found : Match}
    (matched : firstMatch before (found.text ++ rest) = some found)
    (ruled : found.kind ≠ .mismatch) (closed : found.kind = .text → found.closed = true) :
    Parted found.text.reverse rest := by
  obtain ⟨rule, listed, applied⟩ := List.exists_of_findSome?_eq_some matched
  obtain ⟨kind, taken⟩ := Rule.apply_eq_some applied
  rw [← kind] at ruled closed
  exact Rule.table_parts rule listed ruled _ _ _ taken closed

/-- The word is none of those that have a meaning of their own. -/
def Unreserved (word : String) : Prop :=
  word ∉ Words.keywords ∧ word ∉ Words.dataTypes ∧ word ∉ Words.booleans

/-- The longest run is the text when nothing after the text belongs to it. -/
theorem takeWhile_eq {p : Char → Bool} {text rest : List Char} (all : ∀ c ∈ text, p c = true)
    (next : ∀ c ∈ rest.head?, p c = false) : (text ++ rest).takeWhile p = text := by
  rw [List.takeWhile_append_of_pos all]
  cases rest with
  | nil => exact List.append_nil text
  | cons c rest => rw [List.takeWhile_cons_of_neg (by rw [next c rfl]; decide), List.append_nil]

/-- A longest run ends at the latest at a character that does not belong to it. -/
theorem takeWhile_append_stop {p : Char → Bool} {c : Char} (stop : p c = false) (text rest : List Char) :
    (text ++ c :: rest).takeWhile p = text.takeWhile p := by
  induction text with
  | nil => simp [stop]
  | cons d text ih => simp [List.takeWhile_cons, ih]

theorem IsName.extendsWord {text : List Char} (name : IsName text) :
    ∀ c ∈ text, Text.extendsWord c = true := by
  cases name with
  | spelled starts continues =>
      intro c member
      rcases List.mem_cons.mp member with rfl | member
      · exact extendsWord_of_continuesName (continuesName_of_startsName starts)
      · exact extendsWord_of_continuesName (continues c member)

/-- A name is not a reserved word, since the rules for those come first. -/
theorem firstMatch_unreserved {before : Option Char} {rest : List Char} {found : Match}
    (matched : firstMatch before (found.text ++ rest) = some found) (kind : found.kind = .identifier)
    (apart : before.any precedesWord = false) (next : ∀ c ∈ rest.head?, extendsWord c = false) :
    Unreserved (String.ofList found.text) := by
  obtain ⟨-, -, name⟩ := firstMatch_isCut matched
  rw [kind] at name
  have skips := firstMatch_skips (Rule.table.take 5) _ rfl matched (by rw [kind]; decide)
  have unlisted : ∀ kind list, Rule.words kind list ∈ Rule.table.take 5 →
      String.ofList found.text ∉ list := by
    intro kind list earlier listed
    have longest := (takeWhile_eq (IsName.extendsWord name) next).symm
    have applied := Rule.words_apply kind apart (Shape.word_eq_some_iff.mpr ⟨longest, listed⟩)
    rw [skips _ earlier] at applied
    cases applied
  exact ⟨unlisted _ _ (.tail _ (.tail _ (.head _))), unlisted _ _ (.tail _ (.tail _ (.tail _ (.head _)))),
    unlisted _ _ (.tail _ (.tail _ (.tail _ (.tail _ (.head _)))))⟩

/-- Only a character without a rule can lie outside ASCII where a piece starts. -/
theorem TokenKind.Language.ascii {kind : TokenKind} {c : Char} {rest : List Char}
    (belongs : kind.Language (c :: rest)) (ruled : kind ≠ .mismatch) : c.toNat < 128 := by
  have spelled : ∀ {words : List String}, (∀ word ∈ words, word.toList.head?.all (·.toNat < 128) = true) →
      String.ofList (c :: rest) ∈ words → c.toNat < 128 := by
    intro words all listed
    have small := all _ listed
    rw [String.toList_ofList] at small
    exact of_decide_eq_true small
  have digit : isDigit c = true → c.toNat < 128 := fun digit =>
    ascii_of_continuesName (continuesName_of_isDigit digit)
  cases kind with
  | keyword | dataType | boolean => exact spelled (by decide) belongs
  | identifier =>
      cases belongs with
      | spelled starts _ => exact ascii_of_continuesName (continuesName_of_startsName starts)
  | number => exact digit (belongs.2 c List.mem_cons_self)
  | float =>
      obtain ⟨whole, fraction, same, digits, -⟩ := belongs
      cases whole with
      | nil => exact absurd rfl digits.1
      | cons d whole =>
          cases same
          exact digit (digits.2 c List.mem_cons_self)
  | text =>
      obtain ⟨body, same⟩ := belongs
      cases same
      decide
  | arrayStart | arrayEnd | tupleStart | tupleEnd | colon | comma | assignment =>
      cases belongs
      decide
  | operator =>
      have operators : ∀ c ∈ Shape.operators, c.toNat < 128 := List.all_iff_forall_prop.mp (by decide)
      have beforeEquals : ∀ c ∈ Shape.beforeEquals, c.toNat < 128 := List.all_iff_forall_prop.mp (by decide)
      cases belongs with
      | single listed => exact operators c listed
      | withEquals listed => exact beforeEquals c listed
  | delimiter =>
      have delimiters : ∀ c ∈ Shape.delimiters, c.toNat < 128 := List.all_iff_forall_prop.mp (by decide)
      obtain ⟨d, listed, same⟩ := belongs
      cases same
      exact delimiters c listed
  | comment => cases belongs <;> decide
  | blank =>
      rcases Shape.isLayout_cases (belongs c List.mem_cons_self) with rfl | rfl | rfl | rfl <;> decide
  | mismatch => exact absurd rfl ruled

/-- A match that gives no warning comes from a rule for something, and if it is a text it has its close. -/
theorem Match.ruled {found : Match} {passed source : List Char} {fate : Fate}
    (same : found.fate passed source = fate) (clean : fate = .dropped ∨ ∃ kind, fate = .kept kind) :
    found.kind ≠ .mismatch ∧ (found.kind = .text → found.closed = true) := by
  have becomes := found.becomes_fate passed source
  rw [same] at becomes
  rcases clean with rfl | ⟨_, rfl⟩
  · cases becomes with
    | comment kind | blank kind => simp [kind]
  · cases becomes with
    | token emitted closed =>
        refine ⟨fun kind => ?_, closed⟩
        rw [kind] at emitted
        cases emitted
    | declarator kind _ => simp [kind]

theorem Piece.fate_of_clean {text : List Char} {place : Position} {fate : Fate}
    (clean : Piece.warning? ⟨text, place, fate⟩ = none) : fate = .dropped ∨ ∃ kind, fate = .kept kind := by
  cases fate with
  | dropped => exact .inl rfl
  | kept kind => exact .inr ⟨kind, rfl⟩
  | closed | replaced | skipped => cases clean

/-- A source that lexes starts with an ASCII character. -/
theorem Lexes.ascii {passed rest : List Char} {c : Char} {symbols : List Symbol}
    (lexes : Lexes passed (c :: rest) symbols) : c.toNat < 128 := by
  generalize same : c :: rest = source at lexes
  have starts : ∀ {found : Match} {later : List Char}, c :: rest = found.text ++ later →
      firstMatch passed.head? (found.text ++ later) = some found → found.kind ≠ .mismatch →
      c.toNat < 128 := by
    intro found later split matched ruled
    obtain ⟨nonempty, -, belongs⟩ := firstMatch_isCut matched
    cases text : found.text with
    | nil => exact absurd text nonempty
    | cons d text' =>
        rw [text] at split belongs
        cases split
        exact belongs.ascii ruled
  cases lexes with
  | finish => cases same
  | dropped matched fate _ => exact starts same matched (Match.ruled fate (.inl rfl)).1
  | kept matched fate _ => exact starts same matched (Match.ruled fate (.inr ⟨_, rfl⟩)).1

/-- There is one rule for most kinds. -/
theorem Rule.eq_of_kind {rule sole : Rule} {kind : TokenKind} (listed : rule ∈ table) (same : rule.kind = kind)
    (only : table.filter (·.kind == kind) = [sole]) : rule = sole := by
  have found : rule ∈ table.filter (·.kind == kind) := List.mem_filter.mpr ⟨listed, beq_iff_eq.mpr same⟩
  rw [only] at found
  exact List.mem_singleton.mp found

theorem firstMatch_sole {before : Option Char} {source : List Char} {found : Match} {kind : TokenKind} {sole : Rule}
    (matched : firstMatch before source = some found) (same : found.kind = kind)
    (only : Rule.table.filter (·.kind == kind) = [sole]) : sole.apply before source = some found := by
  obtain ⟨rule, listed, applied⟩ := List.exists_of_findSome?_eq_some matched
  have ruled := (Rule.apply_eq_some applied).1
  rwa [Rule.eq_of_kind listed (ruled.trans same) only] at applied

theorem firstMatch_longest {before : Option Char} {rest : List Char} {found : Match}
    (matched : firstMatch before (found.text ++ rest) = some found) (kind : found.kind = .identifier) :
    ∀ c ∈ rest.head?, continuesName c = false := by
  obtain ⟨-, taken⟩ := Rule.apply_eq_some (firstMatch_sole matched kind rfl)
  obtain ⟨_, takenShape, same⟩ := Option.map_eq_some_iff.mp taken
  rw [(Prod.mk.inj same).1] at takenShape
  exact Shape.identifier_longest takenShape

/-- A name is not a reserved word when what comes after it lexes too. -/
theorem Lexes.unreserved {passed rest : List Char} {symbols : List Symbol} {found : Match}
    (matched : firstMatch passed.head? (found.text ++ rest) = some found) (kind : found.kind = .identifier)
    (parted : Parted passed (found.text ++ rest))
    (later : Lexes (found.text.reverse ++ passed) rest symbols) :
    Unreserved (String.ofList found.text) := by
  refine firstMatch_unreserved matched kind ?_ ?_
  · obtain ⟨-, -, name⟩ := firstMatch_isCut matched
    rw [kind] at name
    cases passed with
    | nil => rfl
    | cons before passed =>
        refine Bool.eq_false_iff.mpr fun precedes => ?_
        generalize found.text = text at name parted
        cases name with
        | spelled starts _ =>
            rw [startsName_eq_false (parted before rfl precedes _ rfl)] at starts
            cases starts
  · intro c first
    have ends := firstMatch_longest matched kind c first
    cases rest with
    | nil => cases first
    | cons d rest =>
        cases first
        rw [extendsWord_eq later.ascii, ends]

/-- Names are kept apart all along a clean source. -/
theorem Lexes.parted_after {passed rest : List Char} {found : Match} {fate : Fate}
    (matched : firstMatch passed.head? (found.text ++ rest) = some found)
    (same : found.fate passed (found.text ++ rest) = fate)
    (clean : fate = .dropped ∨ ∃ kind, fate = .kept kind) : Parted (found.text.reverse ++ passed) rest := by
  obtain ⟨ruled, closed⟩ := Match.ruled same clean
  exact (firstMatch_parted matched ruled closed).append (firstMatch_isCut matched).1

/-- The names in a clean source are not reserved words, but for the declarator. -/
theorem Lexes.names {passed source : List Char} {symbols : List Symbol} (lexes : Lexes passed source symbols)
    (parted : Parted passed source) : ∀ symbol ∈ symbols, symbol.kind = .identifier →
      symbol.lexeme = Words.declarator ∨ Unreserved symbol.lexeme := by
  induction lexes with
  | finish => exact fun _ member => absurd member List.not_mem_nil
  | dropped matched fate _ ih => exact ih (Lexes.parted_after matched fate (.inl rfl))
  | @kept passed rest symbols kind found matched fate later ih =>
      have others := ih (Lexes.parted_after matched fate (.inr ⟨_, rfl⟩))
      have becomes := found.becomes_fate passed (found.text ++ rest)
      rw [fate] at becomes
      cases becomes with
      | token =>
          exact List.forall_mem_cons.mpr
            ⟨fun kind => .inr (Lexes.unreserved matched kind parted later), others⟩
      | declarator _ same => exact List.forall_mem_cons.mpr ⟨fun _ => .inl same, others⟩

end BraceCompiler
