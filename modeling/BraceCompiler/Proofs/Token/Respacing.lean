import BraceCompiler.Proofs.Token.Declarator

/-! Tokens written again with single spaces between them. A lexeme between spaces is cut into its own token
whatever stood around it in the source, but for the declarator, whose kind depends on the tokens after it. -/

namespace BraceCompiler

open Text

/-- Words of the language: what a name can look like. -/
def TokenKind.isWord (kind : TokenKind) : Bool :=
  kind == .keyword || kind == .dataType || kind == .boolean || kind == .identifier

/-- A word and an assignment come first. -/
def declaresNext : List Symbol → Bool
  | word :: equals :: _ => word.kind.isWord && equals.kind == .assignment
  | _ => false

/-- Some declarator is a keyword, although a word and an assignment come after it. -/
def looseDeclarator : List Symbol → Bool
  | [] => false
  | symbol :: later =>
    symbol == ⟨.keyword, Words.declarator⟩ && declaresNext later || looseDeclarator later

theorem TokenKind.Language.isName {kind : TokenKind} {text : List Char} (belongs : kind.Language text)
    (word : kind.isWord = true) : IsName text := by
  have spelled : ∀ {words : List String}, (∀ word ∈ words, IsName word.toList) →
      String.ofList text ∈ words → IsName text := by
    intro words all listed
    have isName := all _ listed
    rwa [String.toList_ofList] at isName
  cases kind with
  | keyword | dataType | boolean => exact spelled (by decide) belongs
  | identifier => exact belongs
  | _ => cases word

/-- Blanks in a clean source are of the kinds that the rule for blanks knows. -/
theorem Lexes.layout_of_isBlank {passed rest : List Char} {symbols : List Symbol} {c : Char}
    (lexes : Lexes passed (c :: rest) symbols) (blank : isBlank c = true) : Shape.isLayout c = true := by
  by_contra noLayout
  have unknown : c = '\x0b' ∨ c = '\x0c' := by
    revert blank noLayout
    exact of_ascii (P := fun c => isBlank c = true → ¬ Shape.isLayout c = true → c = '\x0b' ∨ c = '\x0c')
      (by decide) lexes.ascii
  have matched : firstMatch passed.head? (c :: rest) = some ⟨.mismatch, [c], false⟩ := by
    rcases unknown with rfl | rfl
    · exact firstMatch_of_take 18 rfl (untaken_of_others (by decide) (by decide) rest 18 rfl) rfl rfl
    · exact firstMatch_of_take 18 rfl (untaken_of_others (by decide) (by decide) rest 18 rfl) rfl rfl
  rcases Lexes.of_match ⟨.mismatch, [c], false⟩ lexes matched with ⟨fate, -⟩ | ⟨kind, _, fate, -⟩
  · exact (Match.ruled fate (.inl rfl)).1 rfl
  · exact (Match.ruled fate (.inr ⟨kind, rfl⟩)).1 rfl

theorem Lexes.after_blanks {passed text rest : List Char} {symbols : List Symbol}
    (lexes : Lexes passed (text ++ rest) symbols) (blanks : ∀ c ∈ text, isBlank c = true) :
    (∀ c ∈ text, Shape.isLayout c = true) ∧ Lexes (text.reverse ++ passed) rest symbols := by
  induction text generalizing passed with
  | nil => exact ⟨nofun, lexes⟩
  | cons c text ih =>
      obtain ⟨blank, blanks⟩ := List.forall_mem_cons.mp blanks
      have layout := lexes.layout_of_isBlank blank
      obtain ⟨layouts, lexes⟩ := ih ((lexes_cons_layout layout).mp lexes) blanks
      rw [List.reverse_cons, List.append_assoc]
      exact ⟨List.forall_mem_cons.mpr ⟨layout, layouts⟩, lexes⟩

/-- No word runs on over a gap. -/
theorem apart_of_layout {gap : List Char} (passed : List Char) (layouts : ∀ c ∈ gap, Shape.isLayout c = true)
    (nonempty : gap ≠ []) : (gap.reverse ++ passed).head?.any precedesWord = false := by
  cases back : gap.reverse with
  | nil => exact absurd (List.reverse_eq_nil_iff.mp back) nonempty
  | cons c back' =>
      exact Shape.precedesWord_of_isLayout (layouts c (List.mem_reverse.mp (by simp [back])))

/-- A name gives a word, of whatever kind. -/
theorem Lexes.of_name {passed name rest : List Char} {symbols : List Symbol} (isName : IsName name)
    (apart : passed.head?.any precedesWord = false) (next : ∀ c ∈ rest.head?, extendsWord c = false)
    (lexes : Lexes passed (name ++ rest) symbols) : ∃ symbol later, symbols = symbol :: later ∧
      symbol.kind.isWord = true ∧ Lexes (name.reverse ++ passed) rest later := by
  have matched := firstMatch_name isName apart next
  have word : (wordKind (String.ofList name)).isWord = true := by
    unfold wordKind
    split
    · rfl
    · split
      · rfl
      · split <;> rfl
  have becomes := Match.becomes_fate ⟨wordKind (String.ofList name), name, false⟩ passed (name ++ rest)
  rcases Lexes.of_match ⟨_, name, false⟩ lexes matched with ⟨fate, -⟩ | ⟨kind, later, fate, rfl, after⟩
  · rw [fate] at becomes
    cases becomes with
    | comment kind | blank kind =>
        dsimp only at kind
        rw [kind] at word
        cases word
  · rw [fate] at becomes
    refine ⟨_, later, rfl, ?_, after⟩
    cases becomes with
    | token => exact word
    | declarator => rfl

/-- What a declarator looks for in the source, it finds among the tokens. -/
theorem Lexes.declaresNext_of_declares {passed source : List Char} {symbols : List Symbol}
    (lexes : Lexes passed source symbols) (declares : Declares source) : declaresNext symbols = true := by
  obtain @⟨gap, name, space, rest, nonempty, blanks, isName, blanksAfter, single⟩ := declares
  obtain ⟨layouts, lexes⟩ := lexes.after_blanks blanks
  have next := not_extendsWord_of_blanks blanksAfter rest
  obtain ⟨symbol, later, rfl, word, lexes⟩ := lexes.of_name isName (apart_of_layout passed layouts nonempty) next
  obtain ⟨-, lexes⟩ := lexes.after_blanks blanksAfter
  rcases Lexes.of_match ⟨.assignment, ['='], false⟩ lexes (firstMatch_assignment single) with
    ⟨fate, -⟩ | ⟨kind, last, fate, rfl, -⟩
  · cases fate
  · cases fate
    simp [declaresNext, word]

/-- A token of a clean source that is not a declarator gives itself between spaces. -/
theorem Lexes.word {passed rest : List Char} {symbols : List Symbol} {found : Match}
    (matched : firstMatch passed.head? (found.text ++ rest) = some found)
    (parted : Parted passed (found.text ++ rest)) (later : Lexes (found.text.reverse ++ passed) rest symbols)
    (emitted : found.kind.isDropped = false) (closed : found.kind = .text → found.closed = true)
    (other : found.kind = .keyword → String.ofList found.text ≠ Words.declarator) :
    Word (String.ofList found.text) [⟨found.kind, String.ofList found.text⟩] := by
  obtain ⟨-, -, belongs⟩ := firstMatch_isCut matched
  have unreserved := fun kind => Lexes.unreserved matched kind parted later
  obtain ⟨kind, text, ends⟩ := found
  dsimp only at *
  cases kind with
  | keyword => exact word_keyword belongs (other rfl)
  | dataType => exact word_dataType belongs
  | boolean => exact word_boolean belongs
  | identifier => exact word_identifier (by rwa [String.toList_ofList]) (unreserved rfl)
  | number => exact word_number belongs
  | float =>
      obtain ⟨whole, fraction, rfl, digits, digitsAfter⟩ := belongs
      exact word_float digits digitsAfter
  | text =>
      obtain ⟨body, rfl⟩ := belongs
      rw [List.cons_append, firstMatch_quote] at matched
      obtain ⟨-, same, open'⟩ := Match.mk.inj (Option.some.inj matched)
      rw [← same]
      exact word_text (open'.trans (closed rfl))
  | arrayStart => cases belongs; exact mark_arrayStart.word
  | arrayEnd => cases belongs; exact mark_arrayEnd.word
  | tupleStart => cases belongs; exact mark_tupleStart.word
  | tupleEnd => cases belongs; exact mark_tupleEnd.word
  | colon => cases belongs; exact mark_colon.word
  | comma => cases belongs; exact mark_comma.word
  | operator => exact word_operator (by rwa [String.toList_ofList])
  | assignment => cases belongs; exact word_assignment
  | delimiter =>
      obtain ⟨c, listed, rfl⟩ := belongs
      exact (isMark_delimiter (firstMatch_delimiter matched listed)).mark.word
  | comment | blank | mismatch => cases emitted

/-- Symbols whose lexemes give the same symbols again when spaces stand between them. -/
inductive Respaceable : List Symbol → Prop
  | nil : Respaceable []
  | word {symbol later} : symbol.kind.Language symbol.lexeme.toList → Word symbol.lexeme [symbol] →
      Respaceable later → Respaceable (symbol :: later)
  | declarator {kind later} : kind = (if declaresNext later then .identifier else .keyword) →
      Respaceable later → Respaceable (⟨kind, Words.declarator⟩ :: later)

theorem Respaceable.later {symbol : Symbol} {later : List Symbol}
    (respaceable : Respaceable (symbol :: later)) : Respaceable later := by
  cases respaceable with
  | word _ _ others | declarator _ others => exact others

theorem Respaceable.language {symbols : List Symbol} (respaceable : Respaceable symbols) :
    ∀ symbol ∈ symbols, symbol.kind.Language symbol.lexeme.toList := by
  induction respaceable with
  | nil => exact fun _ member => absurd member List.not_mem_nil
  | word belongs _ _ ih => exact List.forall_mem_cons.mpr ⟨belongs, ih⟩
  | declarator kind _ ih =>
      refine List.forall_mem_cons.mpr ⟨?_, ih⟩
      rw [kind]
      split
      · exact isName_declarator
      · exact (by decide : String.ofList Words.declarator.toList ∈ Words.keywords)

theorem Match.fate_declarator {text : List Char} (same : String.ofList text = Words.declarator)
    (closed : Bool) (passed rest : List Char) : Match.fate ⟨.keyword, text, closed⟩ passed (text ++ rest) =
      .kept (if declaresVariable rest then .identifier else .keyword) := by
  simp only [fate, same, true_and, List.drop_left]
  split <;> rfl

theorem Lexes.respaceable {passed source : List Char} {symbols : List Symbol}
    (lexes : Lexes passed source symbols) (parted : Parted passed source)
    (settled : looseDeclarator symbols = false) : Respaceable symbols := by
  induction lexes with
  | finish => exact .nil
  | dropped matched fate _ ih => exact ih (Lexes.parted_after matched fate (.inl rfl)) settled
  | @kept passed rest symbols kind found matched fate later ih =>
      obtain ⟨settledHere, settledLater⟩ := Bool.or_eq_false_iff.mp settled
      have others := ih (Lexes.parted_after matched fate (.inr ⟨_, rfl⟩)) settledLater
      by_cases declarator : found.kind = .keyword ∧ String.ofList found.text = Words.declarator
      · obtain ⟨foundKind, text, closed⟩ := found
        obtain ⟨keyword, same⟩ : foundKind = .keyword ∧ String.ofList text = Words.declarator := declarator
        subst keyword
        obtain rfl := Fate.kept.inj ((Match.fate_declarator same closed passed rest).symm.trans fate)
        rw [same] at settledHere ⊢
        refine .declarator ?_ others
        by_cases declares : declaresVariable rest = true
        · have next := later.declaresNext_of_declares (declaresVariable_iff.mp declares)
          rw [declares, next]
        · rw [if_neg declares] at settledHere ⊢
          rw [beq_self_eq_true, Bool.true_and] at settledHere
          rw [settledHere]
          rfl
      · have becomes := found.becomes_fate passed (found.text ++ rest)
        rw [fate] at becomes
        cases becomes with
        | token emitted closed =>
            refine .word ?_ (Lexes.word matched parted later emitted closed ?_) others
            · rw [String.toList_ofList]
              exact (firstMatch_isCut matched).2.2
            · exact fun keyword same => declarator ⟨keyword, same⟩
        | declarator keyword same => exact absurd ⟨keyword, same⟩ declarator

/-- The lexemes with a space in front of each of them. -/
def gapped : List Symbol → List Char
  | [] => []
  | symbol :: later => ' ' :: (symbol.lexeme.toList ++ gapped later)

theorem atBreak_gapped (symbols : List Symbol) : AtBreak (gapped symbols) := by
  cases symbols with
  | nil => exact nofun
  | cons symbol later => exact atBreak_space

/-- Single spaces between the lexemes. -/
theorem toList_intercalate_space (symbol : Symbol) (later : List Symbol) :
    (" ".intercalate ((symbol :: later).map Symbol.lexeme)).toList =
      symbol.lexeme.toList ++ gapped later := by
  induction later generalizing symbol with
  | nil => simp [gapped]
  | cons next later ih =>
      rw [List.map_cons, List.map_cons, String.intercalate_cons_cons, ← List.map_cons,
        String.toList_append, String.toList_append, ih, List.append_assoc]
      rfl

/-- A word and an assignment are found again by a declarator in front of them. -/
theorem Respaceable.declares_gapped {symbols : List Symbol} (respaceable : Respaceable symbols)
    (next : declaresNext symbols = true) : Declares (gapped symbols) := by
  match symbols with
  | [] | [_] => cases next
  | first :: second :: later =>
      obtain ⟨isWord, assignment⟩ := Bool.and_eq_true_iff.mp next
      obtain ⟨name, belongs⟩ := List.forall_mem_cons.mp respaceable.language
      obtain ⟨equals, -⟩ := List.forall_mem_cons.mp belongs
      rw [beq_iff_eq.mp assignment] at equals
      have single : (gapped later).head? ≠ some '=' :=
        fun starts => absurd (atBreak_gapped later '=' starts) (by decide)
      have blank : ∀ c ∈ [' '], isBlank c = true := List.forall_mem_singleton.mpr (by decide)
      have declares := Declares.intro (List.cons_ne_nil ' ' []) blank (name.isName isWord) blank single
      rw [gapped, gapped, show second.lexeme.toList = ['='] from equals]
      exact declares

theorem Respaceable.declaresVariable_gapped {symbols : List Symbol} (respaceable : Respaceable symbols)
    (passed : List Char) (lexes : Lexes passed (gapped symbols) symbols) :
    declaresVariable (gapped symbols) = declaresNext symbols := by
  rw [Bool.eq_iff_iff, declaresVariable_iff]
  exact ⟨lexes.declaresNext_of_declares, respaceable.declares_gapped⟩

/-- The first lexeme gives its symbol if those after it give theirs. -/
theorem Respaceable.lexes_cons {symbol : Symbol} {later : List Symbol} {passed : List Char}
    (respaceable : Respaceable (symbol :: later)) (before : AtBreak passed)
    (lexes : Lexes (symbol.lexeme.toList.reverse ++ passed) (gapped later) later) :
    Lexes passed (symbol.lexeme.toList ++ gapped later) (symbol :: later) := by
  have after := atBreak_gapped later
  cases respaceable with
  | word _ word _ => exact word.lexes before after lexes
  | declarator kind others =>
      have matched := firstMatch_name isName_declarator before.apart after.not_extendsWord
      have keyword : wordKind (String.ofList Words.declarator.toList) = .keyword := by
        rw [String.ofList_toList]
        decide
      rw [keyword] at matched
      have fate := Match.fate_declarator String.ofList_toList false passed (gapped later)
      rw [others.declaresVariable_gapped _ lexes, ← kind] at fate
      have step := Lexes.kept matched fate lexes
      rwa [String.ofList_toList] at step

theorem Respaceable.lexes_gapped {symbols : List Symbol} (respaceable : Respaceable symbols)
    (passed : List Char) : Lexes passed (gapped symbols) symbols := by
  induction symbols generalizing passed with
  | nil => exact .finish
  | cons symbol later ih =>
      exact Lexes.blank (by decide) (respaceable.lexes_cons atBreak_space (ih respaceable.later _))

theorem Respaceable.lexes {symbols : List Symbol} (respaceable : Respaceable symbols) :
    Lexes [] (" ".intercalate (symbols.map Symbol.lexeme)).toList symbols := by
  cases symbols with
  | nil => exact .finish
  | cons symbol later =>
      rw [toList_intercalate_space]
      exact respaceable.lexes_cons nofun (respaceable.later.lexes_gapped _)

/-- The tokens of a clean source give the same kinds and lexemes again when the lexemes are written with single
spaces between them, if no declarator among them is a keyword although a word and an assignment follow it. -/
theorem tokensOf_respaced {source : String} (clean : warningsOf source = [])
    (settled : looseDeclarator ((tokensOf source).map Token.symbol) = false) :
    warningsOf (" ".intercalate ((tokensOf source).map Token.lexeme)) = [] ∧
      (tokensOf (" ".intercalate ((tokensOf source).map Token.lexeme))).map Token.symbol =
        (tokensOf source).map Token.symbol := by
  have lexes := ((lexes_of_clean clean).respaceable nofun settled).lexes
  have lexemes : (tokensOf source).map Token.lexeme =
      ((tokensOf source).map Token.symbol).map Symbol.lexeme := by
    rw [List.map_map]
    rfl
  rw [lexemes]
  exact ⟨lexes.tokensOf.2, lexes.tokensOf.1⟩

/-- A declarator that is a name, one that is a keyword, a fraction, a text literal, a comment, and symbols with
nothing between them. -/
theorem tokensOf_respaced_declarators :
    warningsOf "xec a=[1.5,\"\\\"é\"];//x\nif(xec b==a)\x7b\x7d" = [] ∧
      looseDeclarator ((tokensOf "xec a=[1.5,\"\\\"é\"];//x\nif(xec b==a)\x7b\x7d").map Token.symbol) = false ∧
      (tokensOf "xec a = [ 1.5 , \"\\\"é\" ] ; if ( xec b == a ) \x7b \x7d").map Token.symbol =
        (tokensOf "xec a=[1.5,\"\\\"é\"];//x\nif(xec b==a)\x7b\x7d").map Token.symbol := by
  have clean : warningsOf "xec a=[1.5,\"\\\"é\"];//x\nif(xec b==a)\x7b\x7d" = [] := by decide
  have settled : looseDeclarator
      ((tokensOf "xec a=[1.5,\"\\\"é\"];//x\nif(xec b==a)\x7b\x7d").map Token.symbol) = false := by decide
  have joined : " ".intercalate ((tokensOf "xec a=[1.5,\"\\\"é\"];//x\nif(xec b==a)\x7b\x7d").map Token.lexeme) =
      "xec a = [ 1.5 , \"\\\"é\" ] ; if ( xec b == a ) \x7b \x7d" := by decide
  have respaced := tokensOf_respaced clean settled
  rw [joined] at respaced
  exact ⟨clean, settled, respaced.2⟩

/-- A comment hides the name from the declarator, so the declarator is a keyword there; without the comment it is
a name. -/
example : (tokensOf "xec/**/a = 1").map Token.symbol ≠ (tokensOf "xec a = 1").map Token.symbol := by decide

end BraceCompiler
