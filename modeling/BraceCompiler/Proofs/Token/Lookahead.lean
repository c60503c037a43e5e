import BraceCompiler.Proofs.Token.Reserved

/-! The look ahead of a declarator and the tokens after it. The look ahead reads text that has not been cut yet and knows
blanks of every kind, while tokens are parted by fewer kinds of blanks and `==` is an operator. In a source without
warnings and comments the two agree: a name and an equals sign come next exactly if a word and an assignment do. -/

namespace BraceCompiler

open Text

/-- Where a name can start, the rules up to the one for names decide, and all tokens they give are words. -/
theorem firstMatch_isWord {before : Option Char} {c : Char} {rest : List Char} {found : Match}
    (matched : firstMatch before (c :: rest) = some found) (starts : startsName c = true)
    (emitted : found.kind.isDropped = false) : found.kind.isWord = true := by
  have name := Rule.plain_apply .identifier before (Shape.identifier_eq_some_iff.mpr ⟨c, rest, rfl, starts, rfl⟩)
  have early : ((Rule.table.take 6).findSome? (·.apply before (c :: rest))).isSome = true := by
    refine List.findSome?_isSome_iff.mpr ⟨_, ?_, Option.isSome_iff_exists.mpr ⟨_, name⟩⟩
    exact List.getLast_mem (List.cons_ne_nil _ _)
  rw [firstMatch, ← List.take_append_drop 6 Rule.table, List.findSome?_append, Option.or_of_isSome early] at matched
  obtain ⟨rule, listed, applied⟩ := List.exists_of_findSome?_eq_some matched
  have kinds : ∀ kind ∈ (Rule.table.take 6).map Rule.kind, kind.isDropped = true ∨ kind.isWord = true := by decide
  rw [← (Rule.apply_eq_some applied).1] at emitted ⊢
  apply (kinds rule.kind (List.mem_map_of_mem listed)).resolve_left
  rw [emitted]
  exact Bool.false_ne_true

/-- No word goes on after a keyword. -/
theorem firstMatch_keyword_ends {before : Option Char} {rest : List Char} {found : Match}
    (matched : firstMatch before (found.text ++ rest) = some found) (keyword : found.kind = .keyword) :
    ∀ c ∈ rest.head?, extendsWord c = false := by
  obtain ⟨-, taken⟩ := Rule.apply_eq_some (firstMatch_sole matched keyword rfl)
  obtain ⟨text, takenShape, pair⟩ := Option.map_eq_some_iff.mp taken
  rw [(Prod.mk.inj pair).1] at takenShape
  exact not_of_takeWhile (by rw [← (Shape.word_eq_some_iff.mp takenShape).1])

/-- Two equals signs are an operator. -/
theorem firstMatch_equality (before : Option Char) (rest : List Char) :
    firstMatch before ('=' :: '=' :: rest) = some ⟨.operator, ['=', '='], false⟩ :=
  firstMatch_of_take 15 rfl rfl rfl rfl

theorem Piece.Between.assignment {passed rest : List Char} {piece : Piece} (between : piece.Between passed rest)
    (kept : piece.fate = .kept .assignment) : piece.text = ['='] ∧ rest.head? ≠ some '=' := by
  obtain @⟨place, ⟨kind, text, closed⟩, matched⟩ := between
  have becomes := Match.becomes_fate ⟨kind, text, closed⟩ passed (text ++ rest)
  rw [show Match.fate ⟨kind, text, closed⟩ passed (text ++ rest) = .kept .assignment from kept] at becomes
  cases becomes with
  | token =>
      obtain ⟨-, -, equals⟩ := firstMatch_isCut matched
      obtain rfl : text = ['='] := equals
      refine ⟨rfl, fun first => ?_⟩
      obtain ⟨more, rfl⟩ := List.head?_eq_some_iff.mp first
      rw [List.singleton_append, firstMatch_equality] at matched
      cases matched

theorem Match.Becomes.emitted {found : Match} {fate : Fate} {kind : TokenKind} (becomes : found.Becomes fate)
    (kept : fate = .kept kind) : found.kind.isDropped = false := by
  cases becomes with
  | token emitted _ => exact emitted
  | declarator keyword _ => rw [keyword]; rfl
  | comment | blank | closed | replaced | skipped => cases kept

theorem declaresNext_iff {tokens : List Token} : declaresNext (tokens.map Token.symbol) = true ↔
    ∃ word equals later, tokens = word :: equals :: later ∧ word.kind.isWord = true ∧ equals.kind = .assignment := by
  constructor
  · intro next
    match tokens with
    | [] | [_] => cases next
    | word :: equals :: later =>
        obtain ⟨isWord, assignment⟩ := Bool.and_eq_true_iff.mp next
        exact ⟨word, equals, later, rfl, isWord, beq_iff_eq.mp assignment⟩
  · rintro ⟨word, equals, later, rfl, isWord, assignment⟩
    exact Bool.and_eq_true_iff.mpr ⟨isWord, beq_iff_eq.mpr assignment⟩

section

variable {source : String} {before after : List Piece} {piece : Piece} {token : Token}

theorem quiet_of_clean (clean : warningsOf source = []) (member : piece ∈ pieces source) : piece.warning? = none :=
  List.filterMap_eq_nil_iff.mp clean piece member

theorem kept_of_token (clean : warningsOf source = []) (member : piece ∈ pieces source)
    (made : piece.token? = some token) : piece.fate = .kept token.kind ∧ token.lexeme.toList = piece.text := by
  have quiet := quiet_of_clean clean member
  obtain ⟨text, start, fate⟩ := piece
  rcases Piece.fate_of_clean quiet with rfl | ⟨kind, rfl⟩
  · cases made
  · cases made
    exact ⟨rfl, String.toList_ofList⟩

/-- A piece that is no token is a run of blanks. -/
theorem layout_of_no_token (clean : warningsOf source = [])
    (uncommented : ∀ piece ∈ pieces source, ¬ IsComment piece.text) (member : piece ∈ pieces source)
    (dropped : piece.token? = none) : ∀ c ∈ piece.text, isBlank c = true := by
  have quiet := quiet_of_clean clean member
  have noComment := uncommented piece member
  obtain ⟨before, after, split⟩ := List.append_of_mem member
  obtain ⟨-, -, between, -⟩ := pieces_split split
  obtain @⟨place, found, matched⟩ := between
  obtain ⟨-, -, belongs⟩ := firstMatch_isCut matched
  have becomes := found.becomes_fate (before.flatMap Piece.text).reverse (found.text ++ after.flatMap Piece.text)
  generalize found.fate (before.flatMap Piece.text).reverse (found.text ++ after.flatMap Piece.text) = fate
    at becomes quiet dropped
  cases becomes with
  | comment kind =>
      rw [kind] at belongs
      exact absurd belongs noComment
  | blank kind =>
      rw [kind] at belongs
      intro c inside
      rcases Shape.isLayout_cases (belongs c inside) with rfl | rfl | rfl | rfl <;> decide
  | skipped => cases quiet
  | token | declarator | closed | replaced => cases dropped

/-- A word and an assignment that come next are spelled as a declarator looks for them. -/
theorem declares_of_declaresNext (clean : warningsOf source = [])
    (uncommented : ∀ piece ∈ pieces source, ¬ IsComment piece.text) (split : pieces source = before ++ piece :: after)
    (ends : ∀ c ∈ (after.flatMap Piece.text).head?, extendsWord c = false)
    (next : declaresNext ((after.filterMap Piece.token?).map Token.symbol) = true) :
    Declares (after.flatMap Piece.text) := by
  obtain ⟨word, equals, later, tokens, isWord, assignment⟩ := declaresNext_iff.mp next
  obtain ⟨gap, wordPiece, rest, rfl, gapDropped, madeWord, tokens⟩ := List.filterMap_eq_cons_iff.mp tokens
  obtain ⟨space, equalsPiece, last, rfl, spaceDropped, madeEquals, -⟩ := List.filterMap_eq_cons_iff.mp tokens
  have inside : ∀ other ∈ gap ++ wordPiece :: (space ++ equalsPiece :: last), other ∈ pieces source := by
    intro other member
    rw [split]
    exact List.mem_append_right _ (List.mem_cons_of_mem _ member)
  have blanks : ∀ {parts : List Piece}, (∀ other ∈ parts, other ∈ pieces source) →
      (∀ other ∈ parts, other.token? = none) → ∀ c ∈ parts.flatMap Piece.text, isBlank c = true := by
    intro parts within dropped c member
    obtain ⟨other, listed, member⟩ := List.mem_flatMap.mp member
    exact layout_of_no_token clean uncommented (within other listed) (dropped other listed) c member
  have isName : IsName wordPiece.text := by
    have member := inside wordPiece (by simp)
    obtain ⟨-, belongs⟩ := tokensOf_language (List.mem_filterMap.mpr ⟨wordPiece, member, madeWord⟩)
    rw [← (kept_of_token clean member madeWord).2]
    exact belongs.isName isWord
  have single : equalsPiece.text = ['='] ∧ (last.flatMap Piece.text).head? ≠ some '=' := by
    have kept := (kept_of_token clean (inside equalsPiece (by simp)) madeEquals).1
    rw [assignment] at kept
    have splitEquals : pieces source =
        (before ++ piece :: (gap ++ wordPiece :: space)) ++ equalsPiece :: last := by simp [split]
    exact (pieces_split splitEquals).2.2.1.assignment kept
  have spelled : (gap ++ wordPiece :: (space ++ equalsPiece :: last)).flatMap Piece.text =
      gap.flatMap Piece.text ++ (wordPiece.text ++ (space.flatMap Piece.text ++ '=' :: last.flatMap Piece.text)) := by
    simp [single.1]
  rw [spelled] at ends ⊢
  refine .intro ?_ (blanks ?_ gapDropped) isName (blanks ?_ spaceDropped) single.2
  · -- With nothing between them the word would go on from the piece before it.
    intro empty
    rw [empty, List.nil_append] at ends
    generalize wordPiece.text = text at isName ends
    cases isName with
    | spelled starts _ =>
        have goesOn := extendsWord_of_continuesName (continuesName_of_startsName starts)
        rw [ends _ rfl] at goesOn
        cases goesOn
  · intro other listed
    exact inside other (by simp [listed])
  · intro other listed
    exact inside other (by simp [listed])

/-- The look ahead agrees with the tokens. -/
theorem declaresVariable_eq_declaresNext (clean : warningsOf source = [])
    (uncommented : ∀ piece ∈ pieces source, ¬ IsComment piece.text) (split : pieces source = before ++ piece :: after)
    (ends : ∀ c ∈ (after.flatMap Piece.text).head?, extendsWord c = false) :
    declaresVariable (after.flatMap Piece.text) =
      declaresNext ((after.filterMap Piece.token?).map Token.symbol) := by
  rw [Bool.eq_iff_iff, declaresVariable_iff]
  constructor
  · intro declares
    obtain ⟨-, -, -, scan⟩ := pieces_split split
    have quiet : after.filterMap Piece.warning? = [] := by
      refine List.filterMap_eq_nil_iff.mpr fun other member => quiet_of_clean clean ?_
      rw [split]
      exact List.mem_append_right _ (List.mem_cons_of_mem _ member)
    exact (scan.lexes quiet).declaresNext_of_declares declares
  · exact declares_of_declaresNext clean uncommented split ends

/-- A declarator in a source without warnings is matched as a keyword. -/
theorem declarator_keyword {found : Match} (clean : warningsOf source = [])
    (split : pieces source = before ++ piece :: after) (text : piece.text = found.text)
    (matched : firstMatch (before.flatMap Piece.text).reverse.head? (found.text ++ after.flatMap Piece.text) = some found)
    (same : found.text = Words.declarator.toList) (emitted : found.kind.isDropped = false) :
    found.kind = .keyword := by
  obtain ⟨-, -, belongs⟩ := firstMatch_isCut matched
  have isWord : found.kind.isWord = true := by
    have starts : firstMatch (before.flatMap Piece.text).reverse.head?
        ('x' :: ('e' :: 'c' :: after.flatMap Piece.text)) = some found := by
      rw [← matched, same]
      rfl
    exact firstMatch_isWord starts (by decide) emitted
  cases kind : found.kind with
  | keyword => rfl
  | dataType =>
      rw [kind, same] at belongs
      exact absurd (show String.ofList Words.declarator.toList ∈ Words.dataTypes from belongs) (by decide)
  | boolean =>
      rw [kind, same] at belongs
      exact absurd (show String.ofList Words.declarator.toList ∈ Words.booleans from belongs) (by decide)
  | identifier =>
      have reserved : ¬ Unreserved (String.ofList found.text) := by
        rw [same]
        exact fun unreserved => unreserved.1 (by decide)
      have silent : ∀ neighbour ∈ pieces source, ¬ neighbour.fate.isReported = true := by
        intro neighbour member reported
        have quiet := quiet_of_clean clean member
        obtain ⟨_, _, fate⟩ := neighbour
        rcases Piece.fate_of_clean quiet with rfl | ⟨_, rfl⟩ <;> cases reported
      rw [split] at silent
      rcases reported_beside split text matched kind reserved with ⟨_, _, rfl, reported⟩ | ⟨_, _, rfl, reported⟩
      · exact absurd reported (silent _ (by simp))
      · exact absurd reported (silent _ (by simp))
  | _ =>
      rw [kind] at isWord
      cases isWord

end

/-- In a source without warnings and comments a declarator is a name if a word and an assignment are the next tokens, and a
keyword if not. -/
theorem declarator_kind {source : String} {before after : List Token} {token : Token}
    (clean : warningsOf source = []) (uncommented : ∀ piece ∈ pieces source, ¬ IsComment piece.text)
    (split : tokensOf source = before ++ token :: after) (declarator : token.lexeme = Words.declarator) :
    token.kind = if declaresNext (after.map Token.symbol) then .identifier else .keyword := by
  obtain ⟨left, right, whole, -, tokens⟩ := List.filterMap_eq_append_iff.mp split
  obtain ⟨gap, piece, rest, rfl, -, made, rfl⟩ := List.filterMap_eq_cons_iff.mp tokens
  rw [← List.append_assoc] at whole
  have member : piece ∈ pieces source := by simp [whole]
  obtain ⟨kept, lexeme⟩ := kept_of_token clean member made
  rw [declarator] at lexeme
  obtain ⟨-, -, between, -⟩ := pieces_split whole
  obtain @⟨place, ⟨kind, text, closed⟩, matched⟩ := between
  obtain rfl : Words.declarator.toList = text := lexeme
  have emitted : kind.isDropped = false := (Match.becomes_fate ⟨kind, _, closed⟩ _ _).emitted kept
  obtain rfl : kind = .keyword := declarator_keyword clean whole rfl matched rfl emitted
  have fate := Match.fate_declarator String.ofList_toList closed ((left ++ gap).flatMap Piece.text).reverse
    (rest.flatMap Piece.text)
  rw [declaresVariable_eq_declaresNext clean uncommented whole (firstMatch_keyword_ends matched rfl)] at fate
  exact Fate.kept.inj (kept.symm.trans fate)

/-- A comment starts with a slash. -/
theorem IsComment.head? {text : List Char} (comment : IsComment text) : text.head? = some '/' := by
  cases comment <;> rfl

/-- A declarator before a reserved word and an equals sign, and one before a comparison. -/
theorem declarator_kind_comparison :
    tokensOf "xec\tif= xec b==1" =
      [⟨.identifier, "xec", ⟨1, 1⟩⟩, ⟨.keyword, "if", ⟨1, 5⟩⟩, ⟨.assignment, "=", ⟨1, 7⟩⟩] ++
        ⟨.keyword, "xec", ⟨1, 9⟩⟩ ::
          [⟨.identifier, "b", ⟨1, 13⟩⟩, ⟨.operator, "==", ⟨1, 14⟩⟩, ⟨.number, "1", ⟨1, 16⟩⟩] ∧
      TokenKind.identifier = (if declaresNext [⟨.keyword, "if"⟩, ⟨.assignment, "="⟩, ⟨.keyword, "xec"⟩,
        ⟨.identifier, "b"⟩, ⟨.operator, "=="⟩, ⟨.number, "1"⟩] then .identifier else .keyword) ∧
      TokenKind.keyword = (if declaresNext [⟨.identifier, "b"⟩, ⟨.operator, "=="⟩, ⟨.number, "1"⟩]
        then .identifier else .keyword) := by
  have heads : ∀ piece ∈ pieces "xec\tif= xec b==1", piece.text.head? ≠ some '/' := by decide
  have uncommented : ∀ piece ∈ pieces "xec\tif= xec b==1", ¬ IsComment piece.text :=
    fun piece member comment => heads piece member comment.head?
  have tokens : tokensOf "xec\tif= xec b==1" =
      [⟨.identifier, "xec", ⟨1, 1⟩⟩, ⟨.keyword, "if", ⟨1, 5⟩⟩, ⟨.assignment, "=", ⟨1, 7⟩⟩] ++
        ⟨.keyword, "xec", ⟨1, 9⟩⟩ ::
          [⟨.identifier, "b", ⟨1, 13⟩⟩, ⟨.operator, "==", ⟨1, 14⟩⟩, ⟨.number, "1", ⟨1, 16⟩⟩] := by decide
  refine ⟨tokens, ?_, ?_⟩
  · exact declarator_kind (by decide) uncommented (show _ = [] ++ _ :: _ from tokens) rfl
  · exact declarator_kind (by decide) uncommented tokens rfl

end BraceCompiler
