import BraceCompiler.Proofs.Token.Respacing
import BraceCompiler.Proofs.Token.Unclosed

/-! Reserved words among the names. The rules for reserved words are tried before the one for names, so a name is spelled
like a reserved word only where those rules are held back: by a character behind the word that no word follows, or by one
ahead of it into which the word runs on. No rule takes such a character, so there is a warning about it. -/

namespace BraceCompiler

open Text

/-- There is a warning about the piece, and it is not about a missing quote. -/
def Fate.isReported : Fate → Bool
  | .replaced | .skipped => true
  | .dropped | .kept _ | .closed => false

theorem Match.Becomes.ruled {found : Match} {fate : Fate} (becomes : found.Becomes fate)
    (quiet : fate.isReported = false) : found.kind ≠ .mismatch := by
  intro unruled
  cases becomes with
  | comment kind | blank kind | declarator kind _ | closed kind =>
      rw [kind] at unruled
      cases unruled
  | token emitted _ =>
      rw [unruled] at emitted
      cases emitted
  | replaced | skipped => cases quiet

theorem Match.Becomes.unruled {found : Match} {fate : Fate} (becomes : found.Becomes fate)
    (reported : fate.isReported = true) : found.kind = .mismatch := by
  cases becomes with
  | replaced kind | skipped kind => exact kind
  | comment | blank | token | declarator | closed => cases reported

namespace Piece.Between

variable {passed rest : List Char} {piece : Piece}

/-- A piece that is not reported starts with an ASCII character. -/
theorem ascii (between : piece.Between passed rest) (quiet : piece.fate.isReported = false) :
    ∀ c ∈ piece.text.head?, c.toNat < 128 := by
  obtain @⟨place, found, matched⟩ := between
  intro c first
  obtain ⟨later, same⟩ := List.head?_eq_some_iff.mp first
  obtain ⟨-, -, belongs⟩ := firstMatch_isCut matched
  rw [show found.text = c :: later from same] at belongs
  exact belongs.ascii ((found.becomes_fate passed (found.text ++ rest)).ruled quiet)

/-- A piece that is not reported keeps names apart from what comes after it. -/
theorem parted (between : piece.Between passed rest) (quiet : piece.fate.isReported = false) :
    Parted piece.text.reverse rest := by
  by_cases closed : piece.fate = .closed
  · -- A literal without its quote leaves nothing but a backslash.
    obtain ⟨body, -, left⟩ := between.unclosed closed
    apply parted_of_next
    intro c first
    rw [left] at first
    split at first
    · cases first
      decide
    · cases first
  · obtain @⟨place, found, matched⟩ := between
    apply firstMatch_parted matched ((found.becomes_fate passed (found.text ++ rest)).ruled quiet)
    intro isText
    by_contra unclosed
    exact closed (by simp [Match.fate, isText, unclosed])

/-- A piece that is reported is one character. -/
theorem single (between : piece.Between passed rest) (reported : piece.fate.isReported = true) :
    ∃ c, piece.text = [c] := by
  obtain @⟨place, found, matched⟩ := between
  obtain ⟨-, -, belongs⟩ := firstMatch_isCut matched
  rwa [(found.becomes_fate passed (found.text ++ rest)).unruled reported] at belongs

end Piece.Between

section

variable {source : String} {before after : List Piece} {piece : Piece}

/-- A name after a character that no word follows comes after a piece that is reported. -/
theorem reported_behind (split : pieces source = before ++ piece :: after) (isName : IsName piece.text)
    (precedes : (before.flatMap Piece.text).reverse.head?.any precedesWord = true) :
    ∃ earlier neighbour, before = earlier ++ [neighbour] ∧ neighbour.fate.isReported = true := by
  rcases before.eq_nil_or_concat' with rfl | ⟨earlier, neighbour, rfl⟩
  · cases precedes
  · refine ⟨earlier, neighbour, rfl, ?_⟩
    rw [List.append_assoc, List.singleton_append] at split
    obtain ⟨-, -, between, -⟩ := pieces_split split
    rw [List.flatMap_append, List.flatMap_singleton, List.reverse_append] at precedes
    obtain ⟨c, last, holds⟩ := Option.any_eq_true .. |>.mp precedes
    by_contra reported
    have parted := (between.parted (Bool.eq_false_iff.mpr reported)).append between.ne_nil c last holds
    rw [List.flatMap_cons] at parted
    generalize piece.text = text at isName parted
    cases isName with
    | spelled starts _ =>
        rw [startsName_eq_false (parted _ rfl)] at starts
        cases starts

/-- A name that is followed by a character into which it runs on as a word, but not as a name, comes before a piece that
is reported. -/
theorem reported_ahead (split : pieces source = before ++ piece :: after)
    (longest : ∀ c ∈ (after.flatMap Piece.text).head?, continuesName c = false)
    (extended : ¬ ∀ c ∈ (after.flatMap Piece.text).head?, extendsWord c = false) :
    ∃ neighbour later, after = neighbour :: later ∧ neighbour.fate.isReported = true := by
  cases after with
  | nil => exact absurd (fun _ first => absurd first (Option.not_mem_none _)) extended
  | cons neighbour later =>
      refine ⟨neighbour, later, rfl, ?_⟩
      rw [List.append_cons] at split
      obtain ⟨-, -, between, -⟩ := pieces_split split
      by_contra reported
      apply extended
      intro c first
      have ascii := between.ascii (Bool.eq_false_iff.mpr reported) c
      rw [extendsWord_eq (ascii ?_)]
      · exact longest c first
      · rw [List.flatMap_cons, List.head?_append_of_ne_nil _ between.ne_nil] at first
        exact first

/-- A reserved word that is matched as a name stands next to a piece that is reported. -/
theorem reported_beside {found : Match} (split : pieces source = before ++ piece :: after)
    (text : piece.text = found.text)
    (matched : firstMatch (before.flatMap Piece.text).reverse.head? (found.text ++ after.flatMap Piece.text) = some found)
    (kind : found.kind = .identifier) (reserved : ¬ Unreserved (String.ofList found.text)) :
    (∃ earlier neighbour, before = earlier ++ [neighbour] ∧ neighbour.fate.isReported = true) ∨
      ∃ neighbour later, after = neighbour :: later ∧ neighbour.fate.isReported = true := by
  by_cases precedes : (before.flatMap Piece.text).reverse.head?.any precedesWord = true
  · left
    obtain ⟨-, -, isName⟩ := firstMatch_isCut matched
    rw [kind, ← text] at isName
    exact reported_behind split isName precedes
  · right
    apply reported_ahead split (firstMatch_longest matched kind)
    intro ends
    exact reserved (firstMatch_unreserved matched kind (Bool.eq_false_iff.mpr precedes) ends)

end

/-- There is a warning that the character at the place was left out or read as an operator. -/
def Reported (source : String) (c : Char) (place : Position) : Prop :=
  .invalidCharacter (named c) place ∈ warningsOf source ∨
    .missingOperator (String.ofList [c]) recoveryOperator place ∈ warningsOf source

theorem reported_of_piece {source : String} {before after : List Piece} {piece : Piece}
    (split : pieces source = before ++ piece :: after) (reported : piece.fate.isReported = true) :
    ∃ c, piece.text = [c] ∧ Reported source c piece.start := by
  obtain ⟨-, -, between, -⟩ := pieces_split split
  obtain ⟨c, single⟩ := between.single reported
  refine ⟨c, single, ?_⟩
  have member : piece ∈ pieces source := by
    rw [split]
    exact List.mem_append_right _ List.mem_cons_self
  obtain ⟨text, start, fate⟩ := piece
  obtain rfl : text = [c] := single
  cases fate with
  | skipped =>
      have shown : String.join ([c].map named) = named c := String.empty_append
      exact .inl (List.mem_filterMap.mpr ⟨_, member, by rw [← shown]; rfl⟩)
  | replaced => exact .inr (List.mem_filterMap.mpr ⟨_, member, rfl⟩)
  | dropped | kept | closed => cases reported

/-- The token is a declarator that was matched as a keyword and is a name because of what follows it. -/
def Reclassified (source : String) (token : Token) : Prop :=
  token.lexeme = Words.declarator ∧ ∃ before after, source.toList = before ++ (token.lexeme.toList ++ after) ∧
    token.position = .afterText before ∧
    (firstMatch before.getLast? (token.lexeme.toList ++ after)).map Match.kind = some .keyword ∧
    declaresVariable after = true

/-- The character right before or right after the text of the token is reported. -/
def BesideReported (source : String) (token : Token) : Prop :=
  ∃ before after, source.toList = before ++ (token.lexeme.toList ++ after) ∧ token.position = .afterText before ∧
    ((∃ c ∈ before.getLast?, Reported source c (.afterText before.dropLast)) ∨
      ∃ c ∈ after.head?, Reported source c (.afterText (before ++ token.lexeme.toList)))

theorem besideReported_of_pieces {source : String} {before after : List Piece} {piece : Piece} {token : Token}
    (split : pieces source = before ++ piece :: after) (lexeme : token.lexeme.toList = piece.text)
    (position : token.position = piece.start)
    (beside : (∃ earlier neighbour, before = earlier ++ [neighbour] ∧ neighbour.fate.isReported = true) ∨
      ∃ neighbour later, after = neighbour :: later ∧ neighbour.fate.isReported = true) :
    BesideReported source token := by
  obtain ⟨whole, start, -, -⟩ := pieces_split split
  refine ⟨before.flatMap Piece.text, after.flatMap Piece.text, ?_, position.trans start, ?_⟩
  · rw [whole, lexeme]
  rcases beside with ⟨earlier, neighbour, rfl, reported⟩ | ⟨neighbour, later, rfl, reported⟩
  · left
    rw [List.append_assoc, List.singleton_append] at split
    obtain ⟨-, startNeighbour, -, -⟩ := pieces_split split
    obtain ⟨c, single, warned⟩ := reported_of_piece split reported
    rw [startNeighbour] at warned
    rw [List.flatMap_append, List.flatMap_singleton, single]
    refine ⟨c, List.getLast?_concat, ?_⟩
    rwa [List.dropLast_concat]
  · right
    rw [List.append_cons] at split
    obtain ⟨-, startNeighbour, -, -⟩ := pieces_split split
    obtain ⟨c, single, warned⟩ := reported_of_piece split reported
    rw [startNeighbour, List.flatMap_append, List.flatMap_singleton, ← lexeme] at warned
    refine ⟨c, ?_, warned⟩
    rw [List.flatMap_cons, single]
    rfl

/-- What makes a declarator that was matched as a keyword a name. -/
theorem declaresVariable_of_kept {found : Match} {passed rest : List Char} (keyword : found.kind = .keyword)
    (same : String.ofList found.text = Words.declarator)
    (kept : found.fate passed (found.text ++ rest) = .kept .identifier) : declaresVariable rest = true := by
  obtain ⟨_, text, closed⟩ := found
  cases keyword
  rw [Match.fate_declarator same] at kept
  by_contra missing
  rw [if_neg missing] at kept
  cases kept

theorem reclassified_or_besideReported {source : String} {token : Token} (member : token ∈ tokensOf source)
    (name : token.kind = .identifier) (reserved : ¬ Unreserved token.lexeme) :
    Reclassified source token ∨ BesideReported source token := by
  obtain ⟨piece, listed, made⟩ := List.mem_filterMap.mp member
  obtain ⟨before, after, split⟩ := List.append_of_mem listed
  obtain ⟨whole, start, between, -⟩ := pieces_split split
  obtain @⟨place, found, matched⟩ := between
  have becomes := found.becomes_fate (before.flatMap Piece.text).reverse (found.text ++ after.flatMap Piece.text)
  generalize decided : found.fate (before.flatMap Piece.text).reverse (found.text ++ after.flatMap Piece.text) = fate
    at becomes made split
  cases becomes with
  | comment | blank | skipped => cases made
  | closed | replaced =>
      cases made
      cases name
  | token =>
      cases made
      right
      exact besideReported_of_pieces split String.toList_ofList rfl (reported_beside split rfl matched name reserved)
  | declarator keyword same =>
      cases made
      left
      refine ⟨same, before.flatMap Piece.text, after.flatMap Piece.text, ?_, start, ?_, ?_⟩
      · rw [whole, String.toList_ofList]
      · rw [String.toList_ofList, ← List.head?_reverse, matched, Option.map_some, keyword]
      · exact declaresVariable_of_kept keyword same decided

/-- A name that is spelled like a reserved word is a reclassified declarator, or a warning is about a character right
beside it. So in a source without warnings the declarator is the only reserved word among the names. -/
theorem reserved_names_reported (source : String) :
    (∀ token ∈ tokensOf source, token.kind = .identifier → ¬ Unreserved token.lexeme → ¬ Reclassified source token →
      BesideReported source token) ∧
    (warningsOf source = [] → ∀ token ∈ tokensOf source, token.kind = .identifier → ¬ Unreserved token.lexeme →
      token.lexeme = Words.declarator) := by
  constructor
  · intro token member name reserved other
    exact (reclassified_or_besideReported member name reserved).resolve_left other
  · intro clean token member name reserved
    rcases reclassified_or_besideReported member name reserved with reclassified | ⟨_, _, -, -, beside⟩
    · exact reclassified.1
    · have silent : ∀ c place, ¬ Reported source c place := by
        rintro c place (warned | warned) <;> rw [clean] at warned <;> cases warned
      rcases beside with ⟨c, -, reported⟩ | ⟨c, -, reported⟩
      · exact absurd reported (silent _ _)
      · exact absurd reported (silent _ _)

/-- A digit that runs on into a reserved word, and a mark into which a reserved word runs on. -/
theorem reserved_names_reported_glued :
    ⟨.identifier, "true", ⟨1, 2⟩⟩ ∈ tokensOf "3true if\u0301" ∧ BesideReported "3true if\u0301" ⟨.identifier, "true", ⟨1, 2⟩⟩ ∧
      ⟨.identifier, "if", ⟨1, 7⟩⟩ ∈ tokensOf "3true if\u0301" ∧
      BesideReported "3true if\u0301" ⟨.identifier, "if", ⟨1, 7⟩⟩ := by
  have first : ⟨.identifier, "true", ⟨1, 2⟩⟩ ∈ tokensOf "3true if\u0301" := by decide
  have second : ⟨.identifier, "if", ⟨1, 7⟩⟩ ∈ tokensOf "3true if\u0301" := by decide
  have beside := (reserved_names_reported "3true if\u0301").1
  refine ⟨first, beside _ first rfl ?_ ?_, second, beside _ second rfl ?_ ?_⟩
  · exact fun unreserved => unreserved.2.2 (by decide)
  · exact fun reclassified => absurd reclassified.1 (by decide)
  · exact fun unreserved => unreserved.1 (by decide)
  · exact fun reclassified => absurd reclassified.1 (by decide)

end BraceCompiler
