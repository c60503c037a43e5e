import BraceCompiler.Proofs.Token.Declarator
import BraceCompiler.Proofs.Token.Places

/-! Two sources with a line feed between them. Nothing but a text literal, a block comment or a declarator is
affected by what comes after a line feed, so if the first source leaves none of these open, the tokens of both
are the tokens of the first and, further down, those of the second. -/

namespace BraceCompiler

open Text

/-- The pieces that give a token or a warning. -/
def shown (pieces : List Piece) : List Piece := pieces.filter (·.fate != .dropped)

theorem shown_dropped (text : List Char) (place : Position) (pieces : List Piece) :
    shown (⟨text, place, .dropped⟩ :: pieces) = shown pieces := by
  unfold shown
  exact List.filter_cons_of_neg Bool.false_ne_true

/-- Views of the pieces that leave out what is dropped can be taken of the pieces that show. -/
theorem filterMap_shown {α : Type} {view : Piece → Option α}
    (blind : ∀ text place, view ⟨text, place, .dropped⟩ = none) (pieces : List Piece) :
    (shown pieces).filterMap view = pieces.filterMap view := by
  unfold shown
  rw [List.filterMap_filter]
  refine List.filterMap_congr fun piece _ => ?_
  obtain ⟨text, place, fate⟩ := piece
  cases fate with
  | dropped => simp [blind]
  | _ => rfl

theorem tokens_shown (pieces : List Piece) :
    (shown pieces).filterMap Piece.token? = pieces.filterMap Piece.token? :=
  filterMap_shown (fun _ _ => rfl) pieces

theorem warnings_shown (pieces : List Piece) :
    (shown pieces).filterMap Piece.warning? = pieces.filterMap Piece.warning? :=
  filterMap_shown (fun _ _ => rfl) pieces

theorem piecesFrom_layout (passed : List Char) (place : Position) {c : Char} (rest : List Char)
    (layout : Shape.isLayout c = true) : piecesFrom passed place 0 (c :: rest) =
      ⟨c :: rest.takeWhile Shape.isLayout, place, .dropped⟩ ::
        piecesFrom (c :: passed) (place.next c) (rest.takeWhile Shape.isLayout).length rest := by
  rw [piecesFrom, firstMatch_layout passed.head? rest layout]
  rfl

/-- A blank can be taken off the front of a source, also where more blanks follow it. -/
theorem shown_layout (passed : List Char) (place : Position) {c : Char} (rest : List Char)
    (layout : Shape.isLayout c = true) : shown (piecesFrom passed place 0 (c :: rest)) =
      shown (piecesFrom (c :: passed) (place.next c) 0 rest) := by
  rw [piecesFrom_layout passed place rest layout, shown_dropped]
  cases rest with
  | nil => rfl
  | cons d rest =>
      by_cases more : Shape.isLayout d = true
      · rw [List.takeWhile_cons_of_pos more, List.length_cons, piecesFrom,
          piecesFrom_layout _ _ _ more, shown_dropped]
      · rw [List.takeWhile_cons_of_neg more, List.length_nil]

theorem shown_layouts (passed : List Char) (place : Position) {text : List Char} (rest : List Char)
    (layout : ∀ c ∈ text, Shape.isLayout c = true) : shown (piecesFrom passed place 0 (text ++ rest)) =
      shown (piecesFrom (text.reverse ++ passed) (place.after text) 0 rest) := by
  induction text generalizing passed place with
  | nil => rfl
  | cons c text ih =>
      obtain ⟨first, others⟩ := List.forall_mem_cons.mp layout
      rw [List.cons_append, shown_layout _ _ _ first, ih _ _ others, List.reverse_cons, List.append_assoc]
      rfl

section

variable {p : Char → Bool} (stops : p '\n' = false) (source more : List Char)
include stops

theorem takeWhile_feed : (source ++ '\n' :: more).takeWhile p = source.takeWhile p :=
  takeWhile_append_stop stops source more

theorem dropWhile_feed : (source ++ '\n' :: more).dropWhile p = source.dropWhile p ++ '\n' :: more := by
  induction source with
  | nil => simp [stops]
  | cons c source ih =>
      by_cases holds : p c = true
      · simp [holds, ih]
      · simp [holds]

end

namespace Shape

/-- The shape takes the same whether the source ends or a line feed comes. -/
def Steady (shape : List Char → Option (List Char)) : Prop :=
  ∀ c rest more, shape (c :: (rest ++ '\n' :: more)) = shape (c :: rest)

theorem word_steady (words : List String) : Steady (word words) := by
  intro c rest more
  unfold word
  rw [← List.cons_append, takeWhile_feed (by decide)]

theorem identifier_steady : Steady identifier := by
  intro c rest more
  rw [identifier, identifier, takeWhile_feed (by decide)]

theorem atWordEnd_feed (source more : List Char) : atWordEnd (source ++ '\n' :: more) = atWordEnd source := by
  cases source with
  | nil => exact (by decide : (!extendsWord '\n') = true)
  | cons c source => rfl

theorem number_feed (source more : List Char) : number (source ++ '\n' :: more) = number source := by
  unfold number run
  rw [takeWhile_feed (by decide), dropWhile_feed (by decide), atWordEnd_feed]

theorem number_steady : Steady number := fun c rest => number_feed (c :: rest)

theorem float_steady : Steady float := by
  intro c rest more
  unfold float run
  rw [← List.cons_append, takeWhile_feed (by decide), dropWhile_feed (by decide)]
  cases (c :: rest).dropWhile isDigit with
  | nil => rfl
  | cons d later =>
      by_cases point : d = '.'
      · subst point
        simp only [List.cons_append, number_feed]
      · simp [point]

theorem single_steady (p : Char → Bool) : Steady (single p) := fun _ _ _ => rfl

theorem operator_steady : Steady operator := by
  intro c rest more
  cases rest with
  | nil => rfl
  | cons d rest =>
      by_cases equals : d = '='
      · subst equals
        rfl
      · simp [operator, equals]

theorem blockEnd_append {source text : List Char} (more : List Char) (taken : blockEnd source = some text) :
    blockEnd (source ++ more) = some text := by
  fun_induction blockEnd source generalizing text with
  | case1 rest => exact taken
  | case2 c rest other ih =>
      obtain ⟨later, takenLater, rfl⟩ := Option.map_eq_some_iff.mp taken
      rw [List.cons_append, blockEnd, ih takenLater, Option.map_some]
      rintro next rfl same
      -- The close would start in the source already.
      cases rest with
      | nil => cases takenLater
      | cons d rest =>
          cases same
          exact other _ rfl rfl
  | case3 => cases taken

theorem comment_feed {c : Char} {rest : List Char} (more : List Char)
    (closed : ∀ body, c :: rest = '/' :: '*' :: body → blockEnd body ≠ none) :
    comment (c :: (rest ++ '\n' :: more)) = comment (c :: rest) := by
  by_cases slash : c = '/'
  · subst slash
    cases rest with
    | nil => rfl
    | cons d rest =>
        by_cases line : d = '/'
        · subst line
          simp only [List.cons_append, comment]
          rw [takeWhile_feed (by decide)]
        · by_cases block : d = '*'
          · subst block
            obtain ⟨text, taken⟩ := Option.ne_none_iff_exists'.mp (closed rest rfl)
            simp only [List.cons_append, comment, taken, blockEnd_append _ taken]
          · simp [comment, line, block]
  · rw [comment_eq_none slash, comment_eq_none slash]

end Shape

theorem firstMatch_congr {before : Option Char} {source other : List Char}
    (same : ∀ rule ∈ Rule.table, rule.take source = rule.take other) :
    firstMatch before source = firstMatch before other := by
  unfold firstMatch
  rw [← List.head?_filterMap, ← List.head?_filterMap]
  refine congrArg _ (List.filterMap_congr fun rule listed => ?_)
  rw [Rule.apply, Rule.apply, same rule listed]

/-- A block comment without its close is read as an operator and what comes after it. -/
theorem firstMatch_openComment (before : Option Char) {body : List Char}
    (unclosed : Shape.blockEnd body = none) :
    firstMatch before ('/' :: '*' :: body) = some ⟨.operator, ['/'], false⟩ := by
  have noComment : Shape.comment ('/' :: '*' :: body) = none := by rw [Shape.comment, unclosed, Option.map_none]
  refine firstMatch_of_take 15 rfl ?_ rfl rfl
  rw [show Rule.table.take 15 = .plain .comment Shape.comment :: (Rule.table.take 15).tail from rfl,
    List.all_cons]
  simp only [Rule.plain, noComment]
  rfl

theorem Rule.plain_take_congr {shape : List Char → Option (List Char)} {source other : List Char}
    (kind : TokenKind) (same : shape source = shape other) :
    (plain kind shape).take source = (plain kind shape).take other := by simp only [plain, same]

/-- The rules take the same whether the source ends or a line feed comes, but for three that are told apart
by how the source starts. -/
theorem Rule.take_feed {c : Char} {rest : List Char} (more : List Char)
    (comments : Shape.comment (c :: (rest ++ '\n' :: more)) = Shape.comment (c :: rest))
    (noLayout : Shape.isLayout c = false) (closed : c = '"' → (Shape.textBody rest).2 = true) :
    ∀ rule ∈ table, rule.take (c :: (rest ++ '\n' :: more)) = rule.take (c :: rest) := by
  have steady : ∀ {kind shape}, Shape.Steady shape →
      (plain kind shape).take (c :: (rest ++ '\n' :: more)) = (plain kind shape).take (c :: rest) :=
    fun steady => plain_take_congr _ (steady c rest more)
  have word : ∀ {kind list}, (words kind list).take (c :: (rest ++ '\n' :: more)) =
      (words kind list).take (c :: rest) :=
    fun {kind list} => plain_take_congr kind (Shape.word_steady list c rest more)
  have single : ∀ {kind p}, (plain kind (Shape.single p)).take (c :: (rest ++ '\n' :: more)) =
      (plain kind (Shape.single p)).take (c :: rest) := steady (Shape.single_steady _)
  have blanks : Shape.run Shape.isLayout (c :: (rest ++ '\n' :: more)) =
      Shape.run Shape.isLayout (c :: rest) := by
    rw [Shape.run_eq_none noLayout, Shape.run_eq_none noLayout]
  have texts : textLiteral.take (c :: (rest ++ '\n' :: more)) = textLiteral.take (c :: rest) := by
    by_cases quote : c = '"'
    · subst quote
      simp only [textLiteral, Shape.textBody_append _ (closed rfl)]
    · simp [textLiteral, quote]
  simp only [table, List.forall_mem_cons]
  exact ⟨plain_take_congr _ comments, plain_take_congr _ blanks, word, word, word,
    steady Shape.identifier_steady, steady Shape.float_steady, steady Shape.number_steady, texts,
    single, single, single, single, single, single, steady Shape.operator_steady, single, single, single,
    fun _ member => absurd member List.not_mem_nil⟩

/-- What is matched before a line feed does not depend on what comes after it. -/
theorem firstMatch_feed {before : Option Char} {source : List Char} {found : Match} (more : List Char)
    (matched : firstMatch before source = some found) (visible : found.kind ≠ .blank)
    (closed : found.kind = .text → found.closed = true)
    (noOpening : found.kind = .operator → ¬ ['/', '*'] <+: source) :
    firstMatch before (source ++ '\n' :: more) = some found := by
  cases source with
  | nil =>
      obtain ⟨nonempty, part, -⟩ := firstMatch_isCut matched
      exact absurd (List.prefix_nil.mp part) nonempty
  | cons c rest =>
      rw [← matched]
      refine firstMatch_congr (Rule.take_feed more (Shape.comment_feed more ?_) ?_ ?_)
      · intro body same unclosed
        rw [same, firstMatch_openComment before unclosed] at matched
        cases matched
        exact noOpening rfl ⟨body, same.symm⟩
      · refine Bool.eq_false_iff.mpr fun layout => ?_
        rw [firstMatch_layout before rest layout] at matched
        cases matched
        exact visible rfl
      · rintro rfl
        rw [firstMatch_quote] at matched
        cases matched
        exact closed rfl

/-- A semicolon or a closing brace. -/
def Token.Closes (token : Token) : Prop := token.symbol ∈ [⟨.delimiter, ";"⟩, ⟨.delimiter, "\x7d"⟩]

/-- The last token, if there is one, is a semicolon or a closing brace. -/
def EndsClosed (tokens : List Token) : Prop := ∀ token ∈ tokens.getLast?, token.Closes

theorem EndsClosed.of_cons {token : Token} {tokens : List Token} (ends : EndsClosed (token :: tokens)) :
    EndsClosed tokens := by
  cases tokens with
  | nil => exact nofun
  | cons second tokens =>
      unfold EndsClosed at ends
      rwa [List.getLast?_cons_cons] at ends

theorem EndsClosed.exists_closes {token : Token} {tokens : List Token} (ends : EndsClosed (token :: tokens))
    (other : ¬ token.Closes) : ∃ last ∈ tokens, last.Closes := by
  cases last : tokens.getLast? with
  | none =>
      rw [List.getLast?_eq_none_iff.mp last] at ends
      exact absurd (ends token rfl) other
  | some closing => exact ⟨closing, List.mem_of_getLast? last, ends.of_cons closing last⟩

/-- Some operator is the start of a block comment that has no close. -/
def opensComment : List Piece → Bool
  | [] => false
  | piece :: later =>
    piece.fate == .kept .operator && ['/', '*'].isPrefixOf (piece.text ++ later.flatMap Piece.text) ||
      opensComment later

/-- A source with such a token has a character that ends every look ahead. -/
theorem Scan.closing_mem {passed source : List Char} {place : Position} {pieces : List Piece}
    (scan : Scan passed place source pieces) {token : Token} (listed : token ∈ pieces.filterMap Piece.token?)
    (closes : token.Closes) : ';' ∈ source ∨ '\x7d' ∈ source := by
  obtain ⟨⟨text, start, fate⟩, member, made⟩ := List.mem_filterMap.mp listed
  have part : ∀ c ∈ text, c ∈ source := by
    intro c inside
    rw [← scan.flatMap_text]
    exact List.mem_flatMap.mpr ⟨_, member, inside⟩
  unfold Token.Closes at closes
  cases fate with
  | kept kind =>
      cases made
      simp only [Token.symbol, List.mem_cons, Symbol.mk.injEq, List.not_mem_nil, or_false] at closes
      rcases closes with ⟨-, same⟩ | ⟨-, same⟩
      · have text : text = [';'] := by rw [← String.toList_ofList (l := text), same]; rfl
        exact .inl (part _ (by simp [text]))
      · have text : text = ['\x7d'] := by rw [← String.toList_ofList (l := text), same]; rfl
        exact .inr (part _ (by simp [text]))
  | closed | replaced =>
      cases made
      simp [Token.symbol] at closes
  | dropped | skipped => cases made

theorem declaresVariable_closing {source : List Char} (more : List Char)
    (closing : ';' ∈ source ∨ '\x7d' ∈ source) :
    declaresVariable (source ++ more) = declaresVariable source := by
  rcases closing with member | member
  · exact declaresVariable_append more member (by decide) (by decide) (by decide)
  · exact declaresVariable_append more member (by decide) (by decide) (by decide)

/-- What becomes of a match depends on what follows it only for a declarator. -/
theorem Match.fate_append {found : Match} {rest : List Char} (passed more : List Char)
    (lookAhead : found.kind = .keyword → declaresVariable (rest ++ more) = declaresVariable rest) :
    found.fate passed (found.text ++ (rest ++ more)) = found.fate passed (found.text ++ rest) := by
  obtain ⟨kind, text, closed⟩ := found
  cases kind with
  | keyword => simp only [fate, List.drop_left, lookAhead rfl]
  | _ => rfl

/-- A keyword is not the last token of such a source, so what it looks for is found or missed before the end. -/
theorem Scan.keyword_lookAhead {passed rest : List Char} {place start : Position} {later : List Piece}
    {found : Match} (scan : Scan passed place rest later) (more : List Char) {fate : Fate}
    (becomes : found.Becomes fate) (kind : found.kind = .keyword)
    (ends : EndsClosed ((⟨found.text, start, fate⟩ :: later).filterMap Piece.token?)) :
    declaresVariable (rest ++ more) = declaresVariable rest := by
  have reached : ∃ token ∈ later.filterMap Piece.token?, token.Closes := by
    cases becomes with
    | comment other | blank other | closed other | replaced other | skipped other =>
        rw [kind] at other
        cases other
    | token => exact ends.exists_closes (by simp [Token.Closes, Token.symbol, kind])
    | declarator => exact ends.exists_closes (by simp [Token.Closes, Token.symbol])
  obtain ⟨token, listed, closes⟩ := reached
  exact declaresVariable_closing more (scan.closing_mem listed closes)

theorem EndsClosed.later {piece : Piece} {later : List Piece}
    (ends : EndsClosed ((piece :: later).filterMap Piece.token?)) :
    EndsClosed (later.filterMap Piece.token?) := by
  cases made : piece.token? with
  | none => rwa [List.filterMap_cons_none made] at ends
  | some token =>
      rw [List.filterMap_cons_some made] at ends
      exact ends.of_cons

theorem shown_cons (piece : Piece) (pieces : List Piece) : shown (piece :: pieces) = shown [piece] ++ shown pieces :=
  List.filter_append [piece] pieces

/-- A clean source is cut in the same way when a line feed and more come after it. -/
theorem Scan.shown_feed {passed source : List Char} {place : Position} {pieces : List Piece}
    (scan : Scan passed place source pieces) (more : List Char)
    (clean : ∀ piece ∈ pieces, piece.warning? = none) (ends : EndsClosed (pieces.filterMap Piece.token?))
    (noOpening : opensComment pieces = false) :
    shown (piecesFrom passed place 0 (source ++ '\n' :: more)) = shown pieces ++
      shown (piecesFrom ('\n' :: (source.reverse ++ passed)) ((place.after source).next '\n') 0 more) := by
  induction scan with
  | finish => exact shown_layout _ _ more (by decide)
  | @step passed place rest later found matched scan ih =>
      obtain ⟨noOpening, noneLater⟩ := Bool.or_eq_false_iff.mp noOpening
      obtain ⟨cleanHere, cleanLater⟩ := List.forall_mem_cons.mp clean
      have ih := ih cleanLater ends.later noneLater
      rw [List.append_assoc, List.reverse_append, List.append_assoc, Position.after_append]
      by_cases blank : found.kind = .blank
      · -- Blanks at the end of the source join the line feed.
        obtain ⟨-, -, layout⟩ := firstMatch_isCut matched
        rw [blank] at layout
        have dropped : found.fate passed (found.text ++ rest) = .dropped := by simp only [Match.fate, blank]
        rw [shown_layouts _ _ _ layout, ih, dropped, shown_dropped]
      · have becomes := found.becomes_fate passed (found.text ++ rest)
        have noComment : found.kind = .operator → ¬ ['/', '*'] <+: found.text ++ rest := by
          intro kind starts
          have kept : found.fate passed (found.text ++ rest) = .kept .operator := by
            simp only [Match.fate, kind]
          rw [scan.flatMap_text, kept, List.isPrefixOf_iff_prefix.mpr starts] at noOpening
          cases noOpening
        have matchedFeed := firstMatch_feed more matched blank
          (Match.ruled rfl (Piece.fate_of_clean cleanHere)).2 noComment
        rw [List.append_assoc] at matchedFeed
        have lookAhead := fun kind => scan.keyword_lookAhead ('\n' :: more) becomes kind ends
        rw [piecesFrom_step place matchedFeed, Match.fate_append passed _ lookAhead, shown_cons, ih,
          shown_cons _ later, List.append_assoc]

/-- The place some lines below. -/
def Position.down (lines : Nat) (place : Position) : Position := ⟨place.line + lines, place.column⟩

def Token.down (lines : Nat) (token : Token) : Token := { token with position := token.position.down lines }

def Piece.down (lines : Nat) (piece : Piece) : Piece := { piece with start := piece.start.down lines }

theorem Position.down_next (lines : Nat) (place : Position) (c : Char) :
    (place.down lines).next c = (place.next c).down lines := by
  unfold next down
  split
  · simp only [Nat.add_right_comm]
  · rfl

theorem Position.down_after (lines : Nat) (place : Position) (text : List Char) :
    (place.down lines).after text = (place.after text).down lines := by
  induction text generalizing place with
  | nil => rfl
  | cons c text ih =>
      change ((place.down lines).next c).after text = _
      rw [down_next, ih]
      rfl

theorem Piece.down_token (lines : Nat) (piece : Piece) :
    (piece.down lines).token? = piece.token?.map (Token.down lines) := by
  obtain ⟨text, start, fate⟩ := piece
  cases fate <;> rfl

theorem Piece.down_warning {piece : Piece} (lines : Nat) (clean : piece.warning? = none) :
    (piece.down lines).warning? = none := by
  obtain ⟨text, start, fate⟩ := piece
  cases fate <;> first | rfl | cases clean

/-- A match looks back only to see whether a word can start. -/
theorem firstMatch_before {before other : Option Char} (source : List Char)
    (same : before.any precedesWord = other.any precedesWord) :
    firstMatch before source = firstMatch other source := by
  unfold firstMatch Rule.apply
  simp only [same]

theorem Match.fate_passed {found : Match} (passed other source : List Char) (ruled : found.kind ≠ .mismatch) :
    found.fate passed source = found.fate other source := by
  obtain ⟨kind, text, closed⟩ := found
  cases kind with
  | mismatch => exact absurd rfl ruled
  | _ => rfl

/-- A clean source is cut in the same way below other text that does not run into it. -/
theorem Scan.piecesFrom_down {passed source : List Char} {place : Position} {pieces : List Piece}
    (scan : Scan passed place source pieces) (lines : Nat) (other : List Char)
    (same : other.head?.any precedesWord = passed.head?.any precedesWord)
    (clean : ∀ piece ∈ pieces, piece.warning? = none) :
    piecesFrom other (place.down lines) 0 source = pieces.map (Piece.down lines) := by
  induction scan generalizing other with
  | finish => rfl
  | @step passed place rest later found matched _ ih =>
      obtain ⟨cleanHere, cleanLater⟩ := List.forall_mem_cons.mp clean
      obtain ⟨ruled, -⟩ := Match.ruled rfl (Piece.fate_of_clean cleanHere)
      have matchedOther := matched
      rw [← firstMatch_before _ same] at matchedOther
      have nonempty := List.reverse_ne_nil_iff.mpr (firstMatch_isCut matched).1
      have sameAfter : ((found.text.reverse ++ other).head?.any precedesWord) =
          (found.text.reverse ++ passed).head?.any precedesWord := by
        rw [List.head?_append_of_ne_nil _ nonempty, List.head?_append_of_ne_nil _ nonempty]
      rw [piecesFrom_step _ matchedOther, Match.fate_passed other passed _ ruled, Position.down_after,
        ih _ sameAfter cleanLater]
      rfl

/-- The pieces that show are those of the first source and, further down, those of the second. -/
theorem shown_pieces_joined {first second : String} (cleanFirst : ∀ piece ∈ pieces first, piece.warning? = none)
    (cleanSecond : ∀ piece ∈ pieces second, piece.warning? = none) (ends : EndsClosed (tokensOf first))
    (noOpening : opensComment (pieces first) = false) : shown (pieces (first ++ "\n" ++ second)) =
      shown (pieces first) ++
        shown ((pieces second).map (Piece.down (1 + first.toList.count '\n'))) := by
  have source : (first ++ "\n" ++ second).toList = first.toList ++ '\n' :: second.toList := by
    rw [String.toList_append, String.toList_append, List.append_assoc]
    rfl
  have place : (Position.origin.after first.toList).next '\n' =
      Position.origin.down (1 + first.toList.count '\n') := by
    rw [Position.after_origin, Position.afterText, Position.next, if_pos rfl, Position.down]
    simp only [Position.origin, Nat.add_comm]
  have below := (scan_pieces second).piecesFrom_down (1 + first.toList.count '\n')
    ('\n' :: (first.toList.reverse ++ [])) (by decide : precedesWord '\n' = false) cleanSecond
  have feed := (scan_pieces first).shown_feed second.toList cleanFirst ends noOpening
  rw [place, below] at feed
  unfold pieces at feed ⊢
  rw [source]
  exact feed

/-- Two clean sources with a line feed between them have the tokens of both, if the first ends in a semicolon
or a closing brace and leaves no comment open. The tokens of the second stand below the lines of the first. -/
theorem tokensOf_joined {first second : String} (cleanFirst : warningsOf first = [])
    (cleanSecond : warningsOf second = []) (ends : EndsClosed (tokensOf first))
    (noOpening : opensComment (pieces first) = false) :
    warningsOf (first ++ "\n" ++ second) = [] ∧
      tokensOf (first ++ "\n" ++ second) =
        tokensOf first ++ (tokensOf second).map (Token.down (1 + first.toList.count '\n')) := by
  have cleanSecond := List.filterMap_eq_nil_iff.mp cleanSecond
  have joined := shown_pieces_joined (List.filterMap_eq_nil_iff.mp cleanFirst) cleanSecond ends noOpening
  constructor
  · unfold warningsOf at cleanFirst ⊢
    rw [← warnings_shown, joined, List.filterMap_append, warnings_shown, warnings_shown, cleanFirst,
      List.nil_append, List.filterMap_map]
    exact List.filterMap_eq_nil_iff.mpr fun piece member => Piece.down_warning _ (cleanSecond piece member)
  · unfold tokensOf
    rw [← tokens_shown, joined, List.filterMap_append, tokens_shown, tokens_shown, List.filterMap_map,
      List.map_filterMap]
    refine congrArg _ (List.filterMap_congr fun piece _ => ?_)
    exact Piece.down_token _ piece

/-- A declarator that the semicolon stops, a text literal, comments of both kinds, and a line feed at the end. -/
theorem tokensOf_joined_declaration :
    warningsOf "xec a; /*\n*/ xec b = \"*/\"; // c\n" = [] ∧ warningsOf "xec d\n= 1.5" = [] ∧
      EndsClosed (tokensOf "xec a; /*\n*/ xec b = \"*/\"; // c\n") ∧
      opensComment (pieces "xec a; /*\n*/ xec b = \"*/\"; // c\n") = false ∧
      tokensOf ("xec a; /*\n*/ xec b = \"*/\"; // c\n" ++ "\n" ++ "xec d\n= 1.5") =
        tokensOf "xec a; /*\n*/ xec b = \"*/\"; // c\n" ++ (tokensOf "xec d\n= 1.5").map (Token.down 3) := by
  have cleanFirst : warningsOf "xec a; /*\n*/ xec b = \"*/\"; // c\n" = [] := by decide
  have cleanSecond : warningsOf "xec d\n= 1.5" = [] := by decide
  have ends : EndsClosed (tokensOf "xec a; /*\n*/ xec b = \"*/\"; // c\n") := by
    unfold EndsClosed Token.Closes
    decide
  have noOpening : opensComment (pieces "xec a; /*\n*/ xec b = \"*/\"; // c\n") = false := by decide
  exact ⟨cleanFirst, cleanSecond, ends, noOpening,
    (tokensOf_joined cleanFirst cleanSecond ends noOpening).2⟩

end BraceCompiler
