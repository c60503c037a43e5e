import BraceCompiler.Proofs.Token.Places
import BraceCompiler.Proofs.Token.Spelling

/-! Text literals without a closing quote. Such a literal takes all that is left of the source, but for one backslash:
the last of an odd number of backslashes at the end of the source has no character to go with. -/

namespace BraceCompiler

/-- The number of backslashes at the end of a text. -/
def endSlashes (text : List Char) : Nat := (text.reverse.takeWhile (· == '\\')).length

/-- Only what comes after the last other character counts. -/
theorem endSlashes_after {c : Char} (other : c ≠ '\\') (before text : List Char) :
    endSlashes (before ++ c :: text) = endSlashes text := by
  have reversed : (before ++ c :: text).reverse = text.reverse ++ c :: before.reverse := by simp
  rw [endSlashes, reversed, takeWhile_append_stop (p := (· == '\\')) (beq_false_of_ne other), endSlashes]

/-- A backslash and the character that goes with it do not change whether one is left over. -/
theorem endSlashes_pair (c : Char) (text : List Char) :
    endSlashes ('\\' :: c :: text) % 2 = endSlashes text % 2 := by
  by_cases slash : c = '\\'
  · subst slash
    rw [endSlashes, endSlashes, List.reverse_cons, List.reverse_cons, List.append_assoc, List.takeWhile_append]
    split
    · rename_i all
      simp [all]
    · rfl
  · exact congrArg (· % 2) (endSlashes_after slash ['\\'] text)

theorem Shape.textBody_unclosed {source : List Char} (unclosed : (textBody source).2 = false) :
    source = (textBody source).1 ++ if endSlashes source % 2 = 1 then ['\\'] else [] := by
  fun_induction textBody source with
  | case1 rest => cases unclosed
  | case2 c rest body closed same ih =>
      rw [same] at ih
      rw [endSlashes_pair, List.cons_append, List.cons_append, ← ih unclosed]
  | case3 => rfl
  | case4 c rest quote pair slash body closed same ih =>
      have other : c ≠ '\\' := by
        rintro rfl
        cases rest with
        | nil => exact slash rfl rfl
        | cons d rest => exact pair d rest rfl rfl
      rw [same] at ih
      rw [show endSlashes (c :: rest) = endSlashes rest from endSlashes_after other [] rest, List.cons_append,
        ← ih unclosed]
  | case5 => rfl

/-- The text of a piece is not empty. -/
theorem Piece.Between.ne_nil {passed rest : List Char} {piece : Piece} (between : piece.Between passed rest) :
    piece.text ≠ [] := by
  obtain ⟨matched⟩ := between
  exact (firstMatch_isCut matched).1

/-- A literal that is given its closing quote starts with a quote, and nothing but a lone backslash comes after it. -/
theorem Piece.Between.unclosed {passed rest : List Char} {piece : Piece} (between : piece.Between passed rest)
    (fate : piece.fate = .closed) : ∃ body, piece.text = '"' :: body ∧
      rest = if endSlashes (body ++ rest) % 2 = 1 then ['\\'] else [] := by
  obtain @⟨place, found, matched⟩ := between
  have becomes := found.becomes_fate passed (found.text ++ rest)
  have decided : found.fate passed (found.text ++ rest) = .closed := fate
  rw [decided] at becomes
  cases becomes with
  | closed isText =>
      have unclosed : found.closed = false := by
        refine Bool.eq_false_iff.mpr fun closed => ?_
        simp [Match.fate, isText, closed] at decided
      obtain ⟨-, -, belongs⟩ := firstMatch_isCut matched
      rw [isText] at belongs
      obtain ⟨body, same⟩ := belongs
      rw [same, List.cons_append, firstMatch_quote] at matched
      obtain ⟨-, taken, closed⟩ := Match.mk.inj (Option.some.inj matched)
      rw [same] at taken
      have left := Shape.textBody_unclosed (closed.trans unclosed)
      rw [(List.cons.inj taken).2] at left
      exact ⟨body, same, List.append_cancel_left left⟩

/-- What becomes of a backslash at the end of a source: no rule takes it. -/
def slashFate (passed : List Char) : Fate := if followsName passed then .replaced else .skipped

theorem piecesFrom_slash (passed : List Char) (place : Position) :
    piecesFrom passed place 0 ['\\'] = [⟨['\\'], place, slashFate passed⟩] := by
  let slash : Match := ⟨.mismatch, ['\\'], false⟩
  have matched : firstMatch passed.head? (slash.text ++ []) = some slash :=
    firstMatch_of_take 18 rfl (by decide) rfl rfl
  exact piecesFrom_step place matched

/-- The pieces are those that the walk gives. -/
theorem Scan.eq_piecesFrom {passed source : List Char} {place : Position} {pieces : List Piece}
    (scan : Scan passed place source pieces) : pieces = piecesFrom passed place 0 source := by
  induction scan with
  | finish => rfl
  | step matched _ ih => rw [piecesFrom_step _ matched, ih]

/-- After an unclosed literal there are no pieces, or there is one, which is the backslash that is left over. -/
theorem pieces_after_unclosed {source : String} {before after : List Piece} {piece : Piece}
    (split : pieces source = before ++ piece :: after) (fate : piece.fate = .closed) :
    ∃ body, piece.text = '"' :: body ∧ after = if endSlashes source.toList % 2 = 1 then
        [⟨['\\'], .afterText (before.flatMap Piece.text ++ '"' :: body),
          slashFate (before.flatMap Piece.text ++ '"' :: body).reverse⟩]
      else [] := by
  obtain ⟨whole, start, between, scan⟩ := pieces_split split
  obtain ⟨body, text, rest⟩ := between.unclosed fate
  have slashes : endSlashes source.toList = endSlashes (body ++ after.flatMap Piece.text) := by
    rw [whole, text, List.cons_append, endSlashes_after (by decide)]
  have later := scan.eq_piecesFrom
  rw [← slashes] at rest
  rw [rest, start, text, Position.after_afterText, ← List.reverse_append] at later
  refine ⟨body, text, ?_⟩
  split at later
  · rename_i odd
    rw [if_pos odd, later, piecesFrom_slash]
  · rename_i even
    rw [if_neg even, later, piecesFrom]

/-- The text literal that starts at the place runs to the end of the source. It is the last token, spelled as the source
from its quote on with one quote more, and the warning about it is the last one. -/
def RunsToEnd (source : String) (place : Position) : Prop :=
  ∃ before body, source.toList = before ++ '"' :: body ∧ place = .afterText before ∧
    (pieces source).getLast? = some ⟨'"' :: body, place, .closed⟩ ∧
    (tokensOf source).getLast? = some ⟨.text, String.ofList ('"' :: body ++ ['"']), place⟩ ∧
    (warningsOf source).getLast? = some (.unclosedText place)

/-- The text literal that starts at the place runs up to a backslash at the end of the source, and the last warning is
about the backslash: it is read as an operator if the literal ends like a name, and left out if not. -/
def RunsToSlash (source : String) (place : Position) : Prop :=
  ∃ before body, source.toList = before ++ '"' :: body ++ ['\\'] ∧ place = .afterText before ∧
    ⟨.text, String.ofList ('"' :: body ++ ['"']), place⟩ ∈ tokensOf source ∧
    (pieces source).getLast? = some ⟨['\\'], .afterText (before ++ '"' :: body),
      slashFate (before ++ '"' :: body).reverse⟩ ∧
    (warningsOf source).getLast? = some (if followsName (before ++ '"' :: body).reverse then
        .missingOperator "\\" "+" (.afterText (before ++ '"' :: body))
      else .invalidCharacter "\\\\" (.afterText (before ++ '"' :: body)))

/-- The piece that a warning about an unclosed literal comes from. -/
theorem exists_unclosed {source : String} {place : Position} (unclosed : .unclosedText place ∈ warningsOf source) :
    ∃ before piece after, pieces source = before ++ piece :: after ∧ piece.fate = .closed ∧ piece.start = place := by
  obtain ⟨piece, listed, made⟩ := List.mem_filterMap.mp unclosed
  obtain ⟨before, after, split⟩ := List.append_of_mem listed
  refine ⟨before, piece, after, split, ?_⟩
  obtain ⟨text, start, fate⟩ := piece
  cases fate with
  | closed =>
      cases made
      exact ⟨rfl, rfl⟩
  | dropped | kept => cases made
  | replaced | skipped =>
      obtain ⟨-, code, -⟩ := Notice.mk.inj (Option.some.inj made)
      exact absurd code (by decide)

theorem runsToEnd_of_last {source : String} {before : List Piece} {body : List Char} {place : Position}
    (split : pieces source = before ++ [⟨'"' :: body, place, .closed⟩]) : RunsToEnd source place := by
  obtain ⟨whole, start, -, -⟩ := pieces_split split
  rw [List.flatMap_nil, List.append_nil] at whole
  refine ⟨before.flatMap Piece.text, body, whole, start, ?_, ?_, ?_⟩
  · rw [split, List.getLast?_concat]
  · rw [tokensOf, split, List.filterMap_append]
    exact List.getLast?_concat
  · rw [warningsOf, split, List.filterMap_append]
    exact List.getLast?_concat

theorem runsToSlash_of_last {source : String} {before : List Piece} {body : List Char} {place : Position}
    (split : pieces source = before ++ ⟨'"' :: body, place, .closed⟩ ::
      [⟨['\\'], .afterText (before.flatMap Piece.text ++ '"' :: body),
        slashFate (before.flatMap Piece.text ++ '"' :: body).reverse⟩]) : RunsToSlash source place := by
  obtain ⟨whole, start, -, -⟩ := pieces_split split
  refine ⟨before.flatMap Piece.text, body, ?_, start, ?_, ?_, ?_⟩
  · rw [whole, List.append_assoc]
    rfl
  · rw [tokensOf, split, List.filterMap_append]
    exact List.mem_append_right _ List.mem_cons_self
  · rw [split, List.append_cons, List.getLast?_concat]
  · rw [warningsOf, split, List.append_cons, List.filterMap_append, slashFate]
    split
    · exact List.getLast?_concat
    · exact List.getLast?_concat

/-- A text literal without a closing quote runs to the end of the source exactly if the number of backslashes there is
even. If it is odd, the literal leaves the last backslash out. -/
theorem unclosed_runs_to_end_iff {source : String} {place : Position}
    (unclosed : .unclosedText place ∈ warningsOf source) :
    (RunsToEnd source place ↔ endSlashes source.toList % 2 = 0) ∧
      (endSlashes source.toList % 2 = 1 → RunsToSlash source place) := by
  obtain ⟨before, ⟨text, start, fate⟩, after, split, rfl, rfl⟩ := exists_unclosed unclosed
  obtain ⟨body, rfl, left⟩ := pieces_after_unclosed split rfl
  by_cases odd : endSlashes source.toList % 2 = 1
  · rw [if_pos odd] at left
    subst left
    have slash := runsToSlash_of_last split
    refine ⟨iff_of_false ?_ (by omega), fun _ => slash⟩
    -- The last piece is the backslash, which is not given a quote.
    rintro ⟨_, _, -, -, last, -⟩
    obtain ⟨_, _, -, -, -, lastSlash, -⟩ := slash
    have same := congrArg (Option.map Piece.fate) (last.symm.trans lastSlash)
    rw [slashFate] at same
    split at same
    · cases same
    · cases same
  · rw [if_neg odd] at left
    subst left
    exact ⟨iff_of_true (runsToEnd_of_last split) (by omega), fun even => absurd even odd⟩

/-- Two backslashes at the end go together, and the literal has them both. -/
theorem unclosed_runs_to_end_iff_pair :
    .unclosedText ⟨1, 5⟩ ∈ warningsOf "a = \"b\\\\" ∧ RunsToEnd "a = \"b\\\\" ⟨1, 5⟩ := by
  have unclosed : .unclosedText ⟨1, 5⟩ ∈ warningsOf "a = \"b\\\\" := by decide
  exact ⟨unclosed, (unclosed_runs_to_end_iff unclosed).1.mpr (by decide)⟩

/-- A backslash that is alone at the end of the source is not part of the literal: here it becomes an operator. -/
theorem unclosed_short_of_end :
    .unclosedText ⟨1, 1⟩ ∈ warningsOf "\"a\\" ∧ ¬ RunsToEnd "\"a\\" ⟨1, 1⟩ ∧
      tokensOf "\"a\\" = [⟨.text, "\"a\"", ⟨1, 1⟩⟩, ⟨.operator, "+", ⟨1, 3⟩⟩] := by
  have tokens : tokensOf "\"a\\" = [⟨.text, "\"a\"", ⟨1, 1⟩⟩, ⟨.operator, "+", ⟨1, 3⟩⟩] := by decide
  refine ⟨by decide, ?_, tokens⟩
  rintro ⟨_, _, -, -, -, last, -⟩
  rw [tokens] at last
  cases last

end BraceCompiler
