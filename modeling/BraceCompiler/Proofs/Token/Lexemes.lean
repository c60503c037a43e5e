import BraceCompiler.Proofs.Token.Spelling
import BraceCompiler.Reading.Expression

/-! The lexemes of the tokens that a source is cut into, kind by kind. They are narrower than what the rules of the
kinds can take: the rules before them have taken the rest, and a text literal has been given its closing quote. -/

namespace BraceCompiler

/-- What can stand between the quotes of a text literal: characters other than quotes and backslashes, and
backslashes that each go with the character after them. -/
inductive IsBody : List Char → Prop
  | nil : IsBody []
  | plain {c body} : c ≠ '"' → c ≠ '\\' → IsBody body → IsBody (c :: body)
  | escaped {c body} : IsBody body → IsBody ('\\' :: c :: body)

/-- The lexemes of a kind. Blanks, comments and characters without a rule are no tokens. -/
def TokenKind.Lexeme (kind : TokenKind) (lexeme : List Char) : Prop :=
  match kind with
  | .text => ∃ body, IsBody body ∧ lexeme = '"' :: body ++ ['"']
  | .delimiter => lexeme = ['\x7b'] ∨ lexeme = ['\x7d'] ∨ lexeme = [';']
  | .comment | .blank | .mismatch => False
  | _ => kind.Language lexeme

theorem Shape.textBody_isBody (source : List Char) :
    ∃ body, IsBody body ∧ (textBody source).1 = if (textBody source).2 then body ++ ['"'] else body := by
  fun_induction textBody source with
  | case1 rest => exact ⟨[], .nil, rfl⟩
  | case2 c rest taken closed same ih =>
      rw [same] at ih
      obtain ⟨body, isBody, split⟩ := ih
      refine ⟨'\\' :: c :: body, isBody.escaped, ?_⟩
      cases closed with
      | true => exact congrArg ('\\' :: c :: ·) split
      | false => exact congrArg ('\\' :: c :: ·) split
  | case3 => exact ⟨[], .nil, rfl⟩
  | case4 c rest noQuote noEscape noEnd taken closed same ih =>
      rw [same] at ih
      obtain ⟨body, isBody, split⟩ := ih
      have noSlash : c ≠ '\\' := by
        intro slash
        cases rest with
        | nil => exact noEnd slash rfl
        | cons next rest => exact noEscape next rest slash rfl
      refine ⟨c :: body, .plain noQuote noSlash isBody, ?_⟩
      cases closed with
      | true => exact congrArg (c :: ·) split
      | false => exact congrArg (c :: ·) split
  | case5 => exact ⟨[], .nil, rfl⟩

section

variable {passed rest : List Char} {found : Match}

theorem firstMatch_text (matched : firstMatch passed.head? (found.text ++ rest) = some found)
    (isText : found.kind = .text) :
    ∃ body, IsBody body ∧ found.text = '"' :: if found.closed then body ++ ['"'] else body := by
  obtain ⟨-, -, belongs⟩ := firstMatch_isCut matched
  rw [isText] at belongs
  obtain ⟨taken, same⟩ := belongs
  rw [same, List.cons_append, firstMatch_quote] at matched
  cases matched
  obtain ⟨body, isBody, split⟩ := Shape.textBody_isBody (taken ++ rest)
  exact ⟨body, isBody, congrArg _ split⟩

/-- A match that becomes a token as it is. -/
theorem firstMatch_lexeme (matched : firstMatch passed.head? (found.text ++ rest) = some found)
    (emitted : found.kind.isDropped = false) (closed : found.kind = .text → found.closed = true) :
    found.kind.Lexeme found.text := by
  have asText := firstMatch_text matched
  obtain ⟨-, -, belongs⟩ := firstMatch_isCut matched
  obtain ⟨kind, text, ends⟩ := found
  cases kind with
  | text =>
      obtain ⟨body, isBody, same⟩ := asText rfl
      rw [if_pos (closed rfl)] at same
      exact ⟨body, isBody, same⟩
  | delimiter =>
      obtain ⟨c, listed, rfl⟩ := belongs
      have own := firstMatch_delimiter matched listed
      simp only [List.mem_cons, List.not_mem_nil, or_false] at own
      rcases own with rfl | rfl | rfl
      · exact .inr (.inr rfl)
      · exact .inl rfl
      · exact .inr (.inl rfl)
  | comment | blank | mismatch => cases emitted
  | _ => exact belongs

theorem Match.lexeme (matched : firstMatch passed.head? (found.text ++ rest) = some found) (place : Position) :
    ∀ token ∈ Piece.token? ⟨found.text, place, found.fate passed (found.text ++ rest)⟩,
      token.kind.Lexeme token.lexeme.toList := by
  have becomes := found.becomes_fate passed (found.text ++ rest)
  generalize decided : found.fate passed (found.text ++ rest) = fate at becomes ⊢
  intro token made
  cases becomes with
  | comment | blank | skipped => cases made
  | token emitted closed =>
      cases made
      rw [String.toList_ofList]
      exact firstMatch_lexeme matched emitted closed
  | declarator _ same =>
      cases made
      rw [same]
      exact isName_declarator
  | closed isText =>
      cases made
      obtain ⟨body, isBody, same⟩ := firstMatch_text matched isText
      have unclosed : ¬found.closed = true := by
        intro closed
        simp [Match.fate, isText, closed] at decided
      rw [if_neg unclosed] at same
      rw [String.toList_ofList, same]
      exact ⟨body, isBody, rfl⟩
  | replaced =>
      cases made
      exact isOperator_recovery

end

theorem tokensOf_lexeme {source : String} {token : Token} (member : token ∈ tokensOf source) :
    token.kind.Lexeme token.lexeme.toList :=
  (scan_pieces source).forall_tokens (fun place matched => Match.lexeme matched place) token member

/-- The reader takes the quotes off a text literal, and nothing else. -/
theorem unquoted_of_quoted {lexeme : String} {body : List Char} (quoted : lexeme.toList = '"' :: body ++ ['"']) :
    unquoted lexeme = String.ofList body := by
  rw [unquoted, quoted]
  simp

end BraceCompiler
