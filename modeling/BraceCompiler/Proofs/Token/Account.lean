import BraceCompiler.Proofs.Token.Scan
import Mathlib.Data.List.Basic

/-! Every character of a source is accounted for, by a token, by a warning, by both, or by standing in
a comment or between words. -/

namespace BraceCompiler

/-- No rule takes anything here but the one that takes any character. -/
def NoRuleApplies (before : Option Char) (source : List Char) : Prop :=
  ∀ rule ∈ Rule.table, rule.kind ≠ .mismatch → rule.apply before source = none

/-- A source that comes after the text `passed`, nearest character first, is divided from left to right
into pieces, and its tokens and warnings are those that the pieces give. -/
inductive Account : (passed source : List Char) → List Token → Notices → Prop
  | finished {passed} : Account passed [] [] []
  | comment {passed text rest tokens warnings} : IsComment text →
      Account (text.reverse ++ passed) rest tokens warnings →
      Account passed (text ++ rest) tokens warnings
  | blank {passed text rest tokens warnings} : text ≠ [] → (∀ c ∈ text, Shape.isLayout c = true) →
      Account (text.reverse ++ passed) rest tokens warnings →
      Account passed (text ++ rest) tokens warnings
  /-- A token is spelled as its piece. -/
  | token {passed text rest tokens warnings kind place} :
      text ≠ [] → kind.isDropped = false → kind.Language text →
      Account (text.reverse ++ passed) rest tokens warnings →
      Account passed (text ++ rest) (⟨kind, String.ofList text, place⟩ :: tokens) warnings
  /-- A text literal without its last quote is given one. -/
  | closed {passed body rest tokens warnings place} :
      Account (('"' :: body).reverse ++ passed) rest tokens warnings →
      Account passed ('"' :: body ++ rest)
        (⟨.text, String.ofList ('"' :: body ++ ['"']), place⟩ :: tokens) (.unclosedText place :: warnings)
  /-- An operator takes the place of a character that no rule takes. -/
  | replaced {passed c rest tokens warnings place} : NoRuleApplies passed.head? (c :: rest) →
      Account (c :: passed) rest tokens warnings →
      Account passed (c :: rest) (⟨.operator, "+", place⟩ :: tokens)
        (.missingOperator (String.ofList [c]) "+" place :: warnings)
  /-- A character that no rule takes is left out. -/
  | skipped {passed c rest tokens warnings place} : NoRuleApplies passed.head? (c :: rest) →
      Account (c :: passed) rest tokens warnings →
      Account passed (c :: rest) tokens (.invalidCharacter (Text.named c) place :: warnings)

/-- One piece more, by what becomes of its match. -/
theorem Account.step {passed rest : List Char} {tokens : List Token} {warnings : Notices} {found : Match}
    {fate : Fate} (place : Position) (matched : firstMatch passed.head? (found.text ++ rest) = some found)
    (becomes : found.Becomes fate)
    (later : Account (found.text.reverse ++ passed) rest tokens warnings) :
    Account passed (found.text ++ rest)
      ((Piece.token? ⟨found.text, place, fate⟩).toList ++ tokens)
      ((Piece.warning? ⟨found.text, place, fate⟩).toList ++ warnings) := by
  obtain ⟨nonempty, -, belongs⟩ := firstMatch_isCut matched
  have alone := firstMatch_mismatch matched
  obtain ⟨kind, text, isClosed⟩ := found
  cases becomes with
  | comment kind =>
      cases kind
      exact .comment belongs later
  | blank kind =>
      cases kind
      exact .blank nonempty belongs later
  | token emitted _ => exact .token nonempty emitted belongs later
  | declarator _ same =>
      dsimp only at same
      have name : IsName text := by
        rw [← String.toList_ofList (l := text), same]
        exact isName_declarator
      exact .token nonempty rfl name later
  | closed kind =>
      cases kind
      obtain ⟨body, rfl⟩ := belongs
      exact .closed later
  | replaced kind =>
      cases kind
      obtain ⟨c, rfl⟩ := belongs
      exact .replaced (alone rfl) later
  | skipped kind =>
      cases kind
      obtain ⟨c, rfl⟩ := belongs
      have shown : String.join ([c].map Text.named) = Text.named c := String.empty_append
      dsimp only [Piece.token?, Piece.warning?, Option.toList_none, Option.toList_some, List.nil_append]
      rw [shown]
      exact .skipped (alone rfl) later

theorem Scan.account {passed source : List Char} {place : Position} {pieces : List Piece}
    (scan : Scan passed place source pieces) :
    Account passed source (pieces.filterMap Piece.token?) (pieces.filterMap Piece.warning?) := by
  induction scan with
  | finish => exact .finished
  | @step passed place rest _ found matched _ ih =>
      rw [List.filterMap_eq_flatMap_toList, List.filterMap_eq_flatMap_toList] at ih ⊢
      exact Account.step place matched (found.becomes_fate passed (found.text ++ rest)) ih

/-- No source text is lost, doubled or made up: the tokens and warnings of a source are an account of
it, and none of the tokens is a comment, a blank or a character without a rule. -/
theorem source_accounted (source : String) :
    Account [] source.toList (tokensOf source) (warningsOf source) ∧
      ∀ token ∈ tokensOf source, token.kind ≠ .comment ∧ token.kind ≠ .blank ∧ token.kind ≠ .mismatch := by
  refine ⟨(scan_pieces source).account, fun token member => ?_⟩
  have emitted := (tokensOf_language member).1
  refine ⟨?_, ?_, ?_⟩ <;> intro kind <;> rw [kind] at emitted <;> cases emitted

end BraceCompiler
