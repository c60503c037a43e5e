import BraceCompiler.Proofs.Token.Shapes

/-! The walk over a source, piece by piece. `Scan` tells what one step does with the source; whatever
holds of all pieces is proved by induction on it. -/

namespace BraceCompiler

/-- The ways in which a match can end up. -/
inductive Match.Becomes (found : Match) : Fate → Prop
  | comment : found.kind = .comment → Becomes found .dropped
  | blank : found.kind = .blank → Becomes found .dropped
  | token : found.kind.isDropped = false → (found.kind = .text → found.closed = true) →
      Becomes found (.kept found.kind)
  | declarator : found.kind = .keyword → String.ofList found.text = Words.declarator →
      Becomes found (.kept .identifier)
  | closed : found.kind = .text → Becomes found .closed
  | replaced : found.kind = .mismatch → Becomes found .replaced
  | skipped : found.kind = .mismatch → Becomes found .skipped

theorem Match.becomes_fate (found : Match) (passed source : List Char) :
    found.Becomes (found.fate passed source) := by
  obtain ⟨kind, text, closed⟩ := found
  cases kind with
  | comment => exact .comment rfl
  | blank => exact .blank rfl
  | keyword =>
      dsimp only [fate]
      split
      · rename_i declares
        exact .declarator rfl declares.1
      · exact .token rfl nofun
  | text =>
      cases closed with
      | true => exact .token rfl fun _ => rfl
      | false => exact .closed rfl
  | mismatch =>
      dsimp only [fate]
      split
      · exact .replaced rfl
      · exact .skipped rfl
  | _ => exact .token rfl nofun

/-- The pieces of a source that comes after the text `passed`, nearest character first. -/
inductive Scan : (passed : List Char) → (place : Position) → (source : List Char) → List Piece → Prop
  | finish {passed place} : Scan passed place [] []
  | step {passed place rest later} {found : Match} :
      firstMatch passed.head? (found.text ++ rest) = some found →
      Scan (found.text.reverse ++ passed) (place.after found.text) rest later →
      Scan passed place (found.text ++ rest)
        (⟨found.text, place, found.fate passed (found.text ++ rest)⟩ :: later)

/-- Inside a piece the walk only counts. -/
theorem piecesFrom_inside (passed : List Char) (place : Position) (text rest : List Char) :
    piecesFrom passed place text.length (text ++ rest) =
      piecesFrom (text.reverse ++ passed) (place.after text) 0 rest := by
  induction text generalizing passed place with
  | nil => rfl
  | cons c text ih =>
      rw [List.length_cons, List.cons_append, piecesFrom, ih, List.reverse_cons, List.append_assoc]
      rfl

theorem piecesFrom_step {passed rest : List Char} {found : Match} (place : Position)
    (matched : firstMatch passed.head? (found.text ++ rest) = some found) :
    piecesFrom passed place 0 (found.text ++ rest) =
      ⟨found.text, place, found.fate passed (found.text ++ rest)⟩ ::
        piecesFrom (found.text.reverse ++ passed) (place.after found.text) 0 rest := by
  obtain ⟨nonempty, -⟩ := firstMatch_isCut matched
  obtain ⟨kind, text, closed⟩ := found
  cases text with
  | nil => exact absurd rfl nonempty
  | cons c text =>
      rw [List.cons_append] at matched ⊢
      rw [piecesFrom, matched, List.reverse_cons, List.append_assoc]
      exact congrArg _ (piecesFrom_inside (c :: passed) (place.next c) text rest)

theorem scan_piecesFrom (passed : List Char) (place : Position) (source : List Char) :
    Scan passed place source (piecesFrom passed place 0 source) := by
  induction length : source.length using Nat.strongRecOn generalizing passed place source with
  | ind size ih =>
      cases source with
      | nil => exact .finish
      | cons c rest =>
          obtain ⟨found, matched⟩ := firstMatch_cons passed.head? c rest
          obtain ⟨nonempty, ⟨later, split⟩, -⟩ := firstMatch_isCut matched
          rw [← split] at matched length ⊢
          rw [piecesFrom_step place matched]
          have shorter : later.length < size := by
            have := List.length_pos_iff.mpr nonempty
            rw [List.length_append] at length
            omega
          exact .step matched (ih _ shorter _ _ _ rfl)

/-- The walk over a whole source. -/
theorem scan_pieces (source : String) : Scan [] .origin source.toList (pieces source) :=
  scan_piecesFrom [] .origin source.toList

/-- A declarator is a name too. -/
theorem isName_declarator : IsName Words.declarator.toList := by decide

theorem isOperator_recovery : IsOperator recoveryOperator.toList :=
  .single (by decide : '+' ∈ Shape.operators)

theorem Match.Becomes.language {found : Match} {fate : Fate} {source : List Char} (place : Position)
    (becomes : found.Becomes fate) (cut : IsCut found.kind.Language source found.text) :
    ∀ token ∈ Piece.token? ⟨found.text, place, fate⟩,
      token.kind.isDropped = false ∧ token.kind.Language token.lexeme.toList := by
  intro token made
  cases becomes with
  | comment | blank | skipped => cases made
  | token emitted _ =>
      cases made
      exact ⟨emitted, by rw [String.toList_ofList]; exact cut.2.2⟩
  | declarator _ same =>
      cases made
      exact ⟨rfl, by rw [same]; exact isName_declarator⟩
  | closed kind =>
      cases made
      obtain ⟨-, -, belongs⟩ := cut
      rw [kind] at belongs
      obtain ⟨body, same⟩ := belongs
      exact ⟨rfl, body ++ ['"'], by rw [String.toList_ofList, same]; rfl⟩
  | replaced _ =>
      cases made
      exact ⟨rfl, isOperator_recovery⟩

/-- What holds of the token of every match holds of every token. -/
theorem Scan.forall_tokens {holds : Token → Prop} {passed source : List Char} {place : Position} {pieces : List Piece}
    (scan : Scan passed place source pieces)
    (each : ∀ {passed rest : List Char} {found : Match} (place : Position),
      firstMatch passed.head? (found.text ++ rest) = some found →
      ∀ token ∈ Piece.token? ⟨found.text, place, found.fate passed (found.text ++ rest)⟩, holds token) :
    ∀ token ∈ pieces.filterMap Piece.token?, holds token := by
  induction scan with
  | finish => exact fun _ member => absurd member List.not_mem_nil
  | @step _ place _ _ found matched _ ih =>
      intro token member
      obtain ⟨piece, listed, made⟩ := List.mem_filterMap.mp member
      rcases List.mem_cons.mp listed with rfl | listed
      · exact each place matched token made
      · exact ih token (List.mem_filterMap.mpr ⟨piece, listed, made⟩)

/-- Every token belongs to its kind, and none is of a kind that stands for nothing. -/
theorem tokensOf_language {source : String} {token : Token} (member : token ∈ tokensOf source) :
    token.kind.isDropped = false ∧ token.kind.Language token.lexeme.toList :=
  (scan_pieces source).forall_tokens
    (fun place matched => (Match.becomes_fate ..).language place (firstMatch_isCut matched)) token member

end BraceCompiler
