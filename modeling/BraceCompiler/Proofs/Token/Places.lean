import BraceCompiler.Proofs.Token.Scan
import Mathlib.Data.List.Induction

/-! Places are exact: the running place of the walk is the number of lines and columns that have been
passed, and it only goes forward. -/

namespace BraceCompiler

namespace Position

/-- The place right after a text that starts at the origin. -/
def afterText (before : List Char) : Position :=
  ⟨1 + before.count '\n', 1 + (before.reverse.takeWhile (· != '\n')).length⟩

theorem afterText_append (before : List Char) (c : Char) :
    afterText (before ++ [c]) = (afterText before).next c := by
  rw [afterText, next, List.count_append, List.reverse_append]
  by_cases feed : c = '\n'
  · subst feed
    rw [if_pos rfl]
    rfl
  · have differs : (c != '\n') = true := bne_iff_ne.mpr feed
    have apart : (c == '\n') = false := beq_false_of_ne feed
    rw [if_neg feed, List.count_singleton, apart, List.reverse_singleton, List.singleton_append,
      List.takeWhile_cons_of_pos (p := (· != '\n')) differs, List.length_cons]
    rfl

theorem after_append (start : Position) (first second : List Char) :
    start.after (first ++ second) = (start.after first).after second := List.foldl_append

theorem after_origin (before : List Char) : origin.after before = afterText before := by
  induction before using List.reverseRecOn with
  | nil => rfl
  | append_singleton before c ih =>
      rw [after_append, ih, afterText_append]
      rfl

theorem after_afterText (before text : List Char) : (afterText before).after text = afterText (before ++ text) := by
  rw [← after_origin, ← after_origin, after_append]

/-- By lines, and on one line by columns. -/
instance : LT Position :=
  ⟨fun first second => first.line < second.line ∨ first.line = second.line ∧ first.column < second.column⟩

theorem lt_iff {first second : Position} : first < second ↔
    first.line < second.line ∨ first.line = second.line ∧ first.column < second.column := Iff.rfl

theorem lt_trans {first second third : Position} (before : first < second) (after : second < third) :
    first < third := by
  rw [lt_iff] at *
  omega

theorem ne_of_lt {first second : Position} (before : first < second) : first ≠ second := by
  rintro rfl
  rw [lt_iff] at before
  omega

theorem lt_next (place : Position) (c : Char) : place < place.next c := by
  rw [next, lt_iff]
  split
  · exact .inl (Nat.lt_succ_self _)
  · exact .inr ⟨rfl, Nat.lt_succ_self _⟩

theorem lt_after (place : Position) {text : List Char} (nonempty : text ≠ []) : place < place.after text := by
  induction text using List.reverseRecOn with
  | nil => exact absurd rfl nonempty
  | append_singleton text c ih =>
      rw [after_append]
      by_cases empty : text = []
      · rw [empty]
        exact place.lt_next c
      · exact lt_trans (ih empty) (lt_next _ c)

end Position

/-- A piece as the walk cuts it off, with the text `passed` behind it, nearest character first, and `rest` ahead. -/
inductive Piece.Between (passed rest : List Char) : Piece → Prop
  | cut {place : Position} {found : Match} : firstMatch passed.head? (found.text ++ rest) = some found →
      Between passed rest ⟨found.text, place, found.fate passed (found.text ++ rest)⟩

namespace Scan

variable {passed source : List Char} {place : Position} {pieces : List Piece}

theorem flatMap_text (scan : Scan passed place source pieces) : pieces.flatMap Piece.text = source := by
  induction scan with
  | finish => rfl
  | step _ _ ih => rw [List.flatMap_cons, ih]

/-- A piece starts where the pieces before it end. -/
theorem start_eq (scan : Scan passed place source pieces) {before after : List Piece} {piece : Piece}
    (split : pieces = before ++ piece :: after) : piece.start = place.after (before.flatMap Piece.text) := by
  induction scan generalizing before with
  | finish => exact absurd split.symm (List.append_ne_nil_of_right_ne_nil _ (List.cons_ne_nil _ _))
  | step _ _ ih =>
      cases before with
      | nil =>
          cases split
          rfl
      | cons first before =>
          cases split
          rw [ih rfl, List.flatMap_cons, Position.after_append]

/-- What the walk does at a piece, whatever pieces stand around it, and that it goes on from there. -/
theorem split (scan : Scan passed place source pieces) {before after : List Piece} {piece : Piece}
    (split : pieces = before ++ piece :: after) :
    piece.Between ((before.flatMap Piece.text).reverse ++ passed) (after.flatMap Piece.text) ∧
      Scan (piece.text.reverse ++ ((before.flatMap Piece.text).reverse ++ passed)) (piece.start.after piece.text)
        (after.flatMap Piece.text) after := by
  induction scan generalizing before with
  | finish => exact absurd split.symm (List.append_ne_nil_of_right_ne_nil _ (List.cons_ne_nil _ _))
  | step matched later ih =>
      cases before with
      | nil =>
          cases split
          rw [later.flatMap_text]
          exact ⟨.cut matched, later⟩
      | cons first before =>
          cases split
          rw [List.flatMap_cons, List.reverse_append, List.append_assoc]
          exact ih rfl

/-- Every piece starts after all the pieces before it. -/
theorem starts_ascend (scan : Scan passed place source pieces) :
    pieces.Pairwise (·.start < ·.start) ∧ ∀ piece ∈ pieces, piece.start = place ∨ place < piece.start := by
  induction scan with
  | finish => exact ⟨.nil, fun _ member => absurd member List.not_mem_nil⟩
  | @step _ place _ later found matched _ ih =>
      have forward : ∀ piece ∈ later, place < piece.start := by
        intro piece member
        have passes := place.lt_after (firstMatch_isCut matched).1
        rcases ih.2 piece member with same | further
        · rw [same]
          exact passes
        · exact Position.lt_trans passes further
      refine ⟨List.pairwise_cons.mpr ⟨forward, ih.1⟩, fun piece member => ?_⟩
      rcases List.mem_cons.mp member with rfl | member
      · exact .inl rfl
      · exact .inr (forward piece member)

end Scan

/-- A piece of a whole source: its place, what stands around it, and the walk from there on. -/
theorem pieces_split {source : String} {before after : List Piece} {piece : Piece}
    (split : pieces source = before ++ piece :: after) :
    source.toList = before.flatMap Piece.text ++ (piece.text ++ after.flatMap Piece.text) ∧
      piece.start = .afterText (before.flatMap Piece.text) ∧
      piece.Between (before.flatMap Piece.text).reverse (after.flatMap Piece.text) ∧
      Scan (piece.text.reverse ++ (before.flatMap Piece.text).reverse) (piece.start.after piece.text)
        (after.flatMap Piece.text) after := by
  have scan := scan_pieces source
  have whole := scan.flatMap_text
  have start := scan.start_eq split
  have around := scan.split split
  rw [split, List.flatMap_append, List.flatMap_cons] at whole
  rw [Position.after_origin] at start
  rw [List.append_nil] at around
  exact ⟨whole.symm, start, around⟩

namespace Piece

theorem token_position {piece : Piece} {token : Token} (made : token ∈ piece.token?) :
    token.position = piece.start := by
  obtain ⟨text, start, fate⟩ := piece
  cases fate <;> cases made <;> rfl

theorem warning_position {piece : Piece} {warning : Notice} (made : warning ∈ piece.warning?) :
    warning.position = some piece.start := by
  obtain ⟨text, start, fate⟩ := piece
  cases fate <;> cases made <;> rfl

end Piece

theorem tokens_ascend (source : String) : (tokensOf source).Pairwise (·.position < ·.position) := by
  refine (scan_pieces source).starts_ascend.1.filterMap _ ?_
  intro first second before token made later madeLater
  rw [Piece.token_position made, Piece.token_position madeLater]
  exact before

theorem warnings_ascend (source : String) : (warningsOf source).Pairwise fun first second =>
    ∃ place further, first.position = some place ∧ second.position = some further ∧ place < further := by
  refine (scan_pieces source).starts_ascend.1.filterMap _ ?_
  intro first second before warning made later madeLater
  exact ⟨_, _, Piece.warning_position made, Piece.warning_position madeLater, before⟩

/-- What is made of one of the pieces stands where this piece starts. -/
theorem exists_piece {α : Type} {source : String} {made? : Piece → Option α} {made : α}
    (member : made ∈ (pieces source).filterMap made?) :
    ∃ before piece after, pieces source = before ++ piece :: after ∧ made ∈ made? piece ∧
      piece.start = .afterText (before.flatMap Piece.text) := by
  obtain ⟨piece, among, given⟩ := List.mem_filterMap.mp member
  obtain ⟨before, after, split⟩ := List.append_of_mem among
  exact ⟨before, piece, after, split, given, (pieces_split split).2.1⟩

/-- The token and the warning of a piece stand right after the text before the piece, and every token and every warning
of the source is that of a piece. Tokens come in the order of their places, so do warnings, and no two tokens stand at
one place. -/
theorem positions_exact (source : String) :
    (∀ before piece after, pieces source = before ++ piece :: after →
      source.toList = before.flatMap Piece.text ++ (piece.text ++ after.flatMap Piece.text) ∧
      (∀ token ∈ piece.token?, token.position = .afterText (before.flatMap Piece.text)) ∧
      (∀ warning ∈ piece.warning?, warning.position = some (.afterText (before.flatMap Piece.text)))) ∧
    (tokensOf source).Pairwise (·.position < ·.position) ∧
    (warningsOf source).Pairwise (fun first second => ∃ place further,
      first.position = some place ∧ second.position = some further ∧ place < further) ∧
    ((tokensOf source).map Token.position).Nodup ∧
    (∀ token ∈ tokensOf source, ∃ before piece after, pieces source = before ++ piece :: after ∧
      token ∈ piece.token? ∧ token.position = .afterText (before.flatMap Piece.text)) ∧
    (∀ warning ∈ warningsOf source, ∃ before piece after, pieces source = before ++ piece :: after ∧
      warning ∈ piece.warning? ∧ warning.position = some (.afterText (before.flatMap Piece.text))) := by
  refine ⟨?_, tokens_ascend source, warnings_ascend source, ?_, fun token member => ?_, fun warning member => ?_⟩
  · intro before piece after split
    obtain ⟨whole, start, -⟩ := pieces_split split
    refine ⟨whole, fun token made => ?_, fun warning made => ?_⟩
    · rw [Piece.token_position made, start]
    · rw [Piece.warning_position made, start]
  · exact List.pairwise_map.mpr ((tokens_ascend source).imp Position.ne_of_lt)
  · obtain ⟨before, piece, after, split, made, start⟩ := exists_piece member
    exact ⟨before, piece, after, split, made, by rw [Piece.token_position made, start]⟩
  · obtain ⟨before, piece, after, split, made, start⟩ := exists_piece member
    exact ⟨before, piece, after, split, made, by rw [Piece.warning_position made, start]⟩

/-- A character that is left out on the second line. -/
theorem positions_exact_second_line :
    pieces "\n $" = [⟨['\n', ' '], ⟨1, 1⟩, .dropped⟩] ++ ⟨['$'], ⟨2, 2⟩, .skipped⟩ :: [] ∧
      Notice.position (.invalidCharacter "$" ⟨2, 2⟩) = some (.afterText ['\n', ' ']) := by
  have split : pieces "\n $" = [⟨['\n', ' '], ⟨1, 1⟩, .dropped⟩] ++ ⟨['$'], ⟨2, 2⟩, .skipped⟩ :: [] := by
    decide
  exact ⟨split, ((positions_exact "\n $").1 _ _ _ split).2.2 _ rfl⟩

end BraceCompiler
