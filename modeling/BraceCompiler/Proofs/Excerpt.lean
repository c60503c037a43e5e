import BraceCompiler.Excerpt
import BraceCompiler.Proofs.Faults
import BraceCompiler.Proofs.Token.Unclosed

/-! Reports point at what they are about. The walk over a source counts line feeds, and a report divides the source into
lines anew, without their ends. The two agree at every character that is part of no line end, and no token and no warning
starts at such a character. -/

namespace BraceCompiler

namespace Text

/-- The text is empty or ends with a line feed. -/
def EndsLine (text : List Char) : Prop := ∀ c ∈ text.getLast?, c = '\n'

theorem EndsLine.tail {c : Char} {text : List Char} (ends : EndsLine (c :: text)) : EndsLine text := by
  intro last member
  refine ends last ?_
  rw [List.getLast?_cons, member]
  rfl

theorem eq_nil_of_lines {text : List Char} (none : lines text = []) : text = [] := by
  rw [lines.eq_def] at none
  split at none
  · rfl
  · cases none
  · cases none
  · split at none <;> cases none

/-- A character that is part of no line end is put in front of the first line. -/
theorem lines_cons {c : Char} {rest : List Char} (noFeed : c ≠ '\n') (noReturn : c = '\r' → rest.head? ≠ some '\n') :
    lines (c :: rest) = (c :: (lines rest).headD []) :: (lines rest).tail := by
  rw [lines.eq_def]
  split
  · rename_i same
    cases same
  · rename_i same
    cases same
    exact absurd rfl (noReturn rfl)
  · rename_i same
    cases same
    exact absurd rfl noFeed
  · rename_i same
    cases same
    split <;> rename_i found <;> rw [found] <;> rfl

/-- Whole lines in front of a text stay as they are. -/
theorem lines_append {front : List Char} (ends : EndsLine front) (text : List Char) :
    lines (front ++ text) = lines front ++ lines text := by
  fun_induction lines front with
  | case1 => rfl
  | case2 rest ih => exact congrArg ([] :: ·) (ih ends.tail.tail)
  | case3 rest ih => exact congrArg ([] :: ·) (ih ends.tail)
  | case4 c rest _ noFeed none _ =>
      -- The last line would have no end.
      obtain rfl := eq_nil_of_lines none
      exact absurd (ends c rfl) noFeed
  | case5 c rest noReturn noFeed line others found ih =>
      have apart : c = '\r' → (rest ++ text).head? ≠ some '\n' := by
        intro isReturn feed
        cases rest with
        | nil => cases found
        | cons d rest =>
            cases feed
            exact noReturn rest isReturn rfl
      rw [List.cons_append, lines_cons noFeed apart, ih ends.tail, found]
      rfl

/-- A text of whole lines has as many of them as line feeds. -/
theorem length_lines {front : List Char} (ends : EndsLine front) : (lines front).length = front.count '\n' := by
  fun_induction lines front with
  | case1 => rfl
  | case2 rest ih => simp [ih ends.tail.tail]
  | case3 rest ih => simp [ih ends.tail]
  | case4 c rest _ noFeed none _ =>
      obtain rfl := eq_nil_of_lines none
      exact absurd (ends c rfl) noFeed
  | case5 c rest _ noFeed line others found ih =>
      rw [List.count_cons_of_ne noFeed, ← ih ends.tail, found]
      rfl

/-- The line of a character that is part of no line end. -/
theorem lines_lead {lead : List Char} (noFeed : '\n' ∉ lead) {c : Char} (notFeed : c ≠ '\n') (notReturn : c ≠ '\r')
    (rest : List Char) : ∃ more others, lines (lead ++ c :: rest) = (lead ++ c :: more) :: others := by
  induction lead with
  | nil => exact ⟨_, _, lines_cons notFeed fun isReturn => absurd isReturn notReturn⟩
  | cons d lead ih =>
      obtain ⟨more, others, found⟩ := ih fun member => noFeed (List.mem_cons_of_mem d member)
      have apart : (lead ++ c :: rest).head? ≠ some '\n' := by
        intro feed
        cases lead with
        | nil => exact notFeed (Option.some.inj feed)
        | cons e lead => exact noFeed (by simp [Option.some.inj feed])
      refine ⟨more, others, ?_⟩
      rw [List.cons_append, lines_cons (fun same => noFeed (same ▸ List.mem_cons_self)) fun _ => apart, found]
      rfl

end Text

/-- The place after a text, told by the whole lines of the text and the start of its last line. -/
theorem Position.exists_lead (before : List Char) : ∃ front lead, before = front ++ lead ∧ Text.EndsLine front ∧
    '\n' ∉ lead ∧ afterText before = ⟨front.count '\n' + 1, lead.length + 1⟩ := by
  induction before using List.reverseRecOn with
  | nil => exact ⟨[], [], rfl, fun _ member => absurd member (Option.not_mem_none _), List.not_mem_nil, rfl⟩
  | append_singleton before c ih =>
      obtain ⟨front, lead, rfl, ends, noFeed, place⟩ := ih
      rw [afterText_append, place, next]
      by_cases feed : c = '\n'
      · subst feed
        refine ⟨front ++ lead ++ ['\n'], [], (List.append_nil _).symm, ?_, List.not_mem_nil, ?_⟩
        · intro last member
          rw [List.getLast?_concat] at member
          exact (Option.some.inj member).symm
        · simp [List.count_eq_zero_of_not_mem noFeed]
      · refine ⟨front, lead ++ [c], List.append_assoc .., ends, ?_, ?_⟩
        · simpa [noFeed] using Ne.symm feed
        · rw [if_neg feed, List.length_append, List.length_singleton]

namespace Excerpt

theorem length_padding (line : List Char) (width : Nat) : (padding line width).length = width := by
  induction width generalizing line with
  | zero => rw [padding, List.length_nil]
  | succ width ih => cases line <;> rw [padding, List.length_cons, ih]

theorem getElem?_padding (text : List Char) {width i : Nat} (below : i < width) :
    (padding text width)[i]? = some (if text[i]? = some '\t' then '\t' else ' ') := by
  induction width generalizing text i with
  | zero => cases below
  | succ width ih =>
      cases text with
      | nil =>
          cases i with
          | zero => rfl
          | succ i => simpa [padding] using ih [] (Nat.lt_of_succ_lt_succ below)
      | cons c text =>
          cases i with
          | zero => simp [padding]
          | succ i => simpa [padding] using ih text (Nat.lt_of_succ_lt_succ below)

/-- The report on a place shows the line of the place, which has the character at the column of the place, and under it a
mark in that column, after tabs where the line has them and blanks elsewhere. -/
def Marks (excerpt : Excerpt) (place : Position) (c : Char) : Prop :=
  ∃ row column text underline, place = ⟨row + 1, column + 1⟩ ∧
    (Text.lines excerpt.source.toList)[row]? = some text ∧ text[column]? = some c ∧
    underline.length = column ∧ (∀ i < column, underline[i]? = some (if text[i]? = some '\t' then '\t' else ' ')) ∧
    excerpt.location place =
      "\n  --> " ++ excerpt.file ++ ":" ++ toString place.line ++ ":" ++ toString place.column ++ "\n   |\n" ++
        padLeft 3 (toString place.line) ++ " | " ++ String.ofList text ++ "\n   | " ++ String.ofList underline ++ "^"

theorem marks_afterText {file source : String} {before rest : List Char} {c : Char}
    (whole : source.toList = before ++ c :: rest) (notFeed : c ≠ '\n') (notReturn : c ≠ '\r') :
    Marks ⟨file, source⟩ (.afterText before) c := by
  obtain ⟨front, lead, rfl, ends, noFeed, place⟩ := Position.exists_lead before
  obtain ⟨more, others, found⟩ := Text.lines_lead noFeed notFeed notReturn rest
  have line : (Text.lines source.toList)[front.count '\n']? = some (lead ++ c :: more) := by
    rw [whole, List.append_assoc, Text.lines_append ends, found, List.getElem?_append_right (by rw [Text.length_lines ends]),
      Text.length_lines ends, Nat.sub_self]
    rfl
  refine ⟨front.count '\n', lead.length, lead ++ c :: more, padding (lead ++ c :: more) lead.length, place, line, ?_,
    length_padding _ _, fun i below => getElem?_padding _ below, ?_⟩
  · rw [List.getElem?_append_right (Nat.le_refl _), Nat.sub_self]
    rfl
  · have shown : Excerpt.line ⟨file, source⟩ (front.count '\n' + 1) = lead ++ c :: more := by
      rw [Excerpt.line, Nat.add_sub_cancel, line, Option.getD_some]
    rw [place]
    unfold location
    dsimp only
    rw [shown, Nat.add_sub_cancel]

end Excerpt

/-- The piece is one of the source, and `c` is the character of the source at which it starts. -/
def StartsAt (source : String) (piece : Piece) (c : Char) : Prop :=
  ∃ before after, pieces source = before ++ piece :: after ∧
    source.toList[(before.flatMap Piece.text).length]? = some c

/-- A piece that stands for anything starts with no character of a line end. -/
theorem Piece.Between.not_layout {passed rest : List Char} {piece : Piece} (between : piece.Between passed rest)
    (shown : piece.fate ≠ .dropped) : ∀ c ∈ piece.text.head?, Shape.isLayout c = false := by
  obtain @⟨place, found, matched⟩ := between
  intro c first
  refine Bool.eq_false_iff.mpr fun layout => shown ?_
  obtain ⟨later, same⟩ := List.head?_eq_some_iff.mp first
  rw [show found.text = c :: later from same, List.cons_append, firstMatch_layout _ _ layout] at matched
  cases matched
  rfl

theorem Piece.marks (file : String) {source : String} {piece : Piece} (member : piece ∈ pieces source)
    (shown : piece.fate ≠ .dropped) : ∃ c, StartsAt source piece c ∧ Excerpt.Marks ⟨file, source⟩ piece.start c := by
  obtain ⟨before, after, split⟩ := List.append_of_mem member
  obtain ⟨whole, start, between, -⟩ := pieces_split split
  obtain ⟨c, later, text⟩ := List.exists_cons_of_ne_nil between.ne_nil
  have solid := between.not_layout shown c (by rw [text]; rfl)
  rw [text, List.cons_append] at whole
  refine ⟨c, ⟨before, after, split, ?_⟩, ?_⟩
  · rw [whole, List.getElem?_append_right (Nat.le_refl _), Nat.sub_self]
    rfl
  · rw [start]
    refine Excerpt.marks_afterText whole ?_ ?_
    · rintro rfl
      cases solid
    · rintro rfl
      cases solid

theorem Piece.fate_of_token {piece : Piece} {token : Token} (made : piece.token? = some token) : piece.fate ≠ .dropped := by
  intro dropped
  rw [Piece.token?, dropped] at made
  cases made

theorem Piece.fate_of_warning {piece : Piece} {warning : Notice} (made : piece.warning? = some warning) :
    piece.fate ≠ .dropped := by
  intro dropped
  rw [Piece.warning?, dropped] at made
  cases made

/-- A compilation that fails on the syntax of its source fails at one of its tokens. -/
theorem compile_syntax {source : String} {fault : Fault} (failed : compile source = .error fault)
    (code : fault.complaint.code = "E_SYNTAX") :
    ∃ cause, ∃ token ∈ tokensOf source, fault = .syntactic cause token.position := by
  rw [compile] at failed
  cases parsed : parse (tokensOf source) with
  | error other =>
      rw [parsed] at failed
      cases failed
      exact parse_fault parsed
  | ok node =>
      rw [parsed] at failed
      simp only [bind, Except.bind] at failed
      split at failed
      · rename_i written
        cases failed
        have ofAssignment := (parse_shaped parsed).steps_clean.fault (congrArg Prod.fst written)
        rcases ofAssignment.complaint.1 with other | other
        · rw [other] at code
          exact absurd code (by decide)
        · rw [other] at code
          exact absurd code (by decide)
      · cases failed

/-- A report on a token, on a warning or on a fault of syntax marks the character of the source at which the token or the
character without a rule starts. A fault of syntax is shown at a token, also if it is found at the end of the source. -/
theorem reports_mark_start (file source : String) :
    (∀ token ∈ tokensOf source, ∃ piece c, piece.token? = some token ∧ StartsAt source piece c ∧
      Excerpt.Marks ⟨file, source⟩ token.position c) ∧
    (∀ warning ∈ warningsOf source, ∃ piece c place, piece.warning? = some warning ∧ StartsAt source piece c ∧
      warning.position = some place ∧ Excerpt.Marks ⟨file, source⟩ place c ∧
      Excerpt.renderNotice ⟨file, source⟩ warning = warning.headline ++ Excerpt.location ⟨file, source⟩ place) ∧
    (∀ fault, compile source = .error fault → fault.complaint.code = "E_SYNTAX" →
      ∃ token ∈ tokensOf source, ∃ piece c, piece.token? = some token ∧ StartsAt source piece c ∧
        fault.complaint.position = some token.position ∧ Excerpt.Marks ⟨file, source⟩ token.position c ∧
        Excerpt.renderComplaint ⟨file, source⟩ fault.complaint =
          fault.complaint.headline ++ Excerpt.location ⟨file, source⟩ token.position) := by
  have tokens : ∀ token ∈ tokensOf source, ∃ piece c, piece.token? = some token ∧ StartsAt source piece c ∧
      Excerpt.Marks ⟨file, source⟩ token.position c := by
    intro token member
    obtain ⟨piece, listed, made⟩ := List.mem_filterMap.mp member
    obtain ⟨c, starts, marks⟩ := Piece.marks file listed (Piece.fate_of_token made)
    rw [← Piece.token_position made] at marks
    exact ⟨piece, c, made, starts, marks⟩
  refine ⟨tokens, ?_, ?_⟩
  · intro warning member
    obtain ⟨piece, listed, made⟩ := List.mem_filterMap.mp member
    obtain ⟨c, starts, marks⟩ := Piece.marks file listed (Piece.fate_of_warning made)
    have position := Piece.warning_position made
    refine ⟨piece, c, piece.start, made, starts, position, marks, ?_⟩
    rw [Excerpt.renderNotice, position, Excerpt.withLocation]
  · intro fault failed code
    obtain ⟨cause, token, member, rfl⟩ := compile_syntax failed code
    obtain ⟨piece, c, made, starts, marks⟩ := tokens token member
    exact ⟨token, member, piece, c, made, starts, rfl, marks, rfl⟩

/-- The mark stands under the character, behind a tab. -/
example : Excerpt.renderNotice ⟨"main.xec", "a\r\n\tb $"⟩ (.invalidCharacter "$" ⟨2, 4⟩) =
    "warning[W_INVALID_CHARACTER]: Skipping invalid character '$'\n  --> main.xec:2:4\n   |\n  2 | \tb $\n   | \t  ^" := by
  decide

/-- The second line comes after a line end of two characters and starts with a tab. Its first token does not fit, and its
last character has no rule. -/
def secondLineSource : String := "f\r\n\t) $"

def secondLineFault : Fault :=
  .syntactic (.unexpected (some ⟨.tupleEnd, ")", ⟨2, 2⟩⟩) (.lexeme "=" "after assignment target")) ⟨2, 2⟩

theorem compile_secondLineSource : compile secondLineSource = .error secondLineFault := by
  have tokens : tokensOf secondLineSource = [⟨.identifier, "f", ⟨1, 1⟩⟩, ⟨.tupleEnd, ")", ⟨2, 2⟩⟩] := by decide
  rw [compile, tokens]
  rfl

theorem reports_mark_start_second_line :
    ⟨.tupleEnd, ")", ⟨2, 2⟩⟩ ∈ tokensOf secondLineSource ∧ .invalidCharacter "$" ⟨2, 4⟩ ∈ warningsOf secondLineSource ∧
    compile secondLineSource = .error secondLineFault ∧ secondLineFault.complaint.code = "E_SYNTAX" ∧
    (∃ piece c, piece.token? = some ⟨.tupleEnd, ")", ⟨2, 2⟩⟩ ∧ StartsAt secondLineSource piece c ∧
      Excerpt.Marks ⟨"main.xec", secondLineSource⟩ ⟨2, 2⟩ c) ∧
    (∃ piece c place, piece.warning? = some (.invalidCharacter "$" ⟨2, 4⟩) ∧ StartsAt secondLineSource piece c ∧
      some ⟨2, 4⟩ = some place ∧ Excerpt.Marks ⟨"main.xec", secondLineSource⟩ place c) ∧
    ∃ token ∈ tokensOf secondLineSource, ∃ c, secondLineFault.complaint.position = some token.position ∧
      Excerpt.Marks ⟨"main.xec", secondLineSource⟩ token.position c := by
  have token : ⟨.tupleEnd, ")", ⟨2, 2⟩⟩ ∈ tokensOf secondLineSource := by decide
  have warning : .invalidCharacter "$" ⟨2, 4⟩ ∈ warningsOf secondLineSource := by decide
  obtain ⟨tokens, warnings, faults⟩ := reports_mark_start "main.xec" secondLineSource
  obtain ⟨piece, c, place, made, starts, position, marks, -⟩ := warnings _ warning
  obtain ⟨other, member, _, d, -, -, reported, shown, -⟩ := faults _ compile_secondLineSource rfl
  exact ⟨token, warning, compile_secondLineSource, rfl, tokens _ token, ⟨piece, c, place, made, starts, position, marks⟩,
    other, member, d, reported, shown⟩

end BraceCompiler
