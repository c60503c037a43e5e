import BraceCompiler.Token.Piece
import Mathlib.Data.List.TakeWhile

/-! What the rules of the table take: a first part of the source that is not empty and that belongs to
the language of the rule's kind. -/

namespace BraceCompiler

open Text

/-- A line comment without its line feed, or a block comment up to its first close. -/
inductive IsComment : List Char → Prop
  | line {body} : '\n' ∉ body → IsComment ('/' :: '/' :: body)
  | block {body} : ¬ ['*', '/'] <:+: body → IsComment ('/' :: '*' :: body ++ ['*', '/'])

/-- A letter or underscore, and then letters, underscores and digits. -/
inductive IsName : List Char → Prop
  | spelled {first rest} : startsName first = true → (∀ c ∈ rest, continuesName c = true) →
      IsName (first :: rest)

instance (text : List Char) : Decidable (IsName text) :=
  match text with
  | [] => isFalse nofun
  | first :: rest =>
    decidable_of_iff (startsName first = true ∧ rest.all continuesName = true)
      ⟨fun spelled => .spelled spelled.1 (List.all_eq_true.mp spelled.2),
        fun | .spelled starts continues => ⟨starts, List.all_eq_true.mpr continues⟩⟩

inductive IsOperator : List Char → Prop
  | single {c} : c ∈ Shape.operators → IsOperator [c]
  | withEquals {c} : c ∈ Shape.beforeEquals → IsOperator [c, '=']

def IsDigits (text : List Char) : Prop := text ≠ [] ∧ ∀ c ∈ text, isDigit c = true

/-- The texts that belong to a kind. -/
def TokenKind.Language : TokenKind → List Char → Prop
  | .keyword, taken => String.ofList taken ∈ Words.keywords
  | .dataType, taken => String.ofList taken ∈ Words.dataTypes
  | .boolean, taken => String.ofList taken ∈ Words.booleans
  | .identifier, taken => IsName taken
  | .number, taken => IsDigits taken
  | .float, taken => ∃ whole fraction, taken = whole ++ '.' :: fraction ∧ IsDigits whole ∧ IsDigits fraction
  | .text, taken => ∃ body, taken = '"' :: body
  | .arrayStart, taken => taken = ['[']
  | .arrayEnd, taken => taken = [']']
  | .tupleStart, taken => taken = ['(']
  | .tupleEnd, taken => taken = [')']
  | .colon, taken => taken = [':']
  | .comma, taken => taken = [',']
  | .operator, taken => IsOperator taken
  | .assignment, taken => taken = ['=']
  | .delimiter, taken => ∃ c ∈ Shape.delimiters, taken = [c]
  | .comment, taken => IsComment taken
  | .blank, taken => ∀ c ∈ taken, Shape.isLayout c = true
  | .mismatch, taken => ∃ c, taken = [c]

/-- The text is a first part of the source, it is not empty, and it belongs to the language. -/
def IsCut (language : List Char → Prop) (source text : List Char) : Prop :=
  text ≠ [] ∧ text <+: source ∧ language text

namespace Shape

/-- A shape takes nothing but such parts. -/
def Cuts (shape : List Char → Option (List Char)) (language : List Char → Prop) : Prop :=
  ∀ source text, shape source = some text → IsCut language source text

theorem Cuts.imp {shape : List Char → Option (List Char)} {language wider : List Char → Prop}
    (cuts : Cuts shape language) (widens : ∀ text, language text → wider text) : Cuts shape wider := by
  intro source text taken
  obtain ⟨nonempty, before, belongs⟩ := cuts source text taken
  exact ⟨nonempty, before, widens text belongs⟩

theorem run_eq_some_iff {p : Char → Bool} {source text : List Char} :
    run p source = some text ↔ text = source.takeWhile p ∧ text ≠ [] := by
  rw [run]
  constructor
  · intro taken
    split at taken
    · cases taken
    · rename_i nonempty
      cases taken
      exact ⟨rfl, nonempty⟩
  · rintro ⟨rfl, nonempty⟩
    split
    · contradiction
    · rfl

theorem run_cuts (p : Char → Bool) : Cuts (run p) (fun text => text ≠ [] ∧ ∀ c ∈ text, p c = true) := by
  intro source text taken
  obtain ⟨rfl, nonempty⟩ := run_eq_some_iff.mp taken
  exact ⟨nonempty, List.takeWhile_prefix p, nonempty, fun c member => List.mem_takeWhile_imp member⟩

theorem blockEnd_eq_some {source text : List Char} (taken : blockEnd source = some text) :
    ∃ body, text = body ++ ['*', '/'] ∧ text <+: source ∧ ¬ ['*', '/'] <:+: body := by
  induction source generalizing text with
  | nil => cases taken
  | cons c rest ih =>
      rw [blockEnd.eq_def] at taken
      split at taken
      · rename_i later same
        cases same
        cases taken
        exact ⟨[], rfl, ⟨later, rfl⟩, by decide⟩
      · rename_i c rest notClose same
        cases same
        obtain ⟨text, takenLater, rfl⟩ := Option.map_eq_some_iff.mp taken
        obtain ⟨body, rfl, ⟨later, rfl⟩, absent⟩ := ih takenLater
        refine ⟨c :: body, rfl, ⟨later, rfl⟩, ?_⟩
        intro found
        rcases List.infix_cons_iff.mp found with starts | inside
        · -- A close that starts at `c` would have been taken before.
          obtain ⟨tail, starts⟩ := starts
          cases starts
          exact notClose _ rfl rfl
        · exact absent inside
      · cases taken

theorem comment_cuts : Cuts comment IsComment := by
  intro source text taken
  rw [comment.eq_def] at taken
  split at taken
  · rename_i rest
    cases taken
    refine ⟨List.cons_ne_nil _ _, ?_, .line ?_⟩
    · exact List.prefix_append_right_inj ['/', '/'] |>.mpr (List.takeWhile_prefix _)
    · intro member
      have differs := List.mem_takeWhile_imp member
      cases differs
  · rename_i rest
    obtain ⟨text, takenLater, rfl⟩ := Option.map_eq_some_iff.mp taken
    obtain ⟨body, rfl, before, absent⟩ := blockEnd_eq_some takenLater
    exact ⟨List.cons_ne_nil _ _, List.prefix_append_right_inj ['/', '*'] |>.mpr before, .block absent⟩
  · cases taken

theorem word_eq_some_iff {words : List String} {source text : List Char} :
    word words source = some text ↔ text = source.takeWhile extendsWord ∧ String.ofList text ∈ words := by
  rw [word]
  constructor
  · intro taken
    split at taken
    · rename_i listed
      cases taken
      exact ⟨rfl, List.contains_iff_mem.mp listed⟩
    · cases taken
  · rintro ⟨rfl, listed⟩
    exact if_pos (List.contains_iff_mem.mpr listed)

theorem word_cuts {words : List String} (noEmpty : "" ∉ words) :
    Cuts (word words) (String.ofList · ∈ words) := by
  intro source text taken
  obtain ⟨rfl, listed⟩ := word_eq_some_iff.mp taken
  refine ⟨?_, List.takeWhile_prefix _, listed⟩
  intro empty
  rw [empty] at listed
  exact noEmpty listed

theorem identifier_cuts : Cuts identifier IsName := by
  intro source text taken
  rw [identifier.eq_def] at taken
  split at taken
  · rename_i c rest
    split at taken
    · rename_i starts
      cases taken
      refine ⟨List.cons_ne_nil _ _, ?_, .spelled starts fun d member => List.mem_takeWhile_imp member⟩
      exact List.prefix_cons_inj c |>.mpr (List.takeWhile_prefix _)
    · cases taken
  · cases taken

theorem number_eq_some_iff {source text : List Char} :
    number source = some text ↔
      text = source.takeWhile isDigit ∧ text ≠ [] ∧ atWordEnd (source.dropWhile isDigit) = true := by
  rw [number]
  constructor
  · intro taken
    obtain ⟨digits, takenRun, chosen⟩ := Option.bind_eq_some_iff.mp taken
    split at chosen
    · rename_i ends
      cases chosen
      exact ⟨(run_eq_some_iff.mp takenRun).1, (run_eq_some_iff.mp takenRun).2, ends⟩
    · cases chosen
  · rintro ⟨same, nonempty, ends⟩
    exact Option.bind_eq_some_iff.mpr ⟨text, run_eq_some_iff.mpr ⟨same, nonempty⟩, if_pos ends⟩

theorem number_cuts : Cuts number IsDigits := by
  intro source text taken
  obtain ⟨same, nonempty, -⟩ := number_eq_some_iff.mp taken
  exact run_cuts isDigit _ _ (run_eq_some_iff.mpr ⟨same, nonempty⟩)

theorem float_cuts : Cuts float (TokenKind.Language .float) := by
  intro source text taken
  obtain ⟨whole, takenRun, taken⟩ := Option.bind_eq_some_iff.mp taken
  obtain ⟨nonempty, -, digits⟩ := run_cuts isDigit _ _ takenRun
  obtain ⟨rfl, -⟩ := run_eq_some_iff.mp takenRun
  split at taken
  · rename_i rest point
    obtain ⟨fraction, takenRest, taken⟩ := Option.bind_eq_some_iff.mp taken
    cases taken
    obtain ⟨-, ⟨later, rfl⟩, digitsAfter⟩ := number_cuts _ _ takenRest
    refine ⟨?_, ⟨later, ?_⟩, _, fraction, rfl, digits, digitsAfter⟩
    · exact List.append_ne_nil_of_left_ne_nil nonempty _
    · rw [List.append_assoc, List.cons_append, ← point, List.takeWhile_append_dropWhile]
  · cases taken

theorem textBody_prefix (source : List Char) : (textBody source).1 <+: source := by
  fun_induction textBody source with
  | case1 rest => exact ⟨rest, rfl⟩
  | case2 c rest body closed same ih =>
      rw [same] at ih
      exact List.prefix_append_right_inj ['\\', c] |>.mpr ih
  | case3 => exact List.nil_prefix
  | case4 c rest _ _ _ body closed same ih =>
      rw [same] at ih
      exact List.prefix_cons_inj c |>.mpr ih
  | case5 => exact List.nil_prefix

theorem single_eq_some_iff {p : Char → Bool} {source text : List Char} :
    single p source = some text ↔ ∃ c rest, source = c :: rest ∧ p c = true ∧ text = [c] := by
  cases source with
  | nil => simp [single]
  | cons c rest =>
      rw [single]
      constructor
      · intro taken
        split at taken
        · rename_i holds
          cases taken
          exact ⟨c, rest, rfl, holds, rfl⟩
        · cases taken
      · rintro ⟨_, _, ⟨⟩, holds, rfl⟩
        exact if_pos holds

theorem single_cuts (p : Char → Bool) : Cuts (single p) (fun text => ∃ c, p c = true ∧ text = [c]) := by
  intro source text taken
  obtain ⟨c, rest, rfl, holds, rfl⟩ := single_eq_some_iff.mp taken
  exact ⟨List.cons_ne_nil _ _, ⟨rest, rfl⟩, c, holds, rfl⟩

theorem operator_cuts : Cuts operator IsOperator := by
  intro source text taken
  rw [operator.eq_def] at taken
  split at taken
  · rename_i c rest
    split at taken
    · rename_i listed
      cases taken
      exact ⟨List.cons_ne_nil _ _, ⟨rest, rfl⟩, .withEquals (List.contains_iff_mem.mp listed)⟩
    · split at taken
      · rename_i listed
        cases taken
        exact ⟨List.cons_ne_nil _ _, ⟨'=' :: rest, rfl⟩, .single (List.contains_iff_mem.mp listed)⟩
      · cases taken
  · rename_i c rest _
    split at taken
    · rename_i listed
      cases taken
      exact ⟨List.cons_ne_nil _ _, ⟨rest, rfl⟩, .single (List.contains_iff_mem.mp listed)⟩
    · cases taken
  · cases taken

end Shape

namespace Rule

/-- A rule takes nothing but parts that belong to its kind. -/
def Cuts (rule : Rule) : Prop :=
  ∀ source text closed, rule.take source = some (text, closed) → IsCut rule.kind.Language source text

theorem plain_cuts {kind : TokenKind} {shape : List Char → Option (List Char)}
    (cuts : Shape.Cuts shape kind.Language) : (plain kind shape).Cuts := by
  intro source text closed taken
  obtain ⟨_, takenShape, same⟩ := Option.map_eq_some_iff.mp taken
  cases same
  exact cuts _ _ takenShape

theorem words_cuts {kind : TokenKind} {list : List String} (noEmpty : "" ∉ list)
    (listed : ∀ text, String.ofList text ∈ list → kind.Language text) : (words kind list).Cuts :=
  plain_cuts ((Shape.word_cuts noEmpty).imp listed)

theorem char_cuts {kind : TokenKind} {c : Char} (belongs : kind.Language [c]) : (char kind c).Cuts := by
  refine plain_cuts ((Shape.single_cuts _).imp ?_)
  rintro _ ⟨d, same, rfl⟩
  rw [beq_iff_eq.mp same]
  exact belongs

theorem textLiteral_cuts : textLiteral.Cuts := by
  intro source text closed taken
  rw [textLiteral] at taken
  dsimp only at taken
  split at taken
  · rename_i rest
    cases taken
    exact ⟨List.cons_ne_nil _ _, List.prefix_cons_inj '"' |>.mpr (Shape.textBody_prefix rest), _, rfl⟩
  · cases taken

theorem table_cuts : ∀ rule ∈ table, rule.Cuts := by
  simp only [table, List.forall_mem_cons]
  refine ⟨plain_cuts Shape.comment_cuts, plain_cuts ((Shape.run_cuts _).imp fun _ run => run.2),
    words_cuts (by decide) fun _ => id, words_cuts (by decide) fun _ => id,
    words_cuts (by decide) fun _ => id, plain_cuts Shape.identifier_cuts, plain_cuts Shape.float_cuts,
    plain_cuts Shape.number_cuts, textLiteral_cuts, char_cuts rfl, char_cuts rfl, char_cuts rfl,
    char_cuts rfl, char_cuts rfl, char_cuts rfl, plain_cuts Shape.operator_cuts, char_cuts rfl,
    plain_cuts ((Shape.single_cuts _).imp ?_), plain_cuts ((Shape.single_cuts _).imp ?_),
    fun _ member => absurd member List.not_mem_nil⟩
  · rintro _ ⟨c, listed, rfl⟩
    exact ⟨c, List.contains_iff_mem.mp listed, rfl⟩
  · rintro _ ⟨c, -, rfl⟩
    exact ⟨c, rfl⟩

theorem apply_eq_some {rule : Rule} {before : Option Char} {source : List Char} {found : Match}
    (applied : rule.apply before source = some found) :
    rule.kind = found.kind ∧ rule.take source = some (found.text, found.closed) := by
  rw [apply] at applied
  split at applied
  · cases applied
  · obtain ⟨_, taken, rfl⟩ := Option.map_eq_some_iff.mp applied
    exact ⟨rfl, taken⟩

theorem apply_of_take {rule : Rule} {before : Option Char} {source text : List Char} {closed : Bool}
    (free : rule.startsWord = true → before.any precedesWord = false)
    (taken : rule.take source = some (text, closed)) :
    rule.apply before source = some ⟨rule.kind, text, closed⟩ := by
  rw [apply, if_neg, taken]
  · rfl
  · intro blocked
    obtain ⟨starts, precedes⟩ := Bool.and_eq_true_iff.mp blocked
    rw [free starts] at precedes
    cases precedes

theorem words_apply (kind : TokenKind) {list : List String} {before : Option Char} {source text : List Char}
    (free : before.any precedesWord = false) (taken : Shape.word list source = some text) :
    (words kind list).apply before source = some ⟨kind, text, false⟩ :=
  apply_of_take (fun _ => free) (Option.map_eq_some_iff.mpr ⟨text, taken, rfl⟩)

end Rule

section FirstMatch

variable {before : Option Char} {source : List Char} {found : Match}

theorem firstMatch_isCut (matched : firstMatch before source = some found) :
    IsCut found.kind.Language source found.text := by
  obtain ⟨rule, listed, applied⟩ := List.exists_of_findSome?_eq_some matched
  obtain ⟨kind, taken⟩ := Rule.apply_eq_some applied
  rw [← kind]
  exact Rule.table_cuts rule listed _ _ _ taken

/-- The rules before the one that decides take nothing. -/
theorem firstMatch_skips (initial later : List Rule) (split : Rule.table = initial ++ later)
    (matched : firstMatch before source = some found) (differ : ∀ rule ∈ initial, rule.kind ≠ found.kind) :
    ∀ rule ∈ initial, rule.apply before source = none := by
  rw [firstMatch, split, List.findSome?_append] at matched
  rcases Option.or_eq_some_iff.mp matched with matched | ⟨none, -⟩
  · obtain ⟨rule, listed, applied⟩ := List.exists_of_findSome?_eq_some matched
    exact absurd (Rule.apply_eq_some applied).1 (differ rule listed)
  · exact List.findSome?_eq_none_iff.mp none

/-- Where the last rule takes a character, none of the others takes anything. -/
theorem firstMatch_mismatch (matched : firstMatch before source = some found)
    (kind : found.kind = .mismatch) :
    ∀ rule ∈ Rule.table, rule.kind ≠ .mismatch → rule.apply before source = none := by
  have skips := firstMatch_skips Rule.table.dropLast [_] rfl matched (by rw [kind]; decide)
  intro rule listed differs
  refine skips rule ?_
  rcases List.mem_append.mp (show rule ∈ Rule.table.dropLast ++ [_] from listed) with listed | last
  · exact listed
  · rw [List.mem_singleton.mp last] at differs
    exact absurd rfl differs

theorem firstMatch_cons (before : Option Char) (c : Char) (rest : List Char) :
    ∃ found, firstMatch before (c :: rest) = some found := by
  have any : (Rule.plain .mismatch (Shape.single fun _ => true)).apply before (c :: rest) =
      some ⟨.mismatch, [c], false⟩ := rfl
  have taken := Option.isSome_iff_exists.mpr ⟨_, any⟩
  refine Option.isSome_iff_exists.mp (List.findSome?_isSome_iff.mpr ⟨_, ?_, taken⟩)
  exact List.getLast_mem (List.cons_ne_nil _ _)

end FirstMatch

end BraceCompiler
