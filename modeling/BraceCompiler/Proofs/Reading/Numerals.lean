import BraceCompiler.Proofs.Reading.Orderly
import BraceCompiler.Proofs.Target.Expressions
import BraceCompiler.Proofs.Token.Lexemes
import Mathlib.Algebra.Group.Nat.Defs

/-! Numbers that are cut from a source and then read. One with a point is always read. One without is refused exactly
if it is too large, and the reader finds that out when it comes to the number. To say that it comes there, its run is
compared with the run on the same tokens with a small number instead: the two go abreast up to the number. -/

namespace BraceCompiler

namespace Number

theorem readInteger_eq_none_iff {text : List Char} (digits : IsDigits text) :
    readInteger text = none ↔ 2 ^ 63 - 1 < Nat.ofDigitChars 10 text 0 := by
  have value : digitsValue text = Nat.ofDigitChars 10 text 0 := by
    rw [digitsValue, ← Nat.ofDigitChars_eq_foldl]
  rw [readInteger_digits digits, value, fitsWord]
  simp only [ite_eq_right_iff, reduceCtorEq, imp_false, Bool.and_eq_true, decide_eq_true_iff, not_and, not_le]
  omega

/-- Digits, a point and digits are read as a number. -/
theorem readReal_point {whole fraction : List Char} (digits : IsDigits whole) (digitsAfter : IsDigits fraction) :
    ∃ value, readReal (whole ++ '.' :: fraction) = some value := by
  have noSign : splitSign (whole ++ '.' :: fraction) = (false, whole ++ '.' :: fraction) := by
    refine splitSign_of_digit fun c first => ?_
    rw [List.head?_append_of_ne_nil _ digits.1] at first
    exact digits.2 c (List.mem_of_head? first)
  have stopsAtPoint : ∀ c ∈ ('.' :: fraction).head?, Text.isDigit c = false := by
    intro c first
    cases first
    decide
  have decimal : ∃ value, readDecimal false (whole ++ '.' :: fraction) = some value := by
    have toEnd : fraction.takeWhile Text.isDigit = fraction := List.takeWhile_eq_self_iff.mpr digitsAfter.2
    have nothingLeft : fraction.dropWhile Text.isDigit = [] := List.dropWhile_eq_nil_iff.mpr digitsAfter.2
    have some : (whole ++ fraction).isEmpty = false :=
      List.isEmpty_eq_false_iff.mpr (List.append_ne_nil_of_left_ne_nil digits.1 _)
    simp [readDecimal, takeWhile_eq digits.2 stopsAtPoint, dropWhile_eq digits.2 stopsAtPoint, toEnd, nothingLeft, some,
      readExponent]
  rw [readReal, noSign]
  simp only
  split
  · exact ⟨_, rfl⟩
  · split
    · exact ⟨_, rfl⟩
    · exact decimal

end Number

/-- A number that no word of 64 bits holds. -/
def Token.Oversize (token : Token) : Prop := token.kind = .number ∧ Number.readInteger token.lexeme.toList = none

/-- A number that fits, in the place of the token. -/
def Token.fitted (token : Token) : Token := { token with lexeme := "0" }

/-- The tokens that a run left, whether it came to its end or stopped. -/
def leftOver {α : Type} : Except Stop (α × List Token) → List Token
  | .ok (_, rest) => rest
  | .error stop => stop.rest

/-- How a run ends on tokens with an oversize number in front of `after`, and how it ends with a number that fits. Both
come to their end or stop before the number, or the first stops at the number and the second gets past it. -/
inductive Abreast {α : Type} (token : Token) (after : List Token) : (result other : Except Stop (α × List Token)) → Prop
  | unread {value left} :
      Abreast token after (.ok (value, left ++ token :: after)) (.ok (value, left ++ token.fitted :: after))
  | stopped {stop other : Stop} : after.length < stop.rest.length → after.length < other.rest.length →
      Abreast token after (.error stop) (.error other)
  | refused {unfinished other} : leftOver other <:+ after →
      Abreast token after (.error ⟨.integerOutOfRange token, after, unfinished⟩) other

/-- A number is blamed only if it cannot be read, and an oversize one is the last token consumed. -/
def SyntaxFault.Grounded (tokens rest : List Token) : SyntaxFault → Prop
  | .integerOutOfRange token => token.Oversize ∧ ∃ before, tokens = before ++ token :: rest
  | .invalidFloat token => token ∈ tokens ∧ token.kind = .float ∧ Number.readReal token.lexeme.toList = none
  | .unexpected .. | .nestedTooDeeply => True

theorem SyntaxFault.Grounded.mono {cause : SyntaxFault} {tokens more rest : List Token}
    (grounded : cause.Grounded tokens rest) (suffix : tokens <:+ more) : cause.Grounded more rest := by
  obtain ⟨earlier, rfl⟩ := suffix
  cases cause with
  | integerOutOfRange token =>
      obtain ⟨oversize, before, rfl⟩ := grounded
      exact ⟨oversize, earlier ++ before, (List.append_assoc ..).symm⟩
  | invalidFloat token => exact ⟨List.mem_append_right _ grounded.1, grounded.2⟩
  | unexpected => trivial
  | nestedTooDeeply => trivial

variable {α β : Type}

/-- A reader that minds the size of a number where it reads it as a term, and nowhere else. -/
structure Weighs (reader : Reader α) : Prop where
  within : ∀ tokens, leftOver (reader tokens) <:+ tokens
  grounded : ∀ {tokens stop}, reader tokens = .error stop → stop.cause.Grounded tokens stop.rest
  abreast : ∀ {token : Token}, token.Oversize → ∀ before after,
    Abreast token after (reader (before ++ token :: after)) (reader (before ++ token.fitted :: after))

namespace Weighs

variable {reader yes no : Reader α}

theorem pure (value : α) : Weighs (pure value) where
  within tokens := List.suffix_rfl
  grounded := by
    intro tokens stop failed
    cases failed
  abreast := by
    intro token _ before after
    exact .unread

/-- A reader that fails at once, on whatever comes. -/
theorem of_error (stops : ∀ tokens, ∃ stop, reader tokens = .error stop ∧ stop.rest = tokens ∧
    stop.cause.token? = none) : Weighs reader where
  within tokens := by
    obtain ⟨stop, failed, rfl, -⟩ := stops tokens
    rw [failed]
    exact List.suffix_rfl
  grounded := by
    intro tokens stop failed
    obtain ⟨same, failedSame, -, unnamed⟩ := stops tokens
    cases failedSame.symm.trans failed
    cases cause : stop.cause with
    | integerOutOfRange | invalidFloat =>
        rw [cause] at unnamed
        cases unnamed
    | unexpected | nestedTooDeeply => trivial
  abreast := by
    intro token _ before after
    obtain ⟨stop, failed, left, -⟩ := stops (before ++ token :: after)
    obtain ⟨other, failedOther, leftOther, -⟩ := stops (before ++ token.fitted :: after)
    rw [failed, failedOther]
    refine .stopped ?_ ?_
    · simp only [left, List.length_append, List.length_cons]
      omega
    · simp only [leftOther, List.length_append, List.length_cons]
      omega

theorem unexpected (wanted : Wanted) : Weighs (Reader.unexpected wanted : Reader α) :=
  of_error fun tokens => ⟨⟨.unexpected tokens.head? wanted, tokens, 0⟩, rfl, rfl, rfl⟩

theorem tooDeep : Weighs (Reader.fail .nestedTooDeeply : Reader α) :=
  of_error fun tokens => ⟨⟨.nestedTooDeeply, tokens, 0⟩, rfl, rfl, rfl⟩

theorem bind {next : α → Reader β} (weighs : Weighs reader) (weighsNext : ∀ value, Weighs (next value)) :
    Weighs (reader >>= next) where
  within tokens := by
    have suffix := weighs.within tokens
    cases read : reader tokens with
    | error stop =>
        rw [Reader.bind_of_error read]
        rwa [read] at suffix
    | ok result =>
        rw [Reader.bind_of_ok read]
        rw [read] at suffix
        exact ((weighsNext result.1).within result.2).trans suffix
  grounded := by
    intro tokens stop failed
    rcases Reader.bind_eq_error_iff.mp failed with failed | ⟨middle, left, readFirst, failed⟩
    · exact weighs.grounded failed
    · have suffix := weighs.within tokens
      rw [readFirst] at suffix
      exact ((weighsNext middle).grounded failed).mono suffix
  abreast := by
    intro token oversize before after
    have both := weighs.abreast oversize before after
    generalize first : reader (before ++ token :: after) = result,
      second : reader (before ++ token.fitted :: after) = other at both
    cases both with
    | unread =>
        rw [Reader.bind_of_ok first, Reader.bind_of_ok second]
        exact (weighsNext _).abreast oversize _ after
    | stopped more moreOther =>
        rw [Reader.bind_of_error first, Reader.bind_of_error second]
        exact .stopped more moreOther
    | refused past =>
        rw [Reader.bind_of_error first]
        cases other with
        | error stop =>
            rw [Reader.bind_of_error second]
            exact .refused past
        | ok result =>
            rw [Reader.bind_of_ok second]
            exact .refused (((weighsNext result.1).within result.2).trans past)

theorem ite {condition : Prop} [Decidable condition] (weighs : Weighs yes) (weighsOther : Weighs no) :
    Weighs (if condition then yes else no) := by
  split
  · exact weighs
  · exact weighsOther

theorem inBlock (weighs : Weighs reader) : Weighs (Reader.inBlock reader) where
  within tokens := by
    have suffix := weighs.within tokens
    rw [Reader.inBlock]
    cases read : reader tokens with
    | error stop =>
        rw [read] at suffix
        exact suffix
    | ok result =>
        rw [read] at suffix
        exact suffix
  grounded := by
    intro tokens stop failed
    obtain ⟨inner, failed, cause, left⟩ := Reader.inBlock_eq_error failed
    rw [← cause, ← left]
    exact weighs.grounded failed
  abreast := by
    intro token oversize before after
    have both := weighs.abreast oversize before after
    rw [Reader.inBlock, Reader.inBlock]
    generalize reader (before ++ token :: after) = result, reader (before ++ token.fitted :: after) = other at both
    cases both with
    | unread => exact .unread
    | stopped more moreOther => exact .stopped more moreOther
    | refused past =>
        refine .refused ?_
        cases other with
        | error stop => exact past
        | ok result => exact past

/-- A look at the tokens that takes a number for a number, whatever its size. -/
theorem look {see : List Token → α}
    (alike : ∀ token : Token, token.kind = .number → ∀ before after,
      see (before ++ token :: after) = see (before ++ token.fitted :: after)) :
    Weighs (fun tokens => .ok (see tokens, tokens)) where
  within tokens := List.suffix_rfl
  grounded := by
    intro tokens stop failed
    cases failed
  abreast := by
    intro token oversize before after
    rw [alike token oversize.1]
    exact .unread

/-- Looking at the first token goes by its kind, or by more if it is no number. -/
theorem lookFirst (see : Option Token → α) (alike : ∀ token : Token, token.kind = .number →
    see (some token) = see (some token.fitted)) :
    Weighs (fun tokens => .ok (see tokens.head?, tokens)) := by
  refine look fun token isNumber before after => ?_
  cases before with
  | nil => exact alike token isNumber
  | cons first before => rfl

theorem check (kind : TokenKind) : Weighs (Reader.check kind) := lookFirst _ fun _ _ => rfl

theorem atEnd : Weighs Reader.atEnd := by
  refine look fun token _ before after => ?_
  cases before with
  | nil => rfl
  | cons first before => rfl

/-- A reader that takes the first token if it fits, and no number fits. -/
theorem of_take (fits : Token → Prop) [DecidablePred fits] {make : Token → α} (weighs : Weighs no)
    (empty : reader [] = no []) (taken : ∀ token rest, fits token → reader (token :: rest) = .ok (make token, rest))
    (left : ∀ token rest, ¬fits token → reader (token :: rest) = no (token :: rest))
    (noNumber : ∀ token : Token, token.kind = .number → ¬fits token) : Weighs reader where
  within tokens := by
    cases tokens with
    | nil =>
        rw [empty]
        exact weighs.within []
    | cons token rest =>
        by_cases fit : fits token
        · rw [taken token rest fit]
          exact List.suffix_cons token rest
        · rw [left token rest fit]
          exact weighs.within _
  grounded := by
    intro tokens stop failed
    cases tokens with
    | nil =>
        rw [empty] at failed
        exact weighs.grounded failed
    | cons token rest =>
        by_cases fit : fits token
        · rw [taken token rest fit] at failed
          cases failed
        · rw [left token rest fit] at failed
          exact weighs.grounded failed
  abreast := by
    intro token oversize before after
    cases before with
    | nil =>
        rw [List.nil_append, List.nil_append, left _ _ (noNumber token oversize.1),
          left _ _ (noNumber token.fitted oversize.1)]
        exact weighs.abreast oversize [] after
    | cons first before =>
        rw [List.cons_append, List.cons_append]
        by_cases fit : fits first
        · rw [taken _ _ fit, taken _ _ fit]
          exact .unread
        · rw [left _ _ fit, left _ _ fit]
          exact weighs.abreast oversize (first :: before) after

theorem accept {kind : TokenKind} (noNumber : kind ≠ .number) : Weighs (Reader.accept kind) :=
  of_take (·.kind = kind) (pure false) rfl (fun _ _ same => if_pos same) (fun _ _ differs => if_neg differs)
    fun _ isNumber same => noNumber (same.symm.trans isNumber)

theorem acceptLexeme {kind : TokenKind} (noNumber : kind ≠ .number) (lexeme : String) :
    Weighs (Reader.acceptLexeme kind lexeme) :=
  of_take (·.is kind lexeme = true) (pure false) rfl (fun _ _ same => if_pos same) (fun _ _ differs => if_neg differs)
    fun _ isNumber same => noNumber ((Token.symbol_eq_iff.mp (Token.is_iff.mp same)).1.symm.trans isNumber)

theorem decision {declines : Bool} {decision : Reader Bool} (known : Reader.Decision declines decision) :
    Weighs decision := by
  cases known with
  | kind noNumber => exact accept noNumber
  | symbol noNumber => exact acceptLexeme noNumber _

theorem expectKind {kind : TokenKind} (noNumber : kind ≠ .number) (place : String) :
    Weighs (Reader.expectKind kind place) :=
  of_take (·.kind = kind) (unexpected _) rfl (fun _ _ same => if_pos same) (fun _ _ differs => if_neg differs)
    fun _ isNumber same => noNumber (same.symm.trans isNumber)

theorem expect {kind : TokenKind} (noNumber : kind ≠ .number) (lexeme place : String) :
    Weighs (Reader.expect kind lexeme place) :=
  (acceptLexeme noNumber lexeme).bind fun _ => ite (pure _) (unexpected _)

/-- A reader with a bound that comes from the number of tokens: both runs have the same one. -/
theorem of_length {bounded : Nat → Reader α} (weighs : ∀ limit, Weighs (bounded limit)) :
    Weighs (fun tokens => bounded tokens.length tokens) where
  within tokens := (weighs _).within tokens
  grounded failed := (weighs _).grounded failed
  abreast := by
    intro token oversize before after
    have same : (before ++ token.fitted :: after).length = (before ++ token :: after).length := by
      simp only [List.length_append, List.length_cons]
    rw [same]
    exact (weighs _).abreast oversize before after

theorem separatedUpTo (weighs : Weighs reader) (limit : Nat) : Weighs (Reader.separatedUpTo reader limit) := by
  induction limit with
  | zero => exact pure []
  | succ limit ih =>
      exact weighs.bind fun first => (accept (by decide)).bind fun taken => ite (ih.bind fun others => pure _) (pure _)

theorem separated (weighs : Weighs reader) : Weighs (Reader.separated reader) :=
  of_length fun limit => weighs.separatedUpTo (limit + 1)

theorem repeated {done : List Token → Bool} (weighs : Weighs reader)
    (weighsDone : Weighs (Orderly.look done)) : Weighs (Reader.repeated done reader) := by
  refine of_length fun limit => ?_
  induction limit with
  | zero => exact pure []
  | succ limit ih =>
      rw [Orderly.repeatedUpTo_succ]
      exact weighsDone.bind fun stops => ite (pure []) (weighs.bind fun first => ih.bind fun others => pure _)

theorem boundary {done : List Token → Bool} (boundary : Reader.Boundary done) : Weighs (Orderly.look done) := by
  cases boundary with
  | lastToken => exact atEnd
  | brace =>
      refine lookFirst (fun first => first.all (·.is .delimiter Reader.closing)) fun token isNumber => ?_
      simp only [Option.all_some, Token.is, Token.fitted, isNumber]
      rfl

theorem term {nested : Reader Node} (array : Weighs (Reader.arrayTail nested))
    (tuple : Weighs (Reader.tupleTail nested)) : Weighs (Reader.term nested) where
  within tokens := by
    cases tokens with
    | nil => exact List.suffix_rfl
    | cons token rest =>
        have past := List.suffix_cons token rest
        cases Reader.termStart token with
        | leaf _ taken =>
            rw [taken nested rest]
            exact past
        | array opens =>
            rw [Reader.term_arrayStart opens rest]
            exact (array.within rest).trans past
        | tuple opens =>
            rw [Reader.term_tupleStart opens rest]
            exact (tuple.within rest).trans past
        | oversize _ _ stops | unreadable _ _ stops =>
            rw [stops nested rest]
            exact past
        | misfit stops =>
            rw [stops nested rest]
            exact List.suffix_rfl
  grounded := by
    intro tokens stop failed
    cases tokens with
    | nil =>
        cases failed
        trivial
    | cons token rest =>
        have past := List.suffix_cons token rest
        cases Reader.termStart token with
        | leaf _ taken => cases (taken nested rest).symm.trans failed
        | array opens => exact (array.grounded ((Reader.term_arrayStart opens rest).symm.trans failed)).mono past
        | tuple opens => exact (tuple.grounded ((Reader.term_tupleStart opens rest).symm.trans failed)).mono past
        | oversize isNumber tooLarge stops =>
            cases (stops nested rest).symm.trans failed
            exact ⟨⟨isNumber, tooLarge⟩, [], rfl⟩
        | unreadable isFloat noValue stops =>
            cases (stops nested rest).symm.trans failed
            exact ⟨List.mem_cons_self, isFloat, noValue⟩
        | misfit stops =>
            cases (stops nested rest).symm.trans failed
            trivial
  abreast := by
    intro token oversize before after
    cases before with
    | nil =>
        -- The number itself: one run stops at it, and the other takes the number that fits.
        obtain ⟨kind, lexeme, place⟩ := token
        obtain ⟨rfl, unreadable⟩ := oversize
        have stops : Reader.term nested (⟨.number, lexeme, place⟩ :: after) =
            .error ⟨.integerOutOfRange ⟨.number, lexeme, place⟩, after, 0⟩ := by
          simp only [Reader.term, unreadable]
          rfl
        have zero : Number.readInteger "0".toList = some 0 := by decide
        have taken : Reader.term nested (⟨.number, "0", place⟩ :: after) = .ok (.literal (.integer 0), after) := by
          simp only [Reader.term, zero]
        rw [List.nil_append, List.nil_append, stops, Token.fitted, taken]
        exact .refused List.suffix_rfl
    | cons first before =>
        rw [List.cons_append, List.cons_append]
        cases Reader.termStart first with
        | leaf _ taken =>
            rw [taken nested, taken nested]
            exact .unread
        | array opens =>
            rw [Reader.term_arrayStart opens, Reader.term_arrayStart opens]
            exact array.abreast oversize before after
        | tuple opens =>
            rw [Reader.term_tupleStart opens, Reader.term_tupleStart opens]
            exact tuple.abreast oversize before after
        | oversize _ _ stops | unreadable _ _ stops =>
            rw [stops nested, stops nested]
            refine .stopped ?_ ?_
            · simp only [List.length_append, List.length_cons]
              omega
            · simp only [List.length_append, List.length_cons]
              omega
        | misfit stops =>
            rw [stops nested, stops nested]
            exact (unexpected _).abreast oversize (first :: before) after

/-- A declarator is passed over for the sake of two tokens neither of which is a number. -/
theorem skipDeclarator : Weighs Reader.skipDeclarator where
  within tokens := by
    rw [Reader.skipDeclarator_eq]
    exact Reader.afterDeclarator_suffix tokens
  grounded := by
    intro tokens stop failed
    rw [Reader.skipDeclarator_eq] at failed
    cases failed
  abreast := by
    intro token oversize before after
    have noName : token.kind ≠ .identifier := by
      rw [oversize.1]
      decide
    have kept : ∃ left, Reader.afterDeclarator (before ++ token :: after) = left ++ token :: after ∧
        Reader.afterDeclarator (before ++ token.fitted :: after) = left ++ token.fitted :: after := by
      rcases before with _ | ⟨first, _ | ⟨second, before⟩⟩
      · have differs : token.symbol ≠ ⟨.identifier, Words.declarator⟩ :=
          fun same => noName (Token.symbol_eq_iff.mp same).1
        have differsFitted : token.fitted.symbol ≠ ⟨.identifier, Words.declarator⟩ :=
          fun same => noName (Token.symbol_eq_iff.mp same).1
        exact ⟨[], Reader.afterDeclarator_of_other differs after, Reader.afterDeclarator_of_other differsFitted after⟩
      · exact ⟨[first], Reader.afterDeclarator_eq_self after (.inr noName),
          Reader.afterDeclarator_eq_self after (.inr noName)⟩
      · exact ⟨_, Reader.afterDeclarator_append first second before _,
          Reader.afterDeclarator_append first second before _⟩
    obtain ⟨left, same, sameOther⟩ := kept
    rw [Reader.skipDeclarator_eq, Reader.skipDeclarator_eq, same, sameOther]
    exact .unread

end Weighs

theorem Built.weighs {takes settles : Bool} {reader other : Reader α} (built : Built takes settles reader other) :
    Weighs reader := by
  induction built with
  | pure value => exact .pure value
  | unexpected wanted => exact .unexpected wanted
  | tooDeep _ => exact .tooDeep
  | bind _ _ first next => exact first.bind next
  | ite _ _ yes no => exact .ite yes no
  | check kind => exact .check kind
  | atEnd => exact .atEnd
  | decision known => exact .decision known
  | choice known _ _ yes no => exact (Weighs.decision known).bind fun _ => .ite yes no
  | expect place noNumber => exact .expect noNumber _ place
  | expectKind place noNumber => exact .expectKind noNumber place
  | separated _ item => exact item.separated
  | repeated boundary _ item => exact item.repeated (.boundary boundary)
  | inBlock _ inside => exact inside.inBlock
  | term _ _ array tuple => exact .term array tuple
  | declared _ _ next no =>
      exact Weighs.skipDeclarator.bind fun _ => (Weighs.check _).bind fun _ =>
        .ite ((Weighs.expectKind (by decide) _).bind next) no

/-- With a number that fits in the place of the token, the reader would get past that place. -/
def GetsPast (reader : Reader α) (before : List Token) (token : Token) (after : List Token) : Prop :=
  before.length < ((Cursor.start (before ++ token.fitted :: after)).run reader).2.position

/-- The token is a number with a value above the largest word of 64 bits, and the reader comes to it. -/
def OutOfRange (reader : Reader α) (tokens : List Token) (token : Token) : Prop :=
  ∃ before after, tokens = before ++ token :: after ∧ token.kind = .number ∧
    2 ^ 63 - 1 < Nat.ofDigitChars 10 token.lexeme.toList 0 ∧ GetsPast reader before token after

theorem Cursor.run_position (reader : Reader α) (tokens : List Token) :
    ((start tokens).run reader).2.position = tokens.length - (leftOver (reader tokens)).length := by
  have whole : (start tokens).rest = tokens := rfl
  rw [run, whole]
  cases reader tokens with
  | ok result => exact Nat.zero_add _
  | error stop => exact Nat.zero_add _

theorem getsPast_iff {reader : Reader α} (weighs : Weighs reader) {before after : List Token} {token : Token} :
    GetsPast reader before token after ↔
      (leftOver (reader (before ++ token.fitted :: after))).length ≤ after.length := by
  have within := (weighs.within (before ++ token.fitted :: after)).length_le
  rw [GetsPast, Cursor.run_position]
  simp only [List.length_append, List.length_cons] at within ⊢
  omega

theorem Weighs.refuses_iff {reader : Reader α} (weighs : Weighs reader) {tokens : List Token} {token : Token} :
    (∃ stop, reader tokens = .error stop ∧ stop.cause = .integerOutOfRange token) ↔
      ∃ before after, tokens = before ++ token :: after ∧ token.Oversize ∧ GetsPast reader before token after := by
  constructor
  · intro ⟨⟨cause, after, unfinished⟩, failed, same⟩
    cases same
    obtain ⟨oversize, before, rfl⟩ := weighs.grounded failed
    refine ⟨before, after, rfl, oversize, (getsPast_iff weighs).mpr ?_⟩
    have both := weighs.abreast oversize before after
    rw [failed] at both
    generalize reader (before ++ token.fitted :: after) = other at both
    cases both with
    | stopped more _ => exact absurd more (Nat.lt_irrefl _)
    | refused past => exact past.length_le
  · intro ⟨before, after, same, oversize, getsPast⟩
    rw [same]
    have past := (getsPast_iff weighs).mp getsPast
    have both := weighs.abreast oversize before after
    generalize reader (before ++ token :: after) = result, reader (before ++ token.fitted :: after) = other at both past
    cases both with
    | unread =>
        simp only [leftOver, List.length_append, List.length_cons] at past
        omega
    | stopped _ more => exact absurd more (Nat.not_lt.mpr past)
    | refused _ => exact ⟨_, rfl, rfl⟩

theorem Cursor.run_result (reader : Reader α) (tokens : List Token) :
    ((start tokens).run reader).1 =
      match reader tokens with
      | .ok (value, _) => .ok value
      | .error stop => .error (stop.fault tokens) := by
  have whole : (start tokens).rest = tokens := rfl
  rw [run, whole]
  cases reader tokens with
  | ok result => rfl
  | error stop => rfl

theorem parse_eq_run (tokens : List Token) :
    parse tokens = ((Cursor.start tokens).run (Reader.program nestingLimit)).1 := by
  rw [parse, Cursor.run_result]
  cases Reader.program nestingLimit tokens with
  | ok result => rfl
  | error stop => rfl

theorem parseExpression_eq_run (tokens : List Token) :
    parseExpression tokens = ((Cursor.start tokens).run (Reader.soleExpression nestingLimit)).1 := by
  rw [parseExpression, Cursor.run_result]
  cases Reader.soleExpression nestingLimit tokens with
  | ok result => rfl
  | error stop => rfl

theorem Cursor.run_eq_error_iff {reader : Reader α} {tokens : List Token} {fault : Fault} :
    ((start tokens).run reader).1 = .error fault ↔ ∃ stop, reader tokens = .error stop ∧ stop.fault tokens = fault := by
  rw [run_result]
  cases reader tokens with
  | ok result => simp
  | error stop => simp

section

variable {reader : Reader α} {source : String} {token : Token} {place : Position}

theorem oversize_iff (listed : token ∈ tokensOf source) :
    token.Oversize ↔ token.kind = .number ∧ 2 ^ 63 - 1 < Nat.ofDigitChars 10 token.lexeme.toList 0 := by
  rw [Token.Oversize]
  refine and_congr_right fun isNumber => ?_
  have digits := tokensOf_lexeme listed
  rw [isNumber] at digits
  exact Number.readInteger_eq_none_iff digits

theorem Weighs.outOfRange_iff (weighs : Weighs reader) :
    ((Cursor.start (tokensOf source)).run reader).1 = .error (.syntactic (.integerOutOfRange token) place) ↔
      place = token.position ∧ OutOfRange reader (tokensOf source) token := by
  rw [Cursor.run_eq_error_iff]
  constructor
  · intro ⟨⟨cause, rest, unfinished⟩, failed, same⟩
    cases same
    obtain ⟨before, after, split, oversize, getsPast⟩ := weighs.refuses_iff.mp ⟨_, failed, rfl⟩
    obtain ⟨isNumber, large⟩ := (oversize_iff (split ▸ List.mem_append_cons_self)).mp oversize
    exact ⟨rfl, before, after, split, isNumber, large, getsPast⟩
  · intro ⟨position, before, after, split, isNumber, large, getsPast⟩
    have oversize := (oversize_iff (split ▸ List.mem_append_cons_self)).mpr ⟨isNumber, large⟩
    obtain ⟨⟨cause, rest, unfinished⟩, failed, same⟩ :=
      weighs.refuses_iff.mpr ⟨before, after, split, oversize, getsPast⟩
    cases same
    rw [position]
    exact ⟨_, failed, rfl⟩

/-- No number with a point that is cut from a source is refused. -/
theorem Weighs.ne_invalidFloat (weighs : Weighs reader) :
    ((Cursor.start (tokensOf source)).run reader).1 ≠ .error (.syntactic (.invalidFloat token) place) := by
  intro refused
  obtain ⟨⟨cause, rest, unfinished⟩, failed, same⟩ := Cursor.run_eq_error_iff.mp refused
  cases same
  obtain ⟨listed, isFloat, unreadable⟩ := weighs.grounded failed
  have lexeme := tokensOf_lexeme listed
  rw [isFloat] at lexeme
  obtain ⟨whole, fraction, split, digits, digitsAfter⟩ := lexeme
  obtain ⟨value, read⟩ := Number.readReal_point digits digitsAfter
  rw [split, read] at unreadable
  cases unreadable

end

/-- The tokens of a source have the lexemes of their kinds, and so the reader takes just the quotes off a text, never
refuses a number with a point, and refuses a number without one if and only if it comes to it and its value is above
the largest word of 64 bits. -/
theorem lexemes_suit_reader (source : String) :
    (∀ token ∈ tokensOf source, token.kind.Lexeme token.lexeme.toList) ∧
    (∀ token ∈ tokensOf source, token.kind = .text →
      token.lexeme.toList = '"' :: (unquoted token.lexeme).toList ++ ['"']) ∧
    (∀ token place, parse (tokensOf source) ≠ .error (.syntactic (.invalidFloat token) place) ∧
      parseExpression (tokensOf source) ≠ .error (.syntactic (.invalidFloat token) place)) ∧
    ∀ token place,
      (parse (tokensOf source) = .error (.syntactic (.integerOutOfRange token) place) ↔
        place = token.position ∧ OutOfRange (Reader.program nestingLimit) (tokensOf source) token) ∧
      (parseExpression (tokensOf source) = .error (.syntactic (.integerOutOfRange token) place) ↔
        place = token.position ∧ OutOfRange (Reader.soleExpression nestingLimit) (tokensOf source) token) := by
  have weighs := (Reader.program_built (Nat.le_refl nestingLimit)).weighs
  have weighsSole := (Reader.soleExpression_built (Nat.le_refl nestingLimit)).weighs
  rw [parse_eq_run, parseExpression_eq_run]
  refine ⟨fun token listed => tokensOf_lexeme listed, fun token listed isText => ?_,
    fun token place => ⟨weighs.ne_invalidFloat, weighsSole.ne_invalidFloat⟩,
    fun token place => ⟨weighs.outOfRange_iff, weighsSole.outOfRange_iff⟩⟩
  have lexeme := tokensOf_lexeme listed
  rw [isText] at lexeme
  obtain ⟨body, -, quoted⟩ := lexeme
  rw [unquoted_of_quoted quoted, String.toList_ofList, quoted]

/-- The largest number, the one after it, both with zeros in front, and a text that is not closed. -/
def numbersSource : String := "x = [0009223372036854775807, 09223372036854775808, \"a\\\"b\\"

def nextNumber : Token := ⟨.number, "09223372036854775808", ⟨1, 30⟩⟩

def closedText : Token := ⟨.text, "\"a\\\"b\"", ⟨1, 52⟩⟩

def numbersTokens : List Token := [
  ⟨.identifier, "x", ⟨1, 1⟩⟩, ⟨.assignment, "=", ⟨1, 3⟩⟩, ⟨.arrayStart, "[", ⟨1, 5⟩⟩,
  ⟨.number, "0009223372036854775807", ⟨1, 6⟩⟩, ⟨.comma, ",", ⟨1, 28⟩⟩, nextNumber, ⟨.comma, ",", ⟨1, 50⟩⟩, closedText,
  ⟨.operator, "+", ⟨1, 57⟩⟩]

theorem tokensOf_numbersSource : tokensOf numbersSource = numbersTokens := by decide +kernel

theorem lexemes_suit_reader_numbers :
    closedText ∈ tokensOf numbersSource ∧
    closedText.lexeme.toList = '"' :: (unquoted closedText.lexeme).toList ++ ['"'] ∧
    parse (tokensOf numbersSource) = .error (.syntactic (.integerOutOfRange nextNumber) ⟨1, 30⟩) ∧
    OutOfRange (Reader.program nestingLimit) (tokensOf numbersSource) nextNumber := by
  obtain ⟨-, quotes, -, refuses⟩ := lexemes_suit_reader numbersSource
  have listed : closedText ∈ tokensOf numbersSource := by
    rw [tokensOf_numbersSource]
    decide
  have refused : parse (tokensOf numbersSource) = .error (.syntactic (.integerOutOfRange nextNumber) ⟨1, 30⟩) := by
    rw [tokensOf_numbersSource]
    rfl
  exact ⟨listed, quotes _ listed rfl, refused, ((refuses _ _).1.mp refused).2⟩

end BraceCompiler
