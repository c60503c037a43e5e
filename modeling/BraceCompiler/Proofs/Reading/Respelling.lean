import BraceCompiler.Proofs.Reading.Orderly

/-! Punctuation with a foreign lexeme. What an expression is read as does not depend on it: the tokens are read
alike once all punctuation carries its own lexeme. -/

namespace BraceCompiler

namespace Token

def respelled (token : Token) : Token := { token with lexeme := token.kind.spelling?.getD token.lexeme }

theorem respelled_eq_self {token : Token} (free : token.kind.spelling? = none) : token.respelled = token := by
  rw [respelled, free]
  rfl

theorem respelled_is {token : Token} {kind : TokenKind} {lexeme : String}
    (spelling : kind.spelling?.getD lexeme = lexeme) (same : token.is kind lexeme = true) :
    token.respelled.is kind lexeme = true := by
  obtain ⟨rfl, rfl⟩ := symbol_eq_iff.mp (is_iff.mp same)
  exact is_iff.mpr (symbol_eq_iff.mpr ⟨rfl, spelling⟩)

/-- No other token comes to have a lexeme that its kind leaves free. -/
theorem respelled_is_iff {token : Token} {kind : TokenKind} {lexeme : String} (free : kind.spelling? = none) :
    token.respelled.is kind lexeme = true ↔ token.is kind lexeme = true := by
  refine ⟨fun same => ?_, respelled_is (by rw [free]; rfl)⟩
  have sameKind : token.kind = kind := (symbol_eq_iff.mp (is_iff.mp same)).1
  rwa [respelled_eq_self (by rwa [sameKind])] at same

end Token

theorem spelled_respelled (tokens : List Token) : Spelled (tokens.map Token.respelled) := by
  intro token member lexeme spelling
  obtain ⟨original, -, rfl⟩ := List.mem_map.mp member
  rw [Token.respelled, show original.kind.spelling? = some lexeme from spelling]
  rfl

namespace Reader

theorem boundary_respelled {done : List Token → Bool} (boundary : Boundary done) (tokens : List Token) :
    done (tokens.map Token.respelled) = done tokens := by
  cases boundary with
  | lastToken => exact List.isEmpty_map
  | brace =>
      cases tokens with
      | nil => rfl
      | cons token tokens =>
          have same : token.respelled.is .delimiter closing = true ↔ token.is .delimiter closing = true :=
            Token.respelled_is_iff rfl
          exact Bool.eq_iff_iff.mpr same

theorem afterDeclarator_respelled (tokens : List Token) :
    afterDeclarator (tokens.map Token.respelled) = (afterDeclarator tokens).map Token.respelled := by
  rcases tokens with _ | ⟨first, _ | ⟨second, rest⟩⟩
  · rfl
  · rfl
  · have same : first.respelled.symbol = ⟨.identifier, Words.declarator⟩ ↔
        first.symbol = ⟨.identifier, Words.declarator⟩ := by
      rw [← Token.is_iff, ← Token.is_iff, Token.respelled_is_iff rfl]
    have sameKind : second.respelled.kind = second.kind := rfl
    simp only [List.map_cons, afterDeclarator, same, sameKind]
    split
    · rfl
    · rfl

end Reader

variable {α β : Type}

/-- A success stays one when the tokens are respelled. -/
structure Indifferent (reader : Reader α) : Prop where
  ok : ∀ {tokens value rest}, reader tokens = .ok (value, rest) →
    reader (tokens.map Token.respelled) = .ok (value, rest.map Token.respelled)

namespace Indifferent

variable {reader yes no : Reader α}

theorem pure (value : α) : Indifferent (pure value) where
  ok read := by
    cases read
    rfl

theorem of_error (stops : ∀ tokens, ∃ stop, reader tokens = .error stop) : Indifferent reader where
  ok := by
    intro tokens value rest read
    obtain ⟨stop, failed⟩ := stops tokens
    cases failed.symm.trans read

theorem bind {next : α → Reader β} (indifferent : Indifferent reader)
    (indifferentNext : ∀ value, Indifferent (next value)) : Indifferent (reader >>= next) where
  ok read := by
    obtain ⟨middle, left, readFirst, readNext⟩ := Reader.bind_eq_ok_iff.mp read
    exact Reader.bind_eq_ok_iff.mpr
      ⟨middle, _, indifferent.ok readFirst, (indifferentNext middle).ok readNext⟩

theorem ite {condition : Prop} [Decidable condition] (indifferent : Indifferent yes)
    (indifferentOther : Indifferent no) : Indifferent (if condition then yes else no) := by
  split
  · exact indifferent
  · exact indifferentOther

/-- A reader that takes the first token, whatever its lexeme, or stops. -/
theorem of_first (empty : ∃ stop, reader [] = .error stop)
    (first : ∀ token : Token,
      (∃ inside, Indifferent inside ∧ (∀ rest, reader (token :: rest) = inside rest) ∧
        ∀ rest, reader (token.respelled :: rest) = inside rest) ∨
      ∀ rest, ∃ stop, reader (token :: rest) = .error stop) : Indifferent reader where
  ok := by
    intro tokens value rest read
    cases tokens with
    | nil =>
        obtain ⟨stop, failed⟩ := empty
        cases failed.symm.trans read
    | cons token tokens =>
        rcases first token with ⟨inside, indifferent, goes, goesRespelled⟩ | stops
        · exact (goesRespelled _).trans (indifferent.ok ((goes tokens).symm.trans read))
        · obtain ⟨stop, failed⟩ := stops tokens
          cases failed.symm.trans read

theorem check (kind : TokenKind) : Indifferent (Reader.check kind) where
  ok := by
    intro tokens found rest read
    cases read
    cases tokens with
    | nil => rfl
    | cons token tokens => rfl

theorem accept (kind : TokenKind) : Indifferent (Reader.accept kind) where
  ok := by
    intro tokens taken rest read
    cases tokens with
    | nil => cases read; rfl
    | cons token tokens =>
        rw [Reader.accept] at read
        split at read
        · rename_i same
          cases read
          exact if_pos same
        · rename_i differs
          cases read
          exact if_neg differs

theorem acceptLexeme {kind : TokenKind} (lexeme : String) (free : kind.spelling? = none) :
    Indifferent (Reader.acceptLexeme kind lexeme) where
  ok := by
    intro tokens taken rest read
    cases tokens with
    | nil => cases read; rfl
    | cons token tokens =>
        rw [Reader.acceptLexeme] at read
        split at read
        · rename_i same
          cases read
          exact if_pos ((Token.respelled_is_iff free).mpr same)
        · rename_i differs
          cases read
          exact if_neg (mt (Token.respelled_is_iff free).mp differs)

/-- The lexeme that is asked for is the one that the token is given. -/
theorem expect {kind : TokenKind} {lexeme : String} (place : String)
    (spelling : kind.spelling?.getD lexeme = lexeme) : Indifferent (Reader.expect kind lexeme place) where
  ok := by
    intro tokens value rest read
    obtain ⟨taken, left, decided, chosen⟩ := Reader.bind_eq_ok_iff.mp read
    cases tokens with
    | nil => cases decided; cases chosen
    | cons token tokens =>
        rw [Reader.acceptLexeme] at decided
        split at decided
        · rename_i is
          have kept := Token.respelled_is spelling is
          cases decided
          cases chosen
          exact Reader.bind_eq_ok_iff.mpr ⟨true, _, if_pos kept, rfl⟩
        · cases decided
          cases chosen

theorem decision {declines : Bool} {decision : Reader Bool} (known : Reader.Decision declines decision) :
    Indifferent decision := by
  cases known with
  | kind => exact accept _
  | symbol _ free => exact acceptLexeme _ free

theorem expectKind {kind : TokenKind} (place : String) (free : kind.spelling? = none) :
    Indifferent (Reader.expectKind kind place) := by
  refine of_first ⟨_, rfl⟩ fun token => ?_
  by_cases same : token.kind = kind
  · refine .inl ⟨Pure.pure token.lexeme, pure _, fun rest => if_pos same, fun rest => ?_⟩
    rw [Token.respelled_eq_self (by rw [same]; exact free)]
    exact if_pos same
  · exact .inr fun rest => ⟨_, if_neg same⟩

theorem separatedUpTo (indifferent : Indifferent reader) (limit : Nat) :
    Indifferent (Reader.separatedUpTo reader limit) := by
  induction limit with
  | zero => exact pure []
  | succ limit ih =>
      exact indifferent.bind fun first => (accept .comma).bind fun taken =>
        ite (ih.bind fun others => pure _) (pure _)

theorem separated (indifferent : Indifferent reader) : Indifferent (Reader.separated reader) where
  ok read := by
    rw [Reader.separated, List.length_map]
    exact (indifferent.separatedUpTo _).ok read

theorem look {done : List Token → Bool} (boundary : Reader.Boundary done) : Indifferent (Orderly.look done) where
  ok := by
    intro tokens ended rest looked
    cases looked
    rw [Orderly.look, Reader.boundary_respelled boundary]

theorem repeatedUpTo {done : List Token → Bool} (boundary : Reader.Boundary done) (indifferent : Indifferent reader)
    (limit : Nat) : Indifferent (Reader.repeatedUpTo done reader limit) := by
  induction limit with
  | zero => exact pure []
  | succ limit ih =>
      rw [Orderly.repeatedUpTo_succ]
      exact (look boundary).bind fun _ => ite (pure []) (indifferent.bind fun _ => ih.bind fun _ => pure _)

theorem repeated {done : List Token → Bool} (boundary : Reader.Boundary done) (indifferent : Indifferent reader) :
    Indifferent (Reader.repeated done reader) where
  ok read := by
    rw [Reader.repeated, List.length_map]
    exact (repeatedUpTo boundary indifferent _).ok read

theorem inBlock (indifferent : Indifferent reader) : Indifferent (Reader.inBlock reader) where
  ok read := Reader.inBlock_eq_ok_iff.mpr (indifferent.ok (Reader.inBlock_eq_ok_iff.mp read))

theorem atEnd : Indifferent Reader.atEnd where
  ok := by
    intro tokens ended rest read
    cases read
    rw [Reader.atEnd, List.isEmpty_map]

theorem term {nested : Reader Node} (array : Indifferent (Reader.arrayTail nested))
    (tuple : Indifferent (Reader.tupleTail nested)) : Indifferent (Reader.term nested) := by
  refine of_first ⟨_, rfl⟩ fun token => ?_
  cases Reader.termStart token with
  | leaf free taken =>
      refine .inl ⟨Pure.pure _, pure _, taken nested, ?_⟩
      rw [Token.respelled_eq_self free]
      exact taken nested
  | array opens => exact .inl ⟨_, array, Reader.term_arrayStart opens, Reader.term_arrayStart opens⟩
  | tuple opens => exact .inl ⟨_, tuple, Reader.term_tupleStart opens, Reader.term_tupleStart opens⟩
  | oversize _ _ stops | unreadable _ _ stops | misfit stops => exact .inr fun rest => ⟨_, stops nested rest⟩

/-- A declarator and a name have free lexemes. -/
theorem skipDeclarator : Indifferent Reader.skipDeclarator where
  ok := by
    intro tokens value rest read
    rw [Reader.skipDeclarator_eq] at read ⊢
    cases read
    rw [Reader.afterDeclarator_respelled]

end Indifferent

/-- Every reader is indifferent, whatever it is graded. -/
theorem Built.indifferent {takes settles : Bool} {reader other : Reader α} (built : Built takes settles reader other) :
    Indifferent reader := by
  induction built with
  | pure value => exact .pure value
  | unexpected => exact .of_error fun tokens => ⟨_, rfl⟩
  | tooDeep => exact .of_error fun tokens => ⟨_, rfl⟩
  | bind _ _ first next => exact first.bind next
  | ite _ _ yes no => exact .ite yes no
  | check kind => exact .check kind
  | atEnd => exact .atEnd
  | decision known => exact .decision known
  | choice known _ _ yes no => exact (Indifferent.decision known).bind fun _ => .ite yes no
  | expect place _ spelling => exact .expect place spelling
  | expectKind place _ free => exact .expectKind place free
  | separated _ item => exact item.separated
  | repeated boundary _ item => exact .repeated boundary item
  | inBlock _ inside => exact inside.inBlock
  | term _ _ array tuple => exact .term array tuple
  | declared _ _ next no =>
      exact Indifferent.skipDeclarator.bind fun _ => (Indifferent.check _).bind fun _ =>
        .ite ((Indifferent.expectKind _ rfl).bind next) no

end BraceCompiler
