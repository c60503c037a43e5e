import BraceCompiler.Proofs.Reading.Phrase
import BraceCompiler.Reading.Cursor

/-! What the readers are put together from. What holds of the parts and is kept by the ways to put them together holds
of every reader, so a property of all readers is one induction on this relation, and the readers themselves are gone
through here. Only their grammar and the routines that they stand for go through them again. -/

namespace BraceCompiler

namespace Reader

/-- What would still belong to a statement that has come to its end, apart from an operator. -/
def continues (kind : TokenKind) (lexeme : String) : Bool :=
  kind == .delimiter && lexeme == ";" || kind == .keyword && lexeme == "else"

/-- A decision by the next token, which is consumed if the answer is yes. -/
inductive Decision : (declines : Bool) → Reader Bool → Prop
  | kind {kind : TokenKind} : kind ≠ .number → Decision false (accept kind)
  | symbol {kind : TokenKind} {lexeme : String} : kind ≠ .number → kind.spelling? = none →
      Decision (continues kind lexeme) (acceptLexeme kind lexeme)

/-- Where a repetition ends. -/
inductive Boundary : (List Token → Bool) → Prop
  | brace : Boundary blockDone
  | lastToken : Boundary List.isEmpty

theorem Decision.decides {declines : Bool} {decision : Reader Bool} (known : Decision declines decision) :
    Decides decision := by
  cases known with
  | kind => exact accept_decides _
  | symbol => exact acceptLexeme_decides _ _

theorem Boundary.atEnd {done : List Token → Bool} (boundary : Boundary done) : done [] = true := by
  cases boundary <;> rfl

theorem Boundary.byFirst {done : List Token → Bool} (boundary : Boundary done) (token : Token)
    (rest other : List Token) : done (token :: rest) = done (token :: other) := by
  cases boundary <;> rfl

/-- What a term does with its first token. -/
inductive TermStart (token : Token) : Prop
  /-- The token is a term of its own. -/
  | leaf {node : Node} : token.kind.spelling? = none →
      (∀ nested rest, term nested (token :: rest) = .ok (node, rest)) → TermStart token
  | array : token.kind = .arrayStart → TermStart token
  | tuple : token.kind = .tupleStart → TermStart token
  | oversize : token.kind = .number → Number.readInteger token.lexeme.toList = none →
      (∀ nested rest, term nested (token :: rest) = .error ⟨.integerOutOfRange token, rest, 0⟩) → TermStart token
  | unreadable : token.kind = .float → Number.readReal token.lexeme.toList = none →
      (∀ nested rest, term nested (token :: rest) = .error ⟨.invalidFloat token, rest, 0⟩) → TermStart token
  | misfit : (∀ nested rest, term nested (token :: rest) =
        Reader.unexpected (.fitting "in expression") (token :: rest)) → TermStart token

theorem termStart (token : Token) : TermStart token := by
  obtain ⟨kind, lexeme, place⟩ := token
  cases kind with
  | number =>
      cases made : Number.readInteger lexeme.toList with
      | some value =>
          have taken (nested rest) : term nested (⟨.number, lexeme, place⟩ :: rest) =
              .ok (.literal (.integer value), rest) := by
            simp only [term, made]
          exact .leaf rfl taken
      | none =>
          refine .oversize rfl made fun nested rest => ?_
          simp only [term, made]
          rfl
  | float =>
      cases made : Number.readReal lexeme.toList with
      | some value =>
          have taken (nested rest) : term nested (⟨.float, lexeme, place⟩ :: rest) =
              .ok (.literal (.real value), rest) := by
            simp only [term, made]
          exact .leaf rfl taken
      | none =>
          refine .unreadable rfl made fun nested rest => ?_
          simp only [term, made]
          rfl
  | text | identifier | boolean => exact .leaf rfl fun _ _ => rfl
  | arrayStart => exact .array rfl
  | tupleStart => exact .tuple rfl
  | _ => exact .misfit fun _ _ => rfl

theorem term_arrayStart {nested : Reader Node} {token : Token} (opens : token.kind = .arrayStart) (rest : List Token) :
    term nested (token :: rest) = arrayTail nested rest := by rw [term, opens]

theorem term_tupleStart {nested : Reader Node} {token : Token} (opens : token.kind = .tupleStart) (rest : List Token) :
    term nested (token :: rest) = tupleTail nested rest := by rw [term, opens]

/-- The tokens after a declarator, if it stands before a name. -/
def afterDeclarator : List Token → List Token
  | first :: second :: rest =>
    if first.symbol = ⟨.identifier, Words.declarator⟩ ∧ second.kind = .identifier then second :: rest
    else first :: second :: rest
  | tokens => tokens

theorem skipDeclarator_eq (tokens : List Token) :
    skipDeclarator tokens = .ok ((), afterDeclarator tokens) := by
  have checked : checkLexeme .identifier Words.declarator tokens =
      .ok (tokens.head?.any (·.is .identifier Words.declarator), tokens) := rfl
  have checkedNext : checkNext .identifier tokens =
      .ok (tokens.tail.head?.any (·.kind == .identifier), tokens) := rfl
  rw [skipDeclarator, bind_of_ok checked]
  split
  · rename_i declarator
    rw [bind_of_ok checkedNext]
    rcases tokens with _ | ⟨first, _ | ⟨second, rest⟩⟩
    · rfl
    · rfl
    · have symbol : first.symbol = ⟨.identifier, Words.declarator⟩ := Token.is_iff.mp declarator
      have next : (first :: second :: rest).tail.head?.any (·.kind == .identifier) = true ↔
          second.kind = .identifier := beq_iff_eq
      by_cases kind : second.kind = .identifier
      · rw [if_pos (next.mpr kind), afterDeclarator, if_pos ⟨symbol, kind⟩]
        rfl
      · rw [if_neg (mt next.mp kind), afterDeclarator, if_neg (kind ·.2)]
        rfl
  · rename_i other
    rcases tokens with _ | ⟨first, _ | ⟨second, rest⟩⟩
    · rfl
    · rfl
    · have differs : first.symbol ≠ ⟨.identifier, Words.declarator⟩ :=
        fun symbol => other (Token.is_iff.mpr symbol)
      simp only [afterDeclarator, differs, false_and, if_false]
      rfl

theorem afterDeclarator_cases (tokens : List Token) :
    afterDeclarator tokens = tokens ∨ ∃ first second rest, tokens = first :: second :: rest ∧
      first.symbol = ⟨.identifier, Words.declarator⟩ ∧ second.kind = .identifier ∧
      afterDeclarator tokens = second :: rest := by
  rcases tokens with _ | ⟨first, _ | ⟨second, rest⟩⟩
  · exact .inl rfl
  · exact .inl rfl
  · rw [afterDeclarator]
    split
    · rename_i both
      exact .inr ⟨first, second, rest, rfl, both.1, both.2, rfl⟩
    · exact .inl rfl

/-- No declarator is passed over unless it stands before a name. -/
theorem afterDeclarator_eq_self {first second : Token} (rest : List Token)
    (other : first.kind ≠ .identifier ∨ second.kind ≠ .identifier) :
    afterDeclarator (first :: second :: rest) = first :: second :: rest := by
  rw [afterDeclarator, if_neg]
  rintro ⟨declarator, name⟩
  exact other.elim (· (Token.symbol_eq_iff.mp declarator).1) (· name)

theorem afterDeclarator_suffix (tokens : List Token) : afterDeclarator tokens <:+ tokens := by
  rcases afterDeclarator_cases tokens with same | ⟨first, second, rest, rfl, -, -, same⟩
  · exact ⟨[], same⟩
  · rw [same]
    exact List.suffix_cons _ _

theorem afterDeclarator_append (first second : Token) (rest tail : List Token) :
    afterDeclarator (first :: second :: rest ++ tail) = afterDeclarator (first :: second :: rest) ++ tail := by
  simp only [List.cons_append, afterDeclarator]
  split <;> rfl

theorem afterDeclarator_of_other {first : Token} (other : first.symbol ≠ ⟨.identifier, Words.declarator⟩)
    (rest : List Token) : afterDeclarator (first :: rest) = first :: rest := by
  cases rest with
  | nil => rfl
  | cons second rest => rw [afterDeclarator, if_neg (other ·.1)]

/-- What begins with a name goes on from the name, and the rest is left to another reader. -/
def named {α : Type} (place : String) (next : String → Reader α) (no : Reader α) : Reader α := do
  if ← check .identifier then expectKind .identifier place >>= next else no

section

variable {α : Type} {place : String} {next : String → Reader α} {no : Reader α} {first : Token}

theorem declared_eq (tokens : List Token) :
    (skipDeclarator >>= fun _ => named place next no) tokens = named place next no (afterDeclarator tokens) :=
  bind_of_ok (skipDeclarator_eq tokens)

theorem named_of_name (rest : List Token) (name : first.kind = .identifier) :
    named place next no (first :: rest) = next first.lexeme rest := by
  have found : check .identifier (first :: rest) = .ok (true, first :: rest) := by
    simp only [check, List.head?_cons, Option.any_some, name, beq_self_eq_true]
  have taken : expectKind .identifier place (first :: rest) = .ok (first.lexeme, rest) := if_pos name
  rw [named, bind_of_ok found, if_pos rfl, bind_of_ok taken]

theorem named_of_other (rest : List Token) (other : first.kind ≠ .identifier) :
    named place next no (first :: rest) = no (first :: rest) := by
  have absent : check .identifier (first :: rest) = .ok (false, first :: rest) := by
    simp only [check, List.head?_cons, Option.any_some, beq_eq_false_iff_ne.mpr other]
  rw [named, bind_of_ok absent, if_neg Bool.false_ne_true]

end

end Reader

open Reader

/-- Two readers are put together alike, but where the first is out of levels the second may go on. It `takes` if a
success consumes a token. It `settles` if, where it leaves nothing, it would also leave what cannot belong to a
statement any more. -/
inductive Built : {α : Type} → (takes settles : Bool) → (reader other : Reader α) → Prop
  | pure {α : Type} (value : α) : Built false true (pure value) (pure value)
  | unexpected {α : Type} (wanted : Wanted) : Built true true (unexpected wanted : Reader α) (unexpected wanted)
  | tooDeep {α : Type} (other : Reader α) : Built true true (fail .nestedTooDeeply) other
  /-- A second reader that takes leaves the first no end to look at. -/
  | bind {α β : Type} {takes settles takesNext settlesNext : Bool} {first first' : Reader α}
      {next next' : α → Reader β} : Built takes settles first first' →
      (∀ value, Built takesNext settlesNext (next value) (next' value)) →
      Built (takes || takesNext) (settlesNext && (settles || takesNext)) (first >>= next) (first' >>= next')
  | ite {α : Type} {takes settles takesNo settlesNo : Bool} {condition : Prop} [Decidable condition]
      {yes yes' no no' : Reader α} : Built takes settles yes yes' → Built takesNo settlesNo no no' →
      Built (takes && takesNo) (settles && settlesNo) (if condition then yes else no)
        (if condition then yes' else no')
  | check (kind : TokenKind) : Built false (kind == .operator) (check kind) (check kind)
  | atEnd : Built false false atEnd atEnd
  | decision {declines : Bool} {decision : Reader Bool} : Decision declines decision →
      Built false declines decision decision
  /-- A decision that is made by consuming a token, or else by going on without one. -/
  | choice {α : Type} {declines takes settles takesNo settlesNo : Bool} {decision : Reader Bool}
      {yes yes' no no' : Reader α} : Decision declines decision → Built takes settles yes yes' →
      Built takesNo settlesNo no no' →
      Built takesNo (settles && settlesNo && (takesNo || declines))
        (decision >>= fun taken => if taken = true then yes else no)
        (decision >>= fun taken => if taken = true then yes' else no')
  | expect {kind : TokenKind} {lexeme : String} (place : String) : kind ≠ .number →
      kind.spelling?.getD lexeme = lexeme → Built true true (expect kind lexeme place) (expect kind lexeme place)
  | expectKind {kind : TokenKind} (place : String) : kind ≠ .number → kind.spelling? = none →
      Built true true (expectKind kind place) (expectKind kind place)
  | separated {α : Type} {takes settles : Bool} {item item' : Reader α} : Built takes settles item item' →
      Built takes false (separated item) (separated item')
  | repeated {α : Type} {settles : Bool} {done : List Token → Bool} {item item' : Reader α} : Boundary done →
      Built true settles item item' → Built false false (repeated done item) (repeated done item')
  | inBlock {α : Type} {takes settles : Bool} {inside inside' : Reader α} : Built takes settles inside inside' →
      Built takes settles (inBlock inside) (inBlock inside')
  | term {nested nested' : Reader Node} : Built true true (arrayTail nested) (arrayTail nested') →
      Built true true (tupleTail nested) (tupleTail nested') → Built true true (term nested) (term nested')
  /-- Whether a declarator is passed over depends on the token after it. A declarator that stays is consumed as a
  name. -/
  | declared {α : Type} {place : String} {next next' : String → Reader α} {no no' : Reader α} :
      (∀ name, Built true true (next name) (next' name)) → Built true true no no' →
      Built true true (skipDeclarator >>= fun _ => named place next no)
        (skipDeclarator >>= fun _ => named place next' no')

namespace Built

/-- With the grade computed. -/
theorem graded {α : Type} {takes settles takes' settles' : Bool} {reader other : Reader α}
    (built : Built takes settles reader other) (sameTakes : takes = takes') (sameSettles : settles = settles') :
    Built takes' settles' reader other := sameTakes ▸ sameSettles ▸ built

end Built

namespace Reader

variable {nested nested' : Reader Node}

theorem arrayTail_built (built : Built true true nested nested') :
    Built true true (arrayTail nested) (arrayTail nested') :=
  .graded ((Built.check .arrayEnd).bind fun _ => .ite
    ((Built.expect _ (by decide) rfl).bind fun _ => .pure _)
    (built.separated.bind fun _ => (Built.expect _ (by decide) rfl).bind fun _ => .pure _)) rfl rfl

theorem tupleTail_built (built : Built true true nested nested') :
    Built true true (tupleTail nested) (tupleTail nested') :=
  .graded (.choice (.kind (by decide)) (.pure _) (built.bind fun _ => .choice (.kind (by decide))
    (built.separated.bind fun _ => (Built.expect _ (by decide) rfl).bind fun _ => .pure _)
    ((Built.expect _ (by decide) rfl).bind fun _ => .pure _))) rfl rfl

theorem term_built (built : Built true true nested nested') : Built true true (term nested) (term nested') :=
  .term (arrayTail_built built) (tupleTail_built built)

/-- Both readers at once: each calls the other with one level less. -/
theorem expression_operations_built {room more : Nat} (less : room ≤ more) :
    Built true true (expression room) (expression more) ∧
      ∀ left, Built false true (operations room left) (operations more left) := by
  induction room generalizing more with
  | zero =>
      refine ⟨.tooDeep _, fun left => ?_⟩
      cases more <;> exact .graded ((Built.check .operator).bind fun _ => .ite (.tooDeep _) (.pure left)) rfl rfl
  | succ room ih =>
      cases more with
      | zero => exact absurd less (Nat.not_succ_le_zero room)
      | succ more =>
          obtain ⟨built, builtAfter⟩ := ih (Nat.le_of_succ_le_succ less)
          refine ⟨(term_built built).bind builtAfter, fun left => ?_⟩
          exact .graded ((Built.check .operator).bind fun _ => .ite
            ((Built.expectKind _ (by decide) rfl).bind fun _ => (term_built built).bind fun _ => builtAfter _)
            (.pure left)) rfl rfl

theorem expression_built {room more : Nat} (less : room ≤ more) :
    Built true true (expression room) (expression more) := (expression_operations_built less).1

theorem parameters_built : Built false false parameters parameters := by
  have one : Built true false parameter parameter :=
    .graded ((Built.expectKind _ (by decide) rfl).bind fun _ => .choice (.kind (by decide))
      ((Built.expectKind _ (by decide) rfl).bind fun _ => .pure _) (.pure _)) rfl rfl
  exact .graded ((Built.check .tupleEnd).bind fun _ => .ite (.pure _) one.separated) rfl rfl

section

variable {value value' : Reader Node} {body body' : String → Reader (List Node)}

theorem functionTail_built (builtBody : ∀ what, Built true true (body what) (body' what)) :
    Built true true (functionTail body) (functionTail body') :=
  .graded ((Built.expectKind _ (by decide) rfl).bind fun _ => (Built.expect _ (by decide) rfl).bind fun _ =>
    parameters_built.bind fun _ => (Built.expect _ (by decide) rfl).bind fun _ => (builtBody _).bind fun _ =>
      .pure _) rfl rfl

theorem skipSemicolon_built : Built false true skipSemicolon skipSemicolon :=
  .graded ((Built.decision (.symbol (by decide) rfl)).bind fun _ => .pure _) rfl rfl

theorem member_built (built : Built true true value value')
    (builtBody : ∀ what, Built true true (body what) (body' what)) :
    Built true true (member value body) (member value' body') :=
  .graded ((Built.check .dataType).bind fun _ => .ite
    ((Built.expectKind _ (by decide) rfl).bind fun _ => (Built.expectKind _ (by decide) rfl).bind fun _ =>
      (Built.expect _ (by decide) rfl).bind fun _ => built.bind fun _ => skipSemicolon_built.bind fun _ => .pure _)
    (.choice (.symbol (by decide) rfl) ((functionTail_built builtBody).bind fun _ => .pure _) (.unexpected _))) rfl rfl

theorem classTail_built (built : Built true true value value')
    (builtBody : ∀ what, Built true true (body what) (body' what)) :
    Built true true (classTail value body) (classTail value' body') :=
  .graded ((Built.expectKind _ (by decide) rfl).bind fun _ => (Built.expect _ (by decide) rfl).bind fun _ =>
    (Built.repeated .brace (member_built built builtBody)).bind fun _ => (Built.expect _ (by decide) rfl).bind fun _ =>
      .pure _) rfl rfl

/-- What follows the name in an assignment. -/
def assignmentTail (value : Reader Node) (name : String) : Reader Node := do
  expect .assignment "=" "after assignment target"
  let value ← value
  skipSemicolon
  return .assignment name value

theorem assignmentTail_built (built : Built true true value value') (name : String) :
    Built true true (assignmentTail value name) (assignmentTail value' name) :=
  .graded ((Built.expect _ (by decide) rfl).bind fun _ => built.bind fun _ => skipSemicolon_built.bind fun _ =>
    .pure _) rfl rfl

theorem assignment_built (built : Built true true value value') :
    Built true true (assignment value) (assignment value') :=
  (Built.expectKind _ (by decide) rfl).bind (assignmentTail_built built)

theorem condition_built (built : Built true true value value') (word : String) :
    Built true true (condition value word) (condition value' word) :=
  .graded ((Built.expect _ (by decide) rfl).bind fun _ => built.bind fun _ => (Built.expect _ (by decide) rfl).bind
    fun _ => .pure _) rfl rfl

theorem conditionalTail_built (built : Built true true value value')
    (builtBody : ∀ what, Built true true (body what) (body' what)) :
    Built true true (conditionalTail value body) (conditionalTail value' body') :=
  .graded ((condition_built built _).bind fun _ => (builtBody _).bind fun _ => .choice (.symbol (by decide) rfl)
    ((builtBody _).bind fun _ => .pure _) (.pure _)) rfl rfl

theorem whileTail_built (built : Built true true value value')
    (builtBody : ∀ what, Built true true (body what) (body' what)) :
    Built true true (whileTail value body) (whileTail value' body') :=
  .graded ((condition_built built _).bind fun _ => (builtBody _).bind fun _ => .pure _) rfl rfl

theorem forTail_built (built : Built true true value value')
    (builtBody : ∀ what, Built true true (body what) (body' what)) :
    Built true true (forTail value body) (forTail value' body') :=
  .graded ((Built.expect _ (by decide) rfl).bind fun _ => (assignment_built built).bind fun _ => built.bind fun _ =>
    (Built.expect _ (by decide) rfl).bind fun _ => built.bind fun _ => (Built.expect _ (by decide) rfl).bind fun _ =>
      (builtBody _).bind fun _ => .pure _) rfl rfl

theorem returnTail_built (built : Built true true value value') :
    Built true true (returnTail value) (returnTail value') :=
  .graded (built.bind fun _ => (Built.expect _ (by decide) rfl).bind fun _ => .pure _) rfl rfl

theorem statementWith_built (built : Built true true value value')
    (builtBody : ∀ what, Built true true (body what) (body' what)) :
    Built true true (statementWith value body) (statementWith value' body') :=
  .declared (assignmentTail_built built) <| .graded
    (.choice (.symbol (by decide) rfl) (functionTail_built builtBody) <|
      .choice (.symbol (by decide) rfl) (classTail_built built builtBody) <|
      .choice (.symbol (by decide) rfl) (conditionalTail_built built builtBody) <|
      .choice (.symbol (by decide) rfl) (whileTail_built built builtBody) <|
      .choice (.symbol (by decide) rfl) (forTail_built built builtBody) <|
      .choice (.symbol (by decide) rfl) (returnTail_built built) (.unexpected _)) rfl rfl

end

theorem block_built {room more : Nat} (less : room ≤ more) (what : String) :
    Built true true (block room what) (block more what) := by
  induction room generalizing more what with
  | zero =>
      cases more <;> exact .graded ((Built.expect _ (by decide) rfl).bind fun _ => .tooDeep _) rfl rfl
  | succ room ih =>
      cases more with
      | zero => exact absurd less (Nat.not_succ_le_zero room)
      | succ more =>
          have fewer := Nat.le_of_succ_le_succ less
          have inside := statementWith_built (expression_built fewer) (ih fewer)
          exact .graded ((Built.expect _ (by decide) rfl).bind fun _ => (Built.repeated .brace inside).inBlock.bind
            fun _ => (Built.expect _ (by decide) rfl).bind fun _ => .pure _) rfl rfl

theorem statement_built {room more : Nat} (less : room ≤ more) :
    Built true true (statement room) (statement more) :=
  statementWith_built (expression_built less) (block_built less)

theorem program_built {room more : Nat} (less : room ≤ more) :
    Built false false (program room) (program more) :=
  .graded ((Built.repeated .lastToken (statement_built less)).bind fun _ => .pure _) rfl rfl

theorem soleExpression_built {room more : Nat} (less : room ≤ more) :
    Built true false (soleExpression room) (soleExpression more) :=
  .graded ((expression_built less).bind fun _ => Built.atEnd.bind fun _ => .ite (.pure _)
    ((Built.unexpected _).bind fun _ => .pure _)) rfl rfl

end Reader

end BraceCompiler
