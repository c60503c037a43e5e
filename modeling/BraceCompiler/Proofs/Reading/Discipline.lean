import BraceCompiler.Proofs.Reading.Concatenation
import BraceCompiler.Proofs.Reading.Follows

/-! The routines follow the readers of the same names, so they come to an end on every cursor that is not too deep.
What reading does to a cursor, step after step, is read off both. -/

namespace BraceCompiler

namespace Routine

variable {depth room : Nat} {value : Nat → Routine Node} {reader : Reader Node}

theorem arrayTail_follows (follows : Follows depth 0 value reader) :
    Follows depth 0 (fun clock => arrayTail (value clock) clock) (Reader.arrayTail reader) :=
  (Follows.check .arrayEnd).bind fun _ => .ite
    ((Follows.expect ..).bind fun _ => .pure _)
    (follows.separated.bind fun _ => (Follows.expect ..).bind fun _ => .pure _)

theorem tupleTail_follows (follows : Follows depth 0 value reader) :
    Follows depth 0 (fun clock => tupleTail (value clock) clock) (Reader.tupleTail reader) :=
  (Follows.accept .tupleEnd).bind fun _ => .ite (.pure _) <|
    follows.bind fun _ => (Follows.accept .comma).bind fun _ => .ite
      (follows.separated.bind fun _ => (Follows.expect ..).bind fun _ => .pure _)
      ((Follows.expect ..).bind fun _ => .pure _)

/-- A literal that cannot be made is a fault of its token, which has been taken. -/
theorem refuse_follows {cause : SyntaxFault} {place : Position}
    (placed : ∀ rest tokens, Stop.position ⟨cause, rest, 0⟩ tokens = place) :
    Follows depth 0 (fun _ => refuse cause place) (Reader.fail cause : Reader Node) :=
  .of_refusal fun cursor => by
    rw [placed]
    rfl

theorem integer_follows (token : Token) : Follows depth 0 (fun _ => integer token)
    (match Number.readInteger token.lexeme.toList with
      | some made => pure (.literal (.integer made))
      | none => Reader.fail (.integerOutOfRange token)) := by
  unfold integer
  cases Number.readInteger token.lexeme.toList with
  | some made => exact .pure _
  | none => exact refuse_follows fun _ _ => rfl

theorem real_follows (token : Token) : Follows depth 0 (fun _ => real token)
    (match Number.readReal token.lexeme.toList with
      | some made => pure (.literal (.real made))
      | none => Reader.fail (.invalidFloat token)) := by
  unfold real
  cases Number.readReal token.lexeme.toList with
  | some made => exact .pure _
  | none => exact refuse_follows fun _ _ => rfl

theorem term_of_peek {nested : Routine Node} {turns : Nat} {cursor : Cursor} {next : Option Token}
    (same : cursor.peek = next) : term nested turns cursor = termAt nested turns next cursor := by
  rw [← same]
  rfl

theorem term_follows (follows : Follows depth 0 value reader) :
    Follows depth 0 (fun clock => term (value clock) clock) (Reader.term reader) := by
  refine .of_first ⟨_, _, .unexpected _, fun _ _ none => term_of_peek none, rfl⟩ fun token => ?_
  obtain ⟨kind, lexeme, place⟩ := token
  cases kind with
  | number =>
      refine ⟨_, _, integer_follows ⟨.number, lexeme, place⟩, .inl ⟨fun _ _ next => term_of_peek next, fun rest => ?_⟩⟩
      cases made : Number.readInteger lexeme.toList with
      | some value => simp only [Reader.term, made]; rfl
      | none => simp only [Reader.term, made]
  | float =>
      refine ⟨_, _, real_follows ⟨.float, lexeme, place⟩, .inl ⟨fun _ _ next => term_of_peek next, fun rest => ?_⟩⟩
      cases made : Number.readReal lexeme.toList with
      | some value => simp only [Reader.term, made]; rfl
      | none => simp only [Reader.term, made]
  | text => exact ⟨_, _, .pure _, .inl ⟨fun _ _ next => term_of_peek next, fun _ => rfl⟩⟩
  | identifier => exact ⟨_, _, .pure _, .inl ⟨fun _ _ next => term_of_peek next, fun _ => rfl⟩⟩
  | boolean => exact ⟨_, _, .pure _, .inl ⟨fun _ _ next => term_of_peek next, fun _ => rfl⟩⟩
  | arrayStart =>
      exact ⟨_, _, arrayTail_follows follows, .inl ⟨fun _ _ next => term_of_peek next, fun _ => rfl⟩⟩
  | tupleStart =>
      exact ⟨_, _, tupleTail_follows follows, .inl ⟨fun _ _ next => term_of_peek next, fun _ => rfl⟩⟩
  | _ => exact ⟨_, _, .unexpected _, .inr ⟨fun _ _ next => term_of_peek next, fun _ => rfl⟩⟩

/-- Expressions and the operations on a first operand, since each uses the other with less room. -/
theorem expression_operations_follow (levels : depth + room = nestingLimit) :
    Follows depth 0 expression (Reader.expression room) ∧
      ∀ left, Trails depth (fun clock => operations clock left) (Reader.operations room left) := by
  induction room generalizing depth with
  | zero =>
      refine ⟨.of_tick (.restoring (.of_follows (Follows.descend_limit levels).then_anything)), fun left => ?_⟩
      refine .of_tick (.bind (.check .operator) fun _ => .ite ?_ (.of_follows (.pure left)))
      exact .of_follows (Follows.descend_limit levels).then_anything
  | succ room ih =>
      have less : depth + 1 + room = nestingLimit := by omega
      have below : depth < nestingLimit := by omega
      obtain ⟨follows, trails⟩ := ih less
      refine ⟨.of_tick (.restoring (.descend ?_ below)), fun left =>
        .of_tick (.bind (.check .operator) fun _ => .ite ?_ (.of_follows (.pure left)))⟩
      · exact .bind (term_follows follows) fun first => trails first
      · refine .descend ?_ below
        exact .bind (.expectKind ..) fun operator => .bind (term_follows follows) fun right => trails _

theorem expression_follows (levels : depth + room = nestingLimit) :
    Follows depth 0 expression (Reader.expression room) := (expression_operations_follow levels).1

section

variable {body : Nat → String → Routine (List Node)} {bodyReader : String → Reader (List Node)}

theorem parameters_follows : Follows depth room (fun clock => parameters clock) Reader.parameters := by
  have one : Follows depth room (fun _ => parameter) Reader.parameter :=
    (Follows.expectKind ..).bind fun _ => (Follows.accept .colon).bind fun _ =>
      .ite ((Follows.expectKind ..).bind fun _ => .pure _) (.pure _)
  exact (Follows.check .tupleEnd).bind fun _ => .ite (.pure []) one.separated

theorem functionTail_follows (follows : ∀ what, Follows depth room (fun clock => body clock what) (bodyReader what)) :
    Follows depth room (fun clock => functionTail (body clock) clock) (Reader.functionTail bodyReader) :=
  (Follows.expectKind ..).bind fun _ => (Follows.expect ..).bind fun _ => parameters_follows.bind fun _ =>
    (Follows.expect ..).bind fun _ => (follows _).bind fun _ => .pure _

theorem skipSemicolon_follows : Follows depth room (fun _ => skipSemicolon) Reader.skipSemicolon :=
  (Follows.acceptLexeme ..).bind fun _ => .pure ()

theorem member_follows (follows : Follows depth room value reader)
    (followsBody : ∀ what, Follows depth room (fun clock => body clock what) (bodyReader what)) :
    Follows depth room (fun clock => member (value clock) (body clock) clock) (Reader.member reader bodyReader) := by
  refine (Follows.check .dataType).bind fun _ => .ite ?_ ?_
  · exact (Follows.expectKind ..).bind fun _ => (Follows.expectKind ..).bind fun _ => (Follows.expect ..).bind fun _ =>
      follows.bind fun _ => skipSemicolon_follows.bind fun _ => .pure _
  · exact (Follows.acceptLexeme ..).bind fun _ => .ite ((functionTail_follows followsBody).bind fun _ => .pure _)
      (.unexpected _)

theorem classTail_follows (follows : Follows depth room value reader)
    (followsBody : ∀ what, Follows depth room (fun clock => body clock what) (bodyReader what))
    (consumes : Consumes (Reader.member reader bodyReader)) :
    Follows depth room (fun clock => classTail (value clock) (body clock) clock) (Reader.classTail reader bodyReader) :=
  (Follows.expectKind ..).bind fun _ => (Follows.expect ..).bind fun _ =>
    (Follows.repeated .blockDone rfl (member_follows follows followsBody) consumes).bind fun _ =>
      (Follows.expect ..).bind fun _ => .pure _

theorem assignment_follows (follows : Follows depth room value reader) :
    Follows depth room (fun clock => assignment (value clock)) (Reader.assignment reader) :=
  (Follows.expectKind ..).bind fun _ => (Follows.expect ..).bind fun _ => follows.bind fun _ =>
    skipSemicolon_follows.bind fun _ => .pure _

theorem condition_follows (follows : Follows depth room value reader) (word : String) :
    Follows depth room (fun clock => condition (value clock) word) (Reader.condition reader word) :=
  (Follows.expect ..).bind fun _ => follows.bind fun _ => (Follows.expect ..).bind fun _ => .pure _

theorem conditionalTail_follows (follows : Follows depth room value reader)
    (followsBody : ∀ what, Follows depth room (fun clock => body clock what) (bodyReader what)) :
    Follows depth room (fun clock => conditionalTail (value clock) (body clock))
      (Reader.conditionalTail reader bodyReader) :=
  (condition_follows follows _).bind fun _ => (followsBody _).bind fun _ => (Follows.acceptLexeme ..).bind fun _ =>
    .ite ((followsBody _).bind fun _ => .pure _) (.pure _)

theorem whileTail_follows (follows : Follows depth room value reader)
    (followsBody : ∀ what, Follows depth room (fun clock => body clock what) (bodyReader what)) :
    Follows depth room (fun clock => whileTail (value clock) (body clock)) (Reader.whileTail reader bodyReader) :=
  (condition_follows follows _).bind fun _ => (followsBody _).bind fun _ => .pure _

theorem forTail_follows (follows : Follows depth room value reader)
    (followsBody : ∀ what, Follows depth room (fun clock => body clock what) (bodyReader what)) :
    Follows depth room (fun clock => forTail (value clock) (body clock)) (Reader.forTail reader bodyReader) :=
  (Follows.expect ..).bind fun _ => (assignment_follows follows).bind fun _ => follows.bind fun _ =>
    (Follows.expect ..).bind fun _ => follows.bind fun _ => (Follows.expect ..).bind fun _ =>
      (followsBody _).bind fun _ => .pure _

theorem returnTail_follows (follows : Follows depth room value reader) :
    Follows depth room (fun clock => returnTail (value clock)) (Reader.returnTail reader) :=
  follows.bind fun _ => (Follows.expect ..).bind fun _ => .pure _

theorem skipDeclarator_follows : Follows depth room (fun _ => skipDeclarator) Reader.skipDeclarator :=
  (Follows.checkLexeme ..).bind fun _ => .ite
    ((Follows.checkNext .identifier).bind fun _ => .ite (Follows.advance.bind fun _ => .pure ()) (.pure ())) (.pure ())

theorem statementWith_follows (follows : Follows depth room value reader)
    (followsBody : ∀ what, Follows depth room (fun clock => body clock what) (bodyReader what))
    (consumes : Consumes (Reader.member reader bodyReader)) :
    Follows depth room (fun clock => statementWith (value clock) (body clock) clock)
      (Reader.statementWith reader bodyReader) :=
  skipDeclarator_follows.bind fun _ => (Follows.check .identifier).bind fun _ => .ite (assignment_follows follows) <|
    (Follows.acceptLexeme ..).bind fun _ => .ite (functionTail_follows followsBody) <|
    (Follows.acceptLexeme ..).bind fun _ => .ite (classTail_follows follows followsBody consumes) <|
    (Follows.acceptLexeme ..).bind fun _ => .ite (conditionalTail_follows follows followsBody) <|
    (Follows.acceptLexeme ..).bind fun _ => .ite (whileTail_follows follows followsBody) <|
    (Follows.acceptLexeme ..).bind fun _ => .ite (forTail_follows follows followsBody) <|
    (Follows.acceptLexeme ..).bind fun _ => .ite (returnTail_follows follows) (.unexpected _)

end

/-- A statement at a depth where blocks follow. -/
theorem statement_follows_of_block (levels : depth + room = nestingLimit)
    (followsBody : ∀ what, Follows depth room (fun clock => block clock what) (Reader.block room what)) :
    Follows depth room statement (Reader.statement room) :=
  statementWith_follows ((expression_follows levels).mono (Nat.zero_le room)) followsBody
    (Reader.member_built (Reader.expression_built (Nat.le_refl room)) (Reader.block_built (Nat.le_refl room))).consumes

/-- A block leaves at most as many levels unfinished as there is room for. -/
theorem block_follows (levels : depth + room = nestingLimit) (what : String) :
    Follows depth room (fun clock => block clock what) (Reader.block room what) := by
  induction room generalizing depth what with
  | zero =>
      exact .of_tick ((Follows.expect ..).bind fun _ => (Follows.inBlock_limit levels _).then_anything)
  | succ room ih =>
      have less : depth + 1 + room = nestingLimit := by omega
      have below : depth < nestingLimit := by omega
      have one := statement_follows_of_block less (ih less)
      have inside := Follows.repeated .blockDone rfl one (Reader.statement_built (Nat.le_refl room)).consumes
      exact .of_tick ((Follows.expect ..).bind fun _ => (inside.inBlock below).bind fun _ =>
        (Follows.expect ..).bind fun _ => .pure _)

theorem statement_follows (levels : depth + room = nestingLimit) :
    Follows depth room statement (Reader.statement room) :=
  statement_follows_of_block levels (block_follows levels)

theorem statements_follows (levels : depth + room = nestingLimit) :
    Follows depth room statements (Reader.statements room) :=
  Follows.repeated .blockDone rfl (statement_follows levels) (Reader.statement_built (Nat.le_refl room)).consumes

theorem program_follows (levels : depth + room = nestingLimit) :
    Follows depth room program (Reader.program room) :=
  (Follows.repeated .atEnd rfl (statement_follows levels) (Reader.statement_built (Nat.le_refl room)).consumes).bind
    fun _ => .pure _

end Routine

namespace Cursor

/-- What can be read from a cursor on. A function is read after its keyword, a block up to the brace that closes it. -/
inductive Call where
  | statement
  | expression
  | assignment
  | function
  | block
  | program

namespace Call

def Value : Call → Type
  | block => List Node
  | statement | expression | assignment | function | program => Node

def reader (room : Nat) : (call : Call) → Reader call.Value
  | statement => Reader.statement room
  | expression => Reader.expression room
  | assignment => Reader.assignment (Reader.expression room)
  | function => Reader.functionTail (Reader.block room)
  | block => Reader.statements room
  | program => Reader.program room

def routine (clock : Nat) : (call : Call) → Routine call.Value
  | statement => Routine.statement clock
  | expression => Routine.expression clock
  | assignment => Routine.assignment (Routine.expression clock)
  | function => Routine.functionTail (Routine.block clock) clock
  | block => Routine.statements clock
  | program => Routine.program clock

/-- Blocks and programs may be empty. -/
def advances : Call → Bool
  | statement | expression | assignment | function => true
  | block | program => false

theorem follows {depth room : Nat} (levels : depth + room = nestingLimit) (call : Call) :
    Follows depth room (fun clock => call.routine clock) (call.reader room) := by
  have value := (Routine.expression_follows levels).mono (Nat.zero_le room)
  cases call with
  | statement => exact Routine.statement_follows levels
  | expression => exact value
  | assignment => exact Routine.assignment_follows value
  | function => exact Routine.functionTail_follows (Routine.block_follows levels)
  | block => exact Routine.statements_follows levels
  | program => exact Routine.program_follows levels

theorem consumes (room : Nat) {call : Call} (advances : call.advances = true) : Consumes (call.reader room) := by
  have value := Reader.expression_built (Nat.le_refl room)
  cases call with
  | statement => exact (Reader.statement_built (Nat.le_refl room)).consumes
  | expression => exact value.consumes
  | assignment => exact (Reader.assignment_built value).consumes
  | function => exact (Reader.functionTail_built (Reader.block_built (Nat.le_refl room))).consumes
  | block | program => cases advances

end Call

def call (cursor : Cursor) (call : Call) : Except Fault call.Value × Cursor := cursor.run (call.reader cursor.room)

/-- What a call may do to a cursor. -/
structure Disciplined (call : Call) (before : Cursor) (outcome : Except Fault call.Value) (after : Cursor) : Prop where
  tokens : after.tokens = before.tokens
  forward : before.position ≤ after.position
  inside : after.position ≤ max before.position before.tokens.length
  progress : ∀ value, outcome = .ok value → call.advances = true → before.position < after.position
  finished : ∀ value, outcome = .ok value → after.depth = before.depth
  expression : call = .expression → after.depth = before.depth
  deeper : before.depth ≤ after.depth
  limited : after.depth ≤ nestingLimit

section

variable {cursor : Cursor}

theorem levels (within : cursor.depth ≤ nestingLimit) : cursor.depth + cursor.room = nestingLimit :=
  Nat.add_sub_of_le within

theorem position_advanceTo_le (rest : List Token) :
    (cursor.advanceTo rest).position ≤ max cursor.position cursor.tokens.length := by
  have left : cursor.rest.length = cursor.tokens.length - cursor.position := List.length_drop
  rw [advanceTo, left]
  dsimp only
  omega

theorem lt_position_advanceTo {rest : List Token} (shorter : rest.length < cursor.rest.length) :
    cursor.position < (cursor.advanceTo rest).position :=
  Nat.lt_add_of_pos_right (Nat.sub_pos_of_lt shorter)

theorem call_disciplined (within : cursor.depth ≤ nestingLimit) (call : Call) :
    Disciplined call cursor (cursor.call call).1 (cursor.call call).2 := by
  have levels := levels within
  cases read : call.reader cursor.room cursor.rest with
  | ok result =>
      obtain ⟨value, rest⟩ := result
      rw [Cursor.call, run_of_ok read]
      exact {
        tokens := rfl
        forward := Nat.le_add_right ..
        inside := position_advanceTo_le rest
        progress _ _ advances := lt_position_advanceTo ((call.consumes _ advances).length_lt read)
        finished _ _ := rfl
        expression _ := rfl
        deeper := Nat.le_refl _
        limited := within }
  | error stop =>
      have unfinished := ((call.follows levels).error read).2
      rw [Cursor.call, run_of_error read]
      exact {
        tokens := rfl
        forward := Nat.le_add_right ..
        inside := position_advanceTo_le stop.rest
        progress _ read _ := by cases read
        finished _ read := by cases read
        expression same := by
          subst same
          have none := Nat.le_zero.mp ((Routine.expression_follows levels).error read).2
          rw [none]
          rfl
        deeper := Nat.le_add_right ..
        limited := (Nat.add_le_add_left unfinished _).trans_eq levels }

end

/-- The cursor can be made to read on, or to move without reading. -/
inductive Act where
  | call (call : Call)
  | seek (position : Nat)
  | advance
  | accept (kind : TokenKind)
  | acceptLexeme (kind : TokenKind) (lexeme : String)
  | expect (kind : TokenKind) (lexeme place : String)
  | expectKind (kind : TokenKind) (place : String)

def act (cursor : Cursor) : Act → Cursor
  | .call call => (cursor.call call).2
  | .seek position => cursor.seek position
  | .advance => (cursor.run Reader.advance).2
  | .accept kind => (cursor.run (Reader.accept kind)).2
  | .acceptLexeme kind lexeme => (cursor.run (Reader.acceptLexeme kind lexeme)).2
  | .expect kind lexeme place => (cursor.run (Reader.expect kind lexeme place)).2
  | .expectKind kind place => (cursor.run (Reader.expectKind kind place)).2

def after (cursor : Cursor) (acts : List Act) : Cursor := acts.foldl act cursor

theorem act_depth_le {cursor : Cursor} (within : cursor.depth ≤ nestingLimit) (act : Act) :
    (cursor.act act).depth ≤ nestingLimit := by
  -- only a call changes the depth
  have moved {α : Type} {routine : Routine α} {reader : Reader α}
      (follows : Follows 0 0 (fun _ => routine) reader) : (cursor.run reader).2.depth ≤ nestingLimit :=
    (run_depth follows.toSteady cursor).trans_le within
  cases act with
  | call call => exact (call_disciplined within call).limited
  | seek => exact within
  | advance => exact moved .advance
  | accept kind => exact moved (.accept kind)
  | acceptLexeme kind lexeme => exact moved (.acceptLexeme kind lexeme)
  | expect kind lexeme place => exact moved (.expect kind lexeme place)
  | expectKind kind place => exact moved (.expectKind kind place)

theorem after_depth_le {cursor : Cursor} (within : cursor.depth ≤ nestingLimit) (acts : List Act) :
    (cursor.after acts).depth ≤ nestingLimit := by
  induction acts generalizing cursor with
  | nil => exact within
  | cons act acts ih => exact ih (act_depth_le within act)

/-- From every cursor that is not too deep, each call comes to an end. The tokens stay, and the cursor goes forward, not
beyond their end. What is read takes a token, unless it may be empty, and leaves the depth as it was. A failure may
leave levels unfinished, but not inside an expression, and never more than the limit allows. -/
theorem reading_disciplined (cursor : Cursor) (within : cursor.depth ≤ nestingLimit) :
    (∀ call : Call, Ends (fun clock => call.routine clock) cursor (cursor.call call) ∧
      Disciplined call cursor (cursor.call call).1 (cursor.call call).2) ∧
    ∀ acts : List Act, (cursor.after acts).depth ≤ nestingLimit :=
  ⟨fun call => ⟨(call.follows (levels within)).ends cursor rfl, call_disciplined within call⟩, after_depth_le within⟩

/-- The tokens of `while (a) { )`. -/
def strayTokens : List Token := [
  ⟨.keyword, "while", ⟨1, 1⟩⟩, ⟨.tupleStart, "(", ⟨1, 7⟩⟩, ⟨.identifier, "a", ⟨1, 8⟩⟩, ⟨.tupleEnd, ")", ⟨1, 9⟩⟩,
  ⟨.delimiter, Reader.opening, ⟨1, 11⟩⟩, ⟨.tupleEnd, ")", ⟨1, 13⟩⟩]

/-- One level below the limit the statement fails inside its block, and the cursor is left at the limit. -/
theorem reading_disciplined_stray :
    ((⟨strayTokens, 0, 199⟩ : Cursor).call .statement).2 = ⟨strayTokens, 5, 200⟩ ∧
      Ends (fun clock => Call.routine clock .statement) ⟨strayTokens, 0, 199⟩
        ((⟨strayTokens, 0, 199⟩ : Cursor).call .statement) ∧
      ((⟨strayTokens, 0, 199⟩ : Cursor).after
        [.call .statement, .call .expression, .seek 9, .call .statement, .seek 0, .call .statement]).depth ≤ 200 := by
  have disciplined := reading_disciplined ⟨strayTokens, 0, 199⟩ (by decide)
  exact ⟨rfl, (disciplined.1 .statement).1, disciplined.2 _⟩

end Cursor

end BraceCompiler
