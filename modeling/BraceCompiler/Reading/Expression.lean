import BraceCompiler.Node.Basic
import BraceCompiler.Reading.Basic

/-! Expressions: terms joined by operators, all of one strength, grouped from the left. The number
of levels that may still be entered is the measure of the recursion: an expression enters one, each
of its operators one more. -/

namespace BraceCompiler

/-- A text literal without its two quotes; a lexeme that lacks either is left as it is. -/
def unquoted (lexeme : String) : String :=
  match lexeme.toList with
  | '"' :: rest =>
    match rest.getLast? with
    | some '"' => String.ofList rest.dropLast
    | _ => lexeme
  | _ => lexeme

namespace Reader

/-- The elements after an opening bracket, with the closing one. -/
def arrayTail (nested : Reader Node) : Reader Node := do
  let elements ← if ← check .arrayEnd then pure [] else separated nested
  expect .arrayEnd "]" "to close array"
  return .array elements

/-- After an opening parenthesis: nothing is the empty tuple, one expression is that expression, and
more are a tuple. -/
def tupleTail (nested : Reader Node) : Reader Node := do
  if ← accept .tupleEnd then return .tuple []
  let first ← nested
  if ← accept .comma then
    let others ← separated nested
    expect .tupleEnd ")" "to close tuple"
    return .tuple (first :: others)
  else
    expect .tupleEnd ")" "to close group"
    return first

/-- A term, given the reader of the expressions inside it. -/
def term (nested : Reader Node) : Reader Node
  | [] => unexpected (.fitting "in expression") []
  | token :: rest =>
    match token.kind with
    | .number =>
      match Number.readInteger token.lexeme.toList with
      | some value => .ok (.literal (.integer value), rest)
      | none => fail (.integerOutOfRange token) rest
    | .float =>
      match Number.readReal token.lexeme.toList with
      | some value => .ok (.literal (.real value), rest)
      | none => fail (.invalidFloat token) rest
    | .text => .ok (.literal (.text (unquoted token.lexeme)), rest)
    | .identifier => .ok (.identifier token.lexeme, rest)
    | .boolean => .ok (.literal (.boolean (token.lexeme == "true")), rest)
    | .arrayStart => arrayTail nested rest
    | .tupleStart => tupleTail nested rest
    | _ => unexpected (.fitting "in expression") (token :: rest)

mutual

/-- An expression with `room` levels to spare. -/
def expression : (room : Nat) → Reader Node
  | 0 => fail .nestedTooDeeply
  | room + 1 => do
    let first ← term (expression room)
    operations room first

/-- The operators after `left`, each with its right operand. -/
def operations : (room : Nat) → (left : Node) → Reader Node
  | 0, left => do
    if ← check .operator then fail .nestedTooDeeply else return left
  | room + 1, left => do
    if ← check .operator then
      let operator ← expectKind .operator "in expression"
      let right ← term (expression room)
      operations room (.binary left operator right)
    else
      return left

end

end Reader

end BraceCompiler
