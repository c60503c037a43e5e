import BraceCompiler.Reading.Cursor

/-! Reading once more, by routines that move a cursor and count the levels themselves. Where a reader is given the room
that is left, a routine raises the depth when it enters a level and has to set it back. Where a reader bounds its
repetitions by the number of tokens, a routine goes on as long as there is more: only a clock stops it, and then it
gives nothing. -/

namespace BraceCompiler

namespace Cursor

/-- The token under the cursor. -/
def peek (cursor : Cursor) : Option Token := cursor.tokens[cursor.position]?

def atEnd (cursor : Cursor) : Bool := cursor.tokens.length ≤ cursor.position

/-- The same place in other levels. -/
def withDepth (cursor : Cursor) (depth : Nat) : Cursor := { cursor with depth }

/-- Where a fault is reported: at the token under the cursor, or at the last of all. -/
def place (cursor : Cursor) : Position :=
  ((cursor.peek <|> cursor.tokens.getLast?).map Token.position).getD .origin

end Cursor

/-- What a routine does to a cursor. If it fails, the cursor stays where it is. -/
abbrev Routine := ExceptT Fault (StateT Cursor Option)

namespace Routine

variable {α : Type}

/-- The clock has run out. -/
def stalled : Routine α := fun _ => none

def refuse (cause : SyntaxFault) (place : Position) : Routine α := throw (.syntactic cause place)

def unexpected (wanted : Wanted) : Routine α := do
  let cursor ← get
  refuse (.unexpected cursor.peek wanted) cursor.place

def step : Routine Unit := modify fun cursor => { cursor with position := cursor.position + 1 }

def advance : Routine (Option Token) := do
  let next := (← get).peek
  if next.isSome then step
  return next

def atEnd : Routine Bool := do
  return (← get).atEnd

def check (kind : TokenKind) : Routine Bool := do
  return (← get).peek.any (·.kind == kind)

def checkNext (kind : TokenKind) : Routine Bool := do
  let cursor ← get
  return cursor.tokens[cursor.position + 1]?.any (·.kind == kind)

def checkLexeme (kind : TokenKind) (lexeme : String) : Routine Bool := do
  return (← get).peek.any (·.is kind lexeme)

def accept (kind : TokenKind) : Routine Bool := do
  if ← check kind then
    step
    return true
  else
    return false

def acceptLexeme (kind : TokenKind) (lexeme : String) : Routine Bool := do
  if ← checkLexeme kind lexeme then
    step
    return true
  else
    return false

def expect (kind : TokenKind) (lexeme place : String) : Routine Unit := do
  unless ← acceptLexeme kind lexeme do unexpected (.lexeme lexeme place)

def expectKind (kind : TokenKind) (place : String) : Routine String := do
  if ← check kind then
    return ((← advance).map Token.lexeme).getD ""
  else
    unexpected (.ofKind kind place)

def separated (item : Routine α) : (turns : Nat) → Routine (List α)
  | 0 => stalled
  | turns + 1 => do
    let first ← item
    if ← accept .comma then
      return first :: (← separated item turns)
    else
      return [first]

def repeated (done : Routine Bool) (item : Routine α) : (turns : Nat) → Routine (List α)
  | 0 => stalled
  | turns + 1 => do
    if ← done then return []
    let first ← item
    return first :: (← repeated done item turns)

/-- Enters a level, if the limit is not reached. -/
def descend : Routine Unit := do
  let cursor ← get
  if nestingLimit ≤ cursor.depth then refuse .nestedTooDeeply cursor.place
  else set (cursor.withDepth (cursor.depth + 1))

def restoreDepth (depth : Nat) : Routine Unit := modify (·.withDepth depth)

/-- Goes one level deeper. The depth is set back only if the inside is read. -/
def inBlock (inside : Routine α) : Routine α := do
  let depth := (← get).depth
  descend
  let value ← inside
  restoreDepth depth
  return value

/-- Sets the depth back, whether the inside is read or not. -/
def restoring (inside : Routine α) : Routine α := fun cursor =>
  (inside cursor).map fun (outcome, after) => (outcome, after.withDepth cursor.depth)

def arrayTail (nested : Routine Node) (turns : Nat) : Routine Node := do
  let elements ← if ← check .arrayEnd then pure [] else separated nested turns
  expect .arrayEnd "]" "to close array"
  return .array elements

def tupleTail (nested : Routine Node) (turns : Nat) : Routine Node := do
  if ← accept .tupleEnd then return .tuple []
  let first ← nested
  if ← accept .comma then
    let others ← separated nested turns
    expect .tupleEnd ")" "to close tuple"
    return .tuple (first :: others)
  else
    expect .tupleEnd ")" "to close group"
    return first

def integer (token : Token) : Routine Node :=
  match Number.readInteger token.lexeme.toList with
  | some value => return .literal (.integer value)
  | none => refuse (.integerOutOfRange token) token.position

def real (token : Token) : Routine Node :=
  match Number.readReal token.lexeme.toList with
  | some value => return .literal (.real value)
  | none => refuse (.invalidFloat token) token.position

/-- A term with this token under the cursor. -/
def termAt (nested : Routine Node) (turns : Nat) : (next : Option Token) → Routine Node
  | none => unexpected (.fitting "in expression")
  | some token =>
    match token.kind with
    | .number => do step; integer token
    | .float => do step; real token
    | .text => do step; return .literal (.text (unquoted token.lexeme))
    | .identifier => do step; return .identifier token.lexeme
    | .boolean => do step; return .literal (.boolean (token.lexeme == "true"))
    | .arrayStart => do step; arrayTail nested turns
    | .tupleStart => do step; tupleTail nested turns
    | _ => unexpected (.fitting "in expression")

def term (nested : Routine Node) (turns : Nat) : Routine Node := do
  termAt nested turns (← get).peek

mutual

def expression : (clock : Nat) → Routine Node
  | 0 => stalled
  | clock + 1 => restoring do
    descend
    let first ← term (expression clock) clock
    operations clock first

/-- Each operator enters one level more, and none of them is left here. -/
def operations : (clock : Nat) → (left : Node) → Routine Node
  | 0, _ => stalled
  | clock + 1, left => do
    if ← check .operator then
      descend
      let operator ← expectKind .operator "in expression"
      let right ← term (expression clock) clock
      operations clock (.binary left operator right)
    else
      return left

end

def parameter : Routine Parameter := do
  let name ← expectKind .identifier "for parameter name"
  if ← accept .colon then
    return ⟨name, some (← expectKind .dataType "for parameter type")⟩
  else
    return ⟨name, none⟩

def parameters (turns : Nat) : Routine (List Parameter) := do
  if ← check .tupleEnd then return [] else separated parameter turns

def functionTail (body : String → Routine (List Node)) (turns : Nat) : Routine Node := do
  let name ← expectKind .identifier "for function name"
  expect .tupleStart "(" "after function name"
  let parameters ← parameters turns
  expect .tupleEnd ")" "after parameters"
  return .function name parameters (← body "function body")

def skipSemicolon : Routine Unit := do
  let _ ← acceptLexeme .delimiter ";"

def member (value : Routine Node) (body : String → Routine (List Node)) (turns : Nat) : Routine Member := do
  if ← check .dataType then
    let type ← expectKind .dataType "for member type"
    let name ← expectKind .identifier "for member name"
    expect .assignment "=" "after member name"
    let value ← value
    skipSemicolon
    return .property type name value
  else if ← acceptLexeme .keyword "function" then
    return .method (← functionTail body turns)
  else
    unexpected (.fitting "in class body")

/-- Whether a block ends here: at its closing brace, or at the end of the tokens. -/
def blockDone : Routine Bool := do
  if ← atEnd then return true
  checkLexeme .delimiter Reader.closing

def classTail (value : Routine Node) (body : String → Routine (List Node)) (turns : Nat) : Routine Node := do
  let name ← expectKind .identifier "for class name"
  expect .delimiter Reader.opening "to open class body"
  let members ← repeated blockDone (member value body turns) turns
  expect .delimiter Reader.closing "to close class body"
  return .classType name members

def assignment (value : Routine Node) : Routine Node := do
  let name ← expectKind .identifier "for assignment target"
  expect .assignment "=" "after assignment target"
  let value ← value
  skipSemicolon
  return .assignment name value

def condition (value : Routine Node) (word : String) : Routine Node := do
  expect .tupleStart "(" ("after '" ++ word ++ "'")
  let value ← value
  expect .tupleEnd ")" ("after '" ++ word ++ "' condition")
  return value

def conditionalTail (value : Routine Node) (body : String → Routine (List Node)) : Routine Node := do
  let test ← condition value "if"
  let taken ← body "if body"
  if ← acceptLexeme .keyword "else" then
    return .conditional test taken (some (← body "else body"))
  else
    return .conditional test taken none

def whileTail (value : Routine Node) (body : String → Routine (List Node)) : Routine Node := do
  let test ← condition value "while"
  return .whileLoop test (← body "while body")

def forTail (value : Routine Node) (body : String → Routine (List Node)) : Routine Node := do
  expect .tupleStart "(" "after 'for'"
  let start ← assignment value
  let test ← value
  expect .delimiter ";" "after loop condition"
  let increment ← value
  expect .tupleEnd ")" "after loop increment"
  return .forLoop start test increment (← body "for body")

def returnTail (value : Routine Node) : Routine Node := do
  let value ← value
  expect .delimiter ";" "after return value"
  return .returning value

def skipDeclarator : Routine Unit := do
  if ← checkLexeme .identifier Words.declarator then
    if ← checkNext .identifier then
      let _ ← advance

def statementWith (value : Routine Node) (body : String → Routine (List Node)) (turns : Nat) : Routine Node := do
  skipDeclarator
  if ← check .identifier then assignment value
  else if ← acceptLexeme .keyword "function" then functionTail body turns
  else if ← acceptLexeme .keyword "class" then classTail value body turns
  else if ← acceptLexeme .keyword "if" then conditionalTail value body
  else if ← acceptLexeme .keyword "while" then whileTail value body
  else if ← acceptLexeme .keyword "for" then forTail value body
  else if ← acceptLexeme .keyword "return" then returnTail value
  else unexpected (.fitting "at start of statement")

def block : (clock : Nat) → (what : String) → Routine (List Node)
  | 0, _ => stalled
  | clock + 1, what => do
    expect .delimiter Reader.opening ("to open " ++ what)
    let body ← inBlock (repeated blockDone (statementWith (expression clock) (block clock) clock) clock)
    expect .delimiter Reader.closing ("to close " ++ what)
    return body

def statement (clock : Nat) : Routine Node := statementWith (expression clock) (block clock) clock

def statements (clock : Nat) : Routine (List Node) := repeated blockDone (statement clock) clock

def program (clock : Nat) : Routine Node := do
  return .program (← repeated atEnd (statement clock) clock)

end Routine

end BraceCompiler
