import BraceCompiler.Reading.Expression
import BraceCompiler.Token.Words

/-! Statements and blocks. A block in braces enters one level; the braces of a class do not. Each
construct is given the readers of the expressions and blocks inside it, so that only `block`
recurses. -/

namespace BraceCompiler.Reader

/-- The braces of a block. -/
def opening : String := "\x7b"

def closing : String := "\x7d"

/-- A block ends before its closing brace or at the end of the tokens. -/
def blockDone (rest : List Token) : Bool := rest.head?.all (·.is .delimiter closing)

def parameter : Reader Parameter := do
  let name ← expectKind .identifier "for parameter name"
  if ← accept .colon then
    return ⟨name, some (← expectKind .dataType "for parameter type")⟩
  else
    return ⟨name, none⟩

def parameters : Reader (List Parameter) := do
  if ← check .tupleEnd then return [] else separated parameter

/-- What follows the word `function`. -/
def functionTail (body : String → Reader (List Node)) : Reader Node := do
  let name ← expectKind .identifier "for function name"
  expect .tupleStart "(" "after function name"
  let parameters ← parameters
  expect .tupleEnd ")" "after parameters"
  return .function name parameters (← body "function body")

def skipSemicolon : Reader Unit := do
  let _ ← acceptLexeme .delimiter ";"

def member (value : Reader Node) (body : String → Reader (List Node)) : Reader Member := do
  if ← check .dataType then
    let type ← expectKind .dataType "for member type"
    let name ← expectKind .identifier "for member name"
    expect .assignment "=" "after member name"
    let value ← value
    skipSemicolon
    return .property type name value
  else if ← acceptKeyword "function" then
    return .method (← functionTail body)
  else
    unexpected (.fitting "in class body")

/-- What follows the word `class`. -/
def classTail (value : Reader Node) (body : String → Reader (List Node)) : Reader Node := do
  let name ← expectKind .identifier "for class name"
  expect .delimiter opening "to open class body"
  let members ← repeated blockDone (member value body)
  expect .delimiter closing "to close class body"
  return .classType name members

/-- A name, an equals sign and a value; one semicolon may follow. -/
def assignment (value : Reader Node) : Reader Node := do
  let name ← expectKind .identifier "for assignment target"
  expect .assignment "=" "after assignment target"
  let value ← value
  skipSemicolon
  return .assignment name value

/-- A condition in parentheses, after the given word. -/
def condition (value : Reader Node) (word : String) : Reader Node := do
  expect .tupleStart "(" ("after '" ++ word ++ "'")
  let value ← value
  expect .tupleEnd ")" ("after '" ++ word ++ "' condition")
  return value

/-- What follows the word `if`. -/
def conditionalTail (value : Reader Node) (body : String → Reader (List Node)) : Reader Node := do
  let test ← condition value "if"
  let taken ← body "if body"
  if ← acceptKeyword "else" then
    return .conditional test taken (some (← body "else body"))
  else
    return .conditional test taken none

/-- What follows the word `while`. -/
def whileTail (value : Reader Node) (body : String → Reader (List Node)) : Reader Node := do
  let test ← condition value "while"
  return .whileLoop test (← body "while body")

/-- What follows the word `for`. -/
def forTail (value : Reader Node) (body : String → Reader (List Node)) : Reader Node := do
  expect .tupleStart "(" "after 'for'"
  let start ← assignment value
  let test ← value
  expect .delimiter ";" "after loop condition"
  let increment ← value
  expect .tupleEnd ")" "after loop increment"
  return .forLoop start test increment (← body "for body")

/-- What follows the word `return`. -/
def returnTail (value : Reader Node) : Reader Node := do
  let value ← value
  expect .delimiter ";" "after return value"
  return .returning value

/-- A declarator before a name is passed over. -/
def skipDeclarator : Reader Unit := do
  if ← checkLexeme .identifier Words.declarator then
    if ← checkNext .identifier then
      let _ ← advance

/-- A statement, given the readers of its values and of its blocks. -/
def statementWith (value : Reader Node) (body : String → Reader (List Node)) : Reader Node := do
  skipDeclarator
  if ← check .identifier then assignment value
  else if ← acceptKeyword "function" then functionTail body
  else if ← acceptKeyword "class" then classTail value body
  else if ← acceptKeyword "if" then conditionalTail value body
  else if ← acceptKeyword "while" then whileTail value body
  else if ← acceptKeyword "for" then forTail value body
  else if ← acceptKeyword "return" then returnTail value
  else unexpected (.fitting "at start of statement")

/-- A block in braces with `room` levels to spare. -/
def block : (room : Nat) → (what : String) → Reader (List Node)
  | 0, what => do
    expect .delimiter opening ("to open " ++ what)
    fail .nestedTooDeeply
  | room + 1, what => do
    expect .delimiter opening ("to open " ++ what)
    let body ← inBlock (repeated blockDone (statementWith (expression room) (block room)))
    expect .delimiter closing ("to close " ++ what)
    return body

def statement (room : Nat) : Reader Node := statementWith (expression room) (block room)

/-- Statements up to a closing brace or the end. -/
def statements (room : Nat) : Reader (List Node) := repeated blockDone (statement room)

/-- Statements up to the end. -/
def program (room : Nat) : Reader Node := do
  return .program (← repeated List.isEmpty (statement room))

/-- An expression with nothing after it. -/
def soleExpression (room : Nat) : Reader Node := do
  let value ← expression room
  unless ← atEnd do unexpected (.fitting "after expression")
  return value

end BraceCompiler.Reader
