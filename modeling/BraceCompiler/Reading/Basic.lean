import BraceCompiler.Fault

/-! Readers: what consumes the front of a list of tokens. A reader that fails tells the cause and
how far it came. -/

namespace BraceCompiler

/-- Where and why a reader gave up. -/
structure Stop where
  cause : SyntaxFault
  /-- The tokens that had not been consumed. -/
  rest : List Token
  /-- How many blocks had been opened and not been read to their end. -/
  unfinished : Nat
  deriving DecidableEq, Repr

/-- The place of a fault in a list of tokens: the token at fault, or the next one, or the last of
all. -/
def Stop.position (stop : Stop) (tokens : List Token) : Position :=
  match stop.cause with
  | .integerOutOfRange token | .invalidFloat token => token.position
  | .unexpected .. | .nestedTooDeeply =>
    ((stop.rest.head? <|> tokens.getLast?).map Token.position).getD .origin

def Stop.fault (stop : Stop) (tokens : List Token) : Fault :=
  .syntactic stop.cause (stop.position tokens)

/-- A reader turns the tokens left into a value and the tokens still left. -/
abbrev Reader := StateT (List Token) (Except Stop)

namespace Reader

variable {α : Type}

def fail (cause : SyntaxFault) : Reader α := fun rest => .error ⟨cause, rest, 0⟩

/-- Fails on the next token, or on the end. -/
def unexpected (wanted : Wanted) : Reader α := fun rest =>
  .error ⟨.unexpected rest.head? wanted, rest, 0⟩

def peek : Reader (Option Token) := fun rest => .ok (rest.head?, rest)

def advance : Reader (Option Token)
  | [] => .ok (none, [])
  | token :: rest => .ok (some token, rest)

def atEnd : Reader Bool := fun rest => .ok (rest.isEmpty, rest)

/-- The next token is of this kind. -/
def check (kind : TokenKind) : Reader Bool := fun rest => .ok (rest.head?.any (·.kind == kind), rest)

/-- The token after the next is of this kind. -/
def checkNext (kind : TokenKind) : Reader Bool := fun rest =>
  .ok (rest.tail.head?.any (·.kind == kind), rest)

/-- The next token is of this kind and has this spelling. -/
def checkLexeme (kind : TokenKind) (lexeme : String) : Reader Bool := fun rest =>
  .ok (rest.head?.any (·.is kind lexeme), rest)

/-- Consumes the next token if it is of this kind. -/
def accept (kind : TokenKind) : Reader Bool
  | token :: rest => if token.kind = kind then .ok (true, rest) else .ok (false, token :: rest)
  | [] => .ok (false, [])

/-- Consumes the next token if it is of this kind and has this spelling. -/
def acceptLexeme (kind : TokenKind) (lexeme : String) : Reader Bool
  | token :: rest => if token.is kind lexeme then .ok (true, rest) else .ok (false, token :: rest)
  | [] => .ok (false, [])

def acceptKeyword (word : String) : Reader Bool := acceptLexeme .keyword word

/-- Consumes a token of this kind and spelling. -/
def expect (kind : TokenKind) (lexeme place : String) : Reader Unit := do
  unless ← acceptLexeme kind lexeme do unexpected (.lexeme lexeme place)

/-- Consumes a token of this kind and gives its spelling. -/
def expectKind (kind : TokenKind) (place : String) : Reader String
  | token :: rest =>
    if token.kind = kind then .ok (token.lexeme, rest)
    else unexpected (.ofKind kind place) (token :: rest)
  | [] => unexpected (.ofKind kind place) []

/-- Reads items divided by commas. Each item but the first costs a comma, so `limit` items are never
exceeded when `limit` is above the number of tokens. -/
def separatedUpTo (item : Reader α) : (limit : Nat) → Reader (List α)
  | 0 => pure []
  | limit + 1 => do
    let first ← item
    if ← accept .comma then
      return first :: (← separatedUpTo item limit)
    else
      return [first]

/-- One item or more, divided by commas. -/
def separated (item : Reader α) : Reader (List α) := fun rest =>
  separatedUpTo item (rest.length + 1) rest

/-- Reads items until the tokens left are as `done` asks. Each item consumes a token, so `limit`
items are never exceeded when `limit` is the number of tokens. -/
def repeatedUpTo (done : List Token → Bool) (item : Reader α) : (limit : Nat) → Reader (List α)
  | 0 => pure []
  | limit + 1 => do
    if done (← get) then return []
    let first ← item
    return first :: (← repeatedUpTo done item limit)

/-- Items up to the first point that is as `done` asks. -/
def repeated (done : List Token → Bool) (item : Reader α) : Reader (List α) := fun rest =>
  repeatedUpTo done item rest.length rest

/-- Reads the inside of a block: a failure there leaves the block unfinished. -/
def inBlock (inside : Reader α) : Reader α := fun rest =>
  (inside rest).mapError fun stop => { stop with unfinished := stop.unfinished + 1 }

end Reader

end BraceCompiler
