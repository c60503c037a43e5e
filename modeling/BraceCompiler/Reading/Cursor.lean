import BraceCompiler.Reading.Statement

/-! Reading whole lists of tokens, and reading on from any point of one. -/

namespace BraceCompiler

/-- The program that the tokens form. -/
def parse (tokens : List Token) : Except Fault Node :=
  match Reader.program nestingLimit tokens with
  | .ok (node, _) => .ok node
  | .error stop => .error (stop.fault tokens)

/-- The one expression that the tokens form. -/
def parseExpression (tokens : List Token) : Except Fault Node :=
  match Reader.soleExpression nestingLimit tokens with
  | .ok (node, _) => .ok node
  | .error stop => .error (stop.fault tokens)

/-- A point in a list of tokens, possibly past its end, inside a number of levels. -/
structure Cursor where
  tokens : List Token
  position : Nat
  depth : Nat

namespace Cursor

def start (tokens : List Token) : Cursor := ⟨tokens, 0, 0⟩

def rest (cursor : Cursor) : List Token := cursor.tokens.drop cursor.position

/-- The levels that may still be entered. -/
def room (cursor : Cursor) : Nat := nestingLimit - cursor.depth

def seek (cursor : Cursor) (position : Nat) : Cursor := { cursor with position }

/-- The cursor after reading until `rest` was left. -/
def advanceTo (cursor : Cursor) (rest : List Token) : Cursor :=
  { cursor with position := cursor.position + (cursor.rest.length - rest.length) }

/-- Runs a reader. On failure the cursor stays where the reader gave up, inside the blocks that it
left unfinished. -/
def run {α : Type} (cursor : Cursor) (reader : Reader α) : Except Fault α × Cursor :=
  match reader cursor.rest with
  | .ok (value, rest) => (.ok value, cursor.advanceTo rest)
  | .error stop =>
    (.error (stop.fault cursor.tokens),
      { cursor.advanceTo stop.rest with depth := cursor.depth + stop.unfinished })

end Cursor

end BraceCompiler
