import BraceCompiler.Notice
import BraceCompiler.Token.Rule

/-! A source text cut into pieces. Every character belongs to one piece, and a piece tells what
becomes of it: a token, a repaired token, or nothing. Tokens and warnings are two views of the
pieces. -/

namespace BraceCompiler

/-- What becomes of a piece. -/
inductive Fate where
  /-- Blanks and comments stand for nothing. -/
  | dropped
  /-- A token whose lexeme is the piece itself. -/
  | kept (kind : TokenKind)
  /-- A text literal that is given its closing quote. -/
  | closed
  /-- A character in the place of an operator, read as one. -/
  | replaced
  /-- A character that is left out. -/
  | skipped
  deriving DecidableEq, Repr

structure Piece where
  text : List Char
  start : Position
  fate : Fate
  deriving DecidableEq, Repr

/-- The operator that takes the place of a character without a rule. -/
def recoveryOperator : String := "+"

namespace Piece

def token? (piece : Piece) : Option Token :=
  match piece.fate with
  | .kept kind => some ⟨kind, String.ofList piece.text, piece.start⟩
  | .closed => some ⟨.text, String.ofList (piece.text ++ ['"']), piece.start⟩
  | .replaced => some ⟨.operator, recoveryOperator, piece.start⟩
  | .dropped | .skipped => none

def warning? (piece : Piece) : Option Notice :=
  match piece.fate with
  | .closed => some (.unclosedText piece.start)
  | .replaced => some (.missingOperator (String.ofList piece.text) recoveryOperator piece.start)
  | .skipped => some (.invalidCharacter (String.join (piece.text.map Text.named)) piece.start)
  | .dropped | .kept _ => none

end Piece

/-- The text behind the cursor, nearest character first, ends in a name; blanks after the name do
not count. -/
def followsName (passed : List Char) : Bool :=
  ((passed.dropWhile Text.isBlank).takeWhile Text.continuesName).any Text.startsName

/-- What becomes of a match, given the text behind it (nearest first) and the source from its start
on. -/
def Match.fate (found : Match) (passed source : List Char) : Fate :=
  match found.kind with
  | .comment | .blank => .dropped
  | .keyword =>
    if String.ofList found.text = Words.declarator ∧
        declaresVariable (source.drop found.text.length) then .kept .identifier
    else .kept .keyword
  | .text => if found.closed then .kept .text else .closed
  | .mismatch => if followsName passed then .replaced else .skipped
  | kind => .kept kind

/-- Walks the source one character at a time. `inside` counts the characters that still belong to
the piece begun last; where it is zero a new piece begins. -/
def piecesFrom (passed : List Char) (place : Position) : (inside : Nat) → List Char → List Piece
  | _, [] => []
  | inside + 1, c :: rest => piecesFrom (c :: passed) (place.next c) inside rest
  | 0, c :: rest =>
    let found := (firstMatch passed.head? (c :: rest)).getD ⟨.mismatch, [c], false⟩
    ⟨found.text, place, found.fate passed (c :: rest)⟩ ::
      piecesFrom (c :: passed) (place.next c) (found.text.length - 1) rest

def pieces (source : String) : List Piece := piecesFrom [] .origin 0 source.toList

/-- The tokens of a source text. -/
def tokensOf (source : String) : List Token := (pieces source).filterMap Piece.token?

/-- The warnings that cutting a source text gives. -/
def warningsOf (source : String) : Notices := (pieces source).filterMap Piece.warning?

end BraceCompiler
