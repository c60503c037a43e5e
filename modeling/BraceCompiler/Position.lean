/-! Places in a source text. -/

namespace BraceCompiler

/-- Line and column of a character, both counted from one; columns count characters. -/
structure Position where
  line : Nat
  column : Nat
  deriving DecidableEq, Repr

namespace Position

/-- Where every text starts. -/
def origin : Position := ⟨1, 1⟩

/-- The place after one character: a line feed starts the next line. -/
def next (place : Position) (c : Char) : Position :=
  if c = '\n' then ⟨place.line + 1, 1⟩ else ⟨place.line, place.column + 1⟩

/-- The place after a stretch of text. -/
def after (start : Position) (text : List Char) : Position := text.foldl next start

def describe (place : Position) : String := s!"line {place.line}, column {place.column}"

end Position

end BraceCompiler
