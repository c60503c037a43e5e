import BraceCompiler.Scopes
import BraceCompiler.Token.Piece

/-! A scanner that is kept over several sources. The cursor and the tokens belong to the source that is being read and
are set back before the next one. The notices that have not been taken yet stay, and so does a register of scopes that
callers may use; reading a source depends on neither. -/

namespace BraceCompiler

structure Scanner where
  /-- The text behind the cursor, nearest character first. -/
  passed : List Char
  place : Position
  /-- The tokens of the source that is being read, as far as it has been read. -/
  tokens : Array Token
  notices : Notices
  scopes : Scopes

namespace Scanner

def initial : Scanner := ⟨[], .origin, #[], [], .initial⟩

/-- Moves the cursor past a character. -/
def advance (scanner : Scanner) (c : Char) : Scanner :=
  { scanner with passed := c :: scanner.passed, place := scanner.place.next c }

/-- Begins a piece at the cursor: its token joins the tokens, its warning the notices. -/
def begin (scanner : Scanner) (found : Match) (source : List Char) : Scanner :=
  let piece : Piece := ⟨found.text, scanner.place, found.fate scanner.passed source⟩
  { scanner with
    tokens := scanner.tokens ++ piece.token?.toList
    notices := scanner.notices ++ piece.warning?.toList }

/-- Reads on from the cursor. `inside` counts the characters that still belong to the piece begun last. -/
def scan (scanner : Scanner) : (inside : Nat) → List Char → Scanner
  | _, [] => scanner
  | inside + 1, c :: rest => (scanner.advance c).scan inside rest
  | 0, c :: rest =>
    let found := (firstMatch scanner.passed.head? (c :: rest)).getD ⟨.mismatch, [c], false⟩
    ((scanner.begin found (c :: rest)).advance c).scan (found.text.length - 1) rest

/-- Puts the cursor at the start of a source, with no tokens yet. -/
def rewind (scanner : Scanner) : Scanner :=
  { scanner with passed := [], place := .origin, tokens := #[] }

/-- The tokens of a source, which are handed over; its warnings join the notices held. -/
def tokenize (scanner : Scanner) (source : String) : List Token × Scanner :=
  let finished := scanner.rewind.scan 0 source.toList
  (finished.tokens.toList, { finished with tokens := #[] })

/-- One call on the register; its note joins the notices held. -/
def record (scanner : Scanner) (event : Scopes.Event) : Scanner :=
  let (scopes, note) := scanner.scopes.apply event
  { scanner with notices := scanner.notices ++ [note], scopes }

/-- Hands over the notices held and keeps none. -/
def takeNotices (scanner : Scanner) : Notices × Scanner :=
  (scanner.notices, { scanner with notices := [] })

end Scanner

end BraceCompiler
