import BraceCompiler.Text.Alphabetic
import BraceCompiler.Text.Category

/-! What counts as part of a word. Names are made of ASCII characters only, but where a word ends
depends on every script: two tests apply, one to the character after a word and one to the character
before it. -/

namespace BraceCompiler.Text

def isLetter (c : Char) : Bool := ('a' ≤ c && c ≤ 'z') || ('A' ≤ c && c ≤ 'Z')

def isDigit (c : Char) : Bool := '0' ≤ c && c ≤ '9'

def startsName (c : Char) : Bool := isLetter c || c == '_'

def continuesName (c : Char) : Bool := startsName c || isDigit c

/-- A word does not end before such a character: letters, marks, decimal digits, connectors, join
controls. This test goes by version 16 of Unicode, so what was added last does not count. -/
def extendsWord (c : Char) : Bool :=
  !addedLast.covers c.toNat &&
    (alphabetic.covers c.toNat || mark.covers c.toNat || decimalDigit.covers c.toNat ||
      connector.covers c.toNat || joinControl.covers c.toNat)

/-- A word does not start after such a character: letters, numbers of every kind, the underscore.
Marks, join controls and the other connectors are left out, fractions and the like are let in, and
the characters of version 17 count, so this is not the same set as `extendsWord`. -/
def precedesWord (c : Char) : Bool :=
  alphabetic.covers c.toNat || decimalDigit.covers c.toNat || otherNumber.covers c.toNat || c == '_'

/-- No word runs on into this text. -/
def atWordEnd : List Char → Bool
  | [] => true
  | c :: _ => !extendsWord c

end BraceCompiler.Text
