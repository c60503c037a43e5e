/-! Characters and lines of a text, apart from words. -/

namespace BraceCompiler.Text

/-- Inclusive ranges of code points, each above the one before it. -/
abbrev Ranges := List (Nat × Nat)

/-- Membership; the search ends at the first range that starts above the code point. -/
def Ranges.covers : Ranges → Nat → Bool
  | [], _ => false
  | (low, high) :: rest, code => low ≤ code && (code ≤ high || Ranges.covers rest code)

/-- Spaces, tabs, line and paragraph ends of every kind. -/
def whiteSpace : Ranges := [
  (0x0009, 0x000D), (0x0020, 0x0020), (0x0085, 0x0085), (0x00A0, 0x00A0), (0x1680, 0x1680),
  (0x2000, 0x200A), (0x2028, 0x2029), (0x202F, 0x202F), (0x205F, 0x205F), (0x3000, 0x3000)]

def isBlank (c : Char) : Bool := whiteSpace.covers c.toNat

/-- The first run of characters that are not blank; empty when there is none. -/
def firstWord (text : String) : String :=
  String.ofList ((text.toList.dropWhile isBlank).takeWhile (fun c => !isBlank c))

/-- A line ends at a line feed, and a carriage return right before that feed belongs to the line
end. A carriage return elsewhere is a character of its line, and a feed at the end of the text opens
no further line. -/
def lines : List Char → List (List Char)
  | [] => []
  | '\r' :: '\n' :: rest => [] :: lines rest
  | '\n' :: rest => [] :: lines rest
  | c :: rest =>
    match lines rest with
    | [] => [[c]]
    | line :: others => (c :: line) :: others

/-- How a message names a character: printable ASCII as it is, quotes and backslash behind a
backslash, the three common control characters by letter, and all else by code point in hexadecimal. -/
def named (c : Char) : String :=
  if c = '\t' then "\\t"
  else if c = '\r' then "\\r"
  else if c = '\n' then "\\n"
  else if c = '\'' ∨ c = '"' ∨ c = '\\' then String.ofList ['\\', c]
  else if 0x20 ≤ c.toNat ∧ c.toNat ≤ 0x7E then String.ofList [c]
  else "\\u\x7b" ++ String.ofList (Nat.toDigits 16 c.toNat) ++ "\x7d"

end BraceCompiler.Text
