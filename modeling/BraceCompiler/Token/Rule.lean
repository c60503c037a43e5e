import BraceCompiler.Text.Word
import BraceCompiler.Token.Basic
import BraceCompiler.Token.Words

/-! The table of token shapes. A rule looks at the text from the cursor on and takes a first part of
it; the first rule of the table that takes anything decides. No rule looks for the longest match. -/

namespace BraceCompiler

/-- What a rule took. `closed` is true only for a text literal that has its closing quote. -/
structure Match where
  kind : TokenKind
  text : List Char
  closed : Bool
  deriving DecidableEq, Repr

namespace Shape
open Text

/-- A longest run of characters of one class, if it is not empty. -/
def run (p : Char → Bool) (source : List Char) : Option (List Char) :=
  match source.takeWhile p with
  | [] => none
  | taken => some taken

/-- The text up to and with the first close of a block comment. -/
def blockEnd : List Char → Option (List Char)
  | '*' :: '/' :: _ => some ['*', '/']
  | c :: rest => (blockEnd rest).map (c :: ·)
  | [] => none

/-- A line comment ends before the line feed; a block comment needs its close. -/
def comment : List Char → Option (List Char)
  | '/' :: '/' :: rest => some ('/' :: '/' :: rest.takeWhile (· != '\n'))
  | '/' :: '*' :: rest => (blockEnd rest).map ('/' :: '*' :: ·)
  | _ => none

def isLayout (c : Char) : Bool := c == ' ' || c == '\t' || c == '\r' || c == '\n'

/-- A word of the list, with no word character after it: the longest run of word characters is the
word. -/
def word (words : List String) (source : List Char) : Option (List Char) :=
  let taken := source.takeWhile extendsWord
  if words.contains (String.ofList taken) then some taken else none

def identifier : List Char → Option (List Char)
  | c :: rest => if startsName c then some (c :: rest.takeWhile continuesName) else none
  | [] => none

/-- Digits, with no word character after them. -/
def number (source : List Char) : Option (List Char) := do
  let digits ← run isDigit source
  if atWordEnd (source.dropWhile isDigit) then some digits else none

/-- Digits on both sides of a point. -/
def float (source : List Char) : Option (List Char) := do
  let whole ← run isDigit source
  match source.dropWhile isDigit with
  | '.' :: rest => do
    let fraction ← number rest
    some (whole ++ '.' :: fraction)
  | _ => none

/-- The rest of a text literal and whether it is closed. A backslash goes with the character after
it; one that has none after it is left out. -/
def textBody : List Char → List Char × Bool
  | '"' :: _ => (['"'], true)
  | '\\' :: c :: rest => let (body, closed) := textBody rest; ('\\' :: c :: body, closed)
  | '\\' :: [] => ([], false)
  | c :: rest => let (body, closed) := textBody rest; (c :: body, closed)
  | [] => ([], false)

def single (p : Char → Bool) : List Char → Option (List Char)
  | c :: _ => if p c then some [c] else none
  | [] => none

/-- Operators that an equals sign may follow. -/
def beforeEquals : List Char := ['+', '-', '*', '/', '%', '=', '!', '<', '>']

def operators : List Char := ['+', '-', '*', '/', '%', '<', '>', '&', '|']

def operator : List Char → Option (List Char)
  | c :: '=' :: _ =>
    if beforeEquals.contains c then some [c, '=']
    else if operators.contains c then some [c] else none
  | c :: _ => if operators.contains c then some [c] else none
  | [] => none

def delimiters : List Char := ['\x7b', '\x7d', '(', ')', '[', ']', ',', ';', ':']

end Shape

structure Rule where
  kind : TokenKind
  /-- The rule does not apply right after a character that precedes words. -/
  startsWord : Bool
  /-- The text taken, and whether a closing quote was among it. -/
  take : List Char → Option (List Char × Bool)

namespace Rule
open Shape

def plain (kind : TokenKind) (shape : List Char → Option (List Char)) : Rule :=
  ⟨kind, false, fun source => (shape source).map (·, false)⟩

def words (kind : TokenKind) (list : List String) : Rule :=
  ⟨kind, true, fun source => (word list source).map (·, false)⟩

def char (kind : TokenKind) (c : Char) : Rule := plain kind (single (· == c))

def textLiteral : Rule :=
  ⟨.text, false, fun
    | '"' :: rest => let (body, closed) := textBody rest; some ('"' :: body, closed)
    | _ => none⟩

/-- All rules, in the order in which they are tried. -/
def table : List Rule := [
  plain .comment comment,
  plain .blank (run isLayout),
  words .keyword Words.keywords,
  words .dataType Words.dataTypes,
  words .boolean Words.booleans,
  plain .identifier identifier,
  plain .float float,
  plain .number number,
  textLiteral,
  char .arrayStart '[',
  char .arrayEnd ']',
  char .tupleStart '(',
  char .tupleEnd ')',
  char .colon ':',
  char .comma ',',
  plain .operator operator,
  char .assignment '=',
  plain .delimiter (single delimiters.contains),
  plain .mismatch (single (fun _ => true))]

/-- The rule applied after the character `before`. -/
def apply (rule : Rule) (before : Option Char) (source : List Char) : Option Match :=
  if rule.startsWord && before.any Text.precedesWord then none
  else (rule.take source).map fun (text, closed) => ⟨rule.kind, text, closed⟩

end Rule

/-- The match of the first rule that applies; there is one unless the source is at its end. -/
def firstMatch (before : Option Char) (source : List Char) : Option Match :=
  Rule.table.findSome? fun rule => rule.apply before source

/-- The text after the declarator names a variable and gives it a value: blanks, a name, and one
equals sign. -/
def declaresVariable (source : List Char) : Bool :=
  match source with
  | c :: rest =>
    Text.isBlank c &&
      match Shape.identifier (rest.dropWhile Text.isBlank) with
      | none => false
      | some name =>
        match ((rest.dropWhile Text.isBlank).drop name.length).dropWhile Text.isBlank with
        | '=' :: '=' :: _ => false
        | '=' :: _ => true
        | _ => false
  | [] => false

end BraceCompiler
