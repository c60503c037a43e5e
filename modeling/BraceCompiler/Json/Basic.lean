import BraceCompiler.Number.Layout

/-! Data text in the notation of JSON: in one line, or spread over lines with two blanks for each
level. -/

namespace BraceCompiler

inductive Json where
  | null
  | boolean (value : Bool)
  | integer (value : Int)
  | real (value : Number.Binary64)
  | text (value : String)
  | list (items : List Json)
  | object (fields : List (String × Json))
  deriving Repr

namespace Json

/-- Quote, backslash and control characters are escaped, and nothing else is. -/
def escape (c : Char) : String :=
  if c = '"' then "\\\""
  else if c = '\\' then "\\\\"
  else if c.toNat = 0x08 then "\\b"
  else if c = '\t' then "\\t"
  else if c = '\n' then "\\n"
  else if c.toNat = 0x0C then "\\f"
  else if c = '\r' then "\\r"
  else if c.toNat < 0x20 then
    String.ofList ['\\', 'u', '0', '0', Nat.digitChar (c.toNat / 16), Nat.digitChar (c.toNat % 16)]
  else String.ofList [c]

def quote (text : String) : String := "\"" ++ String.join (text.toList.map escape) ++ "\""

/-- Brackets for objects. -/
def openObject : String := "\x7b"

def closeObject : String := "\x7d"

/-- A value without parts; a number that is not finite is written as null. -/
def atom : Json → String
  | .null => "null"
  | .boolean true => "true"
  | .boolean false => "false"
  | .integer value => toString value
  | .real value => value.dataText?.getD "null"
  | .text value => quote value
  | .list _ => "[]"
  | .object _ => openObject ++ closeObject

mutual

/-- The value in one line, without blanks. -/
def compact : Json → String
  | .list items => "[" ++ ",".intercalate (compactItems items) ++ "]"
  | .object fields => openObject ++ ",".intercalate (compactFields fields) ++ closeObject
  | value => value.atom

def compactItems : List Json → List String
  | [] => []
  | item :: rest => item.compact :: compactItems rest

def compactFields : List (String × Json) → List String
  | [] => []
  | (name, value) :: rest => (quote name ++ ":" ++ value.compact) :: compactFields rest

end

/-- A line end and the blanks of a level. -/
def newLine (level : Nat) : String := "\n" ++ String.ofList (List.replicate (2 * level) ' ')

mutual

/-- The value with one part to a line; an empty list or object stays in its line. -/
def pretty (level : Nat) : Json → String
  | .list (item :: rest) =>
    "[" ++ newLine (level + 1) ++ item.pretty (level + 1) ++ prettyItems (level + 1) rest ++
      newLine level ++ "]"
  | .object ((name, value) :: rest) =>
    openObject ++ newLine (level + 1) ++ quote name ++ ": " ++ value.pretty (level + 1) ++
      prettyFields (level + 1) rest ++ newLine level ++ closeObject
  | value => value.atom

/-- Items after the first. -/
def prettyItems (level : Nat) : List Json → String
  | [] => ""
  | item :: rest => "," ++ newLine level ++ item.pretty level ++ prettyItems level rest

/-- Fields after the first. -/
def prettyFields (level : Nat) : List (String × Json) → String
  | [] => ""
  | (name, value) :: rest =>
    "," ++ newLine level ++ quote name ++ ": " ++ value.pretty level ++ prettyFields level rest

end

def ofOption {α : Type} (encode : α → Json) : Option α → Json
  | some value => encode value
  | none => .null

end Json

end BraceCompiler
