import BraceCompiler.Text.Word

/-! Whole numbers as text. -/

namespace BraceCompiler.Number

/-- The value of a run of decimal digits. -/
def digitsValue (digits : List Char) : Nat :=
  digits.foldl (fun value c => 10 * value + (c.toNat - '0'.toNat)) 0

/-- An optional sign, split off; true for minus. -/
def splitSign : List Char → Bool × List Char
  | '-' :: rest => (true, rest)
  | '+' :: rest => (false, rest)
  | text => (false, text)

def signed (negative : Bool) (magnitude : Nat) : Int :=
  if negative then -(magnitude : Int) else magnitude

/-- The values of a signed word of 64 bits. -/
def fitsWord (value : Int) : Bool := -9223372036854775808 ≤ value && value ≤ 9223372036854775807

/-- An optional sign and at least one digit, if the value fits a signed word of 64 bits. -/
def readInteger (text : List Char) : Option Int :=
  let (negative, digits) := splitSign text
  if digits.isEmpty || !digits.all Text.isDigit then none
  else
    let value := signed negative (digitsValue digits)
    if fitsWord value then some value else none

end BraceCompiler.Number
