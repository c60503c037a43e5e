import BraceCompiler.Number.Integer

/-! Floating-point numbers of 64 bits, and how decimal text is read as one. All arithmetic is exact
until the one rounding step. -/

namespace BraceCompiler.Number

/-- A finite value is `mantissa * 2 ^ exponent`, with a mantissa below `2 ^ 53` and an exponent of
at least `-1074`; the mantissa is at least `2 ^ 52` unless the exponent is the least one. -/
inductive Binary64 where
  | nan
  | infinite (negative : Bool)
  | finite (negative : Bool) (mantissa : Nat) (exponent : Int)
  deriving DecidableEq, Repr

/-- The nearest whole number to a ratio, a half going to the even neighbour. -/
def roundRatio (num den : Nat) : Nat :=
  let below := num / den
  let twice := 2 * (num % den)
  if twice < den then below
  else if den < twice then below + 1
  else below + below % 2

/-- The ratio divided by a power of the base. -/
def scaleDown (base num den : Nat) (power : Int) : Nat × Nat :=
  if 0 ≤ power then (num, den * base.pow power.toNat) else (num * base.pow (-power).toNat, den)

/-- The power of two that a positive ratio lies at or above, and below the next. -/
def binaryOrder (num den : Nat) : Int :=
  let guess := (num.log2 : Int) - den.log2
  let (top, bottom) := scaleDown 2 num den guess
  if bottom ≤ top then guess else guess - 1

namespace Binary64

def leastExponent : Int := -1074

def greatestExponent : Int := 971

/-- The nearest number to a ratio, a half going to the even mantissa; beyond the greatest number it
is infinite. -/
def ofRatio (negative : Bool) (num den : Nat) : Binary64 :=
  if num = 0 then .finite negative 0 leastExponent
  else
    let exponent := max (binaryOrder num den - 52) leastExponent
    let (top, bottom) := scaleDown 2 num den exponent
    let mantissa := roundRatio top bottom
    let (mantissa, exponent) :=
      if mantissa = Nat.pow 2 53 then (Nat.pow 2 52, exponent + 1) else (mantissa, exponent)
    if greatestExponent < exponent then .infinite negative else .finite negative mantissa exponent

/-- The nearest number to `digits * 10 ^ exponent`, where `digits` has `count` decimal digits. A
magnitude that is out of reach either way is settled before any power of ten is formed. -/
def ofDecimal (negative : Bool) (digits count : Nat) (exponent : Int) : Binary64 :=
  if digits = 0 then ofRatio negative 0 1
  else if 400 < count + exponent then .infinite negative
  else if count + exponent < -400 then ofRatio negative 0 1
  else
    let (den, num) := scaleDown 10 1 digits exponent
    ofRatio negative num den

end Binary64

/-- An exponent mark with its number, or nothing. -/
def readExponent : List Char → Option Int
  | [] => some 0
  | mark :: rest =>
    let (negative, digits) := splitSign rest
    if (mark == 'e' || mark == 'E') && !digits.isEmpty && digits.all Text.isDigit then
      some (signed negative (digitsValue digits))
    else none

/-- Digits with an optional point and an optional exponent; one side of the point may be empty. -/
def readDecimal (negative : Bool) (text : List Char) : Option Binary64 :=
  let whole := text.takeWhile Text.isDigit
  let afterWhole := text.dropWhile Text.isDigit
  let (fraction, tail) :=
    match afterWhole with
    | '.' :: rest => (rest.takeWhile Text.isDigit, rest.dropWhile Text.isDigit)
    | _ => ([], afterWhole)
  let digits := whole ++ fraction
  if digits.isEmpty then none
  else (readExponent tail).map fun exponent =>
    let count := (digits.dropWhile (· == '0')).length
    .ofDecimal negative (digitsValue digits) count (exponent - fraction.length)

/-- A signed decimal, or the words for an infinite value or none, in any case. -/
def readReal (text : List Char) : Option Binary64 :=
  let (negative, body) := splitSign text
  let word := String.ofList (body.map Char.toLower)
  if word = "inf" ∨ word = "infinity" then some (.infinite negative)
  else if word = "nan" then some .nan
  else readDecimal negative body

end BraceCompiler.Number
