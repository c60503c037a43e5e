import BraceCompiler.Number.Shortest

/-! The text of a floating-point number, for a given layout. -/

namespace BraceCompiler.Number

/-- The decisions of one written form. -/
structure Layout where
  tie : Tie
  /-- Whether a number whose first digit stands at this power of ten is written without an exponent.
  -/
  positional : Int → Bool

/-- Program text: never an exponent, a tie goes up. -/
def programLayout : Layout := ⟨.up, fun _ => true⟩

/-- Data text: an exponent from `10 ^ 16` on and below `10 ^ -5`, a tie goes to the even digit. -/
def dataLayout : Layout := ⟨.even, fun order => -5 ≤ order && order ≤ 15⟩

def zeros (count : Nat) : String := String.ofList (List.replicate count '0')

/-- All digits in their places, with at least one on each side of the point. -/
def positionalText (decimal : Decimal) : String :=
  let digits := Nat.toDigits 10 decimal.digits
  let whole := (digits.length : Int) + decimal.exponent
  if 0 ≤ decimal.exponent then String.ofList digits ++ zeros decimal.exponent.toNat ++ ".0"
  else if 0 < whole then
    String.ofList (digits.take whole.toNat) ++ "." ++ String.ofList (digits.drop whole.toNat)
  else "0." ++ zeros (-whole).toNat ++ String.ofList digits

/-- One digit before the point, if any follow it, and a signed exponent. -/
def exponentText (decimal : Decimal) : String :=
  let digits := Nat.toDigits 10 decimal.digits
  let order := (digits.length : Int) + decimal.exponent - 1
  let fraction := if digits.length = 1 then "" else "." ++ String.ofList (digits.drop 1)
  let sign := if order < 0 then "-" else "+"
  String.ofList (digits.take 1) ++ fraction ++ "e" ++ sign ++ toString order.natAbs

/-- The text of a finite number. -/
def finiteText (layout : Layout) (negative : Bool) (mantissa : Nat) (exponent : Int) : String :=
  let sign := if negative then "-" else ""
  if mantissa = 0 then sign ++ "0.0"
  else
    let decimal := shortest layout.tie mantissa exponent
    let order := ((Nat.toDigits 10 decimal.digits).length : Int) + decimal.exponent - 1
    sign ++ if layout.positional order then positionalText decimal else exponentText decimal

/-- The form that program text takes. -/
def Binary64.programText : Binary64 → String
  | .nan => "NaN"
  | .infinite false => "inf"
  | .infinite true => "-inf"
  | .finite negative mantissa exponent => finiteText programLayout negative mantissa exponent

/-- The form that data takes; only finite numbers have one. -/
def Binary64.dataText? : Binary64 → Option String
  | .nan | .infinite _ => none
  | .finite negative mantissa exponent => some (finiteText dataLayout negative mantissa exponent)

end BraceCompiler.Number
