import BraceCompiler.Number.Binary64

/-! The shortest decimal digits of a floating-point number: the fewest digits that read back as the
same number and, of those, the ones nearest to it. -/

namespace BraceCompiler.Number

/-- `digits * 10 ^ exponent`. -/
structure Decimal where
  digits : Nat
  exponent : Int
  deriving DecidableEq, Repr

/-- Which of two equally near candidates is taken. -/
inductive Tie where
  | up
  | even
  deriving DecidableEq, Repr

/-- A positive number and the ends of the interval that rounds to it, over one denominator. -/
structure Neighbourhood where
  value : Nat
  low : Nat
  high : Nat
  den : Nat
  /-- Whether the ends themselves round to the number. -/
  closed : Bool

/-- The ends lie half-way to the neighbours; below a power of two the neighbour is half as far. -/
def neighbourhood (mantissa : Nat) (exponent : Int) : Neighbourhood :=
  let gap := if mantissa = Nat.pow 2 52 ∧ Binary64.leastExponent < exponent then 1 else 2
  let (den, scale) := scaleDown 2 1 1 (exponent - 2)
  ⟨4 * mantissa * scale, (4 * mantissa - gap) * scale, (4 * mantissa + 2) * scale, den,
    mantissa % 2 == 0⟩

namespace Neighbourhood

def admits (near : Neighbourhood) (num scale : Nat) : Bool :=
  if near.closed then near.low * scale ≤ num && num ≤ near.high * scale
  else near.low * scale < num && num < near.high * scale

/-- The one of the two multiples of `10 ^ unit` around the value that reads back, the nearer if both
do. -/
def onGrid (tie : Tie) (near : Neighbourhood) (unit : Int) : Option Nat :=
  let (scale, step) := scaleDown 10 1 near.den unit
  let below := near.value * scale / step
  let fitsBelow := near.admits (below * step) scale
  let fitsAbove := near.admits ((below + 1) * step) scale
  match fitsBelow, fitsAbove with
  | false, false => none
  | true, false => some below
  | false, true => some (below + 1)
  | true, true =>
    let twice := 2 * (near.value * scale % step)
    if twice < step then some below
    else if step < twice then some (below + 1)
    else match tie with
      | .up => some (below + 1)
      | .even => some (below + below % 2)

/-- The power of ten that the value lies at or above, and below the next. No number is below `10 ^
-400`. -/
def decimalOrder (near : Neighbourhood) : Int :=
  ((Nat.toDigits 10 (near.value * Nat.pow 10 400 / near.den)).length : Int) - 401

/-- Tries ever finer grids, with one more digit each. -/
def search (tie : Tie) (near : Neighbourhood) : (grids : Nat) → (unit : Int) → Decimal
  | 0, unit => ⟨0, unit⟩
  | grids + 1, unit =>
    match near.onGrid tie unit with
    | some digits => ⟨digits, unit⟩
    | none => search tie near grids (unit - 1)

end Neighbourhood

/-- The decimal without zeros at its end. -/
def Decimal.trimmed (decimal : Decimal) : Decimal :=
  let digits := Nat.toDigits 10 decimal.digits
  let zeros := (digits.reverse.takeWhile (· == '0')).length
  ⟨decimal.digits / Nat.pow 10 zeros, decimal.exponent + zeros⟩

/-- Seventeen digits are always enough. -/
def shortest (tie : Tie) (mantissa : Nat) (exponent : Int) : Decimal :=
  let near := neighbourhood mantissa exponent
  (near.search tie 17 near.decimalOrder).trimmed

end BraceCompiler.Number
