namespace QueryNotation.Decimal

/-! # Binary floating point

The finite values of the 64-bit binary format, without sign: a whole significand
of at most 53 bits times a power of two.  Every operation is the exact one
followed by one rounding to the nearest value, ties to the even significand.
-/

/-- The value `significand * 2 ^ exponent`. -/
structure Binary64 where
  significand : Nat
  exponent : Int
deriving DecidableEq, Repr, Inhabited

namespace Binary64

def leastExponent : Int := -1074

def greatestExponent : Int := 971

def zero : Binary64 := ⟨0, leastExponent⟩

/-- The dividend when the value is written as a quotient of whole numbers. -/
def numerator (value : Binary64) : Nat :=
  value.significand <<< value.exponent.toNat

def denominator (value : Binary64) : Nat :=
  1 <<< (-value.exponent).toNat

/-- The quotient rounded to the nearest whole number, ties to the even one. -/
def roundQuotient (numerator denominator : Nat) : Nat :=
  let floor := numerator / denominator
  let twice := 2 * (numerator % denominator)
  if twice < denominator then floor
  else if denominator < twice then floor + 1
  else floor + floor % 2

/-- The quotient `numerator / denominator` in units of `2 ^ exponent`. -/
def inUnits (numerator denominator : Nat) (exponent : Int) : Nat × Nat :=
  (numerator <<< (-exponent).toNat, denominator <<< exponent.toNat)

/-- The exponent whose units give the quotient 53 bits before the point, or the
least one if that is greater. -/
def unitExponent (numerator denominator : Nat) : Int :=
  let guess : Int := (numerator.log2 : Int) - denominator.log2 - 52
  let (top, bottom) := inUnits numerator denominator guess
  max (if top < bottom <<< 52 then guess - 1 else guess) leastExponent

/-- The value nearest to a quotient; none beyond the largest value. -/
def nearest? (numerator denominator : Nat) : Option Binary64 :=
  if numerator = 0 then some zero
  else
    let exponent := unitExponent numerator denominator
    let (top, bottom) := inUnits numerator denominator exponent
    let significand := roundQuotient top bottom
    let rounded : Binary64 :=
      if significand = 1 <<< 53 then ⟨1 <<< 52, exponent + 1⟩ else ⟨significand, exponent⟩
    if rounded.exponent ≤ greatestExponent then some rounded else none

def powerOfTen? (exponent : Nat) : Option Binary64 :=
  nearest? (Nat.pow 10 exponent) 1

def mul? (left right : Binary64) : Option Binary64 :=
  nearest? (left.numerator * right.numerator) (left.denominator * right.denominator)

def div? (left right : Binary64) : Option Binary64 :=
  nearest? (left.numerator * right.denominator) (left.denominator * right.numerator)

example : nearest? 1 10 = some ⟨7205759403792794, -56⟩ := by decide
example : nearest? 9007199254740993 1 = some ⟨4503599627370496, 1⟩ := by decide

end Binary64

end QueryNotation.Decimal
