import QueryNotation.Decimal.Binary64

namespace QueryNotation.Decimal

/-! # Shortest decimal text

A binary value is written with the fewest digits that read back as it, and of
the decimals with that many digits the nearest one.  `shortest` finds the digits
and their power of ten, `Layout` says how they are laid out.
-/

/-- The decimal `digits * 10 ^ exponent`. -/
structure Digits where
  digits : Nat
  exponent : Int
deriving DecidableEq, Repr, Inhabited

/-- A bound of the reals that round to a value, over the denominator
`4 * value.denominator`. -/
structure Interval where
  lower : Nat
  value : Nat
  upper : Nat
  denominator : Nat
  /-- The ends round to the value when its significand is even. -/
  closed : Bool

/-- The reals that round to the value.  Below a power of two the neighbour is
only half as far away. -/
def Binary64.interval (value : Binary64) : Interval :=
  let unit := 1 <<< value.exponent.toNat
  let below := if value.significand = 1 <<< 52 ∧ Binary64.leastExponent < value.exponent then 1 else 2
  { lower := (4 * value.significand - below) * unit
    value := 4 * value.significand * unit
    upper := (4 * value.significand + 2) * unit
    denominator := 4 * value.denominator
    closed := value.significand % 2 = 0 }

/-- True when `digits * 10 ^ exponent` rounds to the value. -/
def Interval.holds (interval : Interval) (digits : Nat) (exponent : Int) : Bool :=
  let scale (bound : Nat) := bound * Nat.pow 10 (-exponent).toNat
  let candidate := digits * Nat.pow 10 exponent.toNat * interval.denominator
  if interval.closed then
    scale interval.lower ≤ candidate && candidate ≤ scale interval.upper
  else scale interval.lower < candidate && candidate < scale interval.upper

/-- The decimal with the given exponent that rounds to the value and is nearest
to it, if there is one: of the value's two neighbours on that grid the nearer
that fits, of two at the same distance the even one. -/
def Interval.onGrid? (interval : Interval) (exponent : Int) : Option Digits :=
  let top := interval.value * Nat.pow 10 (-exponent).toNat
  let bottom := interval.denominator * Nat.pow 10 exponent.toNat
  let floor := top / bottom
  let near := Binary64.roundQuotient top bottom
  let far := if near = floor then floor + 1 else floor
  if interval.holds near exponent then some ⟨near, exponent⟩
  else if interval.holds far exponent then some ⟨far, exponent⟩
  else none

/-- The number of decimal digits of a whole number. -/
def digitCount (value : Nat) : Nat :=
  (Nat.toDigits 10 value).length

/-- The exponent of the leading digit of `top / bottom`, one too large at most. -/
def leadingExponent (top bottom : Nat) : Int :=
  if bottom ≤ top then digitCount (top / bottom) - 1
  else -(digitCount (bottom / top) : Int)

/-- The first grid with a decimal that rounds to the value, from `exponent` down. -/
def Interval.firstGrid (interval : Interval) (exponent : Int) : Nat → Digits
  | 0 => ⟨0, 0⟩
  | steps + 1 =>
    match interval.onGrid? exponent with
    | some found => found
    | none => interval.firstGrid (exponent - 1) steps

def Digits.dropZeros (decimal : Digits) : Nat → Digits
  | 0 => decimal
  | steps + 1 =>
    if decimal.digits ≠ 0 ∧ decimal.digits % 10 = 0 then
      Digits.dropZeros ⟨decimal.digits / 10, decimal.exponent + 1⟩ steps
    else decimal

/-- The shortest decimal that reads back as the value.  Seventeen digits always
suffice; the search starts one grid above the leading digit. -/
def shortest (value : Binary64) : Digits :=
  if value.significand = 0 then ⟨0, 0⟩
  else
    let interval := value.interval
    let start := leadingExponent interval.value interval.denominator + 1
    (interval.firstGrid start 20).dropZeros 20

/-- How digits are laid out. -/
structure Layout where
  /-- Exponents of the leading digit that are written positionally. -/
  positionalFrom : Int
  positionalTo : Int
  /-- Written in front of an exponent that is not negative. -/
  exponentPlus : String

/-- A decimal point goes among the digits, with a digit on each side. -/
def positional (digits : List Char) (exponent : Int) : List Char :=
  let whole := digits.length + exponent
  if whole ≤ 0 then '0' :: '.' :: List.replicate (-whole).toNat '0' ++ digits
  else if 0 ≤ exponent then digits ++ List.replicate exponent.toNat '0' ++ ['.', '0']
  else digits.take whole.toNat ++ '.' :: digits.drop whole.toNat

/-- One digit before the point, and the power of ten behind `e`. -/
def scientific (layout : Layout) (digits : List Char) (leading : Int) : List Char :=
  let mantissa := match digits with
    | [] => []
    | [digit] => [digit]
    | digit :: more => digit :: '.' :: more
  let sign := if leading < 0 then ['-'] else layout.exponentPlus.toList
  mantissa ++ 'e' :: sign ++ Nat.toDigits 10 leading.natAbs

def Layout.render (layout : Layout) (decimal : Digits) : List Char :=
  let digits := Nat.toDigits 10 decimal.digits
  let leading := decimal.exponent + digits.length - 1
  if layout.positionalFrom ≤ leading ∧ leading ≤ layout.positionalTo then
    positional digits decimal.exponent
  else scientific layout digits leading

end QueryNotation.Decimal
