namespace QueryNotation.Text

/-! # Unsigned integers

Counts of rows are 64-bit words.  They are read from decimal digits, with an
optional plus sign in front, and written without one.
-/

/-- The number that a run of decimal digits denotes, continuing from `value`. -/
def digitsValue (value : Nat) : List Char → Nat
  | [] => value
  | c :: rest => digitsValue (value * 10 + (c.toNat - '0'.toNat)) rest

/-- True for a non-empty run of ASCII digits. -/
def isDigits (text : List Char) : Bool :=
  !text.isEmpty && text.all Char.isDigit

/-- Read digits that denote a 64-bit word; a plus sign may stand in front. -/
def unsigned? (text : List Char) : Option UInt64 :=
  let digits := match text with
    | '+' :: rest => rest
    | digits => digits
  if isDigits digits && digitsValue 0 digits < UInt64.size then
    some (UInt64.ofNat (digitsValue 0 digits))
  else none

end QueryNotation.Text
