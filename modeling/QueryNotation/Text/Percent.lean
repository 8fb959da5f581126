import QueryNotation.Text.Utf8

namespace QueryNotation.Text

/-! # Percent encoding

A byte is written as `%` and two hexadecimal digits.  Which ASCII characters are
written so depends on where the text stands; all others always are.
-/

def isAsciiControl (c : Char) : Bool :=
  c.toNat < 0x20 || c.toNat == 0x7F

/-- The upper-case hexadecimal digit of a number below sixteen. -/
def hexDigit (value : Nat) : Char :=
  Char.ofNat (if value < 10 then 0x30 + value else 0x37 + value)

/-- The value of a hexadecimal digit in either case. -/
def hexValue? (c : Char) : Option Nat :=
  if c.isDigit then some (c.toNat - 0x30)
  else if 'a' ≤ c ∧ c ≤ 'f' then some (c.toNat - 0x57)
  else if 'A' ≤ c ∧ c ≤ 'F' then some (c.toNat - 0x37)
  else none

/-- A byte as `%` and two digits. -/
def escapeByte (byte : UInt8) : List Char :=
  ['%', hexDigit (byte.toNat / 16), hexDigit (byte.toNat % 16)]

/-- Escape the bytes of every character beyond ASCII or in the class `escaped`. -/
def percentEncode (escaped : Char → Bool) (text : List Char) : List Char :=
  text.flatMap fun c =>
    if c.toNat < 0x80 && !escaped c then [c]
    else (String.utf8EncodeChar c).flatMap escapeByte

/-- Undo the escapes; a `%` without two digits behind it stands for itself. -/
def percentDecode : List UInt8 → List UInt8
  | [] => []
  | byte :: rest =>
    if byte = 0x25 then
      match rest with
      | high :: low :: rest' =>
        match hexValue? (Char.ofNat high.toNat), hexValue? (Char.ofNat low.toNat) with
        | some h, some l => UInt8.ofNat (h * 16 + l) :: percentDecode rest'
        | _, _ => byte :: percentDecode (high :: low :: rest')
      | short => byte :: short
    else byte :: percentDecode rest

end QueryNotation.Text
