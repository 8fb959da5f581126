import QueryNotation.Json.Basic

namespace QueryNotation.Json

/-! # Reading JSON

What reading a JSON text shares: why it fails, where, and how a number is read.

A whole number that fits in 64 bits stays exact.  Every other number is put
together from its leading digits, as many as fit in 64 bits, and one
multiplication or division by a power of ten.
-/

/-- Why a text is not JSON. -/
inductive Fault where
  | endInArray
  | endInObject
  | endInString
  | endInValue
  | missingColon
  | missingCommaInArray
  | missingCommaInObject
  | unknownWord
  | missingValue
  | invalidEscape
  | invalidNumber
  | numberOutOfRange
  | controlCharacter
  | keyNotString
  | loneSurrogate
  | trailingComma
  | trailingCharacters
  | incompleteEscape
  | tooDeep
deriving DecidableEq, Repr

def Fault.message : Fault → String
  | .endInArray => "EOF while parsing a list"
  | .endInObject => "EOF while parsing an object"
  | .endInString => "EOF while parsing a string"
  | .endInValue => "EOF while parsing a value"
  | .missingColon => "expected `:`"
  | .missingCommaInArray => "expected `,` or `]`"
  | .missingCommaInObject => "expected `,` or `\x7d`"
  | .unknownWord => "expected ident"
  | .missingValue => "expected value"
  | .invalidEscape => "invalid escape"
  | .invalidNumber => "invalid number"
  | .numberOutOfRange => "number out of range"
  | .controlCharacter => "control character (\\u0000-\\u001F) found while parsing a string"
  | .keyNotString => "key must be a string"
  | .loneSurrogate => "lone leading surrogate in hex escape"
  | .trailingComma => "trailing comma"
  | .trailingCharacters => "trailing characters"
  | .incompleteEscape => "unexpected end of hex escape"
  | .tooDeep => "recursion limit exceeded"

/-- A fault and its place: `ahead` bytes into the text that is left. -/
structure Failure where
  fault : Fault
  rest : List Char
  ahead : Nat
deriving DecidableEq, Repr

/-- Fail in front of `rest`, or `ahead` bytes into it. -/
def fail {α : Type} (fault : Fault) (rest : List Char) (ahead : Nat) : Except Failure α :=
  .error ⟨fault, rest, ahead⟩

/-- A line counted from one, and the bytes before a place on it. -/
structure Position where
  line : Nat
  column : Nat
deriving DecidableEq, Repr

/-- The place `bytes` bytes into a text that begins at `place`. -/
def Position.advance (place : Position) (bytes : Nat) : List Char → Position
  | [] => place
  | c :: rest =>
    if bytes = 0 then place
    else if c = '\n' then Position.advance ⟨place.line + 1, 0⟩ (bytes - 1) rest
    else
      Position.advance ⟨place.line, place.column + min bytes c.utf8Size⟩ (bytes - c.utf8Size) rest

def byteCount (text : List Char) : Nat :=
  text.foldr (fun c count => c.utf8Size + count) 0

def Failure.position (failure : Failure) (whole : List Char) : Position :=
  let passed := whole.take (whole.length - failure.rest.length)
  Position.advance ⟨1, 0⟩ (byteCount passed + failure.ahead) whole

def beginsWithDigit : List Char → Bool
  | [] => false
  | c :: _ => c.isDigit

def greatestWord : Nat := UInt64.size - 1

/-- Append digits to a number as long as it stays within `bound`: the number, how
many digits it took, and the text behind them. -/
def appendDigits (bound value : Nat) : List Char → Nat × Nat × List Char
  | [] => (value, 0, [])
  | c :: rest =>
    if c.isDigit then
      let next := value * 10 + (c.toNat - '0'.toNat)
      if next ≤ bound then
        let (result, count, rest') := appendDigits bound next rest
        (result, count + 1, rest')
      else (value, 0, c :: rest)
    else (value, 0, c :: rest)

/-- The greatest power of ten among the binary values. -/
def greatestPower : Nat := 308

/-- Divide by ten to the `greatestPower` a number of times. -/
def divideRepeatedly (value : Decimal.Binary64) : Nat → Option Decimal.Binary64
  | 0 => some value
  | times + 1 =>
    if value.significand = 0 then some value
    else do
      let power ← Decimal.Binary64.powerOfTen? greatestPower
      let quotient ← value.div? power
      divideRepeatedly quotient times

/-- The binary value of `significand * 10 ^ exponent`, scaled by one power of ten
where there is one that large; none beyond the largest value. -/
def scaled? (significand : Nat) (exponent : Int) : Option Decimal.Binary64 := do
  let value ← Decimal.Binary64.nearest? significand 1
  if 0 ≤ exponent then
    if exponent ≤ greatestPower then
      let power ← Decimal.Binary64.powerOfTen? exponent.toNat
      value.mul? power
    else if significand = 0 then some value
    else none
  else
    let times := (exponent.natAbs - 1) / greatestPower
    let value ← divideRepeatedly value times
    if value.significand = 0 then some value
    else
      let power ← Decimal.Binary64.powerOfTen? (exponent.natAbs - times * greatestPower)
      value.div? power

/-- The real number with the digits read so far. -/
def finishReal (negative : Bool) (significand : Nat) (exponent : Int) (rest : List Char) :
    Except Failure (Number × List Char) :=
  match scaled? significand exponent with
  | some magnitude => .ok (.real negative magnitude, rest)
  | none => fail .numberOutOfRange rest 0

def greatestExponent : Nat := UInt32.size / 2 - 1

/-- Read behind the `e`: an optional sign and at least one digit. -/
def readExponent (negative : Bool) (significand : Nat) (exponent : Int) (text : List Char) :
    Except Failure (Number × List Char) :=
  let (positive, digits) := match text with
    | '+' :: rest => (true, rest)
    | '-' :: rest => (false, rest)
    | rest => (true, rest)
  match digits with
  | [] => fail .endInValue [] 0
  | _ =>
    if beginsWithDigit digits then
      let (value, _, rest) := appendDigits greatestExponent 0 digits
      if beginsWithDigit rest then
        if significand ≠ 0 ∧ positive then fail .numberOutOfRange (rest.drop 1) 0
        else .ok (.real negative .zero, rest.dropWhile Char.isDigit)
      else
        finishReal negative significand (if positive then exponent + value else exponent - value)
          rest
    else fail .invalidNumber digits 1

/-- Read what may follow the digits: an exponent or nothing. -/
def readOptionalExponent (negative : Bool) (significand : Nat) (exponent : Int) :
    List Char → Except Failure (Number × List Char)
  | 'e' :: rest | 'E' :: rest => readExponent negative significand exponent rest
  | rest => finishReal negative significand exponent rest

/-- Read behind the decimal point.  Digits that no longer fit are passed over. -/
def readFraction (negative : Bool) (significand : Nat) (exponent : Int) (text : List Char) :
    Except Failure (Number × List Char) :=
  let (significand', count, rest) := appendDigits greatestWord significand text
  if beginsWithDigit rest then
    readOptionalExponent negative significand' (exponent - count) (rest.dropWhile Char.isDigit)
  else if count = 0 then
    match rest with
    | [] => fail .endInValue [] 0
    | _ => fail .invalidNumber rest 1
  else readOptionalExponent negative significand' (exponent - count) rest

/-- Read behind the whole digits of a number.  Digits that no longer fit scale it
by ten each. -/
def readAfterWhole (negative : Bool) (significand : Nat) (text : List Char) :
    Except Failure (Number × List Char) :=
  let dropped := (text.takeWhile Char.isDigit).length
  match text.dropWhile Char.isDigit with
  | '.' :: rest => readFraction negative significand dropped rest
  | 'e' :: rest | 'E' :: rest => readExponent negative significand dropped rest
  | rest =>
    if dropped ≠ 0 then finishReal negative significand dropped rest
    else if !negative then .ok (.integer significand, rest)
    else if significand = 0 ∨ UInt64.size / 2 < significand then
      finishReal true significand 0 rest
    else .ok (.integer (-(significand : Int)), rest)

/-- Read a number that begins with a digit or a minus sign. -/
def readNumber (text : List Char) : Except Failure (Number × List Char) :=
  let (negative, digits) := match text with
    | '-' :: rest => (true, rest)
    | rest => (false, rest)
  match digits with
  | [] => fail .endInValue [] 0
  | '0' :: rest =>
    if beginsWithDigit rest then fail .invalidNumber rest 1
    else readAfterWhole negative 0 rest
  | _ =>
    if beginsWithDigit digits then
      let (significand, _, rest) := appendDigits greatestWord 0 digits
      readAfterWhole negative significand rest
    else fail .invalidNumber digits 1

def Number.ofText? (text : List Char) : Option Number :=
  match text with
  | c :: _ =>
    if c = '-' ∨ c.isDigit then
      match readNumber text with
      | .ok (found, []) => some found
      | _ => none
    else none
  | [] => none

end QueryNotation.Json
