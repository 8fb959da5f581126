import QueryNotation.Text.Cut
import QueryNotation.Text.Percent

namespace QueryNotation.Toml

/-! # Scalars of TOML

Strings, numbers, truth values and points in time.  Of a value that is none of the
first three only the fact is kept that it is well formed.
-/

open Text

/-- A value that no further key leads into. -/
inductive Scalar where
  | string (text : String)
  | integer (value : Int)
  | bool (value : Bool)
  /-- A real number, a point in time or an array. -/
  | other
deriving DecidableEq, Repr

def isSpace (c : Char) : Bool :=
  c == ' ' || c == '\t'

def skipSpaces (text : List Char) : List Char :=
  text.dropWhile isSpace

/-- The end of a line, if it stands here: what is behind it. -/
def newline? : List Char → Option (List Char)
  | '\n' :: rest => some rest
  | '\r' :: '\n' :: rest => some rest
  | _ => none

/-- The characters that may stand as they are in a string or a comment. -/
def isPlain (c : Char) : Bool :=
  c == '\t' || (0x20 ≤ c.toNat && c.toNat != 0x7F)

/-- Pass over a comment, if one stands here, up to the end of the line. -/
def skipComment : List Char → List Char
  | '#' :: rest => rest.dropWhile isPlain
  | text => text

/-- The character that `count` hexadecimal digits denote. -/
def readCode? (count : Nat) (text : List Char) : Option (Char × List Char) := do
  let digits := text.take count
  if digits.length < count then none
  let code ← digits.foldlM (fun value c => (hexValue? c).map (value * 16 + ·)) 0
  if h : code.isValidChar then some (Char.ofNatAux code h, text.drop count) else none

def readEscape? : List Char → Option (Char × List Char)
  | 'b' :: rest => some ('\x08', rest)
  | 't' :: rest => some ('\t', rest)
  | 'n' :: rest => some ('\n', rest)
  | 'f' :: rest => some ('\x0c', rest)
  | 'r' :: rest => some ('\r', rest)
  | '"' :: rest => some ('"', rest)
  | '\\' :: rest => some ('\\', rest)
  | 'u' :: rest => readCode? 4 rest
  | 'U' :: rest => readCode? 8 rest
  | _ => none

/-- Read a string on one line, behind its opening mark; `escapes` tells whether a
backslash begins an escape. -/
def readLine? (mark : Char) (escapes : Bool) : Nat → List Char → Option (List Char × List Char)
  | 0, _ | _, [] => none
  | bound + 1, c :: rest =>
    if c = mark then some ([], rest)
    else if escapes && c == '\\' then do
      let (meant, rest') ← readEscape? rest
      let (text, after) ← readLine? mark escapes bound rest'
      return (meant :: text, after)
    else if isPlain c then
      (readLine? mark escapes bound rest).map fun (text, after) => (c :: text, after)
    else none

/-- What follows a backslash at the end of a line: the next character that is no
space and no line break; none when the backslash is not at the end of its line. -/
def continuation? (text : List Char) : Option (List Char) :=
  (newline? (skipSpaces text)).map fun rest =>
    rest.dropWhile fun c => isSpace c || c == '\n' || c == '\r'

/-- Read a string on several lines, behind its opening marks.  Up to two marks may stand
before the closing three. -/
def readLines? (mark : Char) (escapes : Bool) : Nat → List Char → Option (List Char × List Char)
  | 0, _ | _, [] => none
  | bound + 1, c :: rest =>
    if c = mark then
      let marks := (c :: rest).takeWhile (· == mark)
      if marks.length < 3 then
        (readLines? mark escapes bound rest).map fun (text, after) => (c :: text, after)
      else if marks.length ≤ 5 then some (marks.drop 3, (c :: rest).drop marks.length)
      else some ([mark, mark], rest.drop 4)
    else if escapes && c == '\\' then
      match continuation? rest with
      | some rest' => readLines? mark escapes bound rest'
      | none => do
        let (meant, rest') ← readEscape? rest
        let (text, after) ← readLines? mark escapes bound rest'
        return (meant :: text, after)
    else
      match newline? (c :: rest) with
      | some rest' =>
        (readLines? mark escapes bound rest').map fun (text, after) => ('\n' :: text, after)
      | none =>
        if isPlain c then
          (readLines? mark escapes bound rest).map fun (text, after) => (c :: text, after)
        else none

def readString? : List Char → Option (List Char × List Char)
  | '"' :: rest => readLine? '"' true rest.length rest
  | '\'' :: rest => readLine? '\'' false rest.length rest
  | _ => none

/-- Read a string of any kind, from its mark on.  A line break right behind three marks
does not count. -/
def readAnyString? (text : List Char) : Option (List Char × List Char) :=
  match text with
  | '"' :: '"' :: '"' :: rest =>
    let rest := (newline? rest).getD rest
    readLines? '"' true rest.length rest
  | '\'' :: '\'' :: '\'' :: rest =>
    let rest := (newline? rest).getD rest
    readLines? '\'' false rest.length rest
  | text => readString? text

/-- The value of digits in a base, with single underscores between them. -/
def digits? (base : Nat) (text : List Char) : Option Nat :=
  let groups := pieces (· == '_') text
  if groups.any List.isEmpty then none
  else
    groups.flatten.foldlM
      (fun value c => do
        let digit ← hexValue? c
        if digit < base then some (value * base + digit) else none)
      0

/-- The whole number that decimal digits denote, without needless zeros in front. -/
def wholeNumber? (text : List Char) : Option Nat :=
  match text with
  | '0' :: _ :: _ => none
  | text => digits? 10 text

def splitSign : List Char → Int × List Char
  | '+' :: rest => (1, rest)
  | '-' :: rest => (-1, rest)
  | text => (1, text)

/-- The whole number of a text; it has to fit in a signed word. -/
def integer? (text : List Char) : Option Int := do
  let value : Int ← match text with
    | '0' :: 'x' :: rest => (digits? 16 rest).map Int.ofNat
    | '0' :: 'o' :: rest => (digits? 8 rest).map Int.ofNat
    | '0' :: 'b' :: rest => (digits? 2 rest).map Int.ofNat
    | text =>
      let (sign, rest) := splitSign text
      (wholeNumber? rest).map fun value => sign * value
  if Int64.minValue.toInt ≤ value ∧ value ≤ Int64.maxValue.toInt then some value else none

/-- True for the digits of an exponent, perhaps with a sign. -/
def isExponent (text : List Char) : Bool :=
  (digits? 10 (splitSign text).2).isSome

def isReal (text : List Char) : Bool :=
  let plain := (splitSign text).2
  if plain = "inf".toList ∨ plain = "nan".toList then true
  else
    let (mantissa, exponent) :=
      match cutFirst 'e' (plain.map Char.toLower) with
      | some (mantissa, exponent) => (mantissa, some exponent)
      | none => (plain, none)
    let (whole, fraction) :=
      match cutFirst '.' mantissa with
      | some (whole, fraction) => (whole, some fraction)
      | none => (mantissa, none)
    (fraction.isSome || exponent.isSome) && (wholeNumber? whole).isSome &&
      fraction.all (fun digits => (digits? 10 digits).isSome) && exponent.all isExponent

/-- The value of exactly `count` decimal digits, if it lies between the bounds. -/
def field? (count least greatest : Nat) (text : List Char) : Option Nat := do
  if text.length ≠ count ∨ !text.all Char.isDigit then none
  let value ← digits? 10 text
  if least ≤ value ∧ value ≤ greatest then some value else none

def daysIn (year month : Nat) : Nat :=
  if month = 2 then
    if year % 4 = 0 ∧ (year % 100 ≠ 0 ∨ year % 400 = 0) then 29 else 28
  else if [4, 6, 9, 11].contains month then 30
  else 31

def isDay (text : List Char) : Bool :=
  match pieces (· == '-') text with
  | [year, month, day] =>
    match field? 4 0 9999 year, field? 2 1 12 month with
    | some year, some month => (field? 2 1 (daysIn year month) day).isSome
    | _, _ => false
  | _ => false

def isTime (text : List Char) : Bool :=
  match pieces (· == ':') text with
  | [hour, minute, second] =>
    let (whole, fraction) := (cutFirst '.' second).getD (second, ['0'])
    (field? 2 0 23 hour).isSome && (field? 2 0 59 minute).isSome && (field? 2 0 60 whole).isSome &&
      !fraction.isEmpty && fraction.all Char.isDigit
  | _ => false

/-- True for a distance from universal time. -/
def isOffset (text : List Char) : Bool :=
  match pieces (· == ':') text with
  | [hour, minute] => (field? 2 0 23 hour).isSome && (field? 2 0 59 minute).isSome
  | _ => false

/-- True for a time of day, perhaps with a distance from universal time. -/
def isZonedTime (text : List Char) : Bool :=
  match text.span fun c => c != 'Z' && c != 'z' && c != '+' && c != '-' with
  | (time, []) => isTime time
  | (time, sign :: rest) =>
    isTime time && if sign = 'Z' ∨ sign = 'z' then rest.isEmpty else isOffset rest

/-- True for a point in time: a day, a time of day, or both. -/
def isMoment (text : List Char) : Bool :=
  isDay text || isTime text ||
    (isDay (text.take 10) &&
      match text.drop 10 with
      | between :: time => (['T', 't', ' '].contains between) && isZonedTime time
      | [] => false)

/-- The characters of values that are written without quotes. -/
def isBare (c : Char) : Bool :=
  c.isAlphanum || ['+', '-', '_', '.', ':'].contains c

/-- Read a value that is written without quotes.  A space may stand between a day and a
time of day. -/
def readBare? (text : List Char) : Option (Scalar × List Char) := do
  let word := text.takeWhile isBare
  let rest := text.drop word.length
  let (word, rest) :=
    match rest with
    | ' ' :: time =>
      let more := time.takeWhile isBare
      if isDay word && isZonedTime more then (word ++ ' ' :: more, time.drop more.length)
      else (word, rest)
    | rest => (word, rest)
  if word = "true".toList then some (.bool true, rest)
  else if word = "false".toList then some (.bool false, rest)
  else
    match integer? word with
    | some value => some (.integer value, rest)
    | none => if isReal word || isMoment word then some (.other, rest) else none

end QueryNotation.Toml
