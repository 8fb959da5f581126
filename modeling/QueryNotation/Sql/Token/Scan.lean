import QueryNotation.Sql.Token
import QueryNotation.Text.Blank
import QueryNotation.Text.Cut
import QueryNotation.Text.Letter
import QueryNotation.Text.Percent

namespace QueryNotation.Sql

/-! # Cutting a statement into tokens

Spaces and comments fall away.  An operator is the longest symbol that stands
there; some symbols draw in the operator characters behind them, and the whole
run is then an operator of its own.
-/

open Text

/-- A symbol of the language. -/
structure Symbol where
  text : List Char
  /-- Operator characters behind it belong to the operator. -/
  drawsIn : Bool
  /-- It is a token when nothing is drawn in. -/
  complete : Bool := true
deriving DecidableEq, Repr

/-- The symbols, the longer before the shorter. -/
def symbols : List Symbol :=
  (["!~~*"].map fun text => ⟨text.toList, false, true⟩) ++
  (["->>", "||/", "|&>", "|>>", "<=>", "<<|", "<->", "~~*", "#>>"].map
    fun text => ⟨text.toList, true, true⟩) ++
  (["!~~", "!~*", "&<|", "?||", "?-|", "@-@"].map fun text => ⟨text.toList, false, true⟩) ++
  (["<-", "|&", "|>", "@-"].map fun text => ⟨text.toList, true, false⟩) ++
  (["->", "|/", "||", "<=", "<>", "<<", "<^", "<@", ">=", ">>", ">^", "&<", "&>", "&&", "~*",
    "~=", "~~", "#-", "#>", "##", "@@"].map fun text => ⟨text.toList, true, true⟩) ++
  (["=>", "==", "!=", "!!", "!~", "::", ":=", "^@", "@>", "@?", "?|", "?&", "?-", "?#"].map
    fun text => ⟨text.toList, false, true⟩) ++
  (["-", "%", "|", "<", ">", "&", "~", "#", "@"].map fun text => ⟨text.toList, true, true⟩) ++
  (["/", "+", "*", "=", "!", ":", "^", "?", "(", ")", "[", "]", "\x7b", "\x7d", ",", ";",
    "."].map fun text => ⟨text.toList, false, true⟩)

def isOperatorCharacter (c : Char) : Bool :=
  "+-*/<>=~!@#%^&|\x60?".toList.contains c

/-- Read the operator or punctuation mark that stands here. -/
def readSymbol? (text : List Char) : Option (Token × List Char) :=
  match symbols.find? fun symbol => symbol.text.isPrefixOf text with
  | none => none
  | some symbol =>
    let rest := text.drop symbol.text.length
    match if symbol.drawsIn then rest.takeWhile isOperatorCharacter else [] with
    | [] =>
      if symbol.complete then
        some (.symbol (if symbol.text = ['!', '='] then "<>" else String.ofList symbol.text), rest)
      else none
    | more =>
      some (.customOperator (String.ofList (symbol.text ++ more)), rest.drop more.length)

/-- Pass over a comment in brackets that is open `depth` times. -/
def skipComment? (depth : Nat) : List Char → Option (List Char)
  | [] => none
  | '/' :: '*' :: rest => skipComment? (depth + 1) rest
  | '*' :: '/' :: rest => if depth ≤ 1 then some rest else skipComment? (depth - 1) rest
  | _ :: rest => skipComment? depth rest

/-- Read a quoted text behind its opening mark.  Two marks stand for one; `escape`
reads what stands behind a backslash. -/
def readQuoted? (mark : Char) (escape : List Char → Option (Char × List Char)) :
    Nat → List Char → Option (List Char × List Char)
  | 0, _ | _, [] => none
  | bound + 1, c :: rest =>
    if c = mark then
      match rest with
      | d :: rest' =>
        if d = mark then
          (readQuoted? mark escape bound rest').map fun (text, after) => (mark :: text, after)
        else some ([], rest)
      | [] => some ([], [])
    else if c = '\\' then do
      let (meant, rest') ← escape rest
      let (text, after) ← readQuoted? mark escape bound rest'
      return (meant :: text, after)
    else (readQuoted? mark escape bound rest).map fun (text, after) => (c :: text, after)

def plainBackslash (text : List Char) : Option (Char × List Char) :=
  some ('\\', text)

/-- The character with this code, unless it is a surrogate or out of range. -/
def character? (code : Nat) : Option Char :=
  if h : code.isValidChar then some (Char.ofNatAux code h) else none

/-- The number that digits denote in a base up to sixteen. -/
def numeral? (base : Nat) (digits : List Char) : Option Nat :=
  digits.foldlM
    (fun value c => do
      let digit ← hexValue? c
      if digit < base then some (value * base + digit) else none)
    0

/-- The character that exactly `count` hexadecimal digits denote. -/
def readCode? (count : Nat) (text : List Char) : Option (Char × List Char) := do
  let digits := text.take count
  if digits.length < count then none
  let c ← character? (← numeral? 16 digits)
  return (c, text.drop count)

/-- The ASCII character of a byte given by up to `count` digits. -/
def readByte? (base count : Nat) (text : List Char) : Option (Char × List Char) := do
  let digits := (text.take count).takeWhile fun c =>
    match hexValue? c with
    | some digit => digit < base
    | none => false
  let code := (← numeral? base digits) % 256
  if code = 0 ∨ 127 < code then none
  return (Char.ofNat code, text.drop digits.length)

/-- What stands behind a backslash in `E'…'`. -/
def escapeString : List Char → Option (Char × List Char)
  | [] => none
  | c :: rest =>
    if c = 'b' then some ('\x08', rest)
    else if c = 'f' then some ('\x0c', rest)
    else if c = 'n' then some ('\n', rest)
    else if c = 'r' then some ('\r', rest)
    else if c = 't' then some ('\t', rest)
    else if c = 'u' then (readCode? 4 rest).filter fun (meant, _) => meant ≠ '\x00'
    else if c = 'U' then (readCode? 8 rest).filter fun (meant, _) => meant ≠ '\x00'
    else if c = 'x' then
      match rest with
      | d :: _ => if (hexValue? d).isSome then readByte? 16 2 rest else some ('x', rest)
      | [] => some ('x', [])
    else if '0' ≤ c ∧ c ≤ '7' then readByte? 8 3 (c :: rest)
    else if c = '\x00' then none
    else some (c, rest)

/-- What stands behind a backslash in `X'…'`. -/
def hexStringEscape : List Char → Option (Char × List Char)
  | [] => none
  | c :: rest =>
    let meant :=
      if c = '0' then '\x00'
      else if c = 'a' then '\x07'
      else if c = 'b' then '\x08'
      else if c = 'f' then '\x0c'
      else if c = 'n' then '\n'
      else if c = 'r' then '\r'
      else if c = 't' then '\t'
      else if c = 'Z' then '\x1a'
      else c
    some (meant, rest)

/-- What stands behind a backslash in `U&'…'`. -/
def unicodeEscape : List Char → Option (Char × List Char)
  | '\\' :: rest => some ('\\', rest)
  | '+' :: rest => readCode? 6 rest
  | text => readCode? 4 text

/-- Read a string behind its opening mark, as the constant that `make` makes of it. -/
def readConstant? (make : String → Constant) (escape : List Char → Option (Char × List Char))
    (text : List Char) : Option (Token × List Char) :=
  (readQuoted? '\'' escape text.length text).map fun (content, rest) =>
    (.constant (make (String.ofList content)), rest)

/-- The digits in front; an underscore may stand before a digit. -/
def takeDigits : List Char → List Char × List Char
  | [] => ([], [])
  | c :: rest =>
    let separates := c == '_' && match rest with
      | d :: _ => d.isDigit
      | [] => false
    if c.isDigit || separates then
      let (digits, after) := takeDigits rest
      (c :: digits, after)
    else ([], c :: rest)

def takeExponent (text : List Char) : List Char × List Char :=
  match text with
  | letter :: rest =>
    if letter = 'e' ∨ letter = 'E' then
      let (sign, digits) := match rest with
        | '+' :: digits => (['+'], digits)
        | '-' :: digits => (['-'], digits)
        | digits => ([], digits)
      match digits.takeWhile Char.isDigit with
      | [] => ([], text)
      | found => (letter :: sign ++ found, digits.drop found.length)
    else ([], text)
  | [] => ([], [])

/-- Read a number that begins with a digit, or with a point before a digit. -/
def readNumber (text : List Char) : Token × List Char :=
  let (whole, rest) := takeDigits text
  match whole, rest with
  | ['0'], 'x' :: rest' =>
    let digits := rest'.takeWhile fun c => (hexValue? c).isSome
    (.constant (.hexadecimal (String.ofList digits)), rest'.drop digits.length)
  | _, _ =>
    let (point, rest) := match rest with
      | '.' :: rest' => (['.'], rest')
      | rest => ([], rest)
    let (fraction, rest) := takeDigits rest
    let (exponent, rest) := takeExponent rest
    let digits := String.ofList (whole ++ point ++ fraction ++ exponent)
    match rest with
    | 'L' :: rest' => (.constant (.number digits true), rest')
    | rest => (.constant (.number digits false), rest)

/-- Read what a `$` opens, behind it: a string between tags, or a parameter. -/
def readDollar? (text : List Char) : Option (Token × List Char) :=
  let tag := text.takeWhile fun c => isLetterOrNumeral c || c == '_'
  match text.drop tag.length with
  | '$' :: rest =>
    (cutAtText ('$' :: tag ++ ['$']) rest).map fun (content, after) =>
      (.constant (.dollar (String.ofList tag) (String.ofList content)), after)
  | rest => some (.constant (.parameter (String.ofList ('$' :: tag))), rest)

def isNameStart (c : Char) : Bool :=
  c.isAlpha || c == '_' || 0x80 ≤ c.toNat

def isNamePart (c : Char) : Bool :=
  isNameStart c || c.isDigit || c == '$'

def readLetteredString? (letter : Char) (text : List Char) : Option (Option (Token × List Char)) :=
  let letter := letter.toUpper
  match text with
  | '\'' :: rest =>
    if letter = 'E' then some (readConstant? .escaped escapeString rest)
    else if letter = 'N' then some (readConstant? .national plainBackslash rest)
    else if letter = 'B' then some (readConstant? .bits plainBackslash rest)
    else if letter = 'X' then some (readConstant? .hexadecimal hexStringEscape rest)
    else none
  | '&' :: '\'' :: rest =>
    if letter = 'U' then some (readConstant? .unicode unicodeEscape rest) else none
  | _ => none

/-- Read one token that is neither space nor comment. -/
def Token.read? : List Char → Option (Token × List Char)
  | [] => none
  | c :: rest =>
    if c = '\'' then readConstant? .string plainBackslash rest
    else if c = '"' then
      (readQuoted? '"' plainBackslash rest.length rest).map fun (name, after) =>
        (.word (String.ofList name) true, after)
    else if c = '$' then readDollar? rest
    else if c.isDigit then some (readNumber (c :: rest))
    else if isNameStart c then
      match readLetteredString? c rest with
      | some found => found
      | none =>
        let word := c :: rest.takeWhile isNamePart
        some (.word (String.ofList word) false, rest.dropWhile isNamePart)
    else
      match c, rest with
      | '.', d :: _ =>
        if d.isDigit then some (readNumber (c :: rest)) else readSymbol? (c :: rest)
      | _, _ => readSymbol? (c :: rest)

/-- The tokens of a text.  Each round takes at least one character. -/
def Token.scanUpTo? : Nat → List Char → Option (List Token)
  | _, [] => some []
  | 0, _ => none
  | bound + 1, '-' :: '-' :: rest =>
    scanUpTo? bound (rest.dropWhile fun c => c != '\n' && c != '\r')
  | bound + 1, '/' :: '*' :: rest => do
    scanUpTo? bound (← skipComment? 1 rest)
  | bound + 1, c :: rest =>
    if c.toNat < 0x80 && isBlank c then scanUpTo? bound rest
    else do
      let (token, after) ← read? (c :: rest)
      return token :: (← scanUpTo? bound after)

/-- The tokens of a text; none when a string, a name or a comment is left open, or
when a character begins no token. -/
def Token.scan? (text : List Char) : Option (List Token) :=
  scanUpTo? text.length text

end QueryNotation.Sql
