import QueryNotation.Json.Printer
import QueryNotation.Json.Reader
import QueryNotation.Text.Bracket
import QueryNotation.Text.Letter

namespace QueryNotation.Chain

/-! # Literals of a client chain

Arguments are JSON or the literals that client code writes: strings in any of
three quotes, numbers, truth values, arrays, and objects whose keys may stand
bare.  A bare word is a string.  What is neither is kept as its text.
-/

open Text

/-- How a character stands inside a string. -/
def escape (c : Char) : List Char :=
  if c = '\\' then ['\\', '\\']
  else if c = '\'' then ['\\', '\'']
  else if c = '\n' then ['\\', 'n']
  else if c = '\r' then ['\\', 'r']
  else if c = '\t' then ['\\', 't']
  else [c]

def stringLiteral (text : String) : String :=
  String.ofList ('\'' :: text.toList.flatMap escape ++ ['\''])

def isNameCharacter (c : Char) : Bool :=
  c.isAlphanum || c == '_' || c == '$'

def isPlainKey (key : String) : Bool :=
  match key.toList with
  | [] => false
  | first :: rest => isNameCharacter first && !first.isDigit && rest.all isNameCharacter

def keyLiteral (key : String) : String :=
  if isPlainKey key then key else stringLiteral key

def braced (fields : List String) : String :=
  "\x7b " ++ String.intercalate ", " fields ++ " \x7d"

mutual

def literal : Json → String
  | .null => "null"
  | .bool true => "true"
  | .bool false => "false"
  | .number value => value.text
  | .string text => stringLiteral text
  | .array items => "[" ++ String.intercalate ", " (literals items) ++ "]"
  | .object [] => "\x7b\x7d"
  | .object (field :: rest) => braced (fieldLiterals (field :: rest))

def literals : List Json → List String
  | [] => []
  | item :: rest => literal item :: literals rest

def fieldLiterals : List (String × Json) → List String
  | [] => []
  | (key, value) :: rest => (keyLiteral key ++ ": " ++ literal value) :: fieldLiterals rest

end

/-- Why no literal is read. -/
inductive Stop where
  /-- None begins here; something else may. -/
  | absent
  /-- Brackets nest too deep, so that there is none at all. -/
  | tooDeep
deriving DecidableEq, Repr

def skipSpaces (text : List Char) : List Char :=
  text.dropWhile Json.isSpace

/-- Read a string behind its opening `mark`.  A backslash takes the next character
along; `escaped` tells that one has just been passed. -/
def readQuoted (mark : Char) (escaped : Bool) : List Char → Except Stop (List Char × List Char)
  | [] => .error .absent
  | c :: rest =>
    if escaped then
      let meant := if c = 'n' then '\n' else if c = 't' then '\t' else if c = 'r' then '\r' else c
      (readQuoted mark false rest).map fun (text, rest') => (meant :: text, rest')
    else if c = '\\' then readQuoted mark true rest
    else if c = mark then .ok ([], rest)
    else (readQuoted mark false rest).map fun (text, rest') => (c :: text, rest')

/-- The fraction of a number, with its point, and what is behind it. -/
def takeFraction : List Char → List Char × List Char
  | '.' :: rest =>
    match rest.takeWhile Char.isDigit with
    | [] => ([], '.' :: rest)
    | digits => ('.' :: digits, rest.dropWhile Char.isDigit)
  | text => ([], text)

/-- The exponent of a number, with its letter, and what is behind it. -/
def takeExponent : List Char → List Char × List Char
  | [] => ([], [])
  | letter :: rest =>
    if letter = 'e' ∨ letter = 'E' then
      let (sign, digits) := match rest with
        | '+' :: digits => (['+'], digits)
        | '-' :: digits => (['-'], digits)
        | digits => ([], digits)
      match digits.takeWhile Char.isDigit with
      | [] => ([], letter :: rest)
      | found => (letter :: sign ++ found, digits.dropWhile Char.isDigit)
    else ([], letter :: rest)

/-- Read a number.  One that JSON cannot hold is kept as a string. -/
def readNumber (text : List Char) : Except Stop (Json × List Char) :=
  let (sign, digits) := match text with
    | '-' :: rest => (['-'], rest)
    | rest => ([], rest)
  match digits.takeWhile Char.isDigit with
  | [] => .error .absent
  | whole =>
    let (fraction, rest) := takeFraction (digits.dropWhile Char.isDigit)
    let (exponent, rest) := takeExponent rest
    let written := sign ++ whole ++ fraction ++ exponent
    match Json.Number.ofText? written with
    | some value => .ok (.number value, rest)
    | none => .ok (.string (String.ofList written), rest)

def isWordCharacter (c : Char) : Bool :=
  isLetterOrNumeral c || c == '_' || c == '$'

def wordValue (word : String) : Json :=
  match word with
  | "true" => .bool true
  | "false" => .bool false
  | "null" | "undefined" => .null
  | other => .string other

def readWord (text : List Char) : Except Stop (List Char × List Char) :=
  match text.takeWhile isWordCharacter with
  | [] => .error .absent
  | word => .ok (word, text.dropWhile isWordCharacter)

/-- Read a key: a string or a bare word. -/
def readKey : List Char → Except Stop (List Char × List Char)
  | [] => .error .absent
  | c :: rest =>
    if isQuoteMark c then readQuoted c false rest
    else readWord (c :: rest)

/-- Read further elements, each behind a comma.  Where none follows, the comma is
left for the end of the list. -/
def readMore {α : Type} (readElement : List Char → Except Stop (α × List Char)) :
    Nat → List Char → Except Stop (List α × List Char)
  | 0, text => .ok ([], text)
  | bound + 1, text =>
    match skipSpaces text with
    | ',' :: rest =>
      match readElement (skipSpaces rest) with
      | .error .absent => .ok ([], text)
      | .error .tooDeep => .error .tooDeep
      | .ok (element, rest') =>
        (readMore readElement bound rest').map fun (elements, rest'') =>
          (element :: elements, rest'')
    | _ => .ok ([], text)

/-- Read elements between commas up to the closing character; a comma may stand
behind the last one. -/
def readElements {α : Type} (readElement : List Char → Except Stop (α × List Char))
    (closer : Char) (text : List Char) : Except Stop (List α × List Char) := do
  let text := skipSpaces text
  let (elements, rest) ←
    match readElement text with
    | .error .absent => pure ([], text)
    | .error .tooDeep => throw .tooDeep
    | .ok (element, rest) =>
      (readMore readElement rest.length rest).map fun (elements, rest') =>
        (element :: elements, rest')
  let rest := skipSpaces rest
  let rest := match rest with
    | ',' :: rest' => skipSpaces rest'
    | rest => rest
  match rest with
  | c :: rest' => if c = closer then return (elements, rest') else throw .absent
  | [] => throw .absent

/-- Read a field: a key, a colon and a value. -/
def readField (readItem : List Char → Except Stop (Json × List Char)) (text : List Char) :
    Except Stop ((String × Json) × List Char) := do
  let (key, rest) ← readKey text
  match skipSpaces rest with
  | ':' :: rest' =>
    let (value, rest'') ← readItem (skipSpaces rest')
    return ((String.ofList key, value), rest'')
  | _ => throw .absent

/-- Read a literal that is neither array nor object. -/
def readScalar : List Char → Except Stop (Json × List Char)
  | [] => .error .absent
  | c :: rest =>
    if isQuoteMark c then
      (readQuoted c false rest).map fun (text, rest') => (.string (String.ofList text), rest')
    else
      match readNumber (c :: rest) with
      | .ok found => .ok found
      | .error _ =>
        (readWord (c :: rest)).map fun (word, rest') => (wordValue (String.ofList word), rest')

/-- Read a literal with at most `depth` levels of brackets. -/
def readLiteral : Nat → List Char → Except Stop (Json × List Char)
  | 0, text =>
    match text with
    | '[' :: _ | '{' :: _ => .error .tooDeep
    | text => readScalar text
  | depth + 1, text =>
    match text with
    | '[' :: rest =>
      (readElements (readLiteral depth) ']' rest).map fun (items, rest') => (.array items, rest')
    | '{' :: rest =>
      (readElements (readField (readLiteral depth)) '}' rest).map fun (fields, rest') =>
        (.object (Json.Row.ofList fields), rest')
    | text => readScalar text

def literal? (depth : Nat) (text : List Char) : Option Json :=
  match readLiteral depth (skipSpaces text) with
  | .ok (value, rest) => if (skipSpaces rest).isEmpty then some value else none
  | .error _ => none

/-- The JSON value of a text that begins with a bracket. -/
def bracketedJson? (text : List Char) : Option Json :=
  match text with
  | '{' :: _ | '[' :: _ => (Json.read text).toOption
  | _ => none

/-- What an argument means: JSON where it begins with a bracket, else a literal,
else its text. -/
def argument (depth : Nat) (text : List Char) : Json :=
  let text := trim text
  match bracketedJson? text with
  | some value => value
  | none => (literal? depth text).getD (.string (String.ofList text))

end QueryNotation.Chain
