import QueryNotation.Json.Number

namespace QueryNotation.Json

/-! # Reading JSON values

Values are read by level: `readValue depth` admits `depth` further levels of
brackets.  Lists of items and fields end at their closing bracket; each round
takes at least one character, so the length of the text bounds them.
-/

/-- The characters between the parts of a JSON text. -/
def isSpace (c : Char) : Bool :=
  c == ' ' || c == '\n' || c == '\t' || c == '\r'

/-- Pass over the characters between parts. -/
def skipSpaces (text : List Char) : List Char :=
  text.dropWhile isSpace

/-- The value of four hexadecimal digits. -/
def hexValue? (text : List Char) : Option Nat :=
  text.foldl
    (fun value c =>
      let digit? : Option Nat :=
        if c.isDigit then some (c.toNat - 0x30)
        else if 'a' ≤ c ∧ c ≤ 'f' then some (c.toNat - 0x57)
        else if 'A' ≤ c ∧ c ≤ 'F' then some (c.toNat - 0x37)
        else none
      match value, digit? with
      | some value, some digit => some (value * 16 + digit)
      | _, _ => none)
    (some 0)

/-- The code unit that four digits denote, read behind `\u`. -/
def readCodeUnit (text : List Char) : Except Failure Nat :=
  if byteCount text < 4 then fail .endInString [] 0
  else
    match text with
    | a :: b :: c :: d :: _ =>
      match hexValue? [a, b, c, d] with
      | some value => .ok value
      | none => fail .invalidEscape text 4
    | _ => fail .invalidEscape text 4

def isLeadingSurrogate (unit : Nat) : Bool :=
  0xD800 ≤ unit && unit ≤ 0xDBFF

def isTrailingSurrogate (unit : Nat) : Bool :=
  0xDC00 ≤ unit && unit ≤ 0xDFFF

/-- The character that begins behind `\u`, and how many characters it takes. -/
def readUnicodeEscape (text : List Char) : Except Failure (Char × Nat) := do
  let unit ← readCodeUnit text
  let rest := text.drop 4
  if isTrailingSurrogate unit then fail .loneSurrogate rest 0
  else if !isLeadingSurrogate unit then .ok (Char.ofNat unit, 4)
  else
    match rest with
    | [] => fail .endInString [] 0
    | '\\' :: [] => fail .endInString [] 0
    | '\\' :: 'u' :: rest' => do
      let second ← readCodeUnit rest'
      if isTrailingSurrogate second then
        .ok (Char.ofNat (0x10000 + (unit - 0xD800) * 0x400 + (second - 0xDC00)), 10)
      else fail .loneSurrogate (rest'.drop 4) 0
    | '\\' :: rest' => fail .incompleteEscape rest' 1
    | _ => fail .incompleteEscape rest 1

/-- The character that an escape denotes, read behind the backslash, and how many
characters it takes. -/
def readEscape : List Char → Except Failure (Char × Nat)
  | [] => fail .endInString [] 0
  | '"' :: _ => .ok ('"', 1)
  | '\\' :: _ => .ok ('\\', 1)
  | '/' :: _ => .ok ('/', 1)
  | 'b' :: _ => .ok ('\x08', 1)
  | 'f' :: _ => .ok ('\x0c', 1)
  | 'n' :: _ => .ok ('\n', 1)
  | 'r' :: _ => .ok ('\r', 1)
  | 't' :: _ => .ok ('\t', 1)
  | 'u' :: rest => (readUnicodeEscape rest).map fun (c, length) => (c, length + 1)
  | text => fail .invalidEscape text 1

/-- Read a string behind its opening quotation mark.  `skip` counts the characters
of an escape still to be passed. -/
def readString (skip : Nat) : List Char → Except Failure (List Char × List Char)
  | [] => fail .endInString [] 0
  | c :: rest =>
    match skip with
    | skip + 1 => readString skip rest
    | 0 =>
      if c = '"' then .ok ([], rest)
      else if c = '\\' then
        match readEscape rest with
        | .error failure => .error failure
        | .ok (escaped, length) =>
          (readString length rest).map fun (text, rest') => (escaped :: text, rest')
      else if c.toNat < 0x20 then fail .controlCharacter rest 0
      else (readString 0 rest).map fun (text, rest') => (c :: text, rest')

def readWord {α : Type} (value : α) : List Char → List Char → Except Failure (α × List Char)
  | [], rest => .ok (value, rest)
  | _ :: _, [] => fail .endInValue [] 0
  | expected :: more, c :: rest =>
    if c = expected then readWord value more rest else fail .unknownWord (c :: rest) 1

def readItems (readItem : List Char → Except Failure (Json × List Char)) (first : Bool) :
    Nat → List Char → Except Failure (List Json × List Char)
  | 0, text => fail .endInArray text 0
  | bound + 1, text =>
    let next (text : List Char) : Except Failure (List Json × List Char) := do
      let (item, rest) ← readItem text
      let (items, rest) ← readItems readItem false bound rest
      .ok (item :: items, rest)
    match skipSpaces text with
    | [] => fail .endInArray [] 0
    | ']' :: rest => .ok ([], rest)
    | ',' :: rest =>
      if first then next (',' :: rest)
      else
        match skipSpaces rest with
        | [] => fail .endInValue [] 0
        | ']' :: rest' => fail .trailingComma (']' :: rest') 1
        | rest' => next rest'
    | text => if first then next text else fail .missingCommaInArray text 1

/-- Read a key, which begins behind a quotation mark, the colon and the value. -/
def readField (readItem : List Char → Except Failure (Json × List Char)) (text : List Char) :
    Except Failure ((String × Json) × List Char) := do
  let (key, rest) ← readString 0 text
  match skipSpaces rest with
  | [] => fail .endInObject [] 0
  | ':' :: rest =>
    let (value, rest) ← readItem rest
    .ok ((String.ofList key, value), rest)
  | rest => fail .missingColon rest 1

def readFields (readItem : List Char → Except Failure (Json × List Char)) (first : Bool) :
    Nat → List Char → Except Failure (List (String × Json) × List Char)
  | 0, text => fail .endInObject text 0
  | bound + 1, text =>
    let next (text : List Char) : Except Failure (List (String × Json) × List Char) := do
      let (field, rest) ← readField readItem text
      let (fields, rest) ← readFields readItem false bound rest
      .ok (field :: fields, rest)
    match skipSpaces text with
    | [] => fail .endInObject [] 0
    | '}' :: rest => .ok ([], rest)
    | ',' :: rest =>
      if first then fail .keyNotString (',' :: rest) 1
      else
        match skipSpaces rest with
        | [] => fail .endInValue [] 0
        | '}' :: rest' => fail .trailingComma ('}' :: rest') 1
        | '"' :: rest' => next rest'
        | rest' => fail .keyNotString rest' 1
    | '"' :: rest =>
      if first then next rest else fail .missingCommaInObject ('"' :: rest) 1
    | text => if first then fail .keyNotString text 1 else fail .missingCommaInObject text 1

def readArray (readItem : List Char → Except Failure (Json × List Char)) (text : List Char) :
    Except Failure (Json × List Char) :=
  (readItems readItem true (text.length + 1) text).map fun (items, rest) => (.array items, rest)

/-- Read an object behind its opening bracket.  A repeated key keeps its first
place and its last value. -/
def readObject (readItem : List Char → Except Failure (Json × List Char)) (text : List Char) :
    Except Failure (Json × List Char) :=
  (readFields readItem true (text.length + 1) text).map fun (fields, rest) =>
    (.object (Row.ofList fields), rest)

/-- Read a value that is neither array nor object. -/
def readScalar : List Char → Except Failure (Json × List Char)
  | [] => fail .endInValue [] 0
  | 'n' :: rest => readWord .null "ull".toList rest
  | 't' :: rest => readWord (.bool true) "rue".toList rest
  | 'f' :: rest => readWord (.bool false) "alse".toList rest
  | '"' :: rest =>
    (readString 0 rest).map fun (text, rest) => (.string (String.ofList text), rest)
  | c :: rest =>
    if c = '-' ∨ c.isDigit then
      (readNumber (c :: rest)).map fun (found, rest) => (.number found, rest)
    else fail .missingValue (c :: rest) 1

/-- Read a value with at most `depth` further levels of brackets. -/
def readValue : Nat → List Char → Except Failure (Json × List Char)
  | 0, text =>
    match skipSpaces text with
    | '[' :: rest => fail .tooDeep ('[' :: rest) 1
    | '{' :: rest => fail .tooDeep ('{' :: rest) 1
    | text => readScalar text
  | depth + 1, text =>
    match skipSpaces text with
    | '[' :: rest => readArray (readValue depth) rest
    | '{' :: rest => readObject (readValue depth) rest
    | text => readScalar text

/-- How many levels of brackets a text may have. -/
def greatestDepth : Nat := 127

def read (text : List Char) : Except Failure Json :=
  match readValue greatestDepth text with
  | .error failure => .error failure
  | .ok (value, rest) =>
    match skipSpaces rest with
    | [] => .ok value
    | rest => fail .trailingCharacters rest 1

/-- The value that is the whole of a text, if it is JSON. -/
def ofText? (text : String) : Option Json :=
  (read text.toList).toOption

def Failure.message (failure : Failure) (whole : List Char) : String :=
  let place := failure.position whole
  failure.fault.message ++ " at line " ++ toString place.line ++ " column " ++ toString place.column

end QueryNotation.Json
