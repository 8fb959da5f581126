import QueryNotation.Json.Basic

namespace QueryNotation.Json

/-! # JSON text

The compact text has no blanks at all; the indented text puts every item and
field on a line of its own.  Both keep the order of the fields.
-/

/-- Numbers have a point with a digit behind it, or an exponent with its sign, so
    that they never read as whole numbers. -/
def numberLayout : Decimal.Layout where
  positionalFrom := -5
  positionalTo := 15
  exponentPlus := "+"

def Number.chars : Number → List Char
  | .integer value => (if value < 0 then ['-'] else []) ++ Nat.toDigits 10 value.natAbs
  | .real negative magnitude =>
    (if negative then ['-'] else []) ++ numberLayout.render (Decimal.shortest magnitude)

def Number.text (number : Number) : String :=
  String.ofList number.chars

private def lowerHexDigit (value : Nat) : Char :=
  Char.ofNat (if value < 10 then 0x30 + value else 0x57 + value)

/-- How a character stands inside a string. -/
def escape (c : Char) : List Char :=
  if c = '"' then ['\\', '"']
  else if c = '\\' then ['\\', '\\']
  else if c = '\n' then ['\\', 'n']
  else if c = '\r' then ['\\', 'r']
  else if c = '\t' then ['\\', 't']
  else if c = '\x08' then ['\\', 'b']
  else if c = '\x0c' then ['\\', 'f']
  else if c.toNat < 0x20 then
    ['\\', 'u', '0', '0', lowerHexDigit (c.toNat / 16), lowerHexDigit (c.toNat % 16)]
  else [c]

def quoted (text : String) : List Char :=
  '"' :: text.toList.flatMap escape ++ ['"']

mutual

def chars : Json → List Char
  | .null => "null".toList
  | .bool true => "true".toList
  | .bool false => "false".toList
  | .number value => value.chars
  | .string value => quoted value
  | .array [] => "[]".toList
  | .array (item :: rest) => '[' :: chars item ++ moreItems rest
  | .object [] => ['{', '}']
  | .object ((key, value) :: rest) => '{' :: quoted key ++ ':' :: chars value ++ moreFields rest

/-- The items behind the first, and the closing bracket. -/
def moreItems : List Json → List Char
  | [] => [']']
  | item :: rest => ',' :: chars item ++ moreItems rest

/-- The fields behind the first, and the closing bracket. -/
def moreFields : List (String × Json) → List Char
  | [] => ['}']
  | (key, value) :: rest => ',' :: quoted key ++ ':' :: chars value ++ moreFields rest

end

def text (value : Json) : String :=
  String.ofList value.chars

def Row.text (row : Row) : String :=
  (Json.object row).text

def lineBreak (level : Nat) : List Char :=
  '\n' :: List.replicate (2 * level) ' '

mutual

/-- The indented text of a value that stands at the given level. -/
def indentedChars (level : Nat) : Json → List Char
  | .array (item :: rest) =>
    '[' :: lineBreak (level + 1) ++ indentedChars (level + 1) item ++ moreIndentedItems level rest
  | .object ((key, value) :: rest) =>
    '{' :: lineBreak (level + 1) ++ quoted key ++ ':' :: ' ' :: indentedChars (level + 1) value ++
      moreIndentedFields level rest
  | value => value.chars

/-- The items behind the first, and the closing bracket on its own line. -/
def moreIndentedItems (level : Nat) : List Json → List Char
  | [] => lineBreak level ++ [']']
  | item :: rest =>
    ',' :: lineBreak (level + 1) ++ indentedChars (level + 1) item ++ moreIndentedItems level rest

/-- The fields behind the first, and the closing bracket on its own line. -/
def moreIndentedFields (level : Nat) : List (String × Json) → List Char
  | [] => lineBreak level ++ ['}']
  | (key, value) :: rest =>
    ',' :: lineBreak (level + 1) ++ quoted key ++ ':' :: ' ' :: indentedChars (level + 1) value ++
      moreIndentedFields level rest

end

def indentedText (value : Json) : String :=
  String.ofList (indentedChars 0 value)

end QueryNotation.Json
