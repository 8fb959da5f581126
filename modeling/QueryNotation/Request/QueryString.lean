import QueryNotation.Text.Blank
import QueryNotation.Text.Cut
import QueryNotation.Text.Percent

namespace QueryNotation.QueryString

/-! # Query strings

Parameters are written `key=value` and joined by `&`.  Whatever separates them or
stands for something else is escaped, so that reading gives them back.
-/

open Text

/-- The ASCII characters that are escaped in keys and values. -/
def isEscaped (c : Char) : Bool :=
  isAsciiControl c || [' ', '"', '#', '%', '&', '+', '<', '=', '>', '\x60'].contains c

def escape (text : String) : String :=
  String.ofList (percentEncode isEscaped text.toList)

def encode (pairs : List (String × String)) : String :=
  String.intercalate "&" (pairs.map fun (key, value) => escape key ++ "=" ++ escape value)

/-- Undo the escapes of a key or a value; a plus sign is a blank. -/
def unescape (text : List Char) : String :=
  let plain := text.map fun c => if c = '+' then ' ' else c
  String.ofList (decodeUtf8 (percentDecode (encodeUtf8 plain)))

/-- The parameters of a text; empty pieces count for nothing, and a piece without
`=` is a key with an empty value. -/
def decode (text : String) : List (String × String) :=
  (words (· == '&') text.toList).map fun piece =>
    match cutFirst '=' piece with
    | some (key, value) => (unescape key, unescape value)
    | none => (unescape piece, "")

end QueryNotation.QueryString
