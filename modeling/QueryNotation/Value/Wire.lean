import QueryNotation.Filter
import QueryNotation.Text.Blank
import QueryNotation.Text.Cut

namespace QueryNotation.Value

/-! # Values on the wire

The token of a value stands behind the operator's tag in a parameter.  Lists are
written in parentheses for `in` and in braces elsewhere; an item that holds a
reserved character is written between quotation marks, with a backslash in front
of quotation marks and backslashes.  Reading types bare tokens and keeps quoted
ones as strings.
-/

open Text

def doubleQuoted (text : String) : String :=
  String.ofList
    ('"' :: text.toList.flatMap (fun c => if c = '\\' ∨ c = '"' then ['\\', c] else [c]) ++ ['"'])

def needsQuotes (reserved : List Char) (text : String) : Bool :=
  text.isEmpty || text.toList.any reserved.contains

def arrayReserved : List Char := [',', '{', '}', '"', '\\', ' ']

def listReserved : List Char := [',', '(', ')', '"', '\\']

mutual

/-- The text of a value without quotes; a list is an array. -/
def bareText : Value → String
  | .null => "null"
  | .bool value => boolText value
  | .number text => text
  | .string text => text
  | .list items => "\x7b" ++ String.intercalate "," (arrayItems items) ++ "\x7d"

def arrayItems : List Value → List String
  | [] => []
  | .null :: rest => "NULL" :: arrayItems rest
  | .string text :: rest =>
    (if needsQuotes arrayReserved text then doubleQuoted text else text) :: arrayItems rest
  | item :: rest => bareText item :: arrayItems rest

end

/-- The text of an array: `{a,"b c",NULL}`. -/
def arrayText (items : List Value) : String :=
  bareText (.list items)

def listItem : Value → String
  | .string text =>
    if needsQuotes listReserved text || trim text.toList != text.toList then doubleQuoted text
    else text
  | item => bareText item

def isParenthesized (text : String) : Bool :=
  text.toList.head? = some '(' && text.toList.getLast? = some ')'

def replaceChar (old new : Char) (text : String) : String :=
  String.ofList (text.toList.map fun c => if c = old then new else c)

/-- The token of a value behind an operator's tag. -/
def wireToken (op : Operator) (value : Value) : String :=
  if op.searchesText then bareText value
  else
    match op with
    | .oneOf =>
      match value with
      | .list items => "(" ++ String.intercalate "," (items.map listItem) ++ ")"
      -- Text in parentheses is taken for a list that is written already.
      | .string text => if isParenthesized text then text else "(" ++ listItem value ++ ")"
      | other => "(" ++ listItem other ++ ")"
    | .is =>
      match value with
      | .string text => text.toLower
      | other => bareText other
    | .like | .ilike =>
      match value with
      | .string pattern => replaceChar '%' '*' pattern
      | other => bareText other
    | _ => bareText value

/-- Where the reading of items stands. -/
inductive ItemState where
  | bare
  | quoted
  | escaped
deriving DecidableEq, Repr

/-- An item: a string if any part of it was quoted, else typed by its text. -/
def finishItem (quoted : Bool) (held : List Char) : Value :=
  if quoted then .string (String.ofList held.reverse)
  else ofToken (String.ofList (trim held.reverse))

/-- The items between commas outside quotation marks.  `held` holds the characters
of the current item backwards, and `quoted` tells whether it had quotation marks. -/
def scanItems (state : ItemState) (quoted : Bool) (held : List Char) : List Char → List Value
  | [] => [finishItem quoted held]
  | c :: rest =>
    match state with
    | .escaped => scanItems .quoted quoted (c :: held) rest
    | .quoted =>
      if c = '\\' then scanItems .escaped quoted held rest
      else if c = '"' then scanItems .bare true held rest
      else scanItems .quoted quoted (c :: held) rest
    | .bare =>
      if c = '"' then scanItems .quoted true held rest
      else if c = ',' then finishItem quoted held :: scanItems .bare false [] rest
      else scanItems .bare quoted (c :: held) rest

/-- The items between commas; none in a text of blanks. -/
def readItems (text : List Char) : List Value :=
  if allBlank text then [] else scanItems .bare false [] text

/-- The text between an opening and a closing character, if it stands so. -/
def between? (opener closer : Char) : List Char → Option (List Char)
  | [] => none
  | c :: rest => if c = opener then dropTail? [closer] rest else none

def readList (text : String) : List Value :=
  let text := trim text.toList
  readItems ((between? '(' ')' text).getD text)

def isJsonObject (text : String) : Bool :=
  match Json.ofText? text with
  | some (.object _) => true
  | _ => false

/-- Read an array in braces; other text, and the text of a JSON object, stays. -/
def readArray (text : String) : Value :=
  match between? '{' '}' text.toList with
  | some inner => if isJsonObject text then .string text else .list (readItems inner)
  | none => .string text

/-- Type the token behind an operator's tag. -/
def ofWire (op : Operator) (token : String) : Value :=
  if op.searchesText then .string token
  else
    match op with
    | .oneOf => .list (readList token)
    | .is => ofToken token.toLower
    | .like | .ilike | .matches | .imatches => .string token
    | .contains | .containedBy | .overlaps => readArray token
    | _ => ofToken token

end QueryNotation.Value
