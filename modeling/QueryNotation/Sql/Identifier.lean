import QueryNotation.Text.Cut
import QueryNotation.Text.Letter

namespace QueryNotation.Sql

/-! # SQL identifiers

A name stands bare if it is a word that is not reserved, and between quotation
marks otherwise, where a quotation mark in it is doubled.  `*` always stands bare.
-/

open Text

/-- The words that cannot stand bare as a name. -/
def reservedWords : List String :=
  ["all", "and", "as", "between", "case", "check", "constraint", "create", "default", "delete",
    "distinct", "else", "end", "false", "foreign", "from", "group", "having", "in", "index",
    "inner", "insert", "is", "join", "key", "left", "like", "limit", "not", "null", "offset", "on",
    "or", "order", "outer", "primary", "references", "right", "select", "table", "then", "true",
    "union", "update", "user", "when", "where"]

def isReserved (name : List Char) : Bool :=
  reservedWords.contains (String.ofList (name.map lowerToAscii))

def isBareName (name : List Char) : Bool :=
  !isReserved name && name.all (fun c => isLetterOrNumeral c || c == '_') &&
    match name with
    | [] => false
    | first :: _ => !isNumeral first

def escapeName (name : String) : String :=
  if name = "*" then name
  else if isBareName name.toList then name
  else String.ofList ('"' :: substitute '"' ['"', '"'] name.toList ++ ['"'])

/-- A name with dots, part by part. -/
def escapeIdentifier (name : String) : String :=
  String.intercalate "."
    ((pieces (· == '.') name.toList).map fun part => escapeName (String.ofList part))

/-- A column, behind the table it belongs to if there is one to name. -/
def qualified (qualifier : Option String) (column : String) : String :=
  match qualifier with
  | some table => escapeName table ++ "." ++ escapeName column
  | none => escapeName column

end QueryNotation.Sql
