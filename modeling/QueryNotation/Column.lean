import QueryNotation.TypeName

namespace QueryNotation

/-! # Columns

An output column is written `label:name::cast`, where the label is the name it is
shown under; all but the name may be missing.
-/

/-- An output column. -/
structure Column where
  name : String
  label : Option String := none
  cast : Option String := none
deriving DecidableEq, Repr, Inhabited

namespace Column

open Text

def star : Column :=
  { name := "*" }

def isStar (column : Column) : Bool :=
  column.name = "*"

def text (column : Column) : String :=
  let lead := match column.label with
    | some label => label ++ ":"
    | none => ""
  let tail := match column.cast with
    | some cast => "::" ++ cast
    | none => ""
  lead ++ column.name ++ tail

/-- Read the written form. -/
def ofChars (item : List Char) : Column :=
  let item := trim item
  let (head, cast) := match cutAtText [':', ':'] item with
    | some (head, cast) => (head, some (trim cast))
    | none => (item, none)
  let (label, name) := match cutFirst ':' head with
    | some (label, name) => (some (trim label), trim name)
    | none => (none, trim head)
  { name := String.ofList name
    label := label.map String.ofList
    cast := cast.map String.ofList }

/-- The cast, if it is not the name of a type. -/
def brokenCast? (column : Column) : Option String :=
  column.cast.filter fun cast => !isTypeName cast

end Column

end QueryNotation
