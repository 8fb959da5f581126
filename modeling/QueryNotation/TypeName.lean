import QueryNotation.Text.Blank
import QueryNotation.Text.Cut

namespace QueryNotation

/-! # Type names

The types a column may be cast to: a name of one word, with its parts separated
by dots, or one of the known names of several words; then an optional modifier
of one or two numbers in parentheses; then any number of `[]`.  Cast text is
written into SQL as it stands, so nothing else may pass.
-/

namespace TypeName

open Text

/-- The type names that are spelled with more than one word. -/
def phrases : List String :=
  ["double precision", "character varying", "bit varying", "timestamp with time zone",
    "timestamp without time zone", "time with time zone", "time without time zone"]

/-- Drop the `[]` at the end of a text that is given backwards, with the blanks in
front of each.  `passed` tells that a pair has just been dropped. -/
def dropArraySuffixes (passed : Bool) : List Char → List Char
  | ']' :: '[' :: rest => dropArraySuffixes true rest
  | c :: rest => if passed && isBlank c then dropArraySuffixes true rest else c :: rest
  | [] => []

def isModifierNumber (text : List Char) : Bool :=
  let digits := trim text
  !digits.isEmpty && digits.all Char.isDigit

def isModifier (text : List Char) : Bool :=
  match pieces (· == ',') text with
  | [one] => isModifierNumber one
  | [one, two] => isModifierNumber one && isModifierNumber two
  | _ => false

def isPart : List Char → Bool
  | [] => false
  | first :: rest =>
    (first.isAlpha || first == '_') && rest.all fun c => c.isAlphanum || c == '_'

/-- True for the name of a type, without modifier and `[]`. -/
def isBase (text : List Char) : Bool :=
  match words isBlank text with
  | [] => false
  | [word] => (pieces (· == '.') word).all isPart
  | many => phrases.contains (String.intercalate " " (many.map String.ofList)).toLower

end TypeName

open Text in
def isTypeName (text : String) : Bool :=
  let name := (TypeName.dropArraySuffixes false (trim text.toList).reverse).reverse
  match cutFirst '(' name with
  | none => TypeName.isBase name
  | some (base, behind) =>
    match dropTail? [')'] behind with
    | none => false
    | some modifier => TypeName.isModifier modifier && TypeName.isBase (trimEnd base)

end QueryNotation
