import QueryNotation.Fault

namespace QueryNotation

/-! # Select lists

A list such as `name,author:users!inner(name),posts(title,comments(body))` names
columns and embeds.  An item with a parenthesis is an embed, whose own list is
read in the same way, one level of brackets further in.
-/

/-- What a select list asks for. -/
structure Selection where
  columns : List Column := []
  embeds : List Embed := []
  warnings : List String := []
deriving Repr, Inhabited

namespace Selection

open Text

def withColumn (column : Column) (selection : Selection) : Selection :=
  { selection with columns := selection.columns ++ [column] }

def withEmbed (embed : Embed) (warnings : List String) (selection : Selection) : Selection :=
  { selection with
    embeds := selection.embeds ++ [embed]
    warnings := selection.warnings ++ warnings }

/-- A list that names nothing asks for all columns. -/
def orStar (selection : Selection) : Selection :=
  if selection.columns.isEmpty && selection.embeds.isEmpty then
    { selection with columns := [.star] }
  else selection

/-- What stands in front of the parenthesis of an embed. -/
structure EmbedHead where
  relation : String
  label : Option String
  inner : Bool
  warnings : List String
deriving DecidableEq, Repr

/-- Read what stands in front of the parenthesis: `label:relation!hint`, or
`...relation` for an embed whose columns are to be spread. -/
def readHead (text : List Char) : EmbedHead :=
  let head := trim text
  let (head, spread) := match dropLead? ['.', '.', '.'] head with
    | some rest =>
      (rest, ["spread embed '" ++ String.ofList rest ++ "' is kept as a nested embed"])
    | none => (head, [])
  let (label, head) := match cutFirst ':' head with
    | some (label, rest) => (some (String.ofList (trim label)), trim rest)
    | none => (none, head)
  let (relation, hint) := match cutFirst '!' head with
    | some (relation, hint) => (String.ofList (trim relation), some (String.ofList (trim hint)))
    | none => (String.ofList head, none)
  let ignored := match hint with
    | some "inner" | some "left" | none => []
    | some other =>
      ["join hint '!" ++ other ++ "' on '" ++ relation ++
        "' is ignored; keys are inferred by naming convention"]
  { relation, label, inner := hint = some "inner", warnings := spread ++ ignored }

/-- What is said of text behind the parenthesis of an embed. -/
def trailingWarnings (embed behind : List Char) : List String :=
  if allBlank behind then []
  else ["ignored trailing text after embed '" ++ String.ofList embed ++ "'"]

/-- Read an embed, given the item, the text in front of its parenthesis and the
text from it on.  `readInner` reads the list inside. -/
def readEmbed (bound : Nat) (readInner : List Char → Outcome Selection)
    (item before bracketed : List Char) : Outcome (Embed × List String) := do
  let (bracket, behind) ← (upToClose bound bracketed).mapError (Fault.ofNesting bound item)
  let head := readHead before
  let inner ← readInner (bracket.drop 1)
  let embed : Embed := {
    relation := head.relation
    label := head.label
    inner := head.inner
    columns := inner.columns
    embeds := inner.embeds }
  let written := item.take (before.length + bracket.length + 1)
  return (embed, trailingWarnings written behind ++ head.warnings ++ inner.warnings)

def readItem (bound : Nat) (readInner : List Char → Outcome Selection)
    (selection : Selection) (item : List Char) : Outcome Selection := do
  match ← (findTopLevel '(' bound item).mapError (Fault.ofNesting bound item) with
  | some (before, bracketed) =>
    let (embed, warnings) ← readEmbed bound readInner item before bracketed
    return selection.withEmbed embed warnings
  | none =>
    let column := Column.ofChars item
    match column.brokenCast? with
    | some cast => throw (.brokenCast cast column.text)
    | none => return selection.withColumn column

def readWith (bound : Nat) (readInner : List Char → Outcome Selection) (text : List Char) :
    Outcome Selection := do
  let text := trim text
  let items ← (splitTopLevel ',' bound text).mapError (Fault.ofNesting bound text)
  let selection ← items.foldlM (readItem bound readInner) {}
  return selection.orStar

/-- Read a select list whose brackets nest at most `bound` levels deep. -/
def ofChars : Nat → List Char → Outcome Selection
  -- With no bracket to spare the scan refuses before the list inside would be read.
  | 0, text => readWith 0 (fun inner => .error (.nestingTooDeep 0 (String.ofList inner))) text
  | bound + 1, text => readWith (bound + 1) (ofChars bound) text

def ofText (bound : Nat) (text : String) : Outcome Selection :=
  ofChars bound text.toList

end Selection

end QueryNotation
