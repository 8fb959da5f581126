import QueryNotation.Chain.Arguments
import QueryNotation.Value.Wire

namespace QueryNotation.Chain

/-! # Calls of a chain

Every call behind the root is given its meaning before it touches the query, so
that the shapes of arguments are checked in one place.
-/

/-- What a call means. -/
inductive Call where
  | select (columns : String) (count : Option CountMode) (head : Bool)
  | filter (filter : Filter)
  /-- Each column equals its value. -/
  | equal (row : Json.Row)
  | order (column : String) (ascending : Bool) (nullsFirst : Option Bool)
    (table : Option String)
  | limit (count : UInt64) (table : Option String)
  | range (first last : UInt64) (table : Option String)
  | single
  | maybeSingle
  | insert (body : Body)
  | upsert (body : Body) (onConflict : Option String) (ignoreDuplicates : Bool)
  | update (row : Json.Row)
  | delete
  | unknown (name : String)
deriving DecidableEq, Repr, Inhabited

namespace Call

/-- A filter value; the list of `in` may be written as text. -/
def filterValue (op : Operator) (value : Json) : Value :=
  match op, value with
  | .oneOf, .string text => Value.ofWire op text
  | _, value => Value.ofJson value

/-- The value of a filter whose operator is given by its tag: a string is a token
as on the wire. -/
def taggedValue (op : Operator) (value : Json) : Value :=
  match value with
  | .string token => Value.ofWire op token
  | other => filterValue op other

/-- A tag in front of its configuration.  A configuration that is not closed is
dropped. -/
def splitConfig (text : List Char) : List Char × Option (List Char) :=
  match Text.cutFirst '(' text with
  | some (tag, rest) => (tag, Text.dropTail? [')'] rest)
  | none => (text, none)

/-- The filter of `not` and `filter`, whose operator is given by its tag. -/
def taggedFilter (arguments : Arguments) : Outcome Filter := do
  let column ← arguments.string 0
  let written ← arguments.string 1
  let (negated, rest) := match Text.dropLead? "not.".toList written.toList with
    | some rest => (true, rest)
    | none => (arguments.method = "not", written.toList)
  let (tag, config) := splitConfig rest
  let tag := String.ofList tag
  match Operator.ofTag? tag with
  | none => throw (.unknownOperator tag tag)
  | some op =>
    let value ← arguments.value 2
    return {
      column
      op
      value := taggedValue op value
      negated
      config := config.map String.ofList }

/-- The filter of `textSearch`. -/
def searchFilter (arguments : Arguments) : Outcome Filter := do
  let column ← arguments.string 0
  let query ← arguments.string 1
  let op := match arguments.stringOption? 2 "type" with
    | some "plain" => Operator.plainText
    | some "phrase" => .phraseText
    | some "websearch" => .webText
    | _ => .fullText
  return { column, op, value := .string query, config := arguments.stringOption? 2 "config" }

/-- The count that `select` asks for. -/
def countOption (arguments : Arguments) : Outcome (Option CountMode) :=
  match arguments.stringOption? 1 "count" with
  | none => .ok none
  | some word =>
    match CountMode.ofWord? word with
    | some mode => .ok (some mode)
    | none => .error (.unknownCountMode word)

/-- The table that an option refers to, under its present or its older name. -/
def tableOption? (arguments : Arguments) (index : Nat) : Option String :=
  (arguments.stringOption? index "referencedTable").or
    (arguments.stringOption? index "foreignTable")

/-- The rows that `insert` and `upsert` are given. -/
def rowsArgument (arguments : Arguments) : Outcome Body := do
  match ← arguments.value 0 with
  | .object row => return .single row
  | .array items =>
    let rows ← items.mapM fun
      | .object row => .ok row
      | other => arguments.wrong 0 "an object or an array of objects" other
    return .bulk rows
  | other => throw (.argumentNotRows arguments.method other.text)

/-- The row that `update` is given. -/
def rowArgument (arguments : Arguments) : Outcome Json.Row := do
  match ← arguments.value 0 with
  | .object row => return row
  | other => arguments.wrong 0 "one object" other

/-- The meaning of a call that is not named for an operator. -/
def ofMethod (method : String) (arguments : Arguments) : Outcome Call := do
  match method with
  | "select" =>
    let count ← countOption arguments
    return .select ((arguments.string? 0).getD "*") count
      ((arguments.boolOption? 1 "head").getD false)
  | "not" | "filter" => return .filter (← taggedFilter arguments)
  | "textSearch" => return .filter (← searchFilter arguments)
  | "match" => return .equal (← arguments.object 0)
  | "or" => throw (.orFilter ((arguments.string? 0).getD ""))
  | "likeAllOf" | "likeAnyOf" | "ilikeAllOf" | "ilikeAnyOf" => throw (.patternMethod method)
  | "order" =>
    let column ← arguments.string 0
    return .order column ((arguments.boolOption? 1 "ascending").getD true)
      (arguments.boolOption? 1 "nullsFirst") (tableOption? arguments 1)
  | "limit" =>
    let count ← arguments.count 0
    return .limit count (tableOption? arguments 1)
  | "range" =>
    let first ← arguments.count 0
    let last ← arguments.count 1
    return .range first last (tableOption? arguments 2)
  | "single" => return .single
  | "maybeSingle" => return .maybeSingle
  | "insert" => return .insert (← rowsArgument arguments)
  | "upsert" =>
    let body ← rowsArgument arguments
    return .upsert body (arguments.stringOption? 1 "onConflict")
      ((arguments.boolOption? 1 "ignoreDuplicates").getD false)
  | "update" => return .update (← rowArgument arguments)
  | "delete" => return .delete
  | other => return .unknown other

def classify (method : String) (values : List Json) : Outcome Call := do
  let arguments : Arguments := { method, values }
  match Operator.ofMethod? method with
  | some op =>
    let column ← arguments.string 0
    let value ← arguments.value 1
    return .filter { column, op, value := filterValue op value }
  | none => ofMethod method arguments

end Call

end QueryNotation.Chain
