import QueryNotation.Sql.Grammar.Basic

namespace QueryNotation.Sql.Grammar

/-! # Types in statements

A type is given back as its text: keywords in capitals, lengths without spaces.
The names of types that are not known are kept as they are.
-/

/-- A type, as far as a literal may stand behind it. -/
inductive TypeForm where
  | known (text : String)
  | interval
  | custom (text : String)
deriving DecidableEq, Repr

def plainTypes : List String :=
  ["BOOLEAN", "BOOL", "REAL", "FLOAT4", "FLOAT8", "FLOAT64", "UUID", "DATE", "JSON", "JSONB",
    "REGCLASS", "TEXT", "TINYTEXT", "MEDIUMTEXT", "LONGTEXT", "BYTEA", "TSVECTOR", "TSQUERY",
    "POINT", "LINE", "LSEG", "BOX", "PATH", "POLYGON", "CIRCLE"]

def sizedTypes : List String :=
  ["FLOAT", "TINYINT", "INT2", "SMALLINT", "MEDIUMINT", "INT", "INT4", "INTEGER", "INT8", "BIGINT",
    "VARCHAR", "NVARCHAR", "CLOB", "BLOB", "BINARY", "VARBINARY", "BIT", "VARBIT", "DATETIME",
    "STRING", "BYTES"]

def exactTypes : List String :=
  ["NUMERIC", "DECIMAL", "DEC"]

def length? : Grammar String := do
  if ← symbol? "(" then
    let size ← digits
    symbol ")"
    return "(" ++ size ++ ")"
  else return ""

/-- A precision, perhaps with a scale, between parentheses, or nothing. -/
def precision? : Grammar String := do
  if ← symbol? "(" then
    let precision ← digits
    let scale ← if ← symbol? "," then pure ("," ++ (← digits)) else pure ""
    symbol ")"
    return "(" ++ precision ++ scale ++ ")"
  else return ""

/-- What stands behind a type of time about its zone. -/
def zone? : Grammar String := do
  if ← keywords? ["WITH", "TIME", "ZONE"] then return " WITH TIME ZONE"
  else if ← keywords? ["WITHOUT", "TIME", "ZONE"] then return " WITHOUT TIME ZONE"
  else return ""

def typeArguments? : Grammar String := do
  if ← symbol? "(" then
    let arguments ← commaSeparatedUntil ")" do
      match ← next with
      | .word text _ => return text
      | .constant (.number text _) => return text
      | .constant (.string text) => return text
      | _ => mismatch
    symbol ")"
    if arguments.isEmpty then return "" else return "(" ++ commaList arguments ++ ")"
  else return ""

def elementType : Grammar TypeForm := do
  match ← peekKeyword? with
  | none => custom
  | some word =>
    if plainTypes.contains word then
      let _ ← next
      return .known word
    else if sizedTypes.contains word then
      let _ ← next
      let varying ← if word = "BIT" then keyword? "VARYING" else pure false
      let size ← length?
      let unsigned ← keyword? "UNSIGNED"
      return .known (word ++ (if varying then " VARYING" else "") ++ size ++
        if unsigned then " UNSIGNED" else "")
    else if exactTypes.contains word then
      let _ ← next
      return .known (word ++ (← precision?))
    else if word = "DOUBLE" then
      let _ ← next
      if ← keyword? "PRECISION" then return .known "DOUBLE PRECISION"
      else return .known ("DOUBLE" ++ (← precision?))
    else if word = "CHAR" ∨ word = "CHARACTER" then
      let _ ← next
      let varying ← keyword? "VARYING"
      return .known (word ++ (if varying then " VARYING" else "") ++ (← length?))
    else if word = "TIME" ∨ word = "TIMESTAMP" then
      let _ ← next
      let size ← length?
      return .known (word ++ size ++ (← zone?))
    else if word = "TIMETZ" ∨ word = "TIMESTAMPTZ" then
      let _ ← next
      return .known (word ++ (← length?))
    else if word = "INTERVAL" then
      let _ ← next
      return .interval
    else custom
where
  custom : Grammar TypeForm := do
    let name ← dottedName
    return .custom (Name.path name ++ (← typeArguments?))

def arrayBrackets : Grammar String := do
  let brackets ← repeated do
    if ← symbol? "[" then
      let size ← attempt digits
      symbol "]"
      return some ("[" ++ size.getD "" ++ "]")
    else return none
  return String.join brackets

def typeForm : Grammar TypeForm := do
  let element ← elementType
  let brackets ← arrayBrackets
  if brackets.isEmpty then return element
  else
    match element with
    | .known text | .custom text => return .known (text ++ brackets)
    | .interval => return .known ("INTERVAL" ++ brackets)

def typeText : Grammar String := do
  match ← typeForm with
  | .known text | .custom text => return text
  | .interval => return "INTERVAL"

end QueryNotation.Sql.Grammar
