import QueryNotation.Value.Wire

namespace QueryNotation.Sql

/-! # SQL literals

Every literal is written here, so that text is escaped alike in all places: a
string stands between apostrophes, and an apostrophe in it is doubled.
-/

def quote (text : String) : String :=
  String.ofList
    ('\'' :: text.toList.flatMap (fun c => if c = '\'' then ['\'', '\''] else [c]) ++ ['\''])

/-- The literal of a value that is compared as it is.  Strings that spell a number
or a keyword stand bare. -/
def scalarLiteral : Value → String
  | .null => "NULL"
  | .bool value => Value.boolText value
  | .number text => text
  | .string text =>
    if text = "null" then "NULL"
    else if text = "true" ∨ text = "false" ∨ isNumeric text then text
    else quote text
  | .list items => quote (Value.arrayText items)

/-- What may stand behind `IS`. -/
def isOperand : Value → String
  | .null => "NULL"
  | .bool true => "TRUE"
  | .bool false => "FALSE"
  | .string text =>
    if ["null", "true", "false", "unknown"].contains text.toLower then text.toUpper
    else quote text
  | other => scalarLiteral other

def listOperands : Value → List Value
  | .list items => items
  | .string text => Value.readList text
  | other => [other]

def literal (op : Operator) (value : Value) (config : Option String) : String :=
  match op.searchFunction with
  | some function =>
    let text := quote (Value.bareText value)
    match config with
    | some config => function ++ "(" ++ quote config ++ ", " ++ text ++ ")"
    | none => function ++ "(" ++ text ++ ")"
  | none =>
    match op with
    | .oneOf =>
      "(" ++ String.intercalate ", " ((listOperands value).map scalarLiteral) ++ ")"
    | .is => isOperand value
    | .like | .ilike =>
      match value with
      | .string pattern => quote (Value.replaceChar '*' '%' pattern)
      | other => scalarLiteral other
    | .contains | .containedBy | .overlaps =>
      match value with
      | .list items => quote (Value.arrayText items)
      | other => scalarLiteral other
    | _ => scalarLiteral value

/-- The literal of a JSON value.  Arrays and objects become their quoted text. -/
def jsonLiteral : Json → String
  | .null => "NULL"
  | .bool value => Value.boolText value
  | .number value => value.text
  | .string text => quote text
  | .array items => quote (Json.array items).text
  | .object fields => quote (Json.object fields).text

end QueryNotation.Sql
