import QueryNotation.Fault
import QueryNotation.Json.Reader
import QueryNotation.Sql.Tree
import QueryNotation.Text.Unsigned

namespace QueryNotation.Sql

/-! # Values of expressions

Values are constants, negated numbers and arrays of values; parentheses and casts
around them say nothing.
-/

mutual

def Expr.value : Expr → Outcome Value
  | .constant (.number digits _) => .ok (.number digits)
  | .constant (.string text) | .constant (.escaped text) => .ok (.string text)
  | .constant (.bool value) => .ok (.bool value)
  | .constant .null => .ok .null
  | .constant (.parameter word) => .error (.sqlLimit .bindParameter word)
  | .constant literal => .ok (.string literal.text)
  | .negative operand => do
    match ← operand.value with
    | .number digits => return .number ("-" ++ digits)
    | _ => throw (.sqlLimit .negatedText (Expr.negative operand).text)
  | .nested inner => inner.value
  | .cast operand _ _ => operand.value
  | .array items _ => do return .list (← Expr.values items)
  | .name word => .error (.sqlLimit .comparedColumns word.text)
  | .path words => .error (.sqlLimit .comparedColumns (Name.path words))
  | .subquery text => .error (.sqlLimit .valueSubquery (Expr.subquery text).text)
  | value => .error (.sqlLimit .notLiteral value.text)

def Expr.values : List Expr → Outcome (List Value)
  | [] => .ok []
  | item :: rest => do
    let value ← item.value
    return value :: (← Expr.values rest)

end

/-- The text that a cast to JSON decodes, if the expression is one. -/
def Expr.jsonText? : Expr → Outcome (Option String)
  | .cast operand type _ => do
    if "json".toList.isPrefixOf (type.toList.map Char.toLower) then
      match ← operand.value with
      | .string text => return some text
      | _ => return none
    else return none
  | _ => .ok none

/-- The JSON value of a cell.  A text that is cast to JSON is decoded, and kept as a
string where it is none. -/
def Expr.json (cell : Expr) : Outcome Json := do
  match ← cell.jsonText? with
  | some text => return (Json.ofText? text).getD (.string text)
  | none => return (← cell.value).toJson

def Expr.count (clause : String) (written : Expr) : Outcome UInt64 :=
  let invalid := Fault.notCountLiteral clause written.text
  match written.value with
  | .ok (.number digits) =>
    match Text.unsigned? digits.toList with
    | some count => .ok count
    | none => .error invalid
  | _ => .error invalid

end QueryNotation.Sql
