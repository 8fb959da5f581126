import QueryNotation.Sql.Reader.Scope

namespace QueryNotation.Sql

/-! # Columns of statements -/

/-- The column that an expression names, and the table it belongs to. -/
def Expr.column (scope : Scope) : Expr → Outcome (Target × String)
  | .name word => .ok (none, word.value)
  | .path [table, column] => do return (← scope.resolve table.value, column.value)
  | .path [_, table, column] => do return (← scope.resolve table.value, column.value)
  | .path words => .error (.sqlLimit .columnReference (Name.path words))
  | .nested inner => inner.column scope
  | value => .error (.sqlLimit .notColumn value.text)

def Expr.outputColumn (scope : Scope) : Expr → Outcome (Target × Column)
  | .cast operand type _ => do
    let (target, column) ← operand.outputColumn scope
    return (target, { column with cast := some (String.ofList (type.toList.map Char.toLower)) })
  | .call function arguments frame =>
    let limit := if frame.window.isSome then SqlLimit.windowFunction else .outputFunction
    .error (.sqlLimit limit (Expr.call function arguments frame).text)
  | .bareCall function => .error (.sqlLimit .outputFunction function)
  | value => do
    let (target, column) ← value.column scope
    return (target, { name := column })

/-- The column that an item of a select list asks for, and the table it belongs to. -/
def SelectItem.column (scope : Scope) : SelectItem → Outcome (Target × Column)
  | .wildcard => .ok (none, .star)
  | .tableWildcard table => do
    let written := (Name.path table ++ ".*").toList
    let qualifier := (Text.cutAtText ".*".toList written).elim written Prod.fst
    let (name, _) := splitTableName (String.ofList qualifier)
    return (← scope.resolve name, .star)
  | .plain value => value.outputColumn scope
  | .labelled value label => do
    let (target, column) ← value.outputColumn scope
    return (target, { column with label := some label.value })

/-- What an item of `ORDER BY` asks for, and the table its column belongs to. -/
def SortItem.order (scope : Scope) (item : SortItem) : Outcome (Target × OrderItem) := do
  let (target, column) ← item.value.column scope
  let nulls := item.nullsFirst.map fun first => if first then NullsOrder.first else .last
  return (target, { column, descending := item.descending == some true, nulls })

end QueryNotation.Sql
