import QueryNotation.Sql.Clause

namespace QueryNotation.Sql

/-! # Writing UPDATE -/

def assignedRow (query : Query) : Outcome Json.Row :=
  match query.body with
  | some (.single row) =>
    if row.isEmpty then .error (.emptyBody query.operation query.table) else .ok row
  | some (.bulk _) | some (.arguments _) => .error (.bodyShape query.operation query.table)
  | none => .error (.emptyBody query.operation query.table)

/-- What is said of an update: one warning when it changes every row, which also
tells of dropped modifiers. -/
def updateWarnings (query : Query) : List String :=
  let everyRow := "UPDATE without filters changes every row in '" ++ query.table ++ "'"
  match query.filters.isEmpty, droppedModifiers? query with
  | true, some note => [everyRow ++ "; " ++ note]
  | true, none => [everyRow]
  | false, some note => [note]
  | false, none => []

def writeUpdate (query : Query) : Outcome Written := do
  let row ← assignedRow query
  let assignments := row.map fun (column, value) =>
    escapeIdentifier column ++ " = " ++ jsonLiteral value
  let found ← whereClause query
  let returning ← returningClause query
  return {
    text :=
      "UPDATE " ++ escapeIdentifier query.table ++ " SET " ++ String.intercalate ", " assignments ++
      found ++ returning
    warnings := updateWarnings query ++ returningWarnings query }

end QueryNotation.Sql
