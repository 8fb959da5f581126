import QueryNotation.Sql.Clause
import QueryNotation.Sql.Join

namespace QueryNotation.Sql

/-! # Writing INSERT

Rows may disagree on their keys: the columns are all keys in the order of their
first appearance, and a missing key becomes `NULL`.
-/

/-- The rows to insert, of which at least one has a column. -/
def insertedRows (query : Query) : Outcome (List Json.Row) :=
  match query.body with
  | some (.arguments _) => .error (.bodyShape query.operation query.table)
  | some body =>
    if body.isEmpty then .error (.emptyBody query.operation query.table)
    else .ok body.insertedRows
  | none => .error (.emptyBody query.operation query.table)

def rowLiterals (columns : List String) (row : Json.Row) : List String :=
  columns.map fun column =>
    match row.get? column with
    | some value => jsonLiteral value
    | none => "NULL"

def conflictColumns (policy : KeyPolicy) (query : Query) : List String :=
  match query.onConflict with
  | some target =>
    ((Text.pieces (· == ',') target.toList).map Text.trim).filterMap fun column =>
      if column.isEmpty then none else some (String.ofList column)
  | none => [policy.primaryKey]

/-- The columns that an upsert writes over. -/
def mergedColumns (columns target : List String) : List String :=
  columns.filter fun column => !target.contains column

def conflictClause (policy : KeyPolicy) (query : Query) (columns : List String) : String :=
  let target := conflictColumns policy query
  let updates := (mergedColumns columns target).map fun column =>
    escapeIdentifier column ++ " = EXCLUDED." ++ escapeIdentifier column
  " ON CONFLICT (" ++ String.intercalate ", " (target.map escapeIdentifier) ++ ")" ++
    if query.ignoreDuplicates || updates.isEmpty then " DO NOTHING"
    else " DO UPDATE SET " ++ String.intercalate ", " updates

/-- What is said when no conflict columns are named. -/
def conflictWarnings (policy : KeyPolicy) (query : Query) : List String :=
  match query.onConflict with
  | some _ => []
  | none => ["no conflict target given; assuming the primary key '" ++ policy.primaryKey ++ "'"]

/-- Write an `INSERT`, with `ON CONFLICT` for an upsert. -/
def writeInsert (policy : KeyPolicy) (query : Query) : Outcome Written := do
  let rows ← insertedRows query
  let columns := Body.columnNames rows
  let tuples := rows.map fun row =>
    "(" ++ String.intercalate ", " (rowLiterals columns row) ++ ")"
  let returning ← returningClause query
  let upserts := query.operation = .upsert
  return {
    text :=
      "INSERT INTO " ++ escapeIdentifier query.table ++
      " (" ++ String.intercalate ", " (columns.map escapeIdentifier) ++ ") VALUES " ++
      String.intercalate ", " tuples ++
      (if upserts then conflictClause policy query columns else "") ++ returning
    warnings :=
      (if upserts then conflictWarnings policy query else []) ++ returningWarnings query }

end QueryNotation.Sql
