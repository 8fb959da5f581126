import QueryNotation.Metadata
import QueryNotation.Sql.Condition

namespace QueryNotation.Sql

/-! # Clauses

What the writers of the four statements share: the written statement, output
columns, and the `WHERE` and `RETURNING` clauses.
-/

/-- A written statement, with what had to be assumed or left out. -/
structure Written where
  text : String
  warnings : List String := []
  metadata : Metadata := []
deriving DecidableEq, Repr, Inhabited

/-- An output column: `name::cast AS label`. -/
def columnText (qualifier : Option String) (column : Column) : Outcome String :=
  match column.brokenCast? with
  | some cast => .error (.brokenCast cast column.text)
  | none =>
    let cast := match column.cast with
      | some cast => "::" ++ cast
      | none => ""
    let label := match column.label with
      | some label => " AS " ++ escapeIdentifier label
      | none => ""
    .ok (qualified qualifier column.name ++ cast ++ label)

/-- A clause that lists its items; nothing when there are none. -/
def clause (lead separator : String) (items : List String) : String :=
  if items.isEmpty then "" else lead ++ String.intercalate separator items

/-- The `WHERE` clause of the filters on the main table. -/
def whereClause (query : Query) : Outcome String := do
  let found ← conditions none query.filters
  return clause " WHERE " " AND " found

/-- The `RETURNING` clause of a mutation that answers with rows. -/
def returningClause (query : Query) : Outcome String :=
  if !query.returning then .ok ""
  else if query.selectsAll then .ok " RETURNING *"
  else do
    let columns ← query.columns.mapM (columnText none)
    return " RETURNING " ++ String.intercalate ", " columns

/-- What is said when a mutation should answer with embeds. -/
def returningWarnings (query : Query) : List String :=
  if query.returning && !query.embeds.isEmpty then
    ["embedded resources cannot be returned from a SQL mutation and were dropped"]
  else []

/-- True when a query orders rows or limits their number. -/
def hasModifiers (query : Query) : Bool :=
  !query.order.isEmpty || query.limit.isSome || query.offset.isSome || query.range.isSome

/-- What is said when an update or a delete should order or limit rows. -/
def droppedModifiers? (query : Query) : Option String :=
  if hasModifiers query then
    some ("ordering and row limits have no " ++ query.operation.name ++ " form and were dropped")
  else none

end QueryNotation.Sql
