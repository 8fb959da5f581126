import QueryNotation.Sql.Clause

namespace QueryNotation.Sql

/-! # Writing DELETE -/

/-- Write a `DELETE`; one without filters is refused. -/
def writeDelete (query : Query) : Outcome Written :=
  if query.filters.isEmpty then .error (.deleteWithoutFilter query.table)
  else do
    let found ← whereClause query
    let returning ← returningClause query
    return {
      text := "DELETE FROM " ++ escapeIdentifier query.table ++ found ++ returning
      warnings := (droppedModifiers? query).toList ++ returningWarnings query }

end QueryNotation.Sql
