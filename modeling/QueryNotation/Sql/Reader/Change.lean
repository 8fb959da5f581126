import QueryNotation.Sql.Reader.Select

namespace QueryNotation.Sql

/-! # Reading INSERT, UPDATE and DELETE -/

/-- The columns that a changing statement answers with; none when it does not answer. -/
def returnedColumns (scope : Scope) : Option (List SelectItem) → Outcome (List Column)
  | some items => do return (← items.mapM (SelectItem.column scope)).map Prod.snd
  | none => .ok []

/-- The rows of an insert: each has a value for every column.  `number` counts the rows. -/
def rowsOfCells (columns : List String) (whole : String) :
    Nat → List (List Expr) → Outcome (List Json.Row)
  | _, [] => .ok []
  | number, cells :: rest => do
    if cells.length != columns.length then
      throw (.rowLength number cells.length columns.length whole)
    let values ← cells.mapM Expr.json
    return Json.Row.ofList (columns.zip values) ::
      (← rowsOfCells columns whole (number + 1) rest)

/-- One row is sent alone, more are sent as a list. -/
def bodyOfRows : List Json.Row → Body
  | [row] => .single row
  | rows => .bulk rows

/-- The columns that a conflict is found by, separated by commas. -/
def conflictColumns? : Option ConflictTarget → Outcome (Option String)
  | some (.columns names) => .ok (some (String.intercalate "," (names.map Name.value)))
  | some (.constraint name) => .error (.sqlLimit .conflictConstraint name)
  | none => .ok none

/-- True for the inserted value of a column, `EXCLUDED.column`. -/
def isExcluded (column : String) : Expr → Bool
  | .path [table, word] =>
    table.value.toList.map Char.toLower == "excluded".toList && word.value == column
  | .nested inner => isExcluded column inner
  | _ => false

/-- The column that an upsert assigns; it has to be given the inserted value. -/
def mergedColumn (assignment : Assignment) : Outcome String :=
  let column := unquoted assignment.target
  if isExcluded column assignment.value then .ok column
  else .error (.sqlLimit (.notExcluded column) assignment.text)

/-- The pieces between commas; one empty piece when there is nothing. -/
def commaPieces (text : String) : List String :=
  (Text.pieces (· == ',') text.toList).map String.ofList

/-- The columns that an upsert merges: the inserted ones that no conflict is found by. -/
def remainingColumns (rows : List Json.Row) (conflict : Option String) : List String :=
  let fixed := commaPieces (conflict.getD "")
  (Body.columnNames rows).filter fun column => !fixed.contains column

/-- What is said when an upsert assigns other columns than are merged. -/
def widenedWarnings (assigned merged : List String) : List String :=
  if merged.all assigned.contains && assigned.all merged.contains then []
  else
    ["DO UPDATE SET " ++ commaList assigned ++ " widened to every inserted column (" ++
      commaList merged ++ "); upserts merge the whole row"]

def readConflict (rows : List Json.Row) (parsed : Parsed) : InsertClause → Outcome Parsed
  | .onConflict target action => do
    let onConflict ← conflictColumns? target
    let query := { parsed.query with operation := .upsert, onConflict }
    match action with
    | .doNothing => return { parsed with query := { query with ignoreDuplicates := true } }
    | .doUpdate assignments condition =>
      let assigned ← assignments.mapM mergedColumn
      let dropped := if condition.isSome then
          ["ON CONFLICT ... WHERE dropped; upserts merge every conflicting row"]
        else []
      return {
        query
        warnings := parsed.warnings ++ dropped ++
          widenedWarnings assigned (remainingColumns rows onConflict) }
  | .onDuplicateKey assignments =>
    .error (.sqlLimit .otherConflictClause (InsertClause.onDuplicateKey assignments).text)

def InsertTree.read (tree : InsertTree) : Outcome Parsed := do
  let (table, schema) := splitTableName (Name.path tree.table)
  match tree.source with
  | none => throw (.insertWithoutRows table)
  | some source =>
    match source.body with
    | .values word cells =>
      if tree.columns.isEmpty then throw (.sqlLimit .insertColumns table)
      let rows ← rowsOfCells (tree.columns.map Name.value) (rowsText word cells) 1 cells
      let parsed : Parsed := {
        query := { table, operation := .insert, body := some (bodyOfRows rows) }
        warnings := schemaWarnings schema }
      let parsed ← match tree.clause with
        | some clause => readConflict rows parsed clause
        | none => pure parsed
      -- Columns of the answer are looked up after the conflict clause, so its faults come first.
      let columns ← returnedColumns (.ofTable table none) tree.returning
      return { parsed with
        query := { parsed.query with columns, returning := tree.returning.isSome } }
    | _ => throw (.sqlLimit .insertSource source.text)

/-- The column that an update sets, with its value. -/
def Assignment.cell (assignment : Assignment) : Outcome (String × Json) := do
  let column := unquoted assignment.target
  if column.toList.head? = some '(' then throw (.sqlLimit .tupleAssignment assignment.text)
  return (column, ← assignment.value.json)

def UpdateTree.read (tree : UpdateTree) : Outcome Parsed := do
  if !tree.table.joins.isEmpty then throw (.sqlLimit .updateJoin tree.table.text)
  let table ← tree.table.source.named
  let scope := Scope.ofTable table.name table.label
  let cells ← tree.assignments.mapM Assignment.cell
  let filters ← conditionFilters scope tree.condition
  let columns ← returnedColumns scope tree.returning
  return {
    query := {
      table := table.name
      operation := .update
      columns
      filters := placedAt none filters
      body := some (.single (Json.Row.ofList cells))
      returning := tree.returning.isSome }
    warnings := schemaWarnings table.schema }

def DeleteTree.table (tree : DeleteTree) : Outcome NamedTable :=
  match tree.tables with
  | [] => .error .deleteWithoutTable
  | [table] =>
    if table.joins.isEmpty then table.source.named
    else .error (.sqlLimit .severalDeleteTables table.text)
  | tables => .error (.sqlLimit .severalDeleteTables (commaList (tables.map JoinedTable.text)))

def DeleteTree.read (tree : DeleteTree) : Outcome Parsed := do
  let table ← tree.table
  let scope := Scope.ofTable table.name table.label
  let filters ← conditionFilters scope tree.condition
  let columns ← returnedColumns scope tree.returning
  return {
    query := {
      table := table.name
      operation := .delete
      columns
      filters := placedAt none filters
      returning := tree.returning.isSome }
    warnings := schemaWarnings table.schema }

end QueryNotation.Sql
