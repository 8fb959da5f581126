import Mathlib.Data.List.Nodup
import QueryNotation.Proofs.Sql.Identifier
import QueryNotation.Proofs.Sql.Row
import QueryNotation.Proofs.Validation

namespace QueryNotation.Sql

open Text

/-! # Written inserts

An insert writes its rows as one table: every key of a row is a column, in the order in which
the keys are first seen, and every row has a cell for every column.  An upsert writes over the
columns outside its target.
-/

variable {row : Json.Row} {column : String} {columns : List String}

/-- The cell of a row: the literal of what the row holds, and `NULL` if it holds nothing. -/
inductive IsCell (row : Json.Row) (column : String) : String → Prop where
  | held {value : Json} (found : row.get? column = some value) : IsCell row column (jsonLiteral value)
  | missing (absent : column ∉ row.keys) : IsCell row column "NULL"

/-- The columns of some rows, and a tuple of cells for each row. -/
structure IsTable (rows : List Json.Row) (columns : List String) (tuples : List (List String)) : Prop where
  distinct : columns.Nodup
  keys : ∀ column, column ∈ columns ↔ ∃ row ∈ rows, column ∈ row.keys
  ordered : columns.Pairwise fun first second =>
    (rows.flatMap Json.Row.keys).idxOf first < (rows.flatMap Json.Row.keys).idxOf second
  cells : List.Forall₂ (fun row tuple => List.Forall₂ (IsCell row) columns tuple) rows tuples

theorem not_mem_keys (none : row.get? column = none) : column ∉ row.keys := by
  induction row with
  | nil => exact List.not_mem_nil
  | cons field rest induction =>
      obtain ⟨key, value⟩ := field
      rw [Json.Row.get?] at none
      split at none
      · cases none
      · next other =>
        exact List.not_mem_cons_of_ne_of_not_mem (Ne.symm other) (induction none)

theorem isCell_rowLiterals (columns : List String) (row : Json.Row) :
    List.Forall₂ (IsCell row) columns (rowLiterals columns row) := by
  rw [rowLiterals, List.forall₂_map_right_iff]
  refine List.forall₂_same.mpr fun column _ => ?_
  cases found : row.get? column with
  | some value => exact .held found
  | none => exact .missing (not_mem_keys found)

theorem isTable_rowLiterals (rows : List Json.Row) :
    IsTable rows (Body.columnNames rows) (rows.map (rowLiterals (Body.columnNames rows))) where
  distinct := Body.nodup_columnNames rows
  keys _ := Body.mem_columnNames
  ordered := Body.pairwise_columnNames rows
  cells := by
    rw [List.forall₂_map_right_iff]
    exact List.forall₂_same.mpr fun row _ => isCell_rowLiterals _ row

/-- The names between the commas of a text, without the blanks around them.  Empty ones are left out. -/
def namesBetweenCommas (text : String) : List String :=
  let names := (text.toList.splitOn ',').map fun name => (name.dropWhile isBlank).rdropWhile isBlank
  (names.filter (· ≠ [])).map String.ofList

/-- The columns in which an upsert looks for a row that is there already. -/
structure IsTarget (policy : KeyPolicy) (query : Query) (target : List String) : Prop where
  named : ∀ names, query.onConflict = some names → target = namesBetweenCommas names
  assumed : query.onConflict = none → target = [policy.primaryKey]

/-- The columns that an upsert writes over, unless it leaves rows that are there already as they are. -/
structure IsOverwritten (query : Query) (target columns overwritten : List String) : Prop where
  nothing : overwritten = [] ↔ query.ignoreDuplicates = true ∨ ∀ column ∈ columns, column ∈ target
  sublist : overwritten.Sublist columns
  others : overwritten ≠ [] → ∀ column, column ∈ overwritten ↔ column ∈ columns ∧ column ∉ target

def overwrittenColumns (policy : KeyPolicy) (query : Query) (columns : List String) : List String :=
  if query.ignoreDuplicates then [] else mergedColumns columns (conflictColumns policy query)

/-- What an upsert says about a row that is there already. -/
def conflictText (target overwritten : List String) : String :=
  let assignments := overwritten.map fun column => escapeIdentifier column ++ " = EXCLUDED." ++ escapeIdentifier column
  " ON CONFLICT (" ++ String.intercalate ", " (target.map escapeIdentifier) ++ ")" ++
    if overwritten = [] then " DO NOTHING" else " DO UPDATE SET " ++ String.intercalate ", " assignments

theorem mem_mergedColumns {target : List String} :
    column ∈ mergedColumns columns target ↔ column ∈ columns ∧ column ∉ target := by
  simp [mergedColumns]

variable {policy : KeyPolicy} {query : Query}

theorem filterMap_full (names : List (List Char)) :
    names.filterMap (fun name => if name.isEmpty then none else some (String.ofList name)) =
      (names.filter (· ≠ [])).map String.ofList := by
  induction names with
  | nil => rfl
  | cons name rest induction =>
      cases name with
      | nil => exact induction
      | cons c more => exact congrArg (String.ofList (c :: more) :: ·) induction

theorem isTarget_conflictColumns : IsTarget policy query (conflictColumns policy query) where
  named names given := by
    have trimmed : Text.trim = fun name => (name.dropWhile isBlank).rdropWhile isBlank :=
      funext fun name => trimEnd_eq_rdropWhile _
    rw [conflictColumns, given, namesBetweenCommas, ← pieces_eq_splitOn, ← trimmed]
    exact filterMap_full _
  assumed none := by rw [conflictColumns, none]

theorem isOverwritten_overwrittenColumns :
    IsOverwritten query (conflictColumns policy query) columns (overwrittenColumns policy query columns) := by
  unfold overwrittenColumns
  split
  · next ignores =>
    exact { nothing := by simp [ignores], sublist := List.nil_sublist _, others := fun some => absurd rfl some }
  · next merges =>
    exact {
      nothing := by simp [merges, mergedColumns]
      sublist := List.filter_sublist
      others := fun _ _ => mem_mergedColumns }

theorem conflictClause_eq (policy : KeyPolicy) (query : Query) (columns : List String) :
    conflictClause policy query columns =
      conflictText (conflictColumns policy query) (overwrittenColumns policy query columns) := by
  unfold conflictClause conflictText overwrittenColumns
  cases query.ignoreDuplicates with
  | true => rfl
  | false => simp

def tupleText (cells : List String) : String :=
  "(" ++ String.intercalate ", " cells ++ ")"

/-- The part of an insert that says its rows. -/
def insertText (table : String) (columns : List String) (tuples : List (List String)) : String :=
  "INSERT INTO " ++ escapeIdentifier table ++
    " (" ++ String.intercalate ", " (columns.map escapeIdentifier) ++ ") VALUES " ++
    String.intercalate ", " (tuples.map tupleText)

theorem writeInsert_eq {body : Body} (held : query.body = some body)
    (sendsRows : ∀ params, body ≠ .arguments params) (full : body.isEmpty = false) :
    let columns := Body.columnNames body.insertedRows
    writeInsert policy query = (returningClause query).map fun returning => {
      text := insertText query.table columns (body.insertedRows.map (rowLiterals columns)) ++
        (if query.operation = .upsert then
          conflictText (conflictColumns policy query) (overwrittenColumns policy query columns) else "") ++
        returning
      warnings :=
        (if query.operation = .upsert then conflictWarnings policy query else []) ++ returningWarnings query } := by
  have tuples (columns : List String) :
      (body.insertedRows.map fun row => "(" ++ String.intercalate ", " (rowLiterals columns row) ++ ")") =
        (body.insertedRows.map (rowLiterals columns)).map tupleText := by
    rw [List.map_map]
    rfl
  simp only [← conflictClause_eq]
  rw [writeInsert, insertedRows_ok held full sendsRows, ok_bind]
  simp only [tuples]
  cases returningClause query <;> rfl

/-- The rows that a body sends. -/
inductive SendsRows : Body → List Json.Row → Prop where
  | single (row : Json.Row) : SendsRows (.single row) [row]
  | bulk (rows : List Json.Row) : SendsRows (.bulk rows) rows

namespace SendsRows

variable {body : Body} {rows : List Json.Row}

theorem insertedRows_eq (sends : SendsRows body rows) : body.insertedRows = rows := by
  cases sends <;> rfl

theorem no_arguments (sends : SendsRows body rows) : ∀ params, body ≠ .arguments params := by
  rintro params rfl
  cases sends

theorem isEmpty_iff (sends : SendsRows body rows) : body.isEmpty = false ↔ ∃ row ∈ rows, row ≠ [] := by
  cases sends with
  | single row => simp [Body.isEmpty]
  | bulk rows => simp [Body.isEmpty]

end SendsRows

/-- An insert of some rows is written as a table of them.  For a row that is there already, an upsert says
the columns in which it looks for it and those that it writes over. -/
structure WritesRows (policy : KeyPolicy) (query : Query) (rows : List Json.Row) (columns : List String)
    (tuples : List (List String)) (target overwritten : List String) : Prop where
  table : IsTable rows columns tuples
  distinct : (columns.map escapeIdentifier).Nodup
  reached : IsTarget policy query target
  replaced : IsOverwritten query target columns overwritten
  written : writeInsert policy query = (returningClause query).map fun returning => {
    text := insertText query.table columns tuples ++
      (if query.operation = .upsert then conflictText target overwritten else "") ++ returning
    warnings :=
      (if query.operation = .upsert then conflictWarnings policy query else []) ++ returningWarnings query }

/-- An insert that sends rows writes each of their cells once, in its row and below its column.  An upsert
writes over the columns outside its target, which is the primary key unless it names another. -/
theorem writeInsert_cells {body : Body} {rows : List Json.Row} (held : query.body = some body)
    (sends : SendsRows body rows) (full : ∃ row ∈ rows, row ≠ []) :
    ∃ columns tuples target overwritten, WritesRows policy query rows columns tuples target overwritten := by
  have table := isTable_rowLiterals rows
  have distinct : ((Body.columnNames rows).map escapeIdentifier).Nodup :=
    List.Nodup.map escapeIdentifier_injective table.distinct
  have written := @writeInsert_eq policy query body held sends.no_arguments (sends.isEmpty_iff.mpr full)
  rw [sends.insertedRows_eq] at written
  exact ⟨_, _, _, _, {
    table, distinct, written
    reached := isTarget_conflictColumns
    replaced := isOverwritten_overwrittenColumns }⟩

/-- Two rows that disagree on their keys. -/
def unionRows : List Json.Row :=
  [[("name", .string "a"), ("age", .number (.integer 1))], [("email", .string "b@x.io"), ("name", .string "b")]]

def unionUpsert (onConflict : Option String) : Query where
  table := "users"
  operation := .upsert
  body := some (.bulk unionRows)
  onConflict := onConflict

/-- An upsert that names one of its columns, and one that names none. -/
theorem writeInsert_cells_union :
    (unionUpsert (some " email , ")).body = some (.bulk unionRows) ∧
      (unionUpsert none).body = some (.bulk unionRows) ∧
      SendsRows (.bulk unionRows) unionRows ∧ (∃ row ∈ unionRows, row ≠ []) ∧
      (∃ columns tuples target overwritten,
        WritesRows (.ofOptions {}) (unionUpsert (some " email , ")) unionRows columns tuples target overwritten) ∧
      writeInsert (.ofOptions {}) (unionUpsert (some " email , ")) = .ok {
        text :=
          "INSERT INTO users (name, age, email) VALUES ('a', 1, NULL), ('b', NULL, 'b@x.io')" ++
            " ON CONFLICT (email) DO UPDATE SET name = EXCLUDED.name, age = EXCLUDED.age" } ∧
      (∃ columns tuples target overwritten,
        WritesRows (.ofOptions {}) (unionUpsert none) unionRows columns tuples target overwritten) ∧
      writeInsert (.ofOptions {}) (unionUpsert none) = .ok {
        text :=
          "INSERT INTO users (name, age, email) VALUES ('a', 1, NULL), ('b', NULL, 'b@x.io')" ++
            " ON CONFLICT (id) DO UPDATE SET name = EXCLUDED.name, age = EXCLUDED.age, email = EXCLUDED.email"
        warnings := ["no conflict target given; assuming the primary key 'id'"] } := by
  have full : ∃ row ∈ unionRows, row ≠ [] := ⟨_, List.mem_cons_self, List.cons_ne_nil _ _⟩
  exact ⟨rfl, rfl, .bulk _, full, writeInsert_cells rfl (.bulk _) full, by decide +kernel,
    writeInsert_cells rfl (.bulk _) full, by decide +kernel⟩

end QueryNotation.Sql
