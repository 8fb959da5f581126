import QueryNotation.Proofs.Sql.Change
import QueryNotation.Proofs.Sql.Row
import QueryNotation.Proofs.Validation

namespace QueryNotation.Sql

/-! # What a written statement says

The query that a statement says is the query it was written for, less what SQL has no place
for: compared values are as their literals say, all rows have all columns, a conflict target
is always named and a range is a limit and an offset.
-/

variable {policy : KeyPolicy} {query : Query} {scope : Scope}

def answeredColumns (query : Query) : List Column :=
  if query.returning then shownColumns query else []

def settledRows (query : Query) : List Json.Row :=
  (rowsOf query).map (settledRow (Body.columnNames (rowsOf query)))

def settled (policy : KeyPolicy) (query : Query) : Query :=
  match query.operation with
  | .select => {
      table := query.table
      operation := .select
      columns := shownColumns query
      filters := query.filters.map settledFilter
      order := query.order
      limit := (pagingOf query).limit
      offset := (pagingOf query).offset }
  | .insert => {
      table := query.table
      operation := .insert
      columns := answeredColumns query
      body := some (bodyOfRows (settledRows query))
      returning := query.returning }
  | .upsert => {
      table := query.table
      operation := .upsert
      columns := answeredColumns query
      body := some (bodyOfRows (settledRows query))
      onConflict := some (String.intercalate "," (conflictColumns policy query))
      ignoreDuplicates := keepsRows policy query (Body.columnNames (rowsOf query))
      returning := query.returning }
  | .update => {
      table := query.table
      operation := .update
      columns := answeredColumns query
      filters := query.filters.map settledFilter
      body := some (.single ((rowsOf query).flatten.map fun cell => (cell.1, settledJson cell.2)))
      returning := query.returning }
  | .delete => {
      table := query.table
      operation := .delete
      columns := answeredColumns query
      filters := query.filters.map settledFilter
      returning := query.returning }
  | .call => query

/-- The queries whose statements every reader understands alike: names stand bare, nothing is
cast, and values are compared in the common ways.  The columns of a conflict, assumed ones
among them, are named. -/
structure FitsStatement (policy : KeyPolicy) (query : Query) : Prop where
  alone : query.embeds = []
  table : IsBare query.table
  plain : query.table ≠ "rpc"
  columns : ∀ column ∈ query.columns, IsShown column
  filters : ∀ filter ∈ query.filters, IsBare filter.column ∧ IsCommon filter.op filter.value
  order : ∀ item ∈ query.order, IsBare item.column
  rows : ∀ row ∈ rowsOf query, IsPlainRow row
  target : query.operation = .upsert →
    conflictColumns policy query ≠ [] ∧ ∀ column ∈ conflictColumns policy query, IsBare column

theorem isSome_returningTree (query : Query) : (returningTree query).isSome = query.returning := by
  unfold returningTree
  cases query.returning <;> rfl

theorem isExcluded_mergeTree (column : String) : isExcluded column (mergeTree column).value = true := by
  simp [mergeTree, isExcluded]

theorem mergedColumn_tree {column : String} (bare : IsBare column) :
    mergedColumn (mergeTree column) = .ok column := by
  have target : unquoted (mergeTree column).target = column := bare.unquoted_eq
  unfold mergedColumn
  simp only [target, isExcluded_mergeTree, if_true]

theorem widenedWarnings_same (columns : List String) : widenedWarnings columns columns = [] := by
  have all : columns.all columns.contains = true := by simp
  rw [widenedWarnings, all]
  rfl

theorem columnNames_settledRows (query : Query) :
    Body.columnNames (settledRows query) = Body.columnNames (rowsOf query) := by
  by_cases none : rowsOf query = []
  · rw [settledRows, none]
    rfl
  · refine Body.columnNames_same (by simpa [settledRows] using none) (Body.nodup_columnNames _) ?_
    intro row member
    obtain ⟨given, _, rfl⟩ := List.mem_map.mp member
    exact keys_settledRow _ given

theorem cell_tree {column : String} {cell : Json} (bare : IsBare column) (stable : IsStable cell) :
    Assignment.cell { target := column, value := cellTree cell } = .ok (column, settledJson cell) := by
  have head : column.toList.head? ≠ some '(' := by
    intro first
    exact bare.absent (by decide) (List.mem_of_mem_head? first)
  unfold Assignment.cell
  simp only [bare.unquoted_eq, if_neg head, cellTree_json stable, ok_bind]
  rfl

namespace FitsStatement

theorem shown (fits : FitsStatement policy query) : ∀ column ∈ shownColumns query, IsShown column := by
  unfold shownColumns
  split
  · intro column member
    rw [List.mem_singleton.mp member]
    exact .star
  · exact fits.columns

theorem common (fits : FitsStatement policy query) :
    ∀ filter ∈ query.filters, IsCommon filter.op filter.value :=
  fun filter listed => (fits.filters filter listed).2

theorem named_table (fits : FitsStatement policy query) :
    (tableTree query.table).source.named = .ok { name := query.table, label := none, schema := none } := by
  rw [tableTree, TableSource.named, fits.table.splitTableName_eq]
  rfl

theorem returnedColumns_tree (fits : FitsStatement policy query) :
    returnedColumns scope (returningTree query) = .ok (answeredColumns query) := by
  unfold returningTree answeredColumns
  split
  · rw [returnedColumns, columns_tree fits.shown, ok_bind, List.map_map]
    exact congrArg Except.ok (List.map_id _)
  · rfl

theorem selectTree_read (fits : FitsStatement policy query) (selects : query.operation = .select) :
    (selectTree query).read = .ok { query := settled policy query } := by
  have joins : (tableTree query.table).joins.mapM JoinTree.embed = .ok [] := rfl
  have offset : ((pagingOf query).offset.map fun count => ({ value := countTree count } : OffsetClause)).mapM
      (fun offset => offset.value.count "OFFSET") = .ok (pagingOf query).offset := by
    cases (pagingOf query).offset with
    | none => rfl
    | some count => simp [countTree_count]
  unfold QueryTree.read selectTree settled
  simp only [selects, Option.isSome_none, Bool.false_eq_true, if_false, SelectTree.checkFeatures,
    SelectTree.source, Bool.or_self, List.isEmpty_nil, Bool.not_true, ok_bind, pure_bind, fits.named_table,
    joins, columns_tree fits.shown, conditionFilters_tree fits.common, orders_tree, counts_tree, offset,
    placedAt_none, placedAt_self]
  rfl

theorem bare_columnNames (fits : FitsStatement policy query) :
    ∀ column ∈ Body.columnNames (rowsOf query), IsBare column := by
  intro column member
  obtain ⟨row, listed, inside⟩ := Body.mem_columnNames.mp member
  exact (fits.rows row listed).bare column inside

/-- The clause of an upsert is read back: its target is always named. -/
theorem readConflict_tree (fits : FitsStatement policy query) (upserts : query.operation = .upsert)
    {parsed : Parsed} (fresh : parsed.query.ignoreDuplicates = false) {clause : InsertClause}
    (written : conflictTree policy query (Body.columnNames (rowsOf query)) = some clause) :
    readConflict (settledRows query) parsed clause =
      .ok { parsed with query := { parsed.query with
        operation := .upsert
        onConflict := some (String.intercalate "," (conflictColumns policy query))
        ignoreDuplicates := keepsRows policy query (Body.columnNames (rowsOf query)) } } := by
  obtain ⟨full, bare⟩ := fits.target upserts
  have target : conflictColumns? (some (.columns ((conflictColumns policy query).map fun name =>
      { value := name }))) = .ok (some (String.intercalate "," (conflictColumns policy query))) := by
    rw [conflictColumns?, List.map_map]
    exact congrArg (fun names => Except.ok (some (String.intercalate "," names))) (List.map_id _)
  have assigned : ((mergedColumns (Body.columnNames (rowsOf query))
      (conflictColumns policy query)).map mergeTree).mapM mergedColumn =
      .ok (mergedColumns (Body.columnNames (rowsOf query)) (conflictColumns policy query)) := by
    refine mapM_ok fun column listed => mergedColumn_tree ?_
    exact fits.bare_columnNames column (List.mem_of_mem_filter listed)
  have remaining : remainingColumns (settledRows query)
      (some (String.intercalate "," (conflictColumns policy query))) =
      mergedColumns (Body.columnNames (rowsOf query)) (conflictColumns policy query) := by
    rw [remainingColumns, columnNames_settledRows, Option.getD_some, (areSeparable_bare full bare).commaPieces]
    rfl
  rw [conflictTree, if_pos upserts] at written
  obtain rfl := Option.some.inj written
  simp only [readConflict, target, ok_bind]
  cases keeps : keepsRows policy query (Body.columnNames (rowsOf query)) with
  | true => rfl
  | false =>
      simp only [Bool.false_eq_true, if_false, assigned, ok_bind, remaining, widenedWarnings_same,
        Option.isSome_none, List.append_nil, fresh]
      rfl

theorem insertTree_read (fits : FitsStatement policy query)
    (inserts : query.operation = .insert ∨ query.operation = .upsert)
    (full : Body.columnNames (rowsOf query) ≠ []) :
    (insertTree policy query).read = .ok { query := settled policy query } := by
  have named : ((Body.columnNames (rowsOf query)).map fun name => ({ value := name } : Name)).map
      Name.value = Body.columnNames (rowsOf query) := by
    rw [List.map_map]
    exact List.map_id _
  have some : ((Body.columnNames (rowsOf query)).map fun name => ({ value := name } : Name)).isEmpty = false := by
    simpa using full
  have rows := rowsOfCells_tree (Body.nodup_columnNames (rowsOf query)) fits.rows
  unfold InsertTree.read insertTree
  simp only [fits.table.splitTableName_eq, rowsTree, some, named, rows, ok_bind, Bool.false_eq_true, if_false,
    returnedColumns_tree fits, isSome_returningTree]
  rcases inserts with operation | operation
  · have clause : conflictTree policy query (Body.columnNames (rowsOf query)) = none :=
      if_neg (by simp [operation])
    rw [clause]
    unfold settled
    simp only [operation]
    rfl
  · obtain ⟨clause, given⟩ : ∃ clause, conflictTree policy query (Body.columnNames (rowsOf query)) =
        Option.some clause := ⟨_, if_pos operation⟩
    simp only [given]
    rw [show (rowsOf query).map (settledRow (Body.columnNames (rowsOf query))) = settledRows query from rfl,
      readConflict_tree fits operation rfl given]
    unfold settled
    simp only [operation]
    rfl

/-- The assignments of the one row of an update are read back. -/
theorem assignments_tree (fits : FitsStatement policy query) {row : Json.Row} (single : rowsOf query = [row]) :
    ((rowsOf query).flatten.map fun cell => ({ target := cell.1, value := cellTree cell.2 } : Assignment)).mapM
      Assignment.cell = .ok ((rowsOf query).flatten.map fun cell => (cell.1, settledJson cell.2)) := by
  have plain := fits.rows row (by simp [single])
  have each (cell : String × Json) (listed : cell ∈ row) :
      Assignment.cell { target := cell.1, value := cellTree cell.2 } = .ok (cell.1, settledJson cell.2) :=
    cell_tree (plain.bare cell.1 (List.mem_map_of_mem listed)) (plain.stable cell listed)
  rw [single, List.flatten_singleton, List.mapM_map, Function.comp_def]
  exact mapM_of_ok each

theorem updateTree_read (fits : FitsStatement policy query) (updates : query.operation = .update)
    {row : Json.Row} (single : rowsOf query = [row]) :
    (updateTree query).read = .ok { query := settled policy query } := by
  have kept : Json.Row.ofList ((rowsOf query).flatten.map fun cell => (cell.1, settledJson cell.2)) =
      (rowsOf query).flatten.map fun cell => (cell.1, settledJson cell.2) := by
    refine Json.rowOfList_of_distinct ?_
    rw [single, List.flatten_singleton, Json.Row.keys, List.map_map]
    exact (fits.rows row (by simp [single])).distinct
  unfold UpdateTree.read updateTree settled
  simp only [updates, fits.named_table, ok_bind, assignments_tree fits single, kept,
    conditionFilters_tree fits.common, returnedColumns_tree fits, isSome_returningTree, placedAt_none]
  rfl

theorem deleteTree_read (fits : FitsStatement policy query) (deletes : query.operation = .delete) :
    (deleteTree query).read = .ok { query := settled policy query } := by
  unfold DeleteTree.read DeleteTree.table deleteTree settled
  simp only [deletes, fits.named_table, ok_bind, conditionFilters_tree fits.common,
    returnedColumns_tree fits, isSome_returningTree, placedAt_none]
  rfl

end FitsStatement

/-- The rows of an insert that was accepted have a column. -/
theorem columnNames_full (checked : query.checkBody = .ok ())
    (inserts : query.operation = .insert ∨ query.operation = .upsert) :
    Body.columnNames (rowsOf query) ≠ [] := by
  obtain ⟨body, given, full, rows⟩ := rows_of_checkBody checked inserts
  obtain ⟨row, listed, some⟩ : ∃ row ∈ rowsOf query, row ≠ [] := by
    rw [rowsOf, given]
    cases body with
    | single row => exact ⟨row, by simp [Body.insertedRows], by simpa [Body.isEmpty] using full⟩
    | bulk rows =>
        obtain ⟨row, listed, some⟩ := List.all_eq_false.mp full
        exact ⟨row, listed, by simpa using some⟩
    | arguments params => exact absurd rfl (rows params)
  obtain ⟨field, rest, rfl⟩ := List.exists_cons_of_ne_nil some
  intro none
  have first : field.1 ∈ Body.columnNames (rowsOf query) :=
    Body.mem_columnNames.mpr ⟨_, listed, by simp [Json.Row.keys]⟩
  rw [none] at first
  cases first

theorem rowsOf_update (checked : query.checkBody = .ok ()) (updates : query.operation = .update) :
    ∃ row, rowsOf query = [row] ∧ row ≠ [] := by
  obtain ⟨row, given, full⟩ := row_of_checkBody checked updates
  exact ⟨row, by rw [rowsOf, given]; rfl, by simpa using full⟩

/-- A written statement is read back as the query that it says. -/
theorem FitsStatement.statementTree_read (fits : FitsStatement policy query) (call : query.operation ≠ .call)
    (checked : query.checkBody = .ok ()) :
    (statementTree policy query).read = .ok { query := settled policy query } := by
  unfold statementTree
  cases operation : query.operation with
  | select => exact fits.selectTree_read operation
  | insert => exact fits.insertTree_read (.inl operation) (columnNames_full checked (.inl operation))
  | upsert => exact fits.insertTree_read (.inr operation) (columnNames_full checked (.inr operation))
  | update =>
      obtain ⟨row, single, _⟩ := rowsOf_update checked operation
      exact fits.updateTree_read operation single
  | delete => exact fits.deleteTree_read operation
  | call => exact absurd operation call

end QueryNotation.Sql
