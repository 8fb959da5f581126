import QueryNotation.Proofs.Outcome
import QueryNotation.Proofs.Sql.Identifier
import QueryNotation.Sql.Insert
import QueryNotation.Sql.Reader

namespace QueryNotation.Sql

/-! # Inserts that are read

Everything that a read insert says comes from three readings: that of its rows, that of what it does
about rows that are there already, and that of the columns that it answers with.
-/

variable {tree : InsertTree} {rows : List Json.Row} {before parsed : Parsed} {clause : InsertClause}

/-- What the clause behind the rows adds to an insert. -/
inductive ReadsConflict (rows : List Json.Row) (before : Parsed) : InsertClause → Parsed → Prop where
  | keeps {target : Option ConflictTarget} {onConflict : Option String}
      (found : conflictColumns? target = .ok onConflict) :
      ReadsConflict rows before (.onConflict target .doNothing) { before with
        query := { before.query with operation := .upsert, onConflict, ignoreDuplicates := true } }
  | merges {target : Option ConflictTarget} {onConflict : Option String} {assignments : List Assignment}
      {condition : Option Expr} {assigned : List String} (found : conflictColumns? target = .ok onConflict)
      (each : assignments.mapM mergedColumn = .ok assigned) :
      ReadsConflict rows before (.onConflict target (.doUpdate assignments condition)) {
        query := { before.query with operation := .upsert, onConflict }
        warnings := before.warnings ++
          (if condition.isSome then ["ON CONFLICT ... WHERE dropped; upserts merge every conflicting row"] else []) ++
          widenedWarnings assigned (remainingColumns rows onConflict) }

theorem readsConflict (read : readConflict rows before clause = .ok parsed) :
    ReadsConflict rows before clause parsed := by
  cases clause with
  | onConflict target action =>
      obtain ⟨columns, found, read⟩ := ok_of_bind read
      cases action with
      | doNothing =>
          obtain rfl := Except.ok.inj read
          exact .keeps found
      | doUpdate assignments condition =>
          obtain ⟨assigned, each, read⟩ := ok_of_bind read
          obtain rfl := Except.ok.inj read
          exact .merges found each
  | onDuplicateKey assignments => cases read

theorem ReadsConflict.table_eq (reads : ReadsConflict rows before clause parsed) :
    parsed.query.table = before.query.table := by
  cases reads with
  | keeps => rfl
  | merges => rfl

/-- An insert of some rows, before anything else of it is read. -/
def startedInsert (tree : InsertTree) (rows : List Json.Row) : Parsed where
  query := {
    table := (splitTableName (Name.path tree.table)).1
    operation := .insert
    body := some (bodyOfRows rows) }
  warnings := schemaWarnings (splitTableName (Name.path tree.table)).2

@[simp] theorem startedInsert_warnings (tree : InsertTree) (rows : List Json.Row) :
    (startedInsert tree rows).warnings = schemaWarnings (splitTableName (Name.path tree.table)).2 := by
  rw [startedInsert]

/-- What an insert says of its rows. -/
structure ReadsRows (tree : InsertTree) (rows : List Json.Row) : Prop where
  values : ∃ source word cells, tree.source = some source ∧ source.body = .values word cells ∧
    rowsOfCells (tree.columns.map Name.value) (rowsText word cells) 1 cells = .ok rows
  columns : tree.columns ≠ []

/-- What is read before the columns that an insert answers with. -/
inductive ReadsClause (tree : InsertTree) (rows : List Json.Row) : Parsed → Prop where
  | none (alone : tree.clause = none) : ReadsClause tree rows (startedInsert tree rows)
  | some {clause : InsertClause} {parsed : Parsed} (behind : tree.clause = some clause)
      (read : ReadsConflict rows (startedInsert tree rows) clause parsed) : ReadsClause tree rows parsed

theorem ReadsClause.table_eq (reads : ReadsClause tree rows parsed) :
    parsed.query.table = (splitTableName (Name.path tree.table)).1 := by
  cases reads with
  | none => rw [startedInsert]
  | some _ conflict => rw [conflict.table_eq, startedInsert]

theorem InsertTree.ok_of_read (read : tree.read = .ok parsed) :
    ∃ rows before columns, ReadsRows tree rows ∧ ReadsClause tree rows before ∧
      parsed = { before with query := { before.query with columns, returning := tree.returning.isSome } } := by
  obtain ⟨lead, table, label, columns, source, clause, returning⟩ := tree
  unfold InsertTree.read at read
  dsimp only at read
  split at read
  · cases read
  · next source =>
    split at read
    · next word cells body =>
      split at read
      · cases read
      · next named =>
        obtain ⟨rows, found, read⟩ := ok_of_bind read
        have values : ReadsRows ⟨lead, table, label, columns, some source, clause, returning⟩ rows :=
          ⟨⟨source, word, cells, rfl, body, found⟩, by simpa using named⟩
        cases clause with
        | none =>
            obtain ⟨before, plain, read⟩ := ok_of_bind read
            obtain ⟨answered, _, read⟩ := ok_of_bind read
            obtain rfl := Except.ok.inj plain
            exact ⟨rows, _, answered, values, .none rfl, (Except.ok.inj read).symm⟩
        | some clause =>
            obtain ⟨before, conflict, read⟩ := ok_of_bind read
            obtain ⟨answered, _, read⟩ := ok_of_bind read
            exact ⟨rows, before, answered, values, .some rfl (readsConflict conflict), (Except.ok.inj read).symm⟩
    · cases read

/-- Names that can be told from each other when commas stand between them. -/
structure AreSeparable (names : List String) : Prop where
  some : names ≠ []
  comma : ∀ name ∈ names, ',' ∉ name.toList
  trimmed : ∀ name ∈ names, Text.trim name.toList = name.toList

theorem areSeparable_bare {names : List String} (some : names ≠ []) (bare : ∀ name ∈ names, IsBare name) :
    AreSeparable names where
  some := some
  comma name listed := (bare name listed).absent (by decide)
  trimmed name listed := (bare name listed).isName.trim_eq

namespace AreSeparable

variable {names : List String} {policy : KeyPolicy} {query : Query}

theorem pieces (separable : AreSeparable names) :
    Text.pieces (· == ',') (String.intercalate "," names).toList = names.map String.toList := by
  rw [String.toList_intercalate]
  refine Text.pieces_intercalate rfl (by simpa using separable.some) fun part listed c inside => ?_
  obtain ⟨name, given, rfl⟩ := List.mem_map.mp listed
  rw [beq_eq_false_iff_ne]
  rintro rfl
  exact separable.comma name given inside

/-- The reader finds the names again. -/
theorem commaPieces (separable : AreSeparable names) : commaPieces (String.intercalate "," names) = names := by
  rw [Sql.commaPieces, separable.pieces, List.map_map]
  exact (List.map_congr_left fun name _ => String.ofList_toList).trans (List.map_id names)

/-- The writer finds the names again that are not empty. -/
theorem conflictColumns (separable : AreSeparable names)
    (given : query.onConflict = .some (String.intercalate "," names)) :
    conflictColumns policy query = names.filter (· ≠ "") := by
  have trimmed : (names.map String.toList).map Text.trim = names.map String.toList := by
    rw [List.map_map]
    exact List.map_congr_left separable.trimmed
  rw [Sql.conflictColumns, given, ← List.filterMap_eq_filter]
  simp only [separable.pieces, trimmed, List.filterMap_map]
  refine List.filterMap_congr fun name _ => ?_
  by_cases empty : name = ""
  · simp [empty, Option.guard]
  · simp [empty, Option.guard]

end AreSeparable

end QueryNotation.Sql
