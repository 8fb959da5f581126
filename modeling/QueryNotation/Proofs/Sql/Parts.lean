import QueryNotation.Proofs.Outcome
import QueryNotation.Sql.Reader

namespace QueryNotation.Sql

/-! # The parts of a read statement

A statement that is read consists of parts that are read, one after the other.  What a query says is
taken from them, so that a fact about a read statement is a fact about its parts.
-/

variable {parsed : Parsed}

/-- The parts of a selection: its table and those joined to it, and what it says of them. -/
structure ReadsSelect (tree : QueryTree) (selection : SelectTree) (source : JoinedTable) (table : NamedTable)
    (joined : List JoinedEmbed) (placed : Placed) (limit offset : Option UInt64) : Prop where
  alone : tree.commonTables = none
  body : tree.body = .select selection
  features : selection.checkFeatures = .ok ()
  only : selection.sources = [source]
  named : source.source.named = .ok table
  joins : source.joins.mapM JoinTree.embed = .ok joined
  columns : selection.items.mapM (SelectItem.column (selectionScope table joined)) = .ok placed.columns
  filters : conditionFilters (selectionScope table joined) selection.condition = .ok placed.filters
  order : tree.order.mapM (SortItem.order (selectionScope table joined)) = .ok placed.order
  limit : tree.limit.mapM (Expr.count "LIMIT") = .ok limit
  offset : (tree.offset.mapM fun offset => offset.value.count "OFFSET") = .ok offset

/-- What is read of a selection with these parts. -/
def selectParsed (tree : QueryTree) (table : NamedTable) (joined : List JoinedEmbed) (placed : Placed)
    (limit offset : Option UInt64) : Parsed where
  query := {
    table := table.name
    operation := .select
    columns := placedAt none placed.columns
    filters := placedAt none placed.filters
    order := placedAt none placed.order
    limit, offset
    embeds := joined.zipIdx.map fun (embed, number) => placed.embed embed number }
  warnings := schemaWarnings table.schema ++ joined.map joinWarning ++
    if tree.locks.isEmpty then [] else ["row locking clauses (FOR UPDATE/SHARE) were dropped"]

theorem SelectTree.source_eq {selection : SelectTree} {source : JoinedTable} (read : selection.source = .ok source) :
    selection.sources = [source] := by
  unfold SelectTree.source at read
  split at read
  · next only shape => rw [shape, Except.ok.inj read]
  · cases read
  · cases read

theorem QueryTree.ok_of_read {tree : QueryTree} (read : tree.read = .ok parsed) :
    ∃ selection source table joined placed limit offset,
      ReadsSelect tree selection source table joined placed limit offset ∧
        parsed = selectParsed tree table joined placed limit offset := by
  obtain ⟨common, body, order, limit, offset, fetch, locks⟩ := tree
  cases common with
  | some text => cases read
  | none =>
      cases body with
      | values word rows => cases read
      | other text => cases read
      | select selection =>
          obtain ⟨_, features, read⟩ := ok_of_bind read
          obtain ⟨source, only, read⟩ := ok_of_bind read
          obtain ⟨table, named, read⟩ := ok_of_bind read
          obtain ⟨joined, joins, read⟩ := ok_of_bind read
          obtain ⟨columns, items, read⟩ := ok_of_bind read
          obtain ⟨filters, conditions, read⟩ := ok_of_bind read
          obtain ⟨sorted, sorts, read⟩ := ok_of_bind read
          obtain ⟨limits, limited, read⟩ := ok_of_bind read
          obtain ⟨offsets, shifted, read⟩ := ok_of_bind read
          refine ⟨selection, source, table, joined, ⟨columns, filters, sorted⟩, limits, offsets, ?_,
            (Except.ok.inj read).symm⟩
          exact {
            alone := rfl
            body := rfl
            features
            only := SelectTree.source_eq only
            named, joins
            columns := items
            filters := conditions
            order := sorts
            limit := limited
            offset := shifted }

/-- The parts of an update. -/
structure ReadsUpdate (tree : UpdateTree) (table : NamedTable) (cells : List (String × Json))
    (filters : List PlacedFilter) (columns : List Column) : Prop where
  single : tree.table.joins = []
  named : tree.table.source.named = .ok table
  cells : tree.assignments.mapM Assignment.cell = .ok cells
  filters : conditionFilters (.ofTable table.name table.label) tree.condition = .ok filters
  columns : returnedColumns (.ofTable table.name table.label) tree.returning = .ok columns

theorem UpdateTree.ok_of_read {tree : UpdateTree} (read : tree.read = .ok parsed) :
    ∃ table cells filters columns, ReadsUpdate tree table cells filters columns ∧
      parsed = {
        query := {
          table := table.name
          operation := .update
          columns
          filters := placedAt none filters
          body := some (.single (Json.Row.ofList cells))
          returning := tree.returning.isSome }
        warnings := schemaWarnings table.schema } := by
  unfold UpdateTree.read at read
  cases joined : tree.table.joins with
  | cons join more =>
      simp only [joined, List.isEmpty_cons] at read
      cases read
  | nil =>
      simp only [joined, List.isEmpty_nil] at read
      obtain ⟨table, named, read⟩ := ok_of_bind read
      obtain ⟨cells, assigned, read⟩ := ok_of_bind read
      obtain ⟨filters, conditions, read⟩ := ok_of_bind read
      obtain ⟨columns, answered, read⟩ := ok_of_bind read
      exact ⟨table, cells, filters, columns, ⟨joined, named, assigned, conditions, answered⟩,
        (Except.ok.inj read).symm⟩

/-- The parts of a delete. -/
structure ReadsDelete (tree : DeleteTree) (source : JoinedTable) (table : NamedTable) (filters : List PlacedFilter)
    (columns : List Column) : Prop where
  only : tree.tables = [source]
  single : source.joins = []
  named : source.source.named = .ok table
  filters : conditionFilters (.ofTable table.name table.label) tree.condition = .ok filters
  columns : returnedColumns (.ofTable table.name table.label) tree.returning = .ok columns

theorem DeleteTree.ok_of_table {tree : DeleteTree} {table : NamedTable} (read : tree.table = .ok table) :
    ∃ source, tree.tables = [source] ∧ source.joins = [] ∧ source.source.named = .ok table := by
  unfold DeleteTree.table at read
  split at read
  · cases read
  · next source only =>
    split at read
    · next single => exact ⟨source, only, List.isEmpty_iff.mp single, read⟩
    · cases read
  · cases read

theorem DeleteTree.ok_of_read {tree : DeleteTree} (read : tree.read = .ok parsed) :
    ∃ source table filters columns, ReadsDelete tree source table filters columns ∧
      parsed = {
        query := {
          table := table.name
          operation := .delete
          columns
          filters := placedAt none filters
          returning := tree.returning.isSome }
        warnings := schemaWarnings table.schema } := by
  obtain ⟨table, found, read⟩ := ok_of_bind read
  obtain ⟨filters, conditions, read⟩ := ok_of_bind read
  obtain ⟨columns, answered, read⟩ := ok_of_bind read
  obtain ⟨source, only, single, named⟩ := DeleteTree.ok_of_table found
  exact ⟨source, table, filters, columns, ⟨only, single, named, conditions, answered⟩, (Except.ok.inj read).symm⟩

end QueryNotation.Sql
