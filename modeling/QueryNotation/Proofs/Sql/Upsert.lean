import QueryNotation.Proofs.Sql.Change
import QueryNotation.Proofs.Sql.Insert

namespace QueryNotation.Sql

/-! # Upserts that are read

An upsert may assign nothing but the inserted values, and it is written as one that assigns every
inserted column outside its target.  The reader warns where this is more or less than the statement
assigned.
-/

variable {policy : KeyPolicy} {tree : InsertTree} {parsed : Parsed} {names : List Name}
  {assignments : List Assignment} {assignment : Assignment} {column : String} {value : Expr}
  {assigned merged : List String}

/-- The one column that an assignment names; no quotation mark is part of the name. -/
structure Assigns (assignment : Assignment) (column : String) : Prop where
  target : ∃ name : Name, assignment.target = Name.path [name] ∧ name.value = column ∧ name.mark ∈ [none, some '"']
  plain : '"' ∉ column.toList

/-- The inserted value of a column, in as many parentheses as there may be. -/
inductive IsInserted (column : String) : Expr → Prop where
  | path {table word : Name} (excluded : table.value.toList.map Char.toLower = "excluded".toList)
      (same : word.value = column) : IsInserted column (.path [table, word])
  | nested {inner : Expr} (inserted : IsInserted column inner) : IsInserted column (.nested inner)

theorem Assigns.unquoted_eq (assigns : Assigns assignment column) : unquoted assignment.target = column := by
  obtain ⟨⟨name, target, rfl, mark⟩, plain⟩ := assigns
  have path : Name.path [name] = name.text := by simp [Name.path]
  rw [target, path, unquoted_text mark plain]

theorem isExcluded_iff : isExcluded column value = true ↔ IsInserted column value := by
  constructor
  · intro excluded
    induction value using isExcluded.induct with
    | case1 table word =>
        simp only [isExcluded, Bool.and_eq_true, beq_iff_eq] at excluded
        exact .path excluded.1 excluded.2
    | case2 inner induction => exact .nested (induction (by simpa only [isExcluded] using excluded))
    | case3 value other further =>
        unfold isExcluded at excluded
        split at excluded
        · next table word => exact absurd rfl (other table word)
        · next inner => exact absurd rfl (further inner)
        · cases excluded
  · intro inserted
    induction inserted with
    | path excluded same => simp [isExcluded, excluded, same]
    | nested _ induction => rwa [isExcluded]

/-- What is read of an assignment is its target as it is written, without quotation marks. -/
theorem ok_of_mergedColumn (read : mergedColumn assignment = .ok column) :
    unquoted assignment.target = column ∧ IsInserted column assignment.value := by
  unfold mergedColumn at read
  dsimp only at read
  split at read
  · next excluded =>
    obtain rfl := Except.ok.inj read
    exact ⟨rfl, isExcluded_iff.mp excluded⟩
  · cases read

theorem ok_of_mergedColumns (each : assignments.mapM mergedColumn = .ok assigned) :
    assigned = assignments.map (fun assignment => unquoted assignment.target) ∧
      ∀ assignment ∈ assignments, IsInserted (unquoted assignment.target) assignment.value := by
  induction assignments generalizing assigned with
  | nil =>
      obtain rfl := Except.ok.inj each
      exact ⟨rfl, List.forall_mem_nil _⟩
  | cons first rest induction =>
      rw [List.mapM_cons] at each
      obtain ⟨column, read, each⟩ := ok_of_bind each
      obtain ⟨more, behind, each⟩ := ok_of_bind each
      obtain rfl := Except.ok.inj each
      obtain ⟨rfl, inserted⟩ := ok_of_mergedColumn read
      obtain ⟨rfl, further⟩ := induction behind
      exact ⟨rfl, List.forall_mem_cons.mpr ⟨inserted, further⟩⟩

theorem mem_assigned (single : ∀ assignment ∈ assignments, ∃ column, Assigns assignment column) :
    column ∈ assignments.map (fun assignment => unquoted assignment.target) ↔
      ∃ assignment ∈ assignments, Assigns assignment column := by
  rw [List.mem_map]
  refine exists_congr fun assignment => and_congr_right fun listed => ?_
  obtain ⟨named, assigns⟩ := single assignment listed
  constructor
  · rintro rfl
    rwa [assigns.unquoted_eq]
  · exact Assigns.unquoted_eq

/-- What is said when an upsert assigns other columns than it is written with. -/
def IsWidened (warning : String) : Prop :=
  ∃ assigned merged : String,
    warning = "DO UPDATE SET " ++ assigned ++ " widened to every inserted column (" ++ merged ++
      "); upserts merge the whole row"

theorem IsWidened.head {warning : String} (widened : IsWidened warning) : warning.toList.head? = some 'D' := by
  obtain ⟨assigned, merged, rfl⟩ := widened
  simp [String.toList_append]

theorem not_isWidened_schema {schema : Option String} {warning : String} (listed : warning ∈ schemaWarnings schema) :
    ¬ IsWidened warning := by
  intro widened
  have head := widened.head
  cases schema with
  | none => cases listed
  | some schema =>
      rw [List.mem_singleton.mp listed] at head
      simp [String.toList_append] at head

theorem not_isWidened_condition {condition : Option Expr} {warning : String}
    (listed : warning ∈ if condition.isSome then
      ["ON CONFLICT ... WHERE dropped; upserts merge every conflicting row"] else []) :
    ¬ IsWidened warning := by
  intro widened
  have head := widened.head
  split at listed
  · rw [List.mem_singleton.mp listed] at head
    simp at head
  · cases listed

theorem widened_append_iff {others warnings : List String} (plain : ∀ warning ∈ others, ¬ IsWidened warning) :
    (∃ warning ∈ others ++ warnings, IsWidened warning) ↔ ∃ warning ∈ warnings, IsWidened warning := by
  constructor
  · rintro ⟨warning, listed, widened⟩
    exact ⟨warning, (List.mem_append.mp listed).resolve_left fun other => plain warning other widened, widened⟩
  · rintro ⟨warning, listed, widened⟩
    exact ⟨warning, List.mem_append_right _ listed, widened⟩

theorem widened_iff :
    (∃ warning ∈ widenedWarnings assigned merged, IsWidened warning) ↔
      ¬ ∀ column, column ∈ assigned ↔ column ∈ merged := by
  have same : (merged.all assigned.contains && assigned.all merged.contains) = true ↔
      ∀ column, column ∈ assigned ↔ column ∈ merged := by
    simp only [Bool.and_eq_true, List.all_eq_true, List.contains_iff_mem]
    exact ⟨fun both column => ⟨both.2 column, both.1 column⟩,
      fun agree => ⟨fun column => (agree column).mpr, fun column => (agree column).mp⟩⟩
  rw [← same, widenedWarnings]
  split
  · next agree => simp [agree]
  · next differ =>
    have said : IsWidened ("DO UPDATE SET " ++ commaList assigned ++ " widened to every inserted column (" ++
        commaList merged ++ "); upserts merge the whole row") := ⟨_, _, rfl⟩
    simp [differ, said]

/-- An insert of some rows that merges them into those that the named columns tell it of. -/
structure IsUpsert (tree : InsertTree) (names : List Name) (assignments : List Assignment) : Prop where
  values : ∃ source word cells, tree.source = some source ∧ source.body = .values word cells ∧ cells ≠ []
  clause : ∃ condition, tree.clause = some (.onConflict (some (.columns names)) (.doUpdate assignments condition))

theorem remainingColumns_join {rows : List Json.Row} {target : List String} (separable : AreSeparable target)
    (empty : "" ∈ target → "" ∉ Body.columnNames rows) :
    remainingColumns rows (some (String.intercalate "," target)) =
      mergedColumns (Body.columnNames rows) (target.filter (· ≠ "")) := by
  rw [remainingColumns, Option.getD_some, separable.commaPieces, mergedColumns]
  refine List.filter_congr fun column listed => ?_
  have same : target.contains column = (target.filter (· ≠ "")).contains column := by
    rw [Bool.eq_iff_iff, List.contains_iff_mem, List.contains_iff_mem, List.mem_filter, decide_eq_true_eq,
      iff_self_and]
    rintro member rfl
    exact empty member listed
  rw [same]

/-- The reader takes an empty name for a conflict column, and the writer does not. -/
example :
    remainingColumns [[("", .null)]] (some "id,") = [] ∧
      mergedColumns [""] (conflictColumns (.ofOptions {}) {
        table := "t", operation := .upsert, onConflict := some "id," }) = [""] := by
  decide

/-- What is read of an upsert. -/
structure ReadsUpsert (tree : InsertTree) (target : List String) (assignments : List Assignment)
    (rows : List Json.Row) (parsed : Parsed) : Prop where
  columns : ∀ column, column ∈ Body.columnNames rows ↔ column ∈ tree.columns.map Name.value
  full : (bodyOfRows rows).isEmpty = false
  body : parsed.query.body = some (bodyOfRows rows)
  operation : parsed.query.operation = .upsert
  merges : parsed.query.ignoreDuplicates = false
  conflict : parsed.query.onConflict = some (String.intercalate "," target)
  inserted : ∀ assignment ∈ assignments, IsInserted (unquoted assignment.target) assignment.value
  warnings : ∃ others, (∀ warning ∈ others, ¬ IsWidened warning) ∧
    parsed.warnings = others ++ widenedWarnings (assignments.map fun assignment => unquoted assignment.target)
      (remainingColumns rows (some (String.intercalate "," target)))

theorem IsUpsert.ok_of_read (upserts : IsUpsert tree names assignments) (accepted : tree.read = .ok parsed) :
    ∃ rows, ReadsUpsert tree (names.map Name.value) assignments rows parsed := by
  obtain ⟨rows, before, answered, reads, said, rfl⟩ := InsertTree.ok_of_read accepted
  obtain ⟨condition, clause⟩ := upserts.clause
  obtain ⟨source, word, cells, sent, values, some⟩ := upserts.values
  obtain ⟨_, _, _, sent', values', found⟩ := reads.values
  obtain rfl := Option.some.inj (sent.symm.trans sent')
  obtain ⟨rfl, rfl⟩ := QueryBody.values.inj (values.symm.trans values')
  have listed : ∀ column, column ∈ Body.columnNames rows ↔ column ∈ tree.columns.map Name.value :=
    fun _ => mem_columnNames_read found some
  obtain ⟨first, member⟩ := List.exists_mem_of_ne_nil _ (mt List.map_eq_nil_iff.mp reads.columns)
  cases said with
  | none alone =>
      rw [alone] at clause
      cases clause
  | some behind conflict =>
      obtain rfl := Option.some.inj (behind.symm.trans clause)
      cases conflict with
      | merges target each =>
          obtain rfl := Except.ok.inj target
          obtain ⟨rfl, inserted⟩ := ok_of_mergedColumns each
          refine ⟨rows, {
            columns := listed
            full := isEmpty_bodyOfRows (List.ne_nil_of_mem ((listed first).mpr member))
            body := rfl
            operation := rfl
            merges := rfl
            conflict := rfl
            inserted := inserted
            warnings := ⟨_, ?_, rfl⟩ }⟩
          -- The other warnings are of the schema and of a dropped condition; neither tells of a widening.
          intro warning member
          rw [startedInsert_warnings] at member
          rcases List.mem_append.mp member with schema | dropped
          · exact not_isWidened_schema schema
          · exact not_isWidened_condition dropped

/-- The reader warns of an upsert if and only if the statement assigns other columns than the written
one, and it accepts no other values than the inserted ones of the same columns. -/
theorem upsert_widened_iff (accepted : tree.read = .ok parsed) (upserts : IsUpsert tree names assignments)
    (separable : AreSeparable (names.map Name.value))
    (empty : "" ∈ names.map Name.value → "" ∉ tree.columns.map Name.value)
    (single : ∀ assignment ∈ assignments, ∃ column, Assigns assignment column) :
    (∀ assignment ∈ assignments, ∀ column, Assigns assignment column → IsInserted column assignment.value) ∧
    ∃ body, parsed.query.body = some body ∧
      let columns := Body.columnNames body.insertedRows
      let overwritten := overwrittenColumns policy parsed.query columns
      (writeInsert policy parsed.query = (returningClause parsed.query).map fun returning => {
        text := insertText parsed.query.table columns (body.insertedRows.map (rowLiterals columns)) ++
          conflictText (conflictColumns policy parsed.query) overwritten ++ returning
        warnings := returningWarnings parsed.query }) ∧
      ((∃ warning ∈ parsed.warnings, IsWidened warning) ↔
        ¬ ∀ column, (∃ assignment ∈ assignments, Assigns assignment column) ↔ column ∈ overwritten) := by
  obtain ⟨rows, reads⟩ := upserts.ok_of_read accepted
  refine ⟨fun assignment member column assigns => assigns.unquoted_eq ▸ reads.inserted assignment member,
    bodyOfRows rows, reads.body, ?_, ?_⟩
  · have silent : conflictWarnings policy parsed.query = [] := by rw [conflictWarnings, reads.conflict]
    have written := @writeInsert_eq policy _ _ reads.body (bodyOfRows_rows rows).2 reads.full
    simpa only [reads.operation, if_true, silent, List.nil_append] using written
  · obtain ⟨others, plain, warnings⟩ := reads.warnings
    have merged : overwrittenColumns policy parsed.query (Body.columnNames rows) =
        remainingColumns rows (some (String.intercalate "," (names.map Name.value))) := by
      rw [overwrittenColumns, reads.merges, separable.conflictColumns reads.conflict,
        remainingColumns_join separable fun member => mt (reads.columns "").mp (empty member)]
      rfl
    rw [(bodyOfRows_rows rows).1, merged, warnings, widened_append_iff plain, widened_iff]
    exact not_congr (forall_congr' fun column => iff_congr (mem_assigned single) Iff.rfl)

/-- An upsert that leaves one of its inserted columns as it is. -/
theorem upsert_widened_iff_unassigned :
    let assignments : List Assignment := [{
      target := Name.path [{ value := "name", mark := some '"' }]
      value := .nested (.path [{ value := "excluded" }, { value := "name" }]) }]
    let tree : InsertTree := {
      lead := "INSERT INTO "
      table := [{ value := "users" }]
      columns := [{ value := "id" }, { value := "name" }, { value := "age" }]
      source := some {
        body := .values "VALUES" [[.constant (.number "1" false), .constant (.string "a"),
          .constant (.number "2" false)]] }
      clause := some (.onConflict (some (.columns [{ value := "id" }])) (.doUpdate assignments none)) }
    IsUpsert tree [{ value := "id" }] assignments ∧ AreSeparable ["id"] ∧
      (∀ assignment ∈ assignments, ∃ column, Assigns assignment column) ∧
      ∃ parsed, tree.read = .ok parsed ∧
        (∀ assignment ∈ assignments, ∀ column, Assigns assignment column → IsInserted column assignment.value) ∧
        (∃ body, parsed.query.body = some body ∧
          let columns := Body.columnNames body.insertedRows
          let overwritten := overwrittenColumns (.ofOptions {}) parsed.query columns
          (writeInsert (.ofOptions {}) parsed.query = (returningClause parsed.query).map fun returning => {
            text := insertText parsed.query.table columns (body.insertedRows.map (rowLiterals columns)) ++
              conflictText (conflictColumns (.ofOptions {}) parsed.query) overwritten ++ returning
            warnings := returningWarnings parsed.query }) ∧
          ((∃ warning ∈ parsed.warnings, IsWidened warning) ↔
            ¬ ∀ column, (∃ assignment ∈ assignments, Assigns assignment column) ↔ column ∈ overwritten)) ∧
        parsed.warnings =
          ["DO UPDATE SET name widened to every inserted column (name, age); upserts merge the whole row"] := by
  intro assignments tree
  have upserts : IsUpsert tree [{ value := "id" }] assignments := {
    values := ⟨_, _, _, rfl, rfl, List.cons_ne_nil _ _⟩
    clause := ⟨none, rfl⟩ }
  have separable : AreSeparable ["id"] := areSeparable_bare (List.cons_ne_nil _ _) (by decide)
  have single : ∀ assignment ∈ assignments, ∃ column, Assigns assignment column := by
    intro assignment listed
    obtain rfl := List.mem_singleton.mp listed
    exact ⟨"name", {
      target := ⟨{ value := "name", mark := some '"' }, rfl, rfl, by decide⟩
      plain := by decide }⟩
  have warned : tree.read.map Parsed.warnings =
      .ok ["DO UPDATE SET name widened to every inserted column (name, age); upserts merge the whole row"] := by
    decide +kernel
  obtain ⟨parsed, accepted, warnings⟩ := ok_of_map warned
  obtain ⟨inserted, agrees⟩ :=
    @upsert_widened_iff (.ofOptions {}) _ _ _ _ accepted upserts separable (by decide) single
  exact ⟨upserts, separable, single, parsed, accepted, inserted, agrees, warnings⟩

/-- A quotation mark in the name of the assigned column is overlooked: another column is written over,
and nothing is said. -/
theorem doubledMark_unwidened :
    let inserted : Expr := .path [{ value := "EXCLUDED" }, { value := "ab" }]
    let tree : InsertTree := {
      lead := "INSERT INTO "
      table := [{ value := "t" }]
      columns := [{ value := "id" }, { value := "ab" }]
      source := some {
        body := .values "VALUES" [[.constant (.number "1" false), .constant (.number "2" false)]] }
      clause := some (.onConflict (some (.columns [{ value := "id" }]))
        (.doUpdate [{ target := Name.path [{ value := "a\"b", mark := some '"' }], value := inserted }] none)) }
    let seen := fun parsed : Parsed => (parsed.warnings, writeInsert (.ofOptions {}) parsed.query)
    ¬ IsInserted "a\"b" inserted ∧
      tree.read.map seen = .ok ([], .ok {
        text := "INSERT INTO t (id, ab) VALUES (1, 2) ON CONFLICT (id) DO UPDATE SET ab = EXCLUDED.ab" }) ∧
      (read {} "INSERT INTO t (id, ab) VALUES (1, 2) ON CONFLICT (id) DO UPDATE SET \"a\"\"b\" = EXCLUDED.ab").map
        seen = tree.read.map seen := by
  refine ⟨?_, ?_, ?_⟩
  · rw [← isExcluded_iff]
    decide
  · decide +kernel
  · decide +kernel

end QueryNotation.Sql
