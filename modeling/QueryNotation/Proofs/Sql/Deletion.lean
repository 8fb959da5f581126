import QueryNotation.Conversion
import QueryNotation.Proofs.Outcome

namespace QueryNotation.Sql

/-! # What a deletion deletes

A `DELETE` is only written for a query with filters.  A filter may still become a constant:
no value is in an empty list, and each value is outside it.  So the condition of a written
`DELETE` tests a column exactly when some filter is not an empty `in`, and it is true of every
row when all filters are negated empty ones.

An `UPDATE` without filters changes every row.  Only SQL tells of it: a request and a chain are
written with no word more than the reader said, but for what a chain cannot hold of a count or an
offset.
-/

variable {filter : Filter} {filters : List Filter} {text : String} {texts : List String}

/-- The words that negate a test without a `NOT` in front of it. -/
def negativeWord? : Operator → Option String
  | .is => some "IS NOT"
  | .oneOf => some "NOT IN"
  | .like => some "NOT LIKE"
  | .ilike => some "NOT ILIKE"
  | .matches => some "!~"
  | .imatches => some "!~*"
  | _ => none

/-- What stands between a column and the value it is tested against. -/
def IsTestWord (word : String) : Prop :=
  ∃ op : Operator, word = op.symbol ∨ negativeWord? op = some word

/-- A condition that tests a column, or the negation of such a condition. -/
inductive TestsColumn (column : String) : String → Prop
  | plain {word : String} (known : IsTestWord word) (operand : String) :
      TestsColumn column (escapeName column ++ " " ++ word ++ " " ++ operand)
  | negated {word : String} (known : IsTestWord word) (operand : String) :
      TestsColumn column ("NOT (" ++ (escapeName column ++ " " ++ word ++ " " ++ operand) ++ ")")

/-- True for a filter that asks for a place in an empty list. -/
def isEmptyIn (filter : Filter) : Bool :=
  filter.op = .oneOf && isEmptyList filter.value

/-- What the condition of a filter is: a test of its column, or a constant for an empty `in`. -/
inductive IsConditionOf (filter : Filter) (text : String) : Prop
  | test (full : isEmptyIn filter = false) (tests : TestsColumn filter.column text)
  | always (empty : isEmptyIn filter = true) (negated : filter.negated = true)
      (constant : text = "TRUE")
  | never (empty : isEmptyIn filter = true) (positive : filter.negated = false)
      (constant : text = "FALSE")

theorem conditionText_empty (qualifier : Option String) (empty : isEmptyIn filter = true) :
    conditionText qualifier filter = if filter.negated then "TRUE" else "FALSE" := by
  have both : filter.op = .oneOf ∧ isEmptyList filter.value := by simpa [isEmptyIn] using empty
  simp only [conditionText, if_pos both]

theorem conditionText_full (qualifier : Option String) (full : isEmptyIn filter = false) :
    conditionText qualifier filter =
      let test := fun word => qualified qualifier filter.column ++ " " ++ word ++ " " ++
        literal filter.op filter.value filter.config
      if filter.negated then
        match negativeWord? filter.op with
        | some word => test word
        | none => "NOT (" ++ test filter.op.symbol ++ ")"
      else test filter.op.symbol := by
  have apart : ¬ (filter.op = .oneOf ∧ isEmptyList filter.value) := by simpa [isEmptyIn] using full
  simp only [conditionText, if_neg apart]
  cases filter.negated with
  | false => rfl
  | true =>
      simp only [Bool.not_true, Bool.false_eq_true, if_false, if_true]
      cases filter.op <;> simp [negativeWord?, Operator.symbol, Operator.entry, String.append_assoc]

theorem isConditionOf_conditionText (filter : Filter) :
    IsConditionOf filter (conditionText none filter) := by
  cases empty : isEmptyIn filter with
  | true =>
      rw [conditionText_empty none empty]
      cases negated : filter.negated with
      | true => exact .always empty negated rfl
      | false => exact .never empty negated rfl
  | false =>
      refine .test empty ?_
      rw [conditionText_full none empty]
      have positive : IsTestWord filter.op.symbol := ⟨filter.op, .inl rfl⟩
      cases filter.negated with
      | false => exact .plain positive _
      | true =>
          cases known : negativeWord? filter.op with
          | none => exact .negated positive _
          | some word => exact .plain ⟨filter.op, .inr known⟩ _

theorem conditions_ok (found : conditions none filters = .ok texts) :
    List.Forall₂ IsConditionOf filters texts := by
  refine (forall₂_of_mapM found).imp fun filter text here => ?_
  unfold condition at here
  split at here
  · cases here
  · obtain rfl := Except.ok.inj here
    exact isConditionOf_conditionText filter

theorem TestsColumn.spaced {column : String} (tests : TestsColumn column text) :
    ' ' ∈ text.toList := by
  cases tests with
  | plain => simp
  | negated => simp

theorem not_tests_of_spaceless (none : ' ' ∉ text.toList) : ¬ ∃ column, TestsColumn column text :=
  fun ⟨_, tests⟩ => none tests.spaced

theorem IsConditionOf.tests_iff (is : IsConditionOf filter text) :
    (∃ column, TestsColumn column text) ↔ isEmptyIn filter = false := by
  cases is with
  | test full tests => exact ⟨fun _ => full, fun _ => ⟨_, tests⟩⟩
  | always empty negated constant =>
      subst constant
      exact iff_of_false (not_tests_of_spaceless (by decide)) (by simp [empty])
  | never empty positive constant =>
      subst constant
      exact iff_of_false (not_tests_of_spaceless (by decide)) (by simp [empty])

theorem IsConditionOf.always_iff (is : IsConditionOf filter text) :
    text = "TRUE" ↔ isEmptyIn filter = true ∧ filter.negated = true := by
  cases is with
  | test full tests =>
      constructor
      · rintro rfl
        exact absurd tests.spaced (by decide)
      · rintro ⟨empty, -⟩
        rw [full] at empty
        cases empty
  | always empty negated constant => exact ⟨fun _ => ⟨empty, negated⟩, fun _ => constant⟩
  | never empty positive constant => simp [constant, positive]

theorem writeDelete_ok {written : Written} {query : Query} (finished : writeDelete query = .ok written) :
    ∃ texts returned, texts ≠ [] ∧ List.Forall₂ IsConditionOf query.filters texts ∧
      returningClause query = .ok returned ∧
      written.text = "DELETE FROM " ++ escapeIdentifier query.table ++ " WHERE " ++
        " AND ".intercalate texts ++ returned := by
  unfold writeDelete at finished
  split at finished
  · cases finished
  · next filtered =>
    obtain ⟨found, where_, finished⟩ := ok_of_bind finished
    obtain ⟨returned, returning, finished⟩ := ok_of_bind finished
    obtain ⟨texts, listed, where_⟩ := ok_of_bind where_
    obtain rfl := Except.ok.inj where_
    obtain rfl := Except.ok.inj finished
    have shapes := conditions_ok listed
    have full : texts ≠ [] := by
      rintro rfl
      rw [List.forall₂_nil_right_iff.mp shapes] at filtered
      exact filtered rfl
    exact ⟨texts, returned, full, shapes, returning, by
      simp [clause, full, String.append_assoc]⟩

/-- Read a text in a notation that is converted to SQL. -/
def readText (options : Options) (source : Form) (text : String) : Outcome Parsed :=
  match source with
  | .sql => Sql.read options text
  | .rest => do Rest.read options (← RawRequest.ofText text)
  | .chain => Chain.readQuery options text

theorem convert_sql (options : Options) (source : Form) (text : String) :
    convert options source .sql text =
      readText options source text >>= Conversion.ofParsed options .sql := by
  cases source with
  | sql => rfl
  | rest =>
      unfold convert readText
      cases RawRequest.ofText text with
      | error fault => rfl
      | ok request => rfl
  | chain => rfl

theorem ofParsed_delete {options : Options} {parsed : Parsed} {result : Conversion}
    (deletes : parsed.query.operation = .delete)
    (converted : Conversion.ofParsed options .sql parsed = .ok result) :
    ∃ written, writeDelete parsed.query = .ok written ∧ result.output = written.text := by
  obtain ⟨_, _, converted⟩ := ok_of_bind converted
  obtain ⟨written, wrote, converted⟩ := ok_of_bind converted
  obtain rfl := Except.ok.inj converted
  unfold write at wrote
  rw [deletes] at wrote
  exact ⟨written, wrote, rfl⟩

theorem exists_mem_iff {p : String → Prop} {q : Filter → Prop}
    (each : List.Forall₂ (fun filter text => p text ↔ q filter) filters texts) :
    (∃ text ∈ texts, p text) ↔ ∃ filter ∈ filters, q filter := by
  induction each with
  | nil => simp
  | cons here _ induction => simp only [List.exists_mem_cons_iff, here, induction]

theorem forall_mem_iff {p : String → Prop} {q : Filter → Prop}
    (each : List.Forall₂ (fun filter text => p text ↔ q filter) filters texts) :
    (∀ text ∈ texts, p text) ↔ ∀ filter ∈ filters, q filter := by
  induction each with
  | nil => simp
  | cons here _ induction => simp only [List.forall_mem_cons, here, induction]

/-- Whatever text a `DELETE` comes from, it has a `WHERE` with one condition for each filter.
Some condition tests a column exactly when some filter is not an empty `in`, and all
conditions are `TRUE` exactly when all filters are negated empty ones. -/
theorem convert_delete (options : Options) (source : Form) (text : String) (parsed : Parsed)
    (result : Conversion) (read : readText options source text = .ok parsed)
    (deletes : parsed.query.operation = .delete)
    (converted : convert options source .sql text = .ok result) :
    ∃ texts returned,
      result.output = "DELETE FROM " ++ escapeIdentifier parsed.query.table ++ " WHERE " ++
        " AND ".intercalate texts ++ returned ∧
      texts ≠ [] ∧ List.Forall₂ IsConditionOf parsed.query.filters texts ∧
      returningClause parsed.query = .ok returned ∧
      ((∃ text ∈ texts, ∃ column, TestsColumn column text) ↔
        ∃ filter ∈ parsed.query.filters, isEmptyIn filter = false) ∧
      ((∀ text ∈ texts, text = "TRUE") ↔
        ∀ filter ∈ parsed.query.filters, isEmptyIn filter = true ∧ filter.negated = true) := by
  rw [convert_sql, read, ok_bind] at converted
  obtain ⟨written, wrote, same⟩ := ofParsed_delete deletes converted
  obtain ⟨texts, returned, full, shapes, returning, shown⟩ := writeDelete_ok wrote
  refine ⟨texts, returned, same.trans shown, full, shapes, returning, ?_, ?_⟩
  · exact exists_mem_iff (shapes.imp fun _ _ => IsConditionOf.tests_iff)
  · exact forall_mem_iff (shapes.imp fun _ _ => IsConditionOf.always_iff)

/-- A negated empty `in` passes for a filter. -/
theorem delete_everything :
    (readText {} .rest "DELETE /users?id=not.in.()").map (·.query.operation) = .ok .delete ∧
      (convert {} .rest .sql "DELETE /users?id=not.in.()").map Conversion.output =
        .ok "DELETE FROM users WHERE TRUE" ∧
      ∀ column, ¬ TestsColumn column "TRUE" :=
  ⟨by decide +kernel, by decide +kernel, fun _ tests => absurd tests.spaced (by decide)⟩

/-- The `WHERE` of a deletion that is written for one filter tests its column. -/
theorem convert_delete_one :
    ∃ parsed result, readText {} .chain "db.from('users').delete().eq('id', 1)" = .ok parsed ∧
      parsed.query.operation = .delete ∧
      convert {} .chain .sql "db.from('users').delete().eq('id', 1)" = .ok result ∧
      result.output = "DELETE FROM users WHERE id = 1" ∧
      ∃ texts returned,
        result.output = "DELETE FROM " ++ escapeIdentifier "users" ++ " WHERE " ++
          " AND ".intercalate texts ++ returned ∧
        List.Forall₂ IsConditionOf [{ column := "id", op := .eq, value := .number "1" }] texts ∧
        ∃ text ∈ texts, ∃ column, TestsColumn column text := by
  have reads : (readText {} .chain "db.from('users').delete().eq('id', 1)").map
      (fun parsed => (parsed.query.operation, parsed.query.table, parsed.query.filters)) =
        .ok (.delete, "users", [{ column := "id", op := .eq, value := .number "1" }]) := by decide +kernel
  have converts : (convert {} .chain .sql "db.from('users').delete().eq('id', 1)").map
      Conversion.output = .ok "DELETE FROM users WHERE id = 1" := by decide +kernel
  obtain ⟨parsed, read, same⟩ := ok_of_map reads
  obtain ⟨deletes, table, filters⟩ : parsed.query.operation = .delete ∧ parsed.query.table = "users" ∧
      parsed.query.filters = [{ column := "id", op := .eq, value := .number "1" }] := by simpa using same
  obtain ⟨result, converted, output⟩ := ok_of_map converts
  obtain ⟨texts, returned, shown, _, shapes, _, tested, _⟩ :=
    convert_delete {} .chain _ parsed result read deletes converted
  rw [table] at shown
  rw [filters] at shapes tested
  exact ⟨parsed, result, read, deletes, converted, output, texts, returned, shown, shapes,
    tested.mpr ⟨_, List.mem_singleton_self _, rfl⟩⟩

end QueryNotation.Sql

namespace QueryNotation

open Sql (readText)

variable {options : Options} {source target : Form} {text : String} {parsed : Parsed}
  {query : Query} {result : Conversion}

/-- Whatever is read as a query is converted as that query. -/
theorem convert_readText (read : readText options source text = .ok parsed) :
    convert options source target text = Conversion.ofParsed options target parsed := by
  cases source with
  | sql =>
      have found : Sql.read options text = .ok parsed := read
      unfold convert
      simp only [found, ok_bind]
  | rest =>
      obtain ⟨request, taken, read⟩ := ok_of_bind read
      unfold convert Conversion.ofRequest
      simp only [taken, read, ok_bind]
  | chain =>
      obtain ⟨reading, found, kept⟩ := ok_of_bind (show Chain.readQuery options text = .ok parsed from read)
      cases reading with
      | service call => cases kept
      | query other =>
          obtain rfl := Except.ok.inj kept
          unfold convert
          simp only [found, ok_bind, show Chain.readQuery options text = .ok other from read]
          split <;> rfl

/-- What the SQL writer says of an update of every row. -/
def everyRowNote (table : String) : String :=
  "UPDATE without filters changes every row in '" ++ table ++ "'"

/-- An offset that no call of a chain can carry: it has no limit, or the last row is beyond all
counts. -/
def LosesOffset (query : Query) : Prop :=
  ∃ offset, query.offset = some offset ∧
    ∀ limit, query.limit = some limit → Chain.lastRow? limit offset = none

theorem updateWarnings_unfiltered (unfiltered : query.filters = []) :
    ∃ more, Sql.updateWarnings query = [everyRowNote query.table ++ more] := by
  unfold Sql.updateWarnings
  rw [unfiltered]
  cases Sql.droppedModifiers? query with
  | none =>
      refine ⟨"", ?_⟩
      rw [String.append_empty]
      rfl
  | some note =>
      refine ⟨"; " ++ note, ?_⟩
      rw [← String.append_assoc]
      rfl

theorem writeUpdate_warns {written : Sql.Written} (unfiltered : query.filters = [])
    (finished : Sql.writeUpdate query = .ok written) :
    ∃ more, everyRowNote query.table ++ more ∈ written.warnings := by
  obtain ⟨row, _, finished⟩ := ok_of_bind finished
  obtain ⟨found, _, finished⟩ := ok_of_bind finished
  obtain ⟨returning, _, finished⟩ := ok_of_bind finished
  obtain rfl := Except.ok.inj finished
  obtain ⟨more, said⟩ := updateWarnings_unfiltered unfiltered
  exact ⟨more, List.mem_append_left _ (by rw [said]; exact List.mem_singleton_self _)⟩

theorem rest_warnings_update (updates : query.operation = .update) : Rest.warnings query = [] := by
  unfold Rest.warnings Rest.bodyOf
  rw [updates]
  cases query.body <;> rfl

theorem pagingCalls_silent : (Chain.pagingCalls query).2 = [] ↔ ¬ LosesOffset query := by
  unfold Chain.pagingCalls LosesOffset
  cases query.limit with
  | none => cases query.offset <;> simp
  | some limit =>
      cases query.offset with
      | none => simp
      | some offset => cases found : Chain.lastRow? limit offset <;> simp [found]

theorem mutationCalls_silent (updates : query.operation = .update) :
    (Chain.mutationCalls query).2 = [] ↔ query.count = none := by
  unfold Chain.mutationCalls
  rw [updates]
  cases query.count <;> simp [Operation.isMutation]

theorem chain_warnings {client : String} {written : Chain.Written}
    (finished : Chain.write client query = .ok written) :
    written.warnings = (Chain.mutationCalls query).2 ++ (Chain.pagingCalls query).2 := by
  obtain ⟨operation, _, finished⟩ := ok_of_bind finished
  obtain ⟨filters, _, finished⟩ := ok_of_bind finished
  obtain ⟨embedFilters, _, finished⟩ := ok_of_bind finished
  obtain rfl := Except.ok.inj finished
  rfl

/-- An update of every row is told of in SQL.  In the other notations nothing is said of it: the
conversion is silent when its reader was, unless a chain loses a count or an offset. -/
theorem convert_update (options : Options) (source target : Form) (text : String) (parsed : Parsed)
    (result : Conversion) (read : readText options source text = .ok parsed)
    (updates : parsed.query.operation = .update) (unfiltered : parsed.query.filters = [])
    (converted : convert options source target text = .ok result) :
    (target = .sql → ∃ more, everyRowNote parsed.query.table ++ more ∈ result.warnings) ∧
      (result.warnings = [] ↔ target ≠ .sql ∧ parsed.warnings = [] ∧
        (target = .chain → parsed.query.count = none ∧ ¬ LosesOffset parsed.query)) := by
  rw [convert_readText read] at converted
  obtain ⟨_, _, converted⟩ := ok_of_bind converted
  cases target with
  | sql =>
      obtain ⟨written, wrote, converted⟩ := ok_of_bind converted
      obtain rfl := Except.ok.inj converted
      unfold Sql.write at wrote
      rw [updates] at wrote
      obtain ⟨more, said⟩ := writeUpdate_warns unfiltered wrote
      have told := List.mem_append_right parsed.warnings said
      refine ⟨fun _ => ⟨more, told⟩, fun silent => ?_, fun silent => absurd rfl silent.1⟩
      exact absurd silent (List.ne_nil_of_mem told)
  | rest =>
      obtain rfl := Except.ok.inj converted
      have silent : (Rest.write parsed.query).warnings = [] := rest_warnings_update updates
      simp [Conversion.toRest, silent]
  | chain =>
      obtain ⟨written, wrote, converted⟩ := ok_of_bind converted
      obtain rfl := Except.ok.inj converted
      simp [chain_warnings wrote, mutationCalls_silent updates, pagingCalls_silent]

/-- Neither a request nor a chain tells of an update of every row. -/
theorem update_untold :
    (readText {} .sql "UPDATE t SET a = 1").map
        (fun parsed => (parsed.query.operation, parsed.query.filters)) = .ok (.update, []) ∧
      (convert {} .sql .rest "UPDATE t SET a = 1").map Conversion.warnings = .ok [] ∧
      (convert {} .sql .chain "UPDATE t SET a = 1").map Conversion.warnings = .ok [] := by
  refine ⟨?_, ?_, ?_⟩ <;> decide +kernel

theorem convert_update_told :
    ∃ parsed result, readText {} .rest "PATCH /users\n\n\x7b\"active\":false\x7d" = .ok parsed ∧
      parsed.query.operation = .update ∧ parsed.query.filters = [] ∧
      convert {} .rest .sql "PATCH /users\n\n\x7b\"active\":false\x7d" = .ok result ∧
      ∃ more, everyRowNote parsed.query.table ++ more ∈ result.warnings := by
  have reads : (readText {} .rest "PATCH /users\n\n\x7b\"active\":false\x7d").map
      (fun parsed => (parsed.query.operation, parsed.query.filters)) = .ok (.update, []) := by
    decide +kernel
  have converts : (convert {} .rest .sql "PATCH /users\n\n\x7b\"active\":false\x7d").map
      Conversion.output = .ok "UPDATE users SET active = false" := by decide +kernel
  obtain ⟨parsed, read, same⟩ := ok_of_map reads
  obtain ⟨updates, unfiltered⟩ := Prod.mk.inj same
  obtain ⟨result, converted, _⟩ := ok_of_map converts
  have settled := convert_update {} .rest .sql _ parsed result read updates unfiltered converted
  exact ⟨parsed, result, read, updates, unfiltered, converted, settled.1 rfl⟩

end QueryNotation
