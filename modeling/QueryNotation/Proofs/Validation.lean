import QueryNotation.Conversion
import QueryNotation.Proofs.Outcome

namespace QueryNotation

/-! # What validation leaves to fail

A validated query is written in the notation it was validated for.  Only two things are
left to SQL: an output column with a cast that does not name a type, and a range that
takes every row number there is.
-/

variable {query : Query} {target : Form} {policy : Sql.KeyPolicy} {filters : List Filter}
  {embeds : List Embed} {fault : Fault}

theorem checkFilters_ok (checked : Query.checkFilters filters = .ok ()) :
    ∀ filter ∈ filters, filter.connective = .and := by
  unfold Query.checkFilters at checked
  split at checked
  · cases checked
  · next none =>
    intro filter member
    have other := List.find?_eq_none.mp none filter member
    cases joined : filter.connective with
    | and => rfl
    | or => simp [joined] at other

theorem checkEmbed_ok {embed : Embed} (checked : Query.checkEmbed embed = .ok ()) :
    (∀ filter ∈ embed.filters, filter.connective = .and) ∧
      Query.checkEmbeds embed.embeds = .ok () := by
  cases embed
  rw [Query.checkEmbed] at checked
  split at checked
  · cases checked
  · next own => exact ⟨checkFilters_ok own, checked⟩

theorem checkEmbeds_ok (checked : Query.checkEmbeds embeds = .ok ()) :
    ∀ embed ∈ embeds, Query.checkEmbed embed = .ok () := by
  induction embeds with
  | nil => exact List.forall_mem_nil _
  | cons embed rest induction =>
      rw [Query.checkEmbeds] at checked
      split at checked
      · cases checked
      · next here =>
        intro other member
        rcases List.mem_cons.mp member with rfl | behind
        · exact here
        · exact induction checked other behind

mutual

/-- The check of an embed reaches all embeds below it. -/
theorem checkEmbed_reaches (embed : Embed) (path : String)
    (checked : Query.checkEmbed embed = .ok ()) :
    ∀ entry ∈ Embed.pathsFrom path embed, ∀ filter ∈ entry.2.filters, filter.connective = .and := by
  cases embed with
  | mk relation label inner columns filters order limit embeds =>
    obtain ⟨own, below⟩ := checkEmbed_ok checked
    intro entry member
    rw [Embed.pathsFrom] at member
    rcases List.mem_cons.mp member with rfl | inside
    · exact own
    · exact checkEmbeds_reaches embeds path below entry inside

theorem checkEmbeds_reaches (embeds : List Embed) (path : String)
    (checked : Query.checkEmbeds embeds = .ok ()) :
    ∀ entry ∈ Embed.pathsBelow path embeds, ∀ filter ∈ entry.2.filters,
      filter.connective = .and := by
  cases embeds with
  | nil =>
    intro entry member
    cases member
  | cons embed rest =>
    have each := checkEmbeds_ok checked
    rw [Query.checkEmbeds, each embed List.mem_cons_self] at checked
    intro entry member
    rw [Embed.pathsBelow] at member
    rcases List.mem_append.mp member with here | behind
    · exact checkEmbed_reaches embed _ (each embed List.mem_cons_self) entry here
    · exact checkEmbeds_reaches rest path checked entry behind

end

theorem checkPaths_ok (checked : Query.checkEmbeds embeds = .ok ()) :
    ∀ entry ∈ Embed.paths embeds, ∀ filter ∈ entry.2.filters, filter.connective = .and := by
  intro entry member
  obtain ⟨embed, listed, inside⟩ := List.mem_flatMap.mp member
  exact checkEmbed_reaches embed embed.name (checkEmbeds_ok checked embed listed) entry inside

/-- What a validated query is known to be. -/
structure Accepted (query : Query) (target : Form) : Prop where
  filters : ∀ filter ∈ query.filters, filter.connective = .and
  embeds : Query.checkEmbeds query.embeds = .ok ()
  filtered : query.operation = .delete → query.filters ≠ []
  body : query.checkBody = .ok ()
  sql : target = .sql → query.checkSql = .ok ()

theorem accepted_of_validate (valid : query.validate target = .ok ()) : Accepted query target := by
  simp only [Query.validate] at valid
  by_cases blank : Text.allBlank query.table.toList = true
  · rw [if_pos blank] at valid
    cases valid
  rw [if_neg blank] at valid
  obtain ⟨_, filters, valid⟩ := ok_of_bind valid
  obtain ⟨_, embeds, valid⟩ := ok_of_bind valid
  by_cases deletion : (decide (query.operation = .delete) && query.filters.isEmpty) = true
  · rw [if_pos deletion] at valid
    cases valid
  rw [if_neg deletion] at valid
  obtain ⟨_, body, valid⟩ := ok_of_bind valid
  refine ⟨checkFilters_ok filters, embeds, fun deletes none => ?_, body, fun same => ?_⟩
  · simp [deletes, none] at deletion
  · rw [if_pos same] at valid
    exact valid

theorem checkFilters_joined (joined : ∀ filter ∈ filters, filter.connective = .and) :
    Query.checkFilters filters = .ok () := by
  have none : filters.find? (fun filter => filter.connective = .or) = none := by
    rw [List.find?_eq_none]
    intro filter member
    simp [joined filter member]
  rw [Query.checkFilters, none]

/-- A query that names a table and embeds nothing is valid for every notation. -/
theorem validate_alone (named : Text.allBlank query.table.toList = false) (alone : query.embeds = [])
    (joined : ∀ filter ∈ query.filters, filter.connective = .and)
    (filtered : query.operation = .delete → query.filters ≠ []) (body : query.checkBody = .ok ())
    (call : query.operation ≠ .call) : query.validate target = .ok () := by
  have deletes : (decide (query.operation = .delete) && query.filters.isEmpty) = false := by
    rw [Bool.and_eq_false_imp, decide_eq_true_iff]
    exact fun deletes => by simpa using filtered deletes
  have sql : query.checkSql = .ok () := by
    rw [Query.checkSql, if_neg call, alone]
    rfl
  unfold Query.validate
  simp only [named, alone, checkFilters_joined joined, deletes, body, sql, Bool.false_eq_true, if_false,
    Query.checkEmbeds, ok_bind]
  split <;> rfl

theorem rows_of_checkBody (checked : query.checkBody = .ok ())
    (operation : query.operation = .insert ∨ query.operation = .upsert) :
    ∃ body, query.body = some body ∧ body.isEmpty = false ∧
      ∀ params, body ≠ .arguments params := by
  unfold Query.checkBody at checked
  cases found : query.body with
  | none => rcases operation with same | same <;> simp [same, found] at checked
  | some body =>
      cases body with
      | arguments params => rcases operation with same | same <;> simp [same, found] at checked
      | single row =>
          refine ⟨.single row, rfl, ?_, fun params => Body.noConfusion⟩
          rcases operation with same | same <;> simpa [same, found] using checked
      | bulk rows =>
          refine ⟨.bulk rows, rfl, ?_, fun params => Body.noConfusion⟩
          rcases operation with same | same <;> simpa [same, found] using checked

theorem checkBody_of_rows {body : Body} (operation : query.operation = .insert ∨ query.operation = .upsert)
    (given : query.body = some body) (full : body.isEmpty = false)
    (rows : ∀ params, body ≠ .arguments params) : query.checkBody = .ok () := by
  unfold Query.checkBody
  cases body with
  | arguments params => exact absurd rfl (rows params)
  | single row => rcases operation with same | same <;> simp [same, given, full]
  | bulk rows => rcases operation with same | same <;> simp [same, given, full]

theorem row_of_checkBody (checked : query.checkBody = .ok ()) (updates : query.operation = .update) :
    ∃ row, query.body = some (.single row) ∧ row.isEmpty = false := by
  unfold Query.checkBody at checked
  simp only [updates] at checked
  split at checked
  · next row found =>
    refine ⟨row, found, ?_⟩
    cases empty : row.isEmpty with
    | false => rfl
    | true => simp [empty] at checked
  · cases checked
  · cases checked
  · cases checked

theorem operationCalls_ok (accepted : Accepted query target) :
    ∃ calls, Chain.operationCalls query = .ok calls := by
  have literal (body : Body) (found : query.body = some body)
      (rows : ∀ params, body ≠ .arguments params) :
      Chain.bodyLiteral query = .ok (Chain.literal body.toJson) := by
    unfold Chain.bodyLiteral
    rw [found]
    cases body with
    | arguments params => exact absurd rfl (rows params)
    | single row => rfl
    | bulk rows => rfl
  unfold Chain.operationCalls
  cases operation : query.operation with
  | select => exact ⟨_, rfl⟩
  | delete => exact ⟨_, rfl⟩
  | call => exact ⟨_, rfl⟩
  | insert =>
      obtain ⟨body, found, _, rows⟩ := rows_of_checkBody accepted.body (.inl operation)
      simp only [literal body found rows]
      exact ⟨_, rfl⟩
  | upsert =>
      obtain ⟨body, found, _, rows⟩ := rows_of_checkBody accepted.body (.inr operation)
      simp only [literal body found rows]
      exact ⟨_, rfl⟩
  | update =>
      obtain ⟨row, found, _⟩ := row_of_checkBody accepted.body operation
      simp only [literal (.single row) found fun params => Body.noConfusion]
      exact ⟨_, rfl⟩

theorem filterCallOf_ok {filter : Filter} (joined : filter.connective = .and) (column : String) :
    Chain.filterCallOf column filter = .ok (Chain.filterCall column filter) := by
  rw [Chain.filterCallOf, joined]

theorem chain_ok (accepted : Accepted query target) (client : String) :
    ∃ written, Chain.write client query = .ok written := by
  obtain ⟨calls, operation⟩ := operationCalls_ok accepted
  have own : query.filters.mapM (fun filter => Chain.filterCallOf filter.column filter) =
      .ok (query.filters.map fun filter => Chain.filterCall filter.column filter) :=
    mapM_of_ok fun filter member => filterCallOf_ok (accepted.filters filter member) _
  cases finished : Chain.write client query with
  | ok written => exact ⟨written, rfl⟩
  | error fault =>
      rw [Chain.write, operation, ok_bind] at finished
      simp only [own, ok_bind] at finished
      rcases error_of_bind finished with failed | ⟨_, _, finished⟩
      · obtain ⟨entry, listed, failed⟩ := error_of_mapM failed
        obtain ⟨filter, member, failed⟩ := error_of_mapM failed
        rw [filterCallOf_ok (checkPaths_ok accepted.embeds entry listed filter member)] at failed
        cases failed
      · cases finished

namespace Sql

def outputColumns (query : Query) : List Column :=
  query.columns ++ query.embeds.flatMap Embed.columns

/-- What a statement may still fail for. -/
inductive LeftOpen (query : Query) : Fault → Prop
  | cast {column : Column} {cast : String} (listed : column ∈ outputColumns query)
      (given : column.cast = some cast) (broken : isTypeName cast = false) :
      LeftOpen query (.brokenCast cast column.text)
  | range (given : query.range = some (0, greatestCount)) (limit : query.limit = none)
      (offset : query.offset = none) : LeftOpen query (.rangeTooLong 0 greatestCount)

theorem LeftOpen.code (left : LeftOpen query fault) :
    fault.code = "INVALID_COLUMN" ∨ fault.code = "INVALID_INTEGER" := by
  cases left with
  | cast => exact .inl rfl
  | range => exact .inr rfl

theorem columnText_error {qualifier : Option String} {column : Column}
    (listed : column ∈ outputColumns query) (failed : columnText qualifier column = .error fault) :
    LeftOpen query fault := by
  unfold columnText at failed
  split at failed
  · next cast broken =>
    obtain rfl := Except.error.inj failed
    obtain ⟨given, other⟩ := Option.filter_eq_some_iff.mp broken
    exact .cast listed given (by simpa using other)
  · cases failed

theorem conditions_accepted {qualifier : Option String}
    (joined : ∀ filter ∈ filters, filter.connective = .and) :
    conditions qualifier filters = .ok (filters.map (conditionText qualifier)) :=
  mapM_of_ok fun filter member => by rw [condition, joined filter member]

theorem returningClause_error (failed : returningClause query = .error fault) :
    LeftOpen query fault := by
  unfold returningClause at failed
  split at failed
  · cases failed
  · split at failed
    · cases failed
    · rcases error_of_bind failed with failed | ⟨_, _, failed⟩
      · obtain ⟨column, listed, failed⟩ := error_of_mapM failed
        exact columnText_error (List.mem_append_left _ listed) failed
      · cases failed

theorem whereClause_ok (accepted : Accepted query target) :
    whereClause query = .ok (clause " WHERE " " AND " (query.filters.map (conditionText none))) := by
  rw [whereClause, conditions_accepted accepted.filters]
  rfl

/-- Only the range from the first row number to the last takes all of them. -/
theorem full_range {first last : UInt64}
    (full : (if first ≤ last then last - first else 0) = greatestCount) :
    first = 0 ∧ last = greatestCount := by
  split at full
  · next ordered =>
    have span := congrArg UInt64.toNat full
    rw [UInt64.toNat_sub_of_le _ _ ordered] at span
    have greatest : greatestCount.toNat = 18446744073709551615 := rfl
    have bound := last.toNat_lt
    constructor
    · rw [← UInt64.toNat_inj]
      change first.toNat = 0
      omega
    · rw [← UInt64.toNat_inj]
      omega
  · cases full

theorem paging_error (failed : paging query = .error fault) : LeftOpen query fault := by
  unfold paging at failed
  split at failed
  · next first last given =>
    by_cases unset : (query.limit.isNone && query.offset.isNone) = true
    · simp only [if_pos unset] at failed
      obtain ⟨limit, offset⟩ := Bool.and_eq_true_iff.mp unset
      by_cases full : (if first ≤ last then last - first else 0) = greatestCount
      · rw [if_pos full] at failed
        obtain ⟨rfl, rfl⟩ := full_range full
        obtain rfl := Except.error.inj failed
        exact .range given (Option.isNone_iff_eq_none.mp limit) (Option.isNone_iff_eq_none.mp offset)
      · rw [if_neg full] at failed
        cases failed
    · rw [if_neg unset] at failed
      cases failed
  · cases failed

theorem shallow_of_checkSql (checked : query.checkSql = .ok ()) :
    query.operation ≠ .call ∧ ∀ embed ∈ query.embeds, ¬ embed.depth > 1 := by
  unfold Query.checkSql at checked
  split at checked
  · cases checked
  · next other =>
    refine ⟨other, fun embed member deep => ?_⟩
    split at checked
    · cases checked
    · next none =>
      have shallow := List.find?_eq_none.mp none embed member
      simp [deep] at shallow

theorem joinedColumns_error {joins : List (Embed × Join)}
    (among : ∀ pair ∈ joins, pair.1 ∈ query.embeds)
    (failed : (joins.mapM fun ((embed, join) : Embed × Join) =>
      embed.columns.mapM (columnText (some join.qualifier))) = .error fault) :
    LeftOpen query fault := by
  obtain ⟨⟨embed, join⟩, paired, failed⟩ := error_of_mapM failed
  obtain ⟨column, listed, failed⟩ := error_of_mapM failed
  have inside : column ∈ query.embeds.flatMap Embed.columns :=
    List.mem_flatMap.mpr ⟨embed, among _ paired, listed⟩
  exact columnText_error (List.mem_append_right _ inside) failed

theorem selectColumns_error {qualifier : Option String} {joins : List (Embed × Join)}
    (among : ∀ pair ∈ joins, pair.1 ∈ query.embeds)
    (failed : selectColumns query qualifier joins = .error fault) : LeftOpen query fault := by
  unfold selectColumns at failed
  simp only at failed
  split at failed
  · rw [show (pure ["*"] : Outcome (List String)) = .ok ["*"] from rfl, ok_bind] at failed
    rcases error_of_bind failed with failed | ⟨_, _, failed⟩
    · exact joinedColumns_error among failed
    · cases failed
  · rcases error_of_bind failed with failed | ⟨_, _, failed⟩
    · obtain ⟨column, listed, failed⟩ := error_of_mapM failed
      exact columnText_error (List.mem_append_left _ listed) failed
    · rcases error_of_bind failed with failed | ⟨_, _, failed⟩
      · exact joinedColumns_error among failed
      · cases failed

theorem writeSelect_error (accepted : Accepted query .sql)
    (failed : writeSelect policy query = .error fault) : LeftOpen query fault := by
  have shallow := (shallow_of_checkSql (accepted.sql rfl)).2
  rcases error_of_bind failed with failed | ⟨plans, _, failed⟩
  · obtain ⟨embed, listed, failed⟩ := error_of_mapM failed
    rw [Join.ofEmbed, if_neg (shallow embed listed)] at failed
    cases failed
  have among : ∀ pair ∈ query.embeds.zip plans, pair.1 ∈ query.embeds :=
    fun pair paired => (List.of_mem_zip paired).1
  rcases error_of_bind failed with failed | ⟨_, _, failed⟩
  · exact selectColumns_error among failed
  rcases error_of_bind failed with failed | ⟨_, _, failed⟩
  · rw [conditions_accepted accepted.filters] at failed
    cases failed
  rcases error_of_bind failed with failed | ⟨_, _, failed⟩
  · obtain ⟨⟨embed, join⟩, paired, failed⟩ := error_of_mapM failed
    have joined := (checkEmbed_ok (checkEmbeds_ok accepted.embeds embed (among _ paired))).1
    simp only [conditions_accepted joined] at failed
    cases failed
  rcases error_of_bind failed with failed | ⟨_, _, failed⟩
  · exact paging_error failed
  · cases failed

theorem insertedRows_ok {body : Body} (given : query.body = some body) (full : body.isEmpty = false)
    (rows : ∀ params, body ≠ .arguments params) : insertedRows query = .ok body.insertedRows := by
  unfold insertedRows
  rw [given]
  cases body with
  | arguments params => exact absurd rfl (rows params)
  | single row => simp only [full, Bool.false_eq_true, if_false]
  | bulk rows => simp only [full, Bool.false_eq_true, if_false]

theorem writeInsert_error (accepted : Accepted query target)
    (operation : query.operation = .insert ∨ query.operation = .upsert)
    (failed : writeInsert policy query = .error fault) : LeftOpen query fault := by
  obtain ⟨body, found, full, rows⟩ := rows_of_checkBody accepted.body operation
  rw [writeInsert, insertedRows_ok found full rows, ok_bind] at failed
  rcases error_of_bind failed with failed | ⟨_, _, failed⟩
  · exact returningClause_error failed
  · cases failed

theorem writeUpdate_error (accepted : Accepted query target) (updates : query.operation = .update)
    (failed : writeUpdate query = .error fault) : LeftOpen query fault := by
  obtain ⟨row, found, full⟩ := row_of_checkBody accepted.body updates
  have assigned : assignedRow query = .ok row := by
    unfold assignedRow
    rw [found]
    simp [full]
  rw [writeUpdate, assigned, ok_bind] at failed
  simp only [whereClause_ok accepted, ok_bind] at failed
  rcases error_of_bind failed with failed | ⟨_, _, failed⟩
  · exact returningClause_error failed
  · cases failed

theorem writeDelete_error (accepted : Accepted query target) (deletes : query.operation = .delete)
    (failed : writeDelete query = .error fault) : LeftOpen query fault := by
  have filtered : ¬ query.filters.isEmpty = true := by
    simpa using accepted.filtered deletes
  rw [writeDelete, if_neg filtered] at failed
  simp only [whereClause_ok accepted, ok_bind] at failed
  rcases error_of_bind failed with failed | ⟨_, _, failed⟩
  · exact returningClause_error failed
  · cases failed

theorem write_error (accepted : Accepted query .sql) (failed : write policy query = .error fault) :
    LeftOpen query fault := by
  have statement := (shallow_of_checkSql (accepted.sql rfl)).1
  unfold write at failed
  cases operation : query.operation with
  | select =>
      rw [operation] at failed
      exact writeSelect_error accepted failed
  | insert =>
      rw [operation] at failed
      exact writeInsert_error accepted (.inl operation) failed
  | upsert =>
      rw [operation] at failed
      exact writeInsert_error accepted (.inr operation) failed
  | update =>
      rw [operation] at failed
      exact writeUpdate_error accepted operation failed
  | delete =>
      rw [operation] at failed
      exact writeDelete_error accepted operation failed
  | call => exact absurd operation statement

end Sql

/-- A query that is validated for a notation is written in it.  A request and a chain can
always be written, whoever the client is; of SQL, whatever the policy for keys is, only the
cast of an output column and the range that takes every row are left to fail. -/
theorem write_validated (query : Query) (target : Form) (policy : Sql.KeyPolicy) (client : String)
    (options : Options) (warnings : List String) (valid : query.validate target = .ok ()) :
    (target = .rest → Conversion.ofParsed options target { query, warnings } =
      .ok (Conversion.toRest { query, warnings })) ∧
    (target = .chain → ∃ written, Chain.write client query = .ok written) ∧
    (target = .sql → (∃ written, Sql.write policy query = .ok written) ∨
      ∃ fault, Sql.write policy query = .error fault ∧ Sql.LeftOpen query fault ∧
        (fault.code = "INVALID_COLUMN" ∨ fault.code = "INVALID_INTEGER")) := by
  have accepted := accepted_of_validate valid
  refine ⟨?_, fun _ => chain_ok accepted client, ?_⟩
  · rintro rfl
    rw [Conversion.ofParsed, valid]
    rfl
  · rintro rfl
    cases finished : Sql.write policy query with
    | ok written => exact .inl ⟨written, rfl⟩
    | error fault =>
        have left := Sql.write_error accepted finished
        exact .inr ⟨fault, rfl, left, left.code⟩

/-- An upsert with an embed below an embed, which two notations can write. -/
def nestedUpsert : Query where
  table := "users"
  operation := .upsert
  columns := [{ name := "id", cast := some "no type" }]
  filters := [{ column := "id", op := .eq, value := .number "1" }]
  body := some (.bulk [[("id", .number (.integer 1))], []])
  embeds := [{ relation := "posts", columns := [], embeds := [{ relation := "tags", columns := [] }] }]

/-- A range of all rows, with a cast that names a type. -/
def everyRow : Query where
  table := "users"
  operation := .select
  columns := [{ name := "id", cast := some "text" }]
  range := some (0, Sql.greatestCount)

theorem write_validated_sample :
    nestedUpsert.validate .rest = .ok () ∧ nestedUpsert.validate .chain = .ok () ∧
      everyRow.validate .sql = .ok () ∧
      (∃ written, Chain.write "db" nestedUpsert = .ok written) ∧
      (∃ fault, Sql.write (.ofOptions {}) everyRow = .error fault ∧ Sql.LeftOpen everyRow fault) := by
  have rest : nestedUpsert.validate .rest = .ok () := rfl
  have chain : nestedUpsert.validate .chain = .ok () := rfl
  have sql : everyRow.validate .sql = .ok () := rfl
  have failed : Sql.write (.ofOptions {}) everyRow =
      .error (.rangeTooLong 0 Sql.greatestCount) := by decide +kernel
  have written := (write_validated nestedUpsert .chain (.ofOptions {}) "db" {} [] chain).2.1 rfl
  rcases (write_validated everyRow .sql (.ofOptions {}) "db" {} [] sql).2.2 rfl with
    ⟨other, same⟩ | ⟨fault, same, left, _⟩
  · rw [failed] at same
    cases same
  · exact ⟨rest, chain, sql, written, fault, same, left⟩

end QueryNotation
