import QueryNotation.Proofs.Rest.Settled

namespace QueryNotation.Sql

/-! # The statement of a query that went through a request

The query that the request of a statement says has the statement of the query that was written
first: strings that were typed have the literals of the strings, and nothing else that changed
on the way is part of a statement.
-/

open Value Rest

variable {policy other : KeyPolicy} {query left right : Query} {filter : Filter} {op : Operator}
  {value : Value} {qualifier : Option String}

theorem replaceChar_again (text : String) :
    replaceChar '*' '%' (replaceChar '*' '%' text) = replaceChar '*' '%' text := by
  unfold replaceChar
  rw [String.toList_ofList, List.map_map]
  refine congrArg String.ofList (List.map_congr_left fun c _ => ?_)
  by_cases star : c = '*'
  · simp [star]
  · simp [star]

theorem scalarLiteral_settled (value : Value) : scalarLiteral (settledScalar value) = scalarLiteral value := by
  cases value with
  | string text => exact scalarLiteral_ofToken text
  | list items => exact scalarLiteral_arrayText items
  | _ => rfl

/-- The value that a literal says has this literal. -/
theorem literal_settled (common : IsCommon op value) (config : Option String) :
    literal op (settledValue op value) none = literal op value config := by
  cases common with
  | compared compares numeric =>
      have same := scalarLiteral_settled value
      simp only [List.mem_cons, List.not_mem_nil, or_false] at compares
      rcases compares with rfl | rfl | rfl | rfl | rfl | rfl <;> exact same
  | @pattern op text wild =>
      have same := replaceChar_again text
      rcases wild with rfl | rfl <;> exact congrArg quote same
  | null => rfl
  | bool value => cases value <;> rfl
  | @list items full scalars =>
      have same : (items.map settledScalar).map scalarLiteral = items.map scalarLiteral := by
        rw [List.map_map]
        exact List.map_congr_left fun item _ => scalarLiteral_settled item
      exact congrArg (fun texts => "(" ++ String.intercalate ", " texts ++ ")") same

theorem isEmptyList_settled (common : IsCommon .oneOf value) :
    isEmptyList (settledValue .oneOf value) = isEmptyList value := by
  cases common with
  | @list items full scalars => cases items <;> rfl
  | compared compares => exact absurd compares (by decide)
  | pattern wild => rcases wild with wild | wild <;> cases wild

theorem conditionText_settled (common : IsCommon filter.op filter.value) :
    conditionText qualifier (settledFilter filter) = conditionText qualifier filter := by
  have listed : (filter.op = .oneOf ∧ isEmptyList (settledValue filter.op filter.value) = true) =
      (filter.op = .oneOf ∧ isEmptyList filter.value = true) := by
    refine propext (and_congr_right fun isIn => ?_)
    rw [isIn] at common ⊢
    rw [isEmptyList_settled common]
  unfold settledFilter
  simp only [conditionText, literal_settled common filter.config, listed]

/-- The conditions of the filters that come back are those of the filters that were written. -/
theorem conditions_returned (fits : FitsStatement policy query)
    (joined : ∀ filter ∈ query.filters, filter.connective = .and) :
    conditions qualifier ((query.filters.map settledFilter).map sentFilter) =
      conditions qualifier query.filters := by
  have back : ∀ filter ∈ (query.filters.map settledFilter).map sentFilter, filter.connective = .and := by
    intro filter member
    obtain ⟨sent, _, rfl⟩ := List.mem_map.mp member
    rfl
  rw [conditions_accepted back, conditions_accepted joined, List.map_map, List.map_map]
  refine congrArg Except.ok (List.map_congr_left fun filter listed => ?_)
  have common := fits.common filter listed
  have carried : Carries (settledFilter filter).op (settledFilter filter).value := carries_settled common
  exact (conditionText_sent carried qualifier).trans (conditionText_settled common)

/-- A query shows all columns, whether it says so or names none, or it shows those it names. -/
theorem shown_cases (fits : FitsStatement policy query) :
    (query.columns = [] ∨ query.columns = [.star]) ∧ shownColumns query = [.star] ∨
      query.selectsAll = false ∧ shownColumns query = query.columns := by
  unfold shownColumns
  by_cases none : query.columns = []
  · exact .inl ⟨.inl none, by rw [none]; rfl⟩
  · rw [if_neg (by simpa using none)]
    cases all : query.selectsAll with
    | false => exact .inr ⟨rfl, rfl⟩
    | true =>
        have listed := fits.columns
        unfold Query.selectsAll at all
        split at all
        · next empty => exact absurd empty none
        · next column single =>
          rw [single] at listed ⊢
          cases listed column (by simp) with
          | star => exact .inl ⟨.inr rfl, rfl⟩
          | @named name label bare labelled =>
              have star : name = "*" := of_decide_eq_true all
              exact absurd bare (by rw [star]; decide)
        · cases all

theorem listedColumns_settled (fits : FitsStatement policy query) (call : query.operation ≠ .call)
    (answers : query.operation.isMutation = true → query.returning = true) :
    (query.columns = [] ∨ query.columns = [.star]) ∧
        listedColumns (settled policy query) = (if query.operation = .select then [.star] else []) ∨
      query.selectsAll = false ∧ listedColumns (settled policy query) = query.columns := by
  have columns : (settled policy query).columns = shownColumns query := by
    unfold settled answeredColumns
    cases operation : query.operation with
    | select => rfl
    | call => exact absurd operation call
    | _ => exact if_pos (answers (by rw [operation]; rfl))
  have returning : query.operation.isMutation = true → (settled policy query).returning = true := by
    intro mutates
    unfold settled
    cases operation : query.operation with
    | select | call => simp [operation, Operation.isMutation] at mutates
    | _ => exact answers mutates
  have sent : sendsSelect (settled policy query) = !(settled policy query).selectsAll := by
    rw [sendsSelect_eq, settled_operation, settled_embeds fits, List.isEmpty_nil, Bool.and_true]
    cases mutates : query.operation.isMutation with
    | false => rfl
    | true => rw [returning mutates]; rfl
  rw [listedColumns, sent, Query.selectsAll, columns, settled_operation]
  rcases shown_cases fits with ⟨all, shown⟩ | ⟨some, shown⟩
  · exact .inl ⟨all, by rw [shown]; rfl⟩
  · rw [Query.selectsAll] at some
    exact .inr ⟨some, by rw [shown, some]; rfl⟩

theorem selectColumns_returned (fits : FitsStatement policy query) (selects : query.operation = .select) :
    selectColumns (returned policy query) none [] = selectColumns query none [] := by
  have all : ∀ other : Query, other.columns = [] ∨ other.columns = [.star] →
      selectColumns other none [] = .ok ["*"] := by
    rintro other (none | star)
    · simp only [selectColumns, none]
      rfl
    · simp only [selectColumns, star]
      rfl
  have listed := listedColumns_settled fits (by simp [selects]) (by simp [selects, Operation.isMutation])
  rw [if_pos selects] at listed
  rcases listed with ⟨whole, star⟩ | ⟨_, same⟩
  · rw [all query whole, all (returned policy query) (.inr star)]
  · have columns : (returned policy query).columns = query.columns := same
    simp only [selectColumns, columns]

theorem returningClause_returned (fits : FitsStatement policy query) (mutates : query.operation.isMutation = true) :
    returningClause (returned policy query) = returningClause query := by
  have call : query.operation ≠ .call := by
    intro same
    rw [same] at mutates
    cases mutates
  have select : query.operation ≠ .select := by
    intro same
    rw [same] at mutates
    cases mutates
  have returning : (returned policy query).returning = query.returning := by
    unfold returned settled
    cases operation : query.operation <;> first | rfl | exact absurd operation select
  unfold returningClause
  rw [returning]
  cases answers : query.returning with
  | false => rfl
  | true =>
      have listed := listedColumns_settled fits call fun _ => answers
      rw [if_neg select] at listed
      -- The star is read back as no columns at all, which return all of them too.
      rcases listed with ⟨whole, none⟩ | ⟨_, same⟩
      · have every : query.selectsAll = true := by
          rcases whole with columns | columns
          · rw [Query.selectsAll, columns]
          · rw [Query.selectsAll, columns]
            rfl
        have back : (returned policy query).selectsAll = true := by
          rw [Query.selectsAll, show (returned policy query).columns = [] from none]
        rw [every, back]
        rfl
      · have columns : (returned policy query).columns = query.columns := same
        simp only [Query.selectsAll, columns]
        rfl

theorem jsonLiteral_settled (cell : Json) : jsonLiteral (settledJson cell) = jsonLiteral cell := by
  cases cell <;> rfl

theorem rowLiterals_settled (columns : List String) (row : Json.Row) :
    rowLiterals columns (settledRow columns row) = rowLiterals columns row := by
  refine List.map_congr_left fun column listed => ?_
  rw [get?_settledRow listed, cellOf]
  cases row.get? column with
  | none => rfl
  | some cell => exact jsonLiteral_settled cell

theorem checkBody_settled (call : query.operation ≠ .call) (checked : query.checkBody = .ok ()) :
    (settled policy query).checkBody = .ok () := by
  have rows (inserts : query.operation = .insert ∨ query.operation = .upsert)
      (body : (settled policy query).body = some (bodyOfRows (settledRows query))) :
      (settled policy query).checkBody = .ok () :=
    checkBody_of_rows (by rwa [settled_operation]) body
      (isEmpty_bodyOfRows (columnNames_settledRows query ▸ columnNames_full checked inserts)) (bodyOfRows_rows _).2
  cases operation : query.operation with
  | select | delete =>
      unfold Query.checkBody
      rw [settled_operation, operation]
  | insert => exact rows (.inl operation) (by unfold settled; rw [operation])
  | upsert => exact rows (.inr operation) (by unfold settled; rw [operation])
  | update =>
      obtain ⟨row, single, some⟩ := rowsOf_update checked operation
      unfold Query.checkBody settled
      rw [operation, single]
      simp [some]
  | call => exact absurd operation call

/-- The clause of an upsert names the same columns and does the same: where every column is a
conflict column, there is nothing to merge either way. -/
theorem conflictClause_returned (fits : FitsStatement policy query) (upserts : query.operation = .upsert) :
    conflictClause other (returned policy query) (Body.columnNames (rowsOf query)) =
      conflictClause policy query (Body.columnNames (rowsOf query)) := by
  obtain ⟨full, bare⟩ := fits.target upserts
  have back : (returned policy query).onConflict = some (String.intercalate "," (conflictColumns policy query)) ∧
      (returned policy query).ignoreDuplicates = keepsRows policy query (Body.columnNames (rowsOf query)) := by
    unfold returned settled
    rw [upserts]
    exact ⟨rfl, rfl⟩
  have target : conflictColumns other (returned policy query) = conflictColumns policy query := by
    rw [(areSeparable_bare full bare).conflictColumns back.1, List.filter_eq_self]
    intro name listed
    simpa using (bare name listed).isName.ne_nil
  unfold conflictClause
  simp only [target, back.2, keepsRows, List.isEmpty_map, Bool.or_assoc, Bool.or_self]

/-- The text of a statement that joins no tables. -/
theorem writeSelect_text (alone : left.embeds = [] ∧ right.embeds = []) (table : left.table = right.table)
    (columns : selectColumns left none [] = selectColumns right none [])
    (filters : conditions none left.filters = conditions none right.filters)
    (order : left.order = right.order) (pages : paging left = paging right) :
    (writeSelect policy left).map Written.text = (writeSelect other right).map Written.text := by
  unfold writeSelect
  simp only [alone.1, alone.2, List.isEmpty_nil, if_true, List.mapM_nil, pure_bind, List.zip_nil_left, table,
    columns, filters, order, pages, List.flatMap_nil]
  cases selectColumns right none [] with
  | error fault => rfl
  | ok names =>
      cases conditions none right.filters with
      | error fault => rfl
      | ok found =>
          cases paging right with
          | error fault => rfl
          | ok taken => rfl

theorem writeInsert_text {rows again : List Json.Row} (table : left.table = right.table)
    (operation : left.operation = right.operation) (first : insertedRows left = .ok rows)
    (second : insertedRows right = .ok again) (names : Body.columnNames rows = Body.columnNames again)
    (literals : rows.map (rowLiterals (Body.columnNames again)) = again.map (rowLiterals (Body.columnNames again)))
    (conflict : right.operation = .upsert →
      conflictClause policy left (Body.columnNames again) = conflictClause other right (Body.columnNames again))
    (answer : returningClause left = returningClause right) :
    (writeInsert policy left).map Written.text = (writeInsert other right).map Written.text := by
  have tuples : (rows.map fun row => "(" ++ String.intercalate ", " (rowLiterals (Body.columnNames again) row) ++ ")") =
      again.map fun row => "(" ++ String.intercalate ", " (rowLiterals (Body.columnNames again) row) ++ ")" := by
    have mapped := congrArg (List.map fun texts => "(" ++ String.intercalate ", " texts ++ ")") literals
    rwa [List.map_map, List.map_map] at mapped
  unfold writeInsert
  simp only [first, second, ok_bind, names, tuples, table, operation, answer]
  cases returningClause right with
  | error fault => simp only [error_bind, Except.map]
  | ok clause =>
      by_cases upserts : right.operation = .upsert
      · simp only [if_pos upserts, conflict upserts, ok_bind, pure, Except.pure, Except.map]
      · simp only [if_neg upserts, ok_bind, pure, Except.pure, Except.map]

def assignmentText (field : String × Json) : String :=
  escapeIdentifier field.1 ++ " = " ++ jsonLiteral field.2

theorem writeUpdate_assigned {row : Json.Row} (assigned : assignedRow query = .ok row) :
    (writeUpdate query).map Written.text =
      whereClause query >>= fun found => (returningClause query).map fun returning =>
        "UPDATE " ++ escapeIdentifier query.table ++ " SET " ++
          String.intercalate ", " (row.map assignmentText) ++ found ++ returning := by
  unfold writeUpdate
  rw [assigned, ok_bind]
  cases whereClause query with
  | error fault => rfl
  | ok found => cases returningClause query <;> rfl

theorem writeUpdate_text {row again : Json.Row} (table : left.table = right.table)
    (first : assignedRow left = .ok row) (second : assignedRow right = .ok again)
    (literals : (row.map fun field => (field.1, jsonLiteral field.2)) =
      again.map fun field => (field.1, jsonLiteral field.2))
    (filters : conditions none left.filters = conditions none right.filters)
    (answer : returningClause left = returningClause right) :
    (writeUpdate left).map Written.text = (writeUpdate right).map Written.text := by
  have assignments : row.map assignmentText = again.map assignmentText := by
    have mapped := congrArg
      (List.map fun (field : String × String) => escapeIdentifier field.1 ++ " = " ++ field.2) literals
    rwa [List.map_map, List.map_map] at mapped
  have found : whereClause left = whereClause right := by
    unfold whereClause
    rw [filters]
  rw [writeUpdate_assigned first, writeUpdate_assigned second, assignments, table, found, answer]

theorem writeDelete_text (table : left.table = right.table) (filtered : left.filters.isEmpty = right.filters.isEmpty)
    (filters : conditions none left.filters = conditions none right.filters)
    (answer : returningClause left = returningClause right) :
    (writeDelete left).map Written.text = (writeDelete right).map Written.text := by
  unfold writeDelete whereClause
  rw [table, filtered, filters, answer]
  split
  · rfl
  · cases conditions none right.filters with
    | error fault => rfl
    | ok found =>
        cases returningClause right <;> rfl

section Returned

variable (fits : FitsStatement policy query) (joined : ∀ filter ∈ query.filters, filter.connective = .and)
  (checked : query.checkBody = .ok ())

include fits joined in
theorem writeSelect_returned {written : Written} (selects : query.operation = .select)
    (finished : writeSelect policy query = .ok written) :
    (writeSelect other (returned policy query)).map Written.text = (writeSelect policy query).map Written.text := by
  have paged : ∃ found, paging query = .ok found := by
    obtain ⟨_, _, finished⟩ := ok_of_bind finished
    obtain ⟨_, _, finished⟩ := ok_of_bind finished
    obtain ⟨_, _, finished⟩ := ok_of_bind finished
    obtain ⟨_, _, finished⟩ := ok_of_bind finished
    obtain ⟨found, taken, _⟩ := ok_of_bind finished
    exact ⟨found, taken⟩
  obtain ⟨found, taken⟩ := paged
  have back : settled policy query = {
      table := query.table
      operation := .select
      columns := shownColumns query
      filters := query.filters.map settledFilter
      order := query.order
      limit := found.limit
      offset := found.offset } := by
    unfold settled pagingOf
    simp only [selects, taken]
  refine writeSelect_text ⟨?_, fits.alone⟩ ?_ (selectColumns_returned fits selects) ?_ ?_ ?_
  · exact settled_embeds fits
  · exact settled_table
  · rw [returned, back]
    exact conditions_returned fits joined
  · rw [returned, back]
  · rw [returned, back, taken]
    rfl

include fits checked in
theorem writeInsert_returned (inserts : query.operation = .insert ∨ query.operation = .upsert) :
    (writeInsert other (returned policy query)).map Written.text =
      (writeInsert policy query).map Written.text := by
  have full := columnNames_full checked inserts
  have names := columnNames_settledRows query
  have body : (returned policy query).body = some (bodyOfRows (settledRows query)) := by
    unfold returned settled
    rcases inserts with operation | operation <;> rw [operation]
  have rows : insertedRows (returned policy query) = .ok (settledRows query) := by
    rw [insertedRows_ok body (isEmpty_bodyOfRows (columnNames_settledRows query ▸ full)) (bodyOfRows_rows _).2,
      (bodyOfRows_rows _).1]
  have written : insertedRows query = .ok (rowsOf query) := by
    obtain ⟨given, sent, some, plain⟩ := rows_of_checkBody checked inserts
    rw [insertedRows_ok sent some plain, rowsOf, sent]
    rfl
  refine writeInsert_text settled_table settled_operation rows written names ?_ ?_ ?_
  · rw [settledRows, List.map_map]
    exact List.map_congr_left fun row _ => rowLiterals_settled _ row
  · intro upserts
    exact conflictClause_returned fits upserts
  · refine returningClause_returned fits ?_
    rcases inserts with operation | operation <;> rw [operation] <;> rfl

include fits joined checked in
theorem writeUpdate_returned (updates : query.operation = .update) :
    (writeUpdate (returned policy query)).map Written.text = (writeUpdate query).map Written.text := by
  obtain ⟨row, given, full⟩ := row_of_checkBody checked updates
  have filled : row ≠ [] := by simpa using full
  have rows : rowsOf query = [row] := by
    rw [rowsOf, given]
    rfl
  have back : (returned policy query).filters = (query.filters.map settledFilter).map sentFilter ∧
      (returned policy query).body = some (.single (row.map fun cell => (cell.1, settledJson cell.2))) := by
    unfold returned settled
    rw [updates, rows, List.flatten_singleton]
    exact ⟨rfl, rfl⟩
  have assigned : assignedRow (returned policy query) =
      .ok (row.map fun cell => (cell.1, settledJson cell.2)) := by
    rw [assignedRow, back.2]
    simp [filled]
  have written : assignedRow query = .ok row := by
    rw [assignedRow, given]
    simp [filled]
  refine writeUpdate_text settled_table assigned written ?_ ?_ (returningClause_returned fits (by rw [updates]; rfl))
  · rw [List.map_map]
    exact List.map_congr_left fun cell _ => congrArg (Prod.mk cell.1) (jsonLiteral_settled cell.2)
  · rw [back.1]
    exact conditions_returned fits joined

include fits joined in
theorem writeDelete_returned (deletes : query.operation = .delete) :
    (writeDelete (returned policy query)).map Written.text = (writeDelete query).map Written.text := by
  have back : (returned policy query).filters = (query.filters.map settledFilter).map sentFilter := by
    unfold returned settled
    rw [deletes]
  refine writeDelete_text settled_table ?_ ?_ (returningClause_returned fits (by rw [deletes]; rfl))
  · rw [back, List.isEmpty_map, List.isEmpty_map]
  · rw [back]
    exact conditions_returned fits joined

include fits joined checked in
/-- The query that comes back has the statement that was written first, whatever key the
second writer would assume. -/
theorem write_returned {written : Written} (finished : write policy query = .ok written) :
    ∃ last, write other (returned policy query) = .ok last ∧ last.text = written.text := by
  have operation : (returned policy query).operation = query.operation := settled_operation
  have same : (write other (returned policy query)).map Written.text = (write policy query).map Written.text := by
    unfold write at finished ⊢
    rw [operation]
    cases kind : query.operation with
    | select =>
        rw [kind] at finished
        exact writeSelect_returned fits joined kind finished
    | insert => exact writeInsert_returned fits checked (.inl kind)
    | upsert => exact writeInsert_returned fits checked (.inr kind)
    | update => exact writeUpdate_returned fits joined checked kind
    | delete => exact writeDelete_returned fits joined kind
    | call =>
        rw [kind] at finished
        cases finished
  rw [finished] at same
  exact ok_of_map same

end Returned

end QueryNotation.Sql
