import QueryNotation.Proofs.Rest.Meaning
import QueryNotation.Proofs.Rest.Roundtrip
import QueryNotation.Proofs.Sql.Settled

namespace QueryNotation.Rest

/-! # Requests of statements

The query that a statement says is read back from its request but for two things: the values
of its filters are as their tokens say, and a list of columns that names all of them is not
sent.
-/

open Sql Value

variable {policy : KeyPolicy} {query : Query} {parsed : Parsed} {bound : Nat} {filter : Filter}
  {op : Operator} {value : Value} {cell : Json} {row : Json.Row} {columns : List String}

theorem isScalar_settledScalar (scalar : value.IsScalar) : (settledScalar value).IsScalar := by
  cases value with
  | string text =>
      rw [settledScalar, ofToken]
      split
      · trivial
      · split
        · trivial
        · split
          · trivial
          · split
            · next numeric => exact numeric
            · trivial
  | list items => trivial
  | _ => exact scalar

theorem numeric_settledScalar (numeric : ∀ text, value = .number text → isNumeric text = true) :
    ∀ text, settledScalar value = .number text → isNumeric text = true := by
  intro text same
  cases value with
  | number other => exact numeric text same
  | string other =>
      have scalar := isScalar_settledScalar (show (Value.string other).IsScalar from trivial)
      rwa [same] at scalar
  | _ => cases same

/-- What the literal of a value says is carried by the wire. -/
theorem carries_settled (common : IsCommon op value) : Carries op (settledValue op value) := by
  cases common with
  | compared compares numeric =>
      have settled : settledValue op value = settledScalar value := by
        simp only [List.mem_cons, List.not_mem_nil, or_false] at compares
        rcases compares with rfl | rfl | rfl | rfl | rfl | rfl <;> rfl
      rw [settled]
      exact .compared (List.mem_append_left _ compares) (numeric_settledScalar numeric)
  | pattern wild =>
      rcases wild with rfl | rfl
      · exact .pattern (.inl rfl)
      · exact .pattern (.inr rfl)
  | null => exact .null
  | bool value => exact .bool value
  | list full scalars =>
      refine .list fun item member => ?_
      obtain ⟨given, listed, rfl⟩ := List.mem_map.mp member
      exact isScalar_settledScalar (scalars given listed)

/-- A filter on a bare column is read back, even where the column is named like a parameter. -/
theorem applyParam_bare (bare : IsBare filter.column) (plain : filter.config = none) :
    applyParam bound parsed (filter.column, filterText filter) =
      .ok (addFilter (sentFilter filter) parsed) := by
  have read : readFilter filter.column (filterText filter) = .ok (sentFilter filter) :=
    readFilter_retyped (by simp [plain])
  have free : filter.column ∉ ["select", "order", "limit", "offset", "or", "and"] :=
    bare.not_mem (by decide)
  have absent : '.' ∉ filter.column.toList := bare.absent (by decide)
  by_cases named : filter.column = "on_conflict" ∨ filter.column = "columns"
  · have other : readsAsParameter? bound filter.column (filterText filter) = some false := by
      rcases named with same | same <;> rw [same] <;> rfl
    have taken : reservedFilter? bound filter.column (filterText filter) = some (sentFilter filter) := by
      rw [reservedFilter?, other, read]
      rfl
    simp only [applyParam, taken]
  · have unreserved : filter.column ∉ reservedKeys := by
      simp only [reservedKeys, List.mem_cons, List.not_mem_nil, or_false, not_or] at free named ⊢
      obtain ⟨select, order, limit, offset, _, _⟩ := free
      exact ⟨limit, offset, order, select, named⟩
    have logic : isLogicKey filter.column = false := isLogicKey_pointless absent (by simp_all)
    have alone : embedPath? parsed.query.embeds filter.column = none := by
      rw [embedPath?, splitPath?_pointless absent]
      rfl
    simp only [applyParam, reservedFilter?_of_free unreserved]
    rw [applyPlainParam_alone unreserved logic alone, read]
    rfl

theorem readsBack_settledJson (stable : IsStable cell) (depth : Nat) :
    Json.ReadsBack depth (settledJson cell) := by
  cases cell with
  | null => exact .null
  | bool value => exact .bool value
  | number value => exact .number (stable value rfl)
  | string text => exact .string text
  | array items => exact .string _
  | object fields => exact .string _

theorem readsBack_settledRow (distinct : columns.Nodup) (stable : ∀ field ∈ row, IsStable field.2)
    (depth : Nat) : Json.ReadsBack (depth + 1) (.object (settledRow columns row)) := by
  refine .object (by rwa [keys_settledRow]) fun field member => ?_
  obtain ⟨column, _, rfl⟩ := List.mem_map.mp member
  exact readsBack_settledJson (isStable_cellOf stable) depth

theorem fitsBody_rows {operation : Operation} {rows : List Json.Row}
    (carried : operation ∈ [.insert, .update, .upsert])
    (stable : ∀ row ∈ rows, ∀ depth, Json.ReadsBack (depth + 1) (.object row)) :
    FitsBody operation (some (bodyOfRows rows)) := by
  have all : Json.ReadsBack Json.greatestDepth (.array (rows.map .object)) := by
    refine .array fun item member => ?_
    obtain ⟨row, listed, rfl⟩ := List.mem_map.mp member
    exact stable row listed 125
  unfold bodyOfRows
  split
  · next row => exact .single carried (stable row (by simp) 126)
  · exact .bulk carried all

/-- The query that the request of a statement says. -/
def returned (policy : KeyPolicy) (query : Query) : Query :=
  { settled policy query with
    columns := listedColumns (settled policy query)
    filters := (settled policy query).filters.map sentFilter }

section Settled

variable (fits : FitsStatement policy query) (call : query.operation ≠ .call)
  (checked : query.checkBody = .ok ())

theorem settled_operation : (settled policy query).operation = query.operation := by
  unfold settled
  cases operation : query.operation <;> first | rfl | exact operation

theorem settled_table : (settled policy query).table = query.table := by
  unfold settled
  cases query.operation <;> rfl

include call in
theorem settled_rest : (settled policy query).range = none ∧ (settled policy query).count = none ∧
    (settled policy query).head = false ∧ (settled policy query).single = none := by
  unfold settled
  cases operation : query.operation <;> first | exact absurd operation call | exact ⟨rfl, rfl, rfl, rfl⟩

include call in
theorem settled_filters : (settled policy query).filters = [] ∨
    (settled policy query).filters = query.filters.map settledFilter := by
  unfold settled
  cases operation : query.operation with
  | select | update | delete => exact .inr rfl
  | insert | upsert => exact .inl rfl
  | call => exact absurd operation call

include call in
theorem settled_filter : ∀ filter ∈ (settled policy query).filters,
    ∃ given ∈ query.filters, filter = settledFilter given := by
  intro filter member
  have filters : (settled policy query).filters = [] ∨
      (settled policy query).filters = query.filters.map settledFilter := settled_filters call
  rcases filters with none | some
  · rw [none] at member
    cases member
  · rw [some] at member
    obtain ⟨given, listed, rfl⟩ := List.mem_map.mp member
    exact ⟨given, listed, rfl⟩

include fits in
theorem settled_embeds : (settled policy query).embeds = [] := by
  unfold settled
  cases query.operation <;> first | rfl | exact fits.alone

include fits in
theorem settled_columns : ∀ column ∈ (settled policy query).columns, IsShown column := by
  have answered : ∀ column ∈ answeredColumns query, IsShown column := by
    unfold answeredColumns
    split
    · exact fits.shown
    · exact List.forall_mem_nil _
  unfold settled
  cases query.operation with
  | select => exact fits.shown
  | call => exact fits.columns
  | _ => exact answered

include fits in
theorem settled_order : ∀ item ∈ (settled policy query).order, IsBare item.column := by
  unfold settled
  cases query.operation with
  | select | call => exact fits.order
  | _ => exact List.forall_mem_nil _

include fits call in
/-- The target of an upsert does not read as a filter. -/
theorem settled_conflict : ∀ target ∈ (settled policy query).onConflict,
    query.operation = .upsert ∧ '.' ∉ target.toList := by
  unfold settled
  cases operation : query.operation with
  | upsert =>
      rintro target ⟨⟩
      refine ⟨rfl, fun member => ?_⟩
      rw [String.toList_intercalate] at member
      rcases Text.of_mem_intercalate member with comma | ⟨part, listed, inside⟩
      · exact absurd comma (by decide)
      · obtain ⟨name, given, rfl⟩ := List.mem_map.mp listed
        exact ((fits.target operation).2 name given).absent (by decide) inside
  | call => exact absurd operation call
  | _ => simp

theorem settled_ignores (ignores : (settled policy query).ignoreDuplicates = true) (call : query.operation ≠ .call) :
    query.operation = .upsert := by
  unfold settled at ignores
  cases operation : query.operation <;> simp_all

include fits call checked in
theorem settled_body : FitsBody (settled policy query).operation (settled policy query).body := by
  have rows : ∀ row ∈ settledRows query, ∀ depth, Json.ReadsBack (depth + 1) (.object row) := by
    intro row member depth
    obtain ⟨given, listed, rfl⟩ := List.mem_map.mp member
    exact readsBack_settledRow (Body.nodup_columnNames _) (fits.rows given listed).stable depth
  unfold settled
  cases operation : query.operation with
  | select | delete => exact .none
  | insert => exact fitsBody_rows (show Operation.insert ∈ [.insert, .update, .upsert] by decide) rows
  | upsert => exact fitsBody_rows (show Operation.upsert ∈ [.insert, .update, .upsert] by decide) rows
  | update =>
      obtain ⟨row, single, _⟩ := rowsOf_update checked operation
      have plain := fits.rows row (by simp [single])
      have carried : Operation.update ∈ [.insert, .update, .upsert] := by decide
      refine .single carried (.object ?_ fun field member => ?_)
      · rw [single, List.flatten_singleton, Json.Row.keys, List.map_map]
        exact plain.distinct
      · rw [single, List.flatten_singleton] at member
        obtain ⟨cell, listed, rfl⟩ := List.mem_map.mp member
        exact readsBack_settledJson (plain.stable cell listed) 126
  | call => exact absurd operation call

include fits call checked in
theorem settled_returns : Returns bound sentFilter (settled policy query) where
  items column listed := (settled_columns fits column listed).isItem
  embeds := by simp [settled_embeds fits]
  distinct := by simp [settled_embeds fits]
  below := by simp [settled_embeds fits, Embed.paths]
  filters filter listed parsed := by
    obtain ⟨given, member, rfl⟩ := settled_filter call filter listed
    exact applyParam_bare (fits.filters given member).1 rfl
  order item listed := (settled_order fits item listed).isName
  target given := by
    obtain ⟨target, same⟩ := Option.isSome_iff_exists.mp given
    rw [settled_operation]
    exact (settled_conflict fits call target same).1
  unread target given := readFilter_pointless (settled_conflict fits call target given).2
  call := by rwa [settled_operation]
  named := by
    rw [settled_table]
    rintro empty
    exact fits.table.isName.ne_nil (by rw [empty]; rfl)
  plain := by
    rw [settled_table]
    exact fits.plain
  free filter listed := by
    obtain ⟨given, member, rfl⟩ := settled_filter call filter listed
    rintro (same : given.column = "select")
    exact absurd ((fits.filters given member).1) (by rw [same]; decide)
  alone _ := settled_embeds fits
  shallow := by simp [settled_embeds fits, Embed.greatestDepth]
  range := by simp [(settled_rest call).1]
  body := settled_body fits call checked
  counted := by simp [(settled_rest call).2.2.1]
  single := ⟨by simp [(settled_rest call).2.2.2], by simp [(settled_rest call).2.2.2]⟩
  upserts ignores := by
    rw [settled_operation]
    exact settled_ignores ignores call

include fits call checked in
/-- The request of a statement is read as the query that it says. -/
theorem read_settled {options : Options}
    (small : sizeOf (write (settled policy query)).request.raw ≤ options.maxInputLength) :
    read options (write (settled policy query)).request.raw = .ok { query := returned policy query } := by
  have kept : Embed.mapAll Embed.starred (settled policy query).embeds = (settled policy query).embeds := by
    rw [settled_embeds fits, Embed.mapAll]
  rw [read_returning (settled_returns fits call checked) small, kept, returned]

end Settled

end QueryNotation.Rest
