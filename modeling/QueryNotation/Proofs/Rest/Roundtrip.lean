import QueryNotation.Proofs.Json.Text
import QueryNotation.Proofs.Request.QueryString
import QueryNotation.Proofs.Rest.Frame
import QueryNotation.Proofs.Rest.Header
import QueryNotation.Proofs.Rest.Parameter
import QueryNotation.Proofs.SelectList

namespace QueryNotation.Rest

/-! # Reading back requests

A query that a request can say in full is read back from it: no two of its parameters
and headers stand in each other's way.
-/

open Text

variable {query : Query} {parsed : Parsed} {bound : Nat}

/-- The bodies that a request carries and that come back from their text. -/
inductive FitsBody : Operation → Option Body → Prop where
  | none {operation : Operation} : FitsBody operation none
  | single {operation : Operation} {row : Json.Row} (carried : operation ∈ [.insert, .update, .upsert])
    (stable : Json.ReadsBack Json.greatestDepth (.object row)) : FitsBody operation (some (.single row))
  | bulk {operation : Operation} {rows : List Json.Row}
    (carried : operation ∈ [.insert, .update, .upsert])
    (stable : Json.ReadsBack Json.greatestDepth (.array (rows.map .object))) :
    FitsBody operation (some (.bulk rows))

/-- The queries that a request says in full. -/
structure FitsRequest (query : Query) : Prop where
  call : query.operation ≠ .call
  named : query.table ≠ ""
  plain : query.table ≠ "rpc"
  columns : ∀ column ∈ query.columns, column.IsPlain
  embeds : ∀ embed ∈ query.embeds, embed.IsPlain
  distinct : (query.embeds.map Embed.name).Nodup
  below : ∀ entry ∈ Embed.paths query.embeds, FitsEmbed entry.2
  filters : ∀ filter ∈ query.filters, FitsFilter filter ∧ IsWord filter.column ∧ filter.column ∉
    ["select", "order", "limit", "offset", "on_conflict", "columns", "or", "and"]
  order : ∀ item ∈ query.order, IsWord item.column
  range : ∀ range ∈ query.range, range.1 ≤ range.2
  body : FitsBody query.operation query.body
  counted : query.head = true → query.operation = .select
  single : FitsSingle query
  /-- A read names something. -/
  full : query.operation = .select → query.columns ≠ [] ∨ query.embeds ≠ []
  /-- A mutation names something only when it answers with rows. -/
  silent : query.operation ≠ .select → query.returning = false → query.columns = [] ∧ query.embeds = []
  /-- A mutation that answers with whole rows names nothing. -/
  whole : query.operation ≠ .select → query.embeds = [] → query.columns ≠ [.star]
  target : query.onConflict.isSome = true → query.operation = .upsert
  /-- The columns on which an upsert may collide do not read as a filter. -/
  unread : ∀ target ∈ query.onConflict, (readFilter "on_conflict" target).toOption = none
  upserts : query.ignoreDuplicates = true → query.operation = .upsert

theorem readRows_objects (rows : List Json.Row) : readRows (rows.map Json.object) = .ok rows :=
  mapM_ok fun _ _ => rfl

theorem object_full (row : Json.Row) : allBlank (Json.object row).chars = false := by
  have opened : '{' ∈ (Json.object row).chars := by
    cases row with
    | nil => rw [Json.chars]; decide
    | cons field rest => rw [Json.chars]; exact List.mem_cons_self
  exact allBlank_false opened (by decide)

theorem array_full (items : List Json) : allBlank (Json.array items).chars = false := by
  have opened : '[' ∈ (Json.array items).chars := by
    cases items with
    | nil => rw [Json.chars]; decide
    | cons item rest => rw [Json.chars]; exact List.mem_cons_self
  exact allBlank_false opened (by decide)

theorem applyBody_json {operation : Operation} {json : Json} {body : Body} {request : RawRequest}
    (stable : Json.ReadsBack Json.greatestDepth json) (full : allBlank json.chars = false)
    (carried : operation ∈ [.insert, .update, .upsert]) (same : parsed.query.operation = operation)
    (sent : request.body = some json.text) (read : readBody operation json = .ok body) :
    applyBody request parsed =
      .ok { parsed with query := { parsed.query with body := some body } } := by
  have accepted (isPost : Bool) : acceptsBody operation isPost = true := by
    simp only [List.mem_cons, List.not_mem_nil, or_false] at carried
    rcases carried with rfl | rfl | rfl <;> rfl
  unfold applyBody
  simp only [sent, Json.text, String.toList_ofList, full, same, accepted, Json.read_chars stable, read,
    Bool.not_true, Bool.false_eq_true, if_false, ok_bind]
  rfl

/-- The body is read back. -/
theorem applyBody_write (call : query.operation ≠ .call) (fits : FitsBody query.operation query.body)
    (same : parsed.query.operation = query.operation) (bare : parsed.query.body = none) :
    applyBody (write query).request.raw parsed =
      .ok { parsed with query := { parsed.query with body := query.body } } := by
  have sent : (write query).request.raw.body = (bodyOf query).map Json.text := rfl
  have carries (carried : query.operation ∈ [.insert, .update, .upsert]) :
      bodyOf query = query.body.map Body.toJson := by
    simp only [List.mem_cons, List.not_mem_nil, or_false] at carried
    rcases carried with operation | operation | operation <;> rw [bodyOf, operation]
  generalize shape : query.body = body at fits carries ⊢
  -- Inserts, updates and upserts carry their rows; nothing else has a body.
  cases fits with
  | none =>
      have none : bodyOf query = none := by
        unfold bodyOf
        rw [shape]
        cases operation : query.operation <;> first | exact absurd operation call | rfl
      rw [none] at sent
      unfold applyBody
      simp only [sent, Option.map_none, ← bare]
  | single carried stable =>
      rw [carries carried] at sent
      refine applyBody_json stable (object_full _) carried same sent ?_
      simp only [List.mem_cons, List.not_mem_nil, or_false] at carried
      rcases carried with operation | operation | operation <;> rw [operation] <;> rfl
  | bulk carried stable =>
      rw [carries carried] at sent
      refine applyBody_json stable (array_full _) carried same sent ?_
      simp only [List.mem_cons, List.not_mem_nil, or_false] at carried
      rcases carried with operation | operation | operation <;> rw [operation, readBody] <;>
        first | rw [readRows_objects]; rfl | decide

section Listed

variable (items : ∀ column ∈ query.columns, column.IsItem)
  (named : ∀ embed ∈ query.embeds, embed.IsNamed)

include items named

theorem selectList_pointless : '.' ∉ query.selectList.toList := by
  rw [Selection.toList_selectList]
  intro member
  have chars := Selection.join_chars (Selection.listItems_chars items fun embed listed =>
    Selection.selectItem_chars (named embed listed))
  exact (chars '.' member).ne_point rfl

theorem reservedFilter?_select : reservedFilter? bound "select" query.selectList = none :=
  reservedFilter?_of_unread (readFilter_pointless (selectList_pointless items named))

theorem applyParam_select : applyParam bound parsed ("select", query.selectList) = .ok parsed := by
  simp only [applyParam, reservedFilter?_select items named]
  rfl

end Listed

theorem sendsSelect_eq (query : Query) :
    sendsSelect query = ((!query.operation.isMutation || query.returning) &&
      !(query.selectsAll && query.embeds.isEmpty)) := by
  unfold sendsSelect
  cases operation : query.operation <;> simp [Operation.isMutation]

/-- What a parameter behind the select list can be. -/
theorem params_key (unsent : sendsSelect query = false) : ∀ param ∈ params query,
    (∃ filter ∈ query.filters, param = (filter.column, filterText filter)) ∨ '.' ∈ param.1.toList ∨
      param.1 ∈ ["order", "limit", "offset", "on_conflict"] := by
  intro param member
  unfold params at member
  simp only [unsent, Bool.false_eq_true, if_false, List.nil_append, List.mem_append,
    List.mem_flatMap, List.mem_map, Option.mem_toList] at member
  rcases member with ((((((⟨filter, listed, rfl⟩ | ⟨entry, _, filter, _, rfl⟩) | order) |
    ⟨entry, _, order⟩) | limit) | offset) | ⟨entry, _, limit⟩) | target
  · exact .inl ⟨filter, listed, rfl⟩
  · exact .inr (.inl (by simp))
  · split at order
    · cases order
    · rw [List.mem_singleton.mp order]
      exact .inr (.inr (by simp))
  · split at order
    · cases order
    · rw [List.mem_singleton.mp order]
      exact .inr (.inl (by simp))
  · obtain ⟨count, _, rfl⟩ := Option.map_eq_some_iff.mp limit
    exact .inr (.inr (by simp))
  · obtain ⟨count, _, rfl⟩ := Option.map_eq_some_iff.mp offset
    exact .inr (.inr (by simp))
  · obtain ⟨count, _, rfl⟩ := Option.map_eq_some_iff.mp limit
    exact .inr (.inl (by simp))
  · split at target
    · obtain ⟨columns, _, rfl⟩ := Option.map_eq_some_iff.mp (Option.mem_toList.mp target)
      exact .inr (.inr (by simp))
    · cases target

/-- No parameter but the select list itself is taken for it. -/
theorem selectOf?_unsent (free : ∀ filter ∈ query.filters, filter.column = "select" →
      (reservedFilter? bound filter.column (filterText filter)).isSome = true)
    (unsent : sendsSelect query = false) : selectOf? bound (params query) = none := by
  rw [selectOf?, Option.map_eq_none_iff, List.find?_eq_none]
  intro param member taken
  simp only [Bool.and_eq_true, decide_eq_true_eq, Option.isNone_iff_eq_none] at taken
  obtain ⟨same, unread⟩ := taken
  rcases params_key unsent param member with ⟨filter, listed, rfl⟩ | point | known
  · have read := free filter listed same
    rw [unread] at read
    cases read
  · rw [same] at point
    exact absurd point (by decide)
  · rw [same] at known
    exact absurd known (by decide)

theorem columns_of_selectsAll (plain : ∀ column ∈ query.columns, column.IsPlain)
    (all : query.selectsAll = true) : query.columns = [] ∨ query.columns = [.star] := by
  unfold Query.selectsAll at all
  split at all
  · next none => exact .inl none
  · next column single =>
    rw [single] at plain ⊢
    exact .inr (by rw [Column.star_of_isStar (plain column (by simp)) all])
  · cases all

theorem columns_of_unsent (fits : FitsRequest query) (unsent : sendsSelect query = false) :
    query.columns = (if query.operation = .select then [.star] else []) ∧ query.embeds = [] := by
  have whole := columns_of_selectsAll fits.columns
  rw [sendsSelect_eq, Bool.and_eq_false_iff, Bool.or_eq_false_iff, Bool.not_eq_false',
    Bool.not_eq_false', Bool.and_eq_true, List.isEmpty_iff] at unsent
  by_cases select : query.operation = .select
  · obtain ⟨all, none⟩ := unsent.resolve_left fun mutates => by simp [select, Operation.isMutation] at mutates
    refine ⟨?_, none⟩
    rw [if_pos select]
    exact (whole all).resolve_left fun absent => (fits.full select).elim (· absent) (· none)
  · rw [if_neg select]
    rcases unsent with ⟨_, silent⟩ | ⟨all, none⟩
    · exact fits.silent select silent
    · exact ⟨(whole all).resolve_right (fits.whole select none), none⟩

theorem full_of_sent (sent : sendsSelect query = true) : query.columns ≠ [] ∨ query.embeds ≠ [] := by
  rw [sendsSelect_eq, Bool.and_eq_true, Bool.not_eq_true', Bool.and_eq_false_iff] at sent
  rcases sent.2 with columns | embeds
  · refine .inl fun none => ?_
    rw [Query.selectsAll, none] at columns
    cases columns
  · exact .inr (by simpa using embeds)

/-- What a request says of the columns: those of its select list, else all for a read and none
for a mutation. -/
def listedColumns (query : Query) : List Column :=
  if sendsSelect query then query.columns
  else if query.operation = .select then [.star] else []

/-- The select list is read back; what stands elsewhere of an embed is still missing. -/
theorem start_named {options : Options} (items : ∀ column ∈ query.columns, column.IsItem)
    (named : ∀ embed ∈ query.embeds, embed.IsNamed)
    (free : ∀ filter ∈ query.filters, filter.column = "select" →
      (reservedFilter? options.maxDepth filter.column (filterText filter)).isSome = true)
    (alone : sendsSelect query = false → query.embeds = [])
    (shallow : Embed.greatestDepth query.embeds ≤ options.maxDepth) :
    start options ⟨lineOperation query.operation, query.table, query.head⟩ (params query) =
      .ok { query := {
        table := query.table
        operation := lineOperation query.operation
        head := query.head
        columns := listedColumns query
        embeds := Embed.mapAll Embed.told query.embeds } } := by
  unfold listedColumns
  cases sent : sendsSelect query with
  | true =>
      have found : selectOf? options.maxDepth (params query) = some query.selectList := by
        unfold selectOf? params
        rw [sent]
        simp [reservedFilter?_select items named]
      have read := Selection.ofChars_named items named shallow
      rw [← Selection.toList_selectList, Embed.shown_of_full (full_of_sent sent)] at read
      unfold start
      simp only [found, Selection.ofText, read, ok_bind]
      rfl
  | false =>
      unfold start
      simp only [selectOf?_unsent free sent, alone sent, Embed.mapAll]
      cases query.operation <;> rfl

theorem FitsRequest.items (fits : FitsRequest query) : ∀ column ∈ query.columns, column.IsItem :=
  fun column listed => (fits.columns column listed).isItem

theorem FitsRequest.listedColumns_eq (fits : FitsRequest query) : listedColumns query = query.columns := by
  unfold listedColumns
  cases sent : sendsSelect query with
  | true => rfl
  | false => exact (columns_of_unsent fits sent).1.symm

/-- Filters come back one by one, each as what it is read as. -/
theorem foldlM_filters {filters : List Filter} {back : Filter → Filter}
    (each : ∀ filter ∈ filters, ∀ parsed,
      applyParam bound parsed (filter.column, filterText filter) = .ok (addFilter (back filter) parsed))
    (parsed : Parsed) :
    (filters.map fun filter => (filter.column, filterText filter)).foldlM (applyParam bound) parsed =
      .ok { parsed with query :=
        { parsed.query with filters := parsed.query.filters ++ filters.map back } } := by
  induction filters generalizing parsed with
  | nil => simp [pure, Except.pure]
  | cons filter rest induction =>
      rw [List.map_cons, List.foldlM_cons, each filter (by simp), ok_bind,
        induction fun other member => each other (by simp [member])]
      simp [addFilter]

theorem FitsRequest.applyParam_filter (fits : FitsRequest query) :
    ∀ filter ∈ query.filters, ∀ parsed,
      applyParam bound parsed (filter.column, filterText filter) = .ok (addFilter (id filter) parsed) := by
  intro filter listed parsed
  obtain ⟨fitting, word, free⟩ := fits.filters filter listed
  simp only [List.mem_cons, List.not_mem_nil, or_false, not_or] at free
  have unreserved : filter.column ∉ reservedKeys := by simp [reservedKeys, free]
  have logic : isLogicKey filter.column = false :=
    isLogicKey_pointless (word.absent (by decide)) (by simp [free])
  exact Rest.applyParam_filter fitting word unreserved logic

theorem applyParam_order {order : List OrderItem} (names : ∀ item ∈ order, IsName item.column) :
    applyParam bound parsed ("order", orderText order) =
      .ok { parsed with query := { parsed.query with order := parsed.query.order ++ order } } := by
  have read := readOrder_orderText names bound
  have taken : reservedFilter? bound "order" (orderText order) = none := by
    rw [reservedFilter?, readsAsParameter?, read]
    rfl
  simp only [applyParam, taken, applyPlainParam, read, ok_bind]
  rfl

theorem reservedFilter?_count {key : String} (known : key ∈ ["limit", "offset"]) (count : UInt64) :
    reservedFilter? bound key (toString count) = none := by
  have taken : readsAsParameter? bound key (toString count) = some true := by
    simp only [List.mem_cons, List.not_mem_nil, or_false] at known
    rcases known with rfl | rfl <;>
      simp only [readsAsParameter?, trim_count, unsigned?_toString, Option.isSome_some]
  rw [reservedFilter?, taken]

theorem applyParam_limit (limit : UInt64) :
    applyParam bound parsed ("limit", toString limit) =
      .ok { parsed with query := { parsed.query with limit := some limit } } := by
  simp only [applyParam, reservedFilter?_count (show "limit" ∈ ["limit", "offset"] by decide),
    applyPlainParam, readCount_toString, ok_bind]
  rfl

theorem applyParam_offset (offset : UInt64) :
    applyParam bound parsed ("offset", toString offset) =
      .ok { parsed with query := { parsed.query with offset := some offset } } := by
  simp only [applyParam, reservedFilter?_count (show "offset" ∈ ["limit", "offset"] by decide),
    applyPlainParam, readCount_toString, ok_bind]
  rfl

theorem applyParam_conflict {target : String}
    (unread : (readFilter "on_conflict" target).toOption = none) :
    applyParam bound parsed ("on_conflict", target) =
      .ok { parsed with query := { parsed.query with onConflict := some target } } := by
  simp only [applyParam, reservedFilter?_of_unread unread]
  rfl

theorem foldlM_order (names : ∀ item ∈ query.order, IsName item.column)
    (unset : parsed.query.order = []) :
    (if query.order.isEmpty then [] else [("order", orderText query.order)]).foldlM
      (applyParam bound) parsed =
    .ok { parsed with query := { parsed.query with order := query.order } } := by
  split
  · next empty =>
    obtain ⟨⟨⟩, said⟩ := parsed
    cases unset
    rw [List.isEmpty_iff.mp empty]
    rfl
  · refine foldlM_singleton ?_
    rw [applyParam_order names, unset, List.nil_append]

theorem foldlM_limit (limit : Option UInt64) (unset : parsed.query.limit = none) :
    ((limit.map fun limit => ("limit", toString limit)).toList).foldlM (applyParam bound) parsed =
      .ok { parsed with query := { parsed.query with limit } } := by
  cases limit with
  | none =>
      obtain ⟨⟨⟩, said⟩ := parsed
      cases unset
      rfl
  | some limit => exact foldlM_singleton (applyParam_limit limit)

theorem foldlM_offset (offset : Option UInt64) (unset : parsed.query.offset = none) :
    ((offset.map fun offset => ("offset", toString offset)).toList).foldlM (applyParam bound) parsed =
      .ok { parsed with query := { parsed.query with offset } } := by
  cases offset with
  | none =>
      obtain ⟨⟨⟩, said⟩ := parsed
      cases unset
      rfl
  | some offset => exact foldlM_singleton (applyParam_offset offset)

theorem foldlM_conflict (target : query.onConflict.isSome = true → query.operation = .upsert)
    (unread : ∀ target ∈ query.onConflict, (readFilter "on_conflict" target).toOption = none)
    (unset : parsed.query.onConflict = none) :
    (if query.operation = .upsert then
      (query.onConflict.map fun target => ("on_conflict", target)).toList else []).foldlM
      (applyParam bound) parsed =
    .ok { parsed with query := { parsed.query with onConflict := query.onConflict } } := by
  cases shape : query.onConflict with
  | none =>
      obtain ⟨⟨⟩, said⟩ := parsed
      cases unset
      split <;> rfl
  | some columns =>
      rw [if_pos (target (by rw [shape]; rfl))]
      exact foldlM_singleton (applyParam_conflict (unread columns shape))

/-- What lets the parameters of a query come back: its filters perhaps as others. -/
structure FitsParams (bound : Nat) (back : Filter → Filter) (query : Query) : Prop where
  items : ∀ column ∈ query.columns, column.IsItem
  embeds : ∀ embed ∈ query.embeds, embed.IsNamed
  distinct : (query.embeds.map Embed.name).Nodup
  below : ∀ entry ∈ Embed.paths query.embeds, FitsEmbed entry.2
  filters : ∀ filter ∈ query.filters, ∀ parsed,
    applyParam bound parsed (filter.column, filterText filter) = .ok (addFilter (back filter) parsed)
  order : ∀ item ∈ query.order, IsName item.column
  target : query.onConflict.isSome = true → query.operation = .upsert
  unread : ∀ target ∈ query.onConflict, (readFilter "on_conflict" target).toOption = none

/-- The parameters put back what the request line and the select list leave open. -/
theorem foldlM_fitting {back : Filter → Filter} (fits : FitsParams bound back query)
    {operation : Operation} {columns : List Column} :
    (params query).foldlM (applyParam bound) { query := {
        table := query.table
        operation
        head := query.head
        columns
        embeds := Embed.mapAll Embed.told query.embeds } } =
      .ok { query := {
        table := query.table
        operation
        head := query.head
        columns
        filters := query.filters.map back
        order := query.order
        limit := query.limit
        offset := query.offset
        onConflict := query.onConflict
        embeds := Embed.mapAll Embed.starred query.embeds } } := by
  have list (parsed : Parsed) : (if sendsSelect query then [("select", query.selectList)]
      else []).foldlM (applyParam bound) parsed = .ok parsed := by
    split
    · exact foldlM_singleton (applyParam_select fits.items fits.embeds)
    · rfl
  rw [params, List.foldlM_append, List.foldlM_append, List.foldlM_append, List.foldlM_append,
    List.foldlM_append, List.foldlM_append, List.foldlM_append, List.foldlM_append, list, ok_bind,
    foldlM_filters fits.filters, ok_bind, foldlM_embedFilters fits.embeds fits.distinct fits.below rfl,
    ok_bind, foldlM_order fits.order rfl, ok_bind,
    foldlM_embedOrders fits.embeds fits.distinct fits.below rfl, ok_bind, foldlM_limit _ rfl, ok_bind,
    foldlM_offset _ rfl, ok_bind, foldlM_embedLimits fits.embeds fits.distinct rfl, ok_bind,
    foldlM_conflict fits.target fits.unread rfl]
  rfl

/-- What lets a query come back from its request: its filters perhaps as others, and its columns
as they are listed. -/
structure Returns (bound : Nat) (back : Filter → Filter) (query : Query) : Prop
    extends FitsParams bound back query where
  call : query.operation ≠ .call
  named : query.table ≠ ""
  plain : query.table ≠ "rpc"
  free : ∀ filter ∈ query.filters, filter.column = "select" →
    (reservedFilter? bound filter.column (filterText filter)).isSome = true
  alone : sendsSelect query = false → query.embeds = []
  shallow : Embed.greatestDepth query.embeds ≤ bound
  range : ∀ range ∈ query.range, range.1 ≤ range.2
  body : FitsBody query.operation query.body
  counted : query.head = true → query.operation = .select
  single : FitsSingle query
  upserts : query.ignoreDuplicates = true → query.operation = .upsert

theorem decode_write (query : Query) : QueryString.decode (write query).request.raw.query = params query :=
  QueryString.decode_encode _

/-- The request line, the select list, the parameters, the headers and the body each put back
their part of a query. -/
theorem read_returning {options : Options} {back : Filter → Filter}
    (returns : Returns options.maxDepth back query)
    (small : sizeOf (write query).request.raw ≤ options.maxInputLength) :
    read options (write query).request.raw =
      .ok { query :=
        { query with
          columns := listedColumns query
          filters := query.filters.map back
          embeds := Embed.mapAll Embed.starred query.embeds } } := by
  have sent := decode_write query
  have steps : ReadsRequest options (write query).request.raw _ _ _ _ _ := {
    small
    line := target_write returns.call returns.named returns.plain returns.counted
    begun := sent ▸ start_named returns.items returns.embeds returns.free returns.alone returns.shallow
    params := sent ▸ foldlM_fitting returns.toFitsParams
    headers := applyHeaders_write returns.single returns.upserts returns.range rfl rfl rfl rfl rfl rfl
    body := applyBody_write returns.call returns.body rfl rfl }
  exact steps.read_eq

theorem FitsRequest.returns (fits : FitsRequest query)
    (shallow : Embed.greatestDepth query.embeds ≤ bound) : Returns bound id query where
  items := fits.items
  embeds embed listed := (fits.embeds embed listed).isNamed
  distinct := fits.distinct
  below := fits.below
  filters := fits.applyParam_filter
  order item listed := (fits.order item listed).isName
  target := fits.target
  unread := fits.unread
  call := fits.call
  named := fits.named
  plain := fits.plain
  free filter listed same := absurd (by simp [same]) (fits.filters filter listed).2.2
  alone unsent := (columns_of_unsent fits unsent).2
  shallow := shallow
  range := fits.range
  body := fits.body
  counted := fits.counted
  single := fits.single
  upserts := fits.upserts

/-- A query that a request can say in full is read back from it, without a warning. -/
theorem read_write {options : Options} (fits : FitsRequest query)
    (small : sizeOf (write query).request.raw ≤ options.maxInputLength)
    (shallow : Embed.greatestDepth query.embeds ≤ options.maxDepth) :
    read options (write query).request.raw = .ok { query } := by
  rw [read_returning (fits.returns shallow) small, fits.listedColumns_eq, List.map_id,
    Embed.mapAll_starred fits.embeds]

/-- A read with embeds of two levels and with values that look like something else. -/
def sampleQuery : Query := {
  table := "blog/posts"
  operation := .select
  columns := [{ name := "title", label := some "headline", cast := some "text" }]
  filters := [
    { column := "likes", op := .gte, value := .number "10" },
    { column := "state", op := .oneOf, value := .list [.string "a,b", .null], negated := true }]
  order := [{ column := "likes", descending := true, nulls := some .last }]
  limit := some 5
  range := some (0, 4)
  count := some .exact
  single := some .maybeOne
  embeds := [{
    relation := "users"
    label := some "author"
    inner := true
    columns := [.star]
    filters := [{ column := "name", op := .like, value := .string "j*" }]
    order := [{ column := "name" }]
    limit := some 1
    embeds := [{ relation := "teams", columns := [{ name := "name" }] }] }] }

theorem sampleQuery_fits : FitsRequest sampleQuery where
  call := by decide
  named := by decide
  plain := by decide
  columns := by
    intro column member
    rw [List.mem_singleton.mp member]
    exact .named (by decide) (by simp; decide) (by simp; decide)
  embeds := by
    intro embed member
    rw [List.mem_singleton.mp member]
    refine .intro (by decide) (by simp; decide) ?_ (.inl (by decide)) (by decide) ?_
    · intro column inside
      rw [List.mem_singleton.mp inside]
      exact .star
    · intro team inside
      rw [List.mem_singleton.mp inside]
      refine .intro (by decide) (by simp) ?_ (.inl (by decide)) (by decide) (by simp)
      intro column listed
      rw [List.mem_singleton.mp listed]
      exact .named (by decide) (by simp) (by simp)
  distinct := by decide
  below := by
    intro entry member
    simp only [sampleQuery, Embed.paths, Embed.pathsFrom, Embed.pathsBelow, List.flatMap_cons,
      List.flatMap_nil, List.append_nil, List.mem_cons, List.not_mem_nil, or_false] at member
    rcases member with rfl | rfl
    · refine ⟨?_, by decide⟩
      intro filter listed
      rw [List.mem_singleton.mp listed]
      exact ⟨⟨rfl, ⟨"j*", rfl, by decide⟩, (by simp)⟩, by decide, by decide⟩
    · exact ⟨List.forall_mem_nil _, List.forall_mem_nil _⟩
  filters := by
    intro filter member
    simp only [sampleQuery, List.mem_cons, List.not_mem_nil, or_false] at member
    rcases member with rfl | rfl
    · exact ⟨⟨rfl, show isNumeric "10" = true by decide, (by simp)⟩, by decide, by decide⟩
    · refine ⟨⟨rfl, ⟨_, rfl, ?_⟩, (by simp)⟩, by decide, by decide⟩
      intro item listed
      simp only [List.mem_cons, List.not_mem_nil, or_false] at listed
      rcases listed with rfl | rfl
      · exact show Value.ofToken "a,b" = .string "a,b" by decide
      · trivial
  order := by decide
  range := by
    rintro range ⟨⟩
    decide
  body := .none
  counted := by decide
  single := ⟨by decide, by decide⟩
  full := by decide
  silent := by decide
  whole := by decide
  target := by decide
  unread := by simp [sampleQuery]
  upserts := by decide

theorem read_write_sample : sizeOf (write sampleQuery).request.raw ≤ 65536 ∧
    Embed.greatestDepth sampleQuery.embeds ≤ 32 ∧
    read {} (write sampleQuery).request.raw = .ok { query := sampleQuery } := by
  have small : sizeOf (write sampleQuery).request.raw ≤ 65536 := by decide +kernel
  have shallow : Embed.greatestDepth sampleQuery.embeds ≤ 32 := by decide
  exact ⟨small, shallow, read_write sampleQuery_fits small shallow⟩

end QueryNotation.Rest
