import QueryNotation.Proofs.Chain.Fold
import QueryNotation.Proofs.SelectList

namespace QueryNotation.Chain

/-! # Reading back chains

A query that a chain can say in full is read back from it: each of its calls is found,
decoded and put back where it belongs.
-/

open Text Embed

variable {options : Options} {client : String} {query : Query} {parsed : Parsed}

/-- The bodies that an operation writes and that come back from their literals. -/
inductive FitsBody : Operation → Option Body → Prop where
  | select : FitsBody .select none
  | delete : FitsBody .delete none
  | insert {body : Body} (rows : IsRows body) (stable : ∃ depth, Json.ReadsBack depth body.toJson) :
    FitsBody .insert (some body)
  | upsert {body : Body} (rows : IsRows body) (stable : ∃ depth, Json.ReadsBack depth body.toJson) :
    FitsBody .upsert (some body)
  | update {row : Json.Row} (stable : ∃ depth, Json.ReadsBack depth (.object row)) :
    FitsBody .update (some (.single row))

/-- The queries that a chain says in full. -/
structure FitsChain (query : Query) : Prop where
  body : FitsBody query.operation query.body
  columns : ∀ column ∈ query.columns, column.IsPlain
  embeds : ∀ embed ∈ query.embeds, embed.IsPlain
  distinct : (query.embeds.map Embed.name).Nodup
  filters : ∀ filter ∈ query.filters, FitsCall filter ∧ IsMain query.embeds filter
  embedFilters : ∀ entry ∈ Embed.paths query.embeds, ∀ filter ∈ entry.2.filters, FitsCall filter
  /-- Embeds of embeds are only selected. -/
  below : ∀ embed ∈ query.embeds, ∀ entry ∈ Embed.paths embed.embeds,
    entry.2.filters = [] ∧ entry.2.order = [] ∧ entry.2.limit = none
  offset : query.offset = none
  range : ∀ range ∈ query.range, range.1 ≤ range.2
  /-- What is asked for names something. -/
  full : query.operation = .select ∨ query.returning = true → query.columns ≠ [] ∨ query.embeds ≠ []
  /-- A mutation that answers with nothing names nothing. -/
  silent : query.operation ≠ .select → query.returning = false → query.columns = [] ∧ query.embeds = []
  read : query.operation = .select → query.returning = false
  mutation : query.operation ≠ .select →
    query.count = none ∧ query.head = false ∧ ∀ embed ∈ query.embeds, embed.filters = []
  target : query.operation ≠ .upsert → query.onConflict = none ∧ query.ignoreDuplicates = false

theorem readList_eq (columns : ∀ column ∈ query.columns, column.IsPlain)
    (full : query.columns ≠ [] ∨ query.embeds ≠ []) : readList query = query.selectList := by
  rw [readList]
  split
  · next all =>
    obtain ⟨whole, none⟩ := Bool.and_eq_true_iff.mp all
    have bare : query.embeds = [] := List.isEmpty_iff.mp none
    have star : query.columns = [.star] := by
      unfold Query.selectsAll at whole
      split at whole
      · next empty => exact absurd empty (full.resolve_right fun some => some bare)
      · next column single =>
        rw [single] at columns ⊢
        rw [Column.star_of_isStar (columns column (by simp)) whole]
      · cases whole
    rw [Query.selectList, star, bare, selectItems]
    decide
  · rfl

theorem applySelect_readList (columns : ∀ column ∈ query.columns, column.IsPlain)
    (embeds : ∀ embed ∈ query.embeds, embed.IsPlain) (full : query.columns ≠ [] ∨ query.embeds ≠ [])
    (shallow : greatestDepth query.embeds ≤ options.maxDepth) (count : Option CountMode) (head : Bool) :
    applyCall options parsed (.select (readList query) count head) =
      .ok { parsed with query := { parsed.query with
        columns := query.columns
        embeds := mapAll bare query.embeds
        returning := parsed.query.returning || parsed.query.operation.isMutation
        count := count.or parsed.query.count
        head := parsed.query.head || head } } := by
  have items (column : Column) (listed : column ∈ query.columns) : column.IsItem :=
    (columns column listed).isItem
  have read := Selection.ofChars_listItems items embeds full shallow
  rw [← Selection.toList_selectList] at read
  rw [readList_eq columns full, applyCall, applySelect, Selection.ofText, read, ok_bind]
  simp only [List.append_nil]
  rfl

/-- The reading behind the call of a mutation. -/
def changing (query : Query) : Query where
  table := query.table
  operation := query.operation
  body := query.body
  onConflict := query.onConflict
  ignoreDuplicates := query.ignoreDuplicates

/-- The reading behind the filters and the select list. -/
def selected (query : Query) : Query where
  table := query.table
  operation := query.operation
  columns := query.columns
  filters := query.filters
  body := query.body
  embeds := mapAll filtered query.embeds
  count := query.count
  head := query.head
  onConflict := query.onConflict
  ignoreDuplicates := query.ignoreDuplicates
  returning := query.returning

/-- The call of a mutation. -/
theorem takes_mutation (fits : FitsChain query) (mutation : query.operation ≠ .select) :
    ∃ call, operationCalls query =
        .ok [{ method := "from", arguments := [stringLiteral query.table] }, call] ∧
      Takes options [call] { query := { table := query.table, operation := .select } }
        { query := changing query } := by
  obtain ⟨table, operation, columns, filters, order, limit, offset, range, body, embeds, count, head,
    single, onConflict, ignoreDuplicates, returning⟩ := query
  have fitting := fits.body
  have target := fits.target
  simp only at fitting mutation target
  unfold operationCalls bodyLiteral
  cases fitting with
  | select => exact absurd rfl mutation
  | delete =>
      obtain ⟨rfl, rfl⟩ := target (by decide)
      exact ⟨_, rfl, .one means_delete rfl⟩
  | @insert body rows stable =>
      obtain ⟨rfl, rfl⟩ := target (by decide)
      cases rows <;> exact ⟨_, rfl, .one (means_insert (by constructor) stable) rfl⟩
  | @upsert body rows stable =>
      cases rows <;> exact ⟨_, rfl, .one (means_upsert (by constructor) stable) rfl⟩
  | @update row stable =>
      obtain ⟨rfl, rfl⟩ := target (by decide)
      exact ⟨_, rfl, .one (means_update stable) rfl⟩

theorem FitsChain.silentBelow (fits : FitsChain query) :
    ∀ embed ∈ query.embeds, ∀ place ∈ places embed.embeds,
      place.2.filters = [] ∧ place.2.order = [] ∧ place.2.limit = none := by
  intro embed member place listed
  refine fits.below embed member (pathThrough place.1, place.2) ?_
  rw [paths_eq]
  exact List.mem_map_of_mem listed

theorem isMain_bare {embeds : List Embed} {filter : Filter} (main : IsMain embeds filter) :
    IsMain (mapAll bare embeds) filter := by
  intro embed member
  rw [mapAll_eq_map] at member
  obtain ⟨other, listed, rfl⟩ := List.mem_map.mp member
  rw [mapEach_eq]
  exact main other listed

def embedFilterCalls (embeds : List Embed) : List MethodCall :=
  embeds.flatMap fun embed => embed.filters.map fun filter =>
    filterCall (embed.name ++ "." ++ filter.column) filter

def filterCalls (query : Query) : List MethodCall :=
  query.filters.map (fun filter => filterCall filter.column filter) ++ embedFilterCalls query.embeds

theorem completes_filters :
    Completes Embed.filters (fun filter embed => { embed with filters := embed.filters ++ [filter] }) bare filtered where
  kept _ _ := rfl
  named _ := ⟨rfl, rfl⟩
  done embed below := by
    rw [foldl_filters]
    rfl

theorem takes_embedFilters (fits : FitsChain query) (start : parsed.query.embeds = mapAll bare query.embeds) :
    Takes options (embedFilterCalls query.embeds) parsed
      { parsed with query := { parsed.query with embeds := mapAll filtered query.embeds } } :=
  takes_embedCalls completes_filters fits.embeds fits.distinct
    (fun embed member place listed => (fits.silentBelow embed member place listed).1)
    (fun _ member filter given => acts_filter (fits.embedFilters _ (mem_paths member) filter given)) start

def reading (query : Query) : Query where
  table := query.table
  operation := query.operation
  columns := query.columns
  embeds := mapAll bare query.embeds
  count := query.count
  head := query.head

theorem takes_readFilters (fits : FitsChain query) (select : query.operation = .select) :
    Takes options (filterCalls query) { query := reading query } { query := selected query } := by
  have main : Takes options (query.filters.map fun filter => filterCall filter.column filter)
      { query := reading query } { query := { reading query with filters := query.filters } } :=
    takes_filters fun filter member =>
      ⟨(fits.filters filter member).1, isMain_bare (fits.filters filter member).2⟩
  have others : Takes options (embedFilterCalls query.embeds)
      { query := { reading query with filters := query.filters } } { query := selected query } := by
    obtain ⟨target, ignored⟩ := fits.target (by rw [select]; decide)
    have body : query.body = none := by
      have fitting := fits.body
      rw [select] at fitting
      generalize query.body = body at fitting
      cases fitting
      rfl
    have same : selected query =
        { reading query with filters := query.filters, embeds := mapAll filtered query.embeds } := by
      rw [selected, target, ignored, body, fits.read select]
      rfl
    rw [same]
    exact takes_embedFilters fits rfl
  exact main.trans others

theorem takes_read (fits : FitsChain query) (select : query.operation = .select)
    (shallow : greatestDepth query.embeds ≤ options.maxDepth) :
    Takes options (selectCall query :: filterCalls query)
      { query := { table := query.table, operation := .select } } { query := selected query } := by
  have first : Takes options [selectCall query] { query := { table := query.table, operation := .select } }
      { query := reading query } := by
    refine .one (means_select query) ?_
    rw [applySelect_readList fits.columns fits.embeds (fits.full (.inl select)) shallow, reading, select]
    cases query.count <;> rfl
  exact first.trans (takes_readFilters fits select)

theorem isMutation_of_fits (fits : FitsChain query) (mutation : query.operation ≠ .select) :
    query.operation.isMutation = true := by
  have fitting := fits.body
  generalize query.operation = operation at fitting mutation
  generalize query.body = body at fitting
  cases fitting with
  | select => exact absurd rfl mutation
  | _ => rfl

/-- The call by which a mutation answers with rows. -/
def answerCalls (query : Query) : List MethodCall :=
  if query.returning then [returningCall query] else []

theorem takes_answer (fits : FitsChain query) (mutation : query.operation ≠ .select)
    (shallow : greatestDepth query.embeds ≤ options.maxDepth) :
    Takes options (answerCalls query) { query := { changing query with filters := query.filters } }
      { query := selected query } := by
  obtain ⟨count, head, unfiltered⟩ := fits.mutation mutation
  have mutates := isMutation_of_fits fits mutation
  have same : mapAll filtered query.embeds = mapAll bare query.embeds := by
    refine mapAll_congr fits.embeds (fun embed member => ?_) fun embed member place listed => ?_
    · rw [filtered, bare, unfiltered embed member]
    · rw [filtered, bare, (fits.silentBelow embed member place listed).1]
  rw [answerCalls]
  split
  · next returning =>
    refine .one (means_returning query) ?_
    rw [applySelect_readList fits.columns fits.embeds (fits.full (.inr returning)) shallow, selected, same,
      count, head, returning]
    simp [changing, mutates]
  · next quiet =>
    obtain ⟨columns, embeds⟩ := fits.silent mutation (by simpa using quiet)
    have state : selected query = { changing query with filters := query.filters } := by
      rw [selected, columns, embeds, count, head, (by simpa using quiet : query.returning = false)]
      rfl
    rw [state]
    exact .nil _

theorem takes_changing (fits : FitsChain query) (mutation : query.operation ≠ .select)
    (shallow : greatestDepth query.embeds ≤ options.maxDepth) :
    Takes options (filterCalls query ++ answerCalls query) { query := changing query }
      { query := selected query } := by
  have first : Takes options (query.filters.map fun filter => filterCall filter.column filter)
      { query := changing query } { query := { changing query with filters := query.filters } } :=
    takes_filters fun filter member => ⟨(fits.filters filter member).1, List.forall_mem_nil _⟩
  have none : embedFilterCalls query.embeds = [] := by
    rw [embedFilterCalls, List.flatMap_eq_nil_iff]
    intro embed member
    rw [(fits.mutation mutation).2.2 embed member]
    rfl
  rw [filterCalls, none, List.append_nil]
  exact first.trans (takes_answer fits mutation shallow)

theorem takes_orders (items : List OrderItem) :
    Takes options (items.map (orderCall none)) parsed
      { parsed with query := { parsed.query with order := parsed.query.order ++ items } } := by
  induction items generalizing parsed with
  | nil =>
      rw [List.append_nil]
      exact .nil parsed
  | cons item rest induction =>
      have behind := @induction
        { parsed with query := { parsed.query with order := parsed.query.order ++ [item] } }
      rw [List.append_assoc, List.singleton_append] at behind
      refine .cons (means_order none item) ?_ behind
      rw [applyCall, orderItem_eq]
      rfl

def embedOrderCalls (embeds : List Embed) : List MethodCall :=
  embeds.flatMap fun embed => embed.order.map (orderCall (some embed.name))

theorem foldl_orders (items : List OrderItem) (embed : Embed) :
    items.foldl (fun other item => { other with order := other.order ++ [item] }) embed =
      { embed with order := embed.order ++ items } := by
  induction items generalizing embed with
  | nil => cases embed; simp
  | cons item rest induction => simp [induction]

theorem completes_orders :
    Completes Embed.order (fun item embed => { embed with order := embed.order ++ [item] }) filtered ordered where
  kept _ _ := rfl
  named _ := ⟨rfl, rfl⟩
  done embed below := by
    rw [foldl_orders]
    rfl

theorem takes_embedOrders (fits : FitsChain query) (start : parsed.query.embeds = mapAll filtered query.embeds) :
    Takes options (embedOrderCalls query.embeds) parsed
      { parsed with query := { parsed.query with embeds := mapAll ordered query.embeds } } :=
  takes_embedCalls completes_orders fits.embeds fits.distinct
    (fun embed member place listed => (fits.silentBelow embed member place listed).2.1)
    (fun _ _ item _ => acts_order item) start

def firstLimitCalls (embeds : List Embed) : List MethodCall :=
  embeds.flatMap fun embed => embed.limit.toList.map fun limit => {
    method := "limit"
    arguments := toString limit :: optionsArgument [("referencedTable", stringLiteral embed.name)] }

theorem completes_limits :
    Completes (fun embed => embed.limit.toList) (fun limit embed => { embed with limit := some limit }) ordered id where
  kept _ _ := rfl
  named _ := ⟨rfl, rfl⟩
  done embed below := by
    unfold ordered
    cases shape : embed.limit <;> simp [shape]

theorem takes_embedLimits (fits : FitsChain query) (start : parsed.query.embeds = mapAll ordered query.embeds) :
    Takes options (firstLimitCalls query.embeds) parsed
      { parsed with query := { parsed.query with embeds := query.embeds } } := by
  have takes := takes_embedCalls completes_limits fits.embeds fits.distinct
    (fun embed member place listed => by rw [(fits.silentBelow embed member place listed).2.2]; rfl)
    (fun _ _ limit _ => @acts_limit options limit) start
  rwa [mapAll_id fits.embeds] at takes

theorem takes_limit (limit : Option UInt64) (unset : parsed.query.limit = none) :
    Takes options (limit.map limitCall).toList parsed
      { parsed with query := { parsed.query with limit } } := by
  cases limit with
  | none =>
      obtain ⟨⟨⟩, said⟩ := parsed
      cases unset
      exact .nil _
  | some limit => exact .one (means_limit limit none) rfl

theorem takes_range {range : Option RowRange} (forward : ∀ rows ∈ range, rows.1 ≤ rows.2)
    (unset : parsed.query.range = none) :
    Takes options (range.map fun (first, last) => rangeCall first last).toList parsed
      { parsed with query := { parsed.query with range } } := by
  cases range with
  | none =>
      obtain ⟨⟨⟩, said⟩ := parsed
      cases unset
      exact .nil _
  | some rows =>
      refine .one (means_range rows.1 rows.2) ?_
      rw [applyCall, applyRange, if_neg (UInt64.not_lt.mpr (forward rows rfl))]

theorem takes_single (query : Query) (unset : parsed.query.single = none) :
    Takes options (singleCalls query) parsed
      { parsed with query := { parsed.query with single := query.single } } := by
  unfold singleCalls
  rcases query.single with _ | mode
  · obtain ⟨⟨⟩, said⟩ := parsed
    cases unset
    exact .nil _
  · cases mode with
    | one => exact .one means_single rfl
    | maybeOne => exact .one means_maybeSingle rfl

def closingCalls (query : Query) : List MethodCall :=
  query.order.map (orderCall none) ++ embedOrderCalls query.embeds ++
    (query.limit.map limitCall).toList ++
    (query.range.map fun (first, last) => rangeCall first last).toList ++
    firstLimitCalls query.embeds ++ singleCalls query

theorem takes_closing (fits : FitsChain query) :
    Takes options (closingCalls query) { query := selected query } { query } := by
  let main : Query := { selected query with order := query.order }
  let sorted : Query := { main with embeds := mapAll ordered query.embeds }
  let limited : Query := { sorted with limit := query.limit }
  let ranged : Query := { limited with range := query.range }
  let complete : Query := { ranged with embeds := query.embeds }
  have orders : Takes options (query.order.map (orderCall none)) { query := selected query } { query := main } :=
    takes_orders query.order
  have embedOrders : Takes options (embedOrderCalls query.embeds) { query := main } { query := sorted } :=
    takes_embedOrders fits rfl
  have limit : Takes options (query.limit.map limitCall).toList { query := sorted } { query := limited } :=
    takes_limit query.limit rfl
  have range : Takes options (query.range.map fun (first, last) => rangeCall first last).toList
      { query := limited } { query := ranged } :=
    takes_range fits.range rfl
  have embedLimits : Takes options (firstLimitCalls query.embeds) { query := ranged } { query := complete } :=
    takes_embedLimits fits rfl
  have single : Takes options (singleCalls query) { query := complete }
      { query := { complete with single := query.single } } := takes_single query rfl
  have whole : { complete with single := query.single } = query := by
    have offset := fits.offset
    cases query
    cases offset
    rfl
  rw [whole] at single
  exact ((((orders.trans embedOrders).trans limit).trans range).trans embedLimits).trans single

def chainCalls (operation : MethodCall) (query : Query) : List MethodCall :=
  operation :: (filterCalls query ++ ((mutationCalls query).1 ++ closingCalls query))

theorem embedFilterCalls_eq (fits : FitsChain query) :
    ((paths query.embeds).flatMap fun entry => entry.2.filters.map fun filter =>
      filterCall (entry.1 ++ "." ++ filter.column) filter) = embedFilterCalls query.embeds := by
  refine flatMap_paths fun embed member place listed path => ?_
  rw [(fits.silentBelow embed member place listed).1]
  rfl

theorem embedOrderCalls_eq (fits : FitsChain query) :
    ((paths query.embeds).flatMap fun entry => entry.2.order.map (orderCall (some entry.1))) =
      embedOrderCalls query.embeds := by
  refine flatMap_paths fun embed member place listed path => ?_
  rw [(fits.silentBelow embed member place listed).2.1]
  rfl

theorem embedLimitCalls_flat (entries : List (String × Embed)) :
    embedLimitCalls entries = entries.flatMap fun entry => entry.2.limit.toList.map fun limit => {
      method := "limit"
      arguments := toString limit :: optionsArgument [("referencedTable", stringLiteral entry.1)] } := by
  rw [embedLimitCalls, List.filterMap_eq_flatMap_toList]
  refine List.flatMap_congr fun entry _ => ?_
  obtain ⟨path, embed⟩ := entry
  cases shape : embed.limit <;> simp [shape]

theorem embedLimitCalls_eq (fits : FitsChain query) :
    embedLimitCalls (paths query.embeds) = firstLimitCalls query.embeds := by
  rw [embedLimitCalls_flat]
  refine flatMap_paths fun embed member place listed path => ?_
  rw [(fits.silentBelow embed member place listed).2.2]
  rfl

theorem filterCallOf_and {filter : Filter} (column : String) (joined : filter.connective = .and) :
    filterCallOf column filter = .ok (filterCall column filter) := by
  rw [filterCallOf, joined]

theorem pagingCalls_eq (offset : query.offset = none) :
    (pagingCalls query).1 = (query.limit.map limitCall).toList := by
  rw [pagingCalls, offset]
  cases query.limit <;> rfl

theorem mapM_embedFilters
    (joined : ∀ entry ∈ paths query.embeds, ∀ filter ∈ entry.2.filters, filter.connective = .and) :
    (paths query.embeds).mapM (fun ((path, embed) : String × Embed) =>
      embed.filters.mapM fun (filter : Filter) => filterCallOf (path ++ "." ++ filter.column) filter) =
      .ok ((paths query.embeds).map fun (entry : String × Embed) =>
        entry.2.filters.map fun (filter : Filter) => filterCall (entry.1 ++ "." ++ filter.column) filter) :=
  mapM_of_ok fun entry member => mapM_of_ok fun filter given =>
    filterCallOf_and _ (joined entry member filter given)

/-- A chain is the client, the table and the calls behind it. -/
theorem write_eq (fits : FitsChain query) {call : MethodCall} (called : operationCalls query =
      .ok [{ method := "from", arguments := [stringLiteral query.table] }, call]) :
    ∃ warnings, write client query = .ok {
      code := client ++ String.join (({ method := "from", arguments := [stringLiteral query.table] } ::
        chainCalls call query : List MethodCall).map MethodCall.text)
      warnings } := by
  have filters : query.filters.mapM (fun filter => filterCallOf filter.column filter) =
      .ok (query.filters.map fun filter => filterCall filter.column filter) :=
    mapM_of_ok fun filter member => filterCallOf_and _ (fits.filters filter member).1.connective
  refine ⟨(mutationCalls query).2 ++ (pagingCalls query).2, ?_⟩
  rw [write, called, ok_bind]
  have joined : ∀ entry ∈ paths query.embeds, ∀ filter ∈ entry.2.filters, filter.connective = .and :=
    fun entry member filter given => (fits.embedFilters entry member filter given).connective
  simp only [filters, mapM_embedFilters joined, ok_bind]
  rw [← List.flatMap_def, embedFilterCalls_eq fits, embedOrderCalls_eq fits, pagingCalls_eq fits.offset,
    embedLimitCalls_eq fits]
  simp only [chainCalls, filterCalls, closingCalls, List.append_assoc, List.cons_append, List.nil_append]
  rfl

theorem finish_eq (fits : FitsChain query) : finish { query } = { query } := by
  refine if_neg fun bare => ?_
  simp only [Bool.and_eq_true, decide_eq_true_eq, List.isEmpty_iff] at bare
  obtain ⟨⟨select, columns⟩, embeds⟩ := bare
  exact absurd embeds ((fits.full (.inl select)).resolve_left fun some => some columns)

theorem takes_chain (fits : FitsChain query) (shallow : greatestDepth query.embeds ≤ options.maxDepth) :
    ∃ call, operationCalls query =
        .ok [{ method := "from", arguments := [stringLiteral query.table] }, call] ∧
      Takes options (chainCalls call query) { query := { table := query.table, operation := .select } }
        { query } := by
  by_cases select : query.operation = .select
  · refine ⟨selectCall query, by rw [operationCalls, select]; rfl, ?_⟩
    have none : (mutationCalls query).1 = [] := by
      rw [mutationCalls, if_neg (by rw [select]; decide)]
    rw [chainCalls, none, List.nil_append, ← List.cons_append]
    exact (takes_read fits select shallow).trans (takes_closing fits)
  · obtain ⟨call, called, takes⟩ := @takes_mutation options query fits select
    have answer : (mutationCalls query).1 = answerCalls query := by
      rw [mutationCalls, if_pos (isMutation_of_fits fits select)]
      rfl
    refine ⟨call, called, ?_⟩
    rw [chainCalls, answer, ← List.append_assoc, ← List.singleton_append]
    exact takes.trans ((takes_changing fits select shallow).trans (takes_closing fits))

/-- A query that a chain can say in full is read back from it, without a warning. -/
theorem readQuery_write (name : IsClient client) (free : client ∉ ["auth", "storage"])
    (fits : FitsChain query) :
    ∃ written, write client query = .ok written ∧
      (written.code.utf8ByteSize ≤ options.maxInputLength →
        bracketDepth .outside 0 written.code.toList ≤ options.maxDepth →
        greatestDepth query.embeds ≤ options.maxDepth →
        readQuery options written.code = .ok { query }) := by
  obtain ⟨call, called, _⟩ :=
    @takes_chain { maxDepth := greatestDepth query.embeds } query fits (Nat.le_refl _)
  obtain ⟨warnings, written⟩ := @write_eq client query fits call called
  refine ⟨_, written, fun small room shallow => ?_⟩
  obtain ⟨other, same, takes⟩ := @takes_chain options query fits shallow
  rw [called] at same
  obtain rfl : call = other := by simpa using same
  rw [readQuery_takes name free takes rfl small room, finish_eq fits]

/-- A read whose texts look like the end of a string, of a call and of a chain. -/
def sampleQuery : Query := {
  table := "it's (a).x"
  operation := .select
  columns := [.star]
  filters := [
    { column := "b').c", op := .eq, value := .string "x');\n\\" },
    { column := "s", op := .oneOf, value := .list [.string "a,b", .null], negated := true }]
  order := [{ column := "k)", descending := true }]
  limit := some 5
  embeds := [{
    relation := "u"
    label := some "by"
    columns := [.star]
    filters := [{ column := "n", op := .like, value := .string "j%" }]
    embeds := [{ relation := "t", columns := [{ name := "n" }] }] }] }

theorem sampleQuery_fits : FitsChain sampleQuery where
  body := .select
  columns := by
    intro column member
    rw [List.mem_singleton.mp member]
    exact .star
  embeds := by
    intro embed member
    rw [List.mem_singleton.mp member]
    refine .intro (by decide) (by simp; decide) ?_ (.inl (by decide)) (by decide) ?_
    · intro column inside
      rw [List.mem_singleton.mp inside]
      exact .star
    · intro other inside
      rw [List.mem_singleton.mp inside]
      refine .intro (by decide) (by simp) ?_ (.inl (by decide)) (by decide) (by simp)
      intro column listed
      rw [List.mem_singleton.mp listed]
      exact .named (by decide) (by simp) (by simp)
  distinct := by decide
  filters := by
    have apart (column : String) (other : ¬ "by.".toList <+: column.toList) :
        ∀ embed ∈ sampleQuery.embeds, ¬ embed.name.toList ++ ['.'] <+: column.toList := by
      intro embed member
      rw [List.mem_singleton.mp member]
      exact other
    intro filter member
    simp only [sampleQuery, List.mem_cons, List.not_mem_nil, or_false] at member
    rcases member with rfl | rfl
    · exact ⟨⟨rfl, .literal rfl ⟨.string _, (by simp), (by simp)⟩, (by simp)⟩, apart _ (by decide)⟩
    · refine ⟨⟨rfl, .list ⟨_, rfl, fun item listed => ?_⟩, (by simp)⟩, apart _ (by decide)⟩
      simp only [List.mem_cons, List.not_mem_nil, or_false] at listed
      rcases listed with rfl | rfl
      · exact show Value.ofToken "a,b" = .string "a,b" by decide
      · trivial
  embedFilters := by
    intro entry member
    simp only [sampleQuery, Embed.paths, Embed.pathsFrom, Embed.pathsBelow, List.flatMap_cons,
      List.flatMap_nil, List.append_nil, List.mem_cons, List.not_mem_nil, or_false] at member
    rcases member with rfl | rfl
    · intro filter listed
      rw [List.mem_singleton.mp listed]
      refine ⟨rfl, .literal rfl ⟨.string _, (by simp), ?_⟩, (by simp)⟩
      rintro _ _ ⟨⟩
      decide
    · exact List.forall_mem_nil _
  below := by
    intro embed member entry inside
    rw [List.mem_singleton.mp member] at inside
    rw [List.mem_singleton.mp inside]
    exact ⟨rfl, rfl, rfl⟩
  offset := rfl
  range := by simp [sampleQuery]
  full := fun _ => .inl (by decide)
  silent := fun mutation => absurd rfl mutation
  read := fun _ => rfl
  mutation := fun mutation => absurd rfl mutation
  target := fun _ => ⟨rfl, rfl⟩

def sampleCode : String :=
  "db$1.from('it\\'s (a).x').select('*,by:u(*,t(n))').eq('b\\').c', 'x\\');\\n\\\\')" ++
    ".not('s', 'in', '(\"a,b\",null)').like('by.n', 'j%').order('k)', \x7b ascending: false \x7d).limit(5)"

theorem readQuery_write_sample :
    write "db$1" sampleQuery = .ok { code := sampleCode, warnings := [] } ∧
      readQuery {} sampleCode = .ok { query := sampleQuery } := by
  have name : IsClient "db$1" := ⟨by decide, by decide⟩
  have code : write "db$1" sampleQuery = .ok { code := sampleCode, warnings := [] } := by decide +kernel
  have room : bracketDepth .outside 0 sampleCode.toList ≤ 32 := by decide +kernel
  obtain ⟨written, wrote, reads⟩ :=
    @readQuery_write {} "db$1" sampleQuery name (by decide) sampleQuery_fits
  rw [code] at wrote
  obtain rfl := Except.ok.inj wrote
  exact ⟨code, reads (by decide +kernel) room (by decide)⟩

end QueryNotation.Chain
