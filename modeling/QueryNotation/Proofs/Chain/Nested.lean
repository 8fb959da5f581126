import QueryNotation.Proofs.Chain.Received

namespace QueryNotation.Chain

/-! # Reading back chains with nested embeds

The calls of a chain are folded one after the other: those that address an embed of the first level
change it, and those that address another one change nothing but the warnings.
-/

open Text Embed

variable {options : Options} {client : String} {query : Query} {parsed : Parsed} {embeds : List Embed}

theorem ofText_readList (columns : ∀ column ∈ query.columns, column.IsPlain)
    (named : ∀ embed ∈ query.embeds, embed.IsNamed)
    (shallow : greatestDepth query.embeds ≤ options.maxDepth) :
    Selection.ofText options.maxDepth (readList query) =
      .ok { columns := shown query.columns query.embeds, embeds := mapAll told query.embeds } := by
  rw [readList]
  split
  · next all =>
    obtain ⟨whole, none⟩ := Bool.and_eq_true_iff.mp all
    have bare : query.embeds = [] := List.isEmpty_iff.mp none
    have star : shown query.columns [] = [.star] := by
      unfold Query.selectsAll at whole
      split at whole
      · next empty => rw [empty]; rfl
      · next column single =>
        rw [single] at columns ⊢
        rw [Column.star_of_isStar (columns column (by simp)) whole]
        rfl
      · cases whole
    have item : ∀ column ∈ [Column.star], column.IsItem := by
      intro column member
      rw [List.mem_singleton.mp member]
      exact Column.isItem_star
    have read := @Selection.ofChars_named options.maxDepth [.star] [] item (List.forall_mem_nil _)
      (Nat.zero_le _)
    have text : [','].intercalate (listItems [.star] []) = "*".toList := by decide
    rw [text] at read
    rw [Selection.ofText, read, bare, star]
    rfl
  · have read := Selection.ofChars_named (fun column member => (columns column member).isItem) named shallow
    rwa [← Selection.toList_selectList] at read

theorem takes_select (fits : FitsNested query) (shallow : greatestDepth query.embeds ≤ options.maxDepth) :
    Takes options [selectCall query] { query := { table := query.table, operation := .select } }
      { query := reading (asRead query) } := by
  refine .one (means_select query) ?_
  have embeds : mapAll bare (asRead query).embeds = mapAll told query.embeds := mapAll_receiving fits.embeds
  rw [applyCall, applySelect, ofText_readList fits.columns fits.embeds shallow, ok_bind, reading, embeds]
  simp only [Option.or_none, Bool.false_or]
  rfl

section Routed

variable {α : Type} {call : String → α → MethodCall} {act : α → Embed → Embed} {note : String → String}

/-- What is called with a path does something to the embed of that name, or warns. -/
def Routes (options : Options) (call : String → α → MethodCall) (act : α → Embed → Embed)
    (note : String → String) : Prop :=
  ∀ path item parsed, Takes options [call path item] parsed
    ((changeEmbed? path (act item) parsed).getD (parsed.warn (note path)))

theorem routes_order : Routes options (fun path item => orderCall (some path) item)
    (fun item embed => { embed with order := embed.order ++ [item] }) orderLost := by
  intro path item parsed
  refine .one (means_order (some path) item) ?_
  rw [applyCall, orderItem_eq, applyOrder]
  rfl

theorem routes_limit : Routes options (fun path limit => {
      method := "limit"
      arguments := toString limit :: optionsArgument [("referencedTable", stringLiteral path)] })
    (fun limit embed => { embed with limit := some limit }) limitLost := by
  intro path limit parsed
  exact .one (means_limit limit (some path)) rfl

theorem map_name_updateFirst? {here : Embed → Bool} {change : Embed → Embed} {changed : List Embed}
    (kept : ∀ embed, (change embed).name = embed.name)
    (found : updateFirst? here (fun embed => some (change embed)) embeds = some changed) :
    changed.map name = embeds.map name := by
  induction embeds generalizing changed with
  | nil => cases found
  | cons embed rest induction =>
      rw [updateFirst?] at found
      split at found
      · obtain rfl := Option.some.inj found
        rw [List.map_cons, List.map_cons, kept]
      · obtain ⟨others, behind, rfl⟩ := Option.map_eq_some_iff.mp found
        rw [List.map_cons, List.map_cons, induction behind]

/-- A run of such calls does what those with a name of the first level ask for, and warns of the
others. -/
theorem takes_routed {names : List String} {list : List (String × α)} {changed : List Embed}
    (routes : Routes options call act note) (kept : ∀ item embed, (act item embed).name = embed.name)
    (level : parsed.query.embeds.map name = names)
    (found : ((list.filter fun entry => entry.1 ∈ names).map fun entry => ([entry.1], entry.2)).foldlM
      (applyAt act) parsed.query.embeds = some changed) :
    Takes options (list.map fun entry => call entry.1 entry.2) parsed {
      query := { parsed.query with embeds := changed }
      warnings := parsed.warnings ++
        (list.filter fun entry => entry.1 ∉ names).map fun entry => note entry.1 } := by
  induction list generalizing parsed with
  | nil =>
      cases found
      simp only [List.map_nil, List.filter_nil, List.append_nil]
      exact .nil parsed
  | cons entry more induction =>
      have step := routes entry.1 entry.2 parsed
      -- What no embed of the first level has the name for is only warned about.
      by_cases first : entry.1 ∈ names
      · rw [List.filter_cons_of_pos (by simpa using first), List.map_cons, List.foldlM_cons] at found
        obtain ⟨next, here, found⟩ := Option.bind_eq_some_iff.mp found
        have made : changeEmbed? entry.1 (act entry.2) parsed =
            some { parsed with query := { parsed.query with embeds := next } } := by
          rw [changeEmbed?, show updateFirst? _ _ parsed.query.embeds = some next from here]
          rfl
        rw [made] at step
        have behind := @induction { parsed with query := { parsed.query with embeds := next } }
          ((map_name_updateFirst? (kept entry.2) here).trans level) found
        rw [List.filter_cons_of_neg (by simpa using first)]
        exact step.trans behind
      · rw [List.filter_cons_of_neg (by simpa using first)] at found
        have missed : changeEmbed? entry.1 (act entry.2) parsed = none :=
          changeEmbed?_eq_none.mpr (level ▸ first)
        rw [missed] at step
        have behind := @induction (parsed.warn (note entry.1)) level found
        rw [List.filter_cons_of_pos (by simpa using first), List.map_cons]
        rw [Parsed.warn, List.append_assoc] at behind
        exact step.trans behind

theorem deeper_apart (named : ∀ embed ∈ embeds, embed.IsNamed) :
    ∀ entry ∈ deeper embeds, entry.1 ∉ embeds.map name := by
  intro entry member listed
  obtain ⟨embed, given, inside⟩ := List.mem_flatMap.mp member
  rw [pathsBelow_paths] at inside
  obtain ⟨other, _, rfl⟩ := List.mem_map.mp inside
  obtain ⟨first, there, same⟩ := List.mem_map.mp listed
  have absent : '.' ∉ first.name.toList := (name_word (named first there)).absent (by decide)
  rw [same] at absent
  simp at absent

variable (items : Embed → List α)

def itemsAt (items : Embed → List α) (entry : String × Embed) : List (String × α) :=
  (items entry.2).map fun item => (entry.1, item)

theorem filter_paths (named : ∀ embed ∈ embeds, embed.IsNamed) :
    ((paths embeds).flatMap (itemsAt items)).filter (fun entry => entry.1 ∈ embeds.map name) =
      embeds.flatMap fun embed => (items embed).map fun item => (embed.name, item) := by
  rw [paths, List.flatMap_assoc, List.filter_flatMap]
  refine List.flatMap_congr fun embed member => ?_
  rw [pathsFrom_eq, List.flatMap_cons, List.filter_append, List.filter_eq_self.mpr,
    List.filter_eq_nil_iff.mpr, List.append_nil]
  · rfl
  · intro entry listed
    obtain ⟨below, given, inside⟩ := List.mem_flatMap.mp listed
    obtain ⟨item, _, rfl⟩ := List.mem_map.mp inside
    have apart := deeper_apart named below (List.mem_flatMap.mpr ⟨embed, member, given⟩)
    simpa using apart
  · intro entry listed
    obtain ⟨item, _, rfl⟩ := List.mem_map.mp listed
    exact decide_eq_true (List.mem_map_of_mem member)

theorem filter_deeper (named : ∀ embed ∈ embeds, embed.IsNamed) :
    ((paths embeds).flatMap (itemsAt items)).filter (fun entry => entry.1 ∉ embeds.map name) =
      (deeper embeds).flatMap (itemsAt items) := by
  rw [paths, deeper, List.flatMap_assoc, List.flatMap_assoc, List.filter_flatMap]
  refine List.flatMap_congr fun embed member => ?_
  rw [pathsFrom_eq, List.flatMap_cons, List.filter_append, List.filter_eq_nil_iff.mpr,
    List.filter_eq_self.mpr, List.nil_append]
  · intro entry listed
    obtain ⟨below, given, inside⟩ := List.mem_flatMap.mp listed
    obtain ⟨item, _, rfl⟩ := List.mem_map.mp inside
    exact decide_eq_true (deeper_apart named below (List.mem_flatMap.mpr ⟨embed, member, given⟩))
  · intro entry listed
    obtain ⟨item, _, rfl⟩ := List.mem_map.mp listed
    simpa using List.mem_map_of_mem member

/-- What is called for the embeds of all levels is done to those of the first, and warned of for the
others. -/
theorem takes_levels {before after : Embed → Embed} (completes : Completes items act before after)
    (fits : FitsNested query)
    (routes : Routes options call act note)
    (same : ∀ embed, items (receiving embed) = items embed)
    (below : ∀ embed ∈ (asRead query).embeds, ∀ place ∈ places embed.embeds, items place.2 = [])
    (start : parsed.query.embeds = mapAll before (asRead query).embeds) :
    Takes options ((paths query.embeds).flatMap fun entry => (items entry.2).map (call entry.1)) parsed {
      query := { parsed.query with embeds := mapAll after (asRead query).embeds }
      warnings := parsed.warnings ++
        (deeper query.embeds).flatMap fun entry => (items entry.2).map fun _ => note entry.1 } := by
  have whole := fits.asRead
  have found := foldlM_first completes whole.embeds whole.distinct below
  have level : parsed.query.embeds.map name = query.embeds.map name := by
    rw [start, mapAll_eq_map, asRead, List.map_map, List.map_map]
    refine List.map_congr_left fun embed _ => ?_
    rw [Function.comp_apply, Function.comp_apply, mapEach_eq]
    exact (completes.named _).1
  have first : ((asRead query).embeds.flatMap fun embed => (items embed).map fun item => (embed.name, item)) =
      ((paths query.embeds).flatMap (itemsAt items)).filter fun entry =>
        entry.1 ∈ query.embeds.map name := by
    rw [filter_paths items fits.embeds, asRead, List.flatMap_map]
    refine List.flatMap_congr fun embed _ => ?_
    rw [same]
    rfl
  rw [first, ← start] at found
  have takes := takes_routed routes completes.kept level found
  rw [filter_deeper items fits.embeds] at takes
  simpa only [itemsAt, List.map_flatMap, List.map_map, Function.comp_def] using takes

end Routed

theorem embedFilterCalls_all (query : Query) :
    ((paths query.embeds).flatMap fun entry => entry.2.filters.map fun filter =>
      filterCall (entry.1 ++ "." ++ filter.column) filter) = embedFilterCalls (asRead query).embeds := by
  rw [paths, List.flatMap_assoc, embedFilterCalls, asRead, List.flatMap_map]
  refine List.flatMap_congr fun embed member => ?_
  show _ = (received embed).map fun filter => filterCall (embed.name ++ "." ++ filter.column) filter
  rw [pathsFrom_eq, List.flatMap_cons, pathsBelow_paths, List.flatMap_map,
    received, List.map_append, List.map_flatMap]
  refine congrArg (_ ++ ·) (List.flatMap_congr fun entry _ => ?_)
  rw [List.map_map]
  refine List.map_congr_left fun filter _ => ?_
  have path : embed.name ++ "." ++ entry.1 ++ "." ++ filter.column =
      embed.name ++ "." ++ (entry.1 ++ "." ++ filter.column) := by simp only [String.append_assoc]
  exact congrArg (filterCall · filter) path

/-- The calls that order, limit and take one, with those that address embeds at all levels. -/
def nestedClosing (query : Query) : List MethodCall :=
  query.order.map (orderCall none) ++
    ((paths query.embeds).flatMap fun entry => entry.2.order.map (orderCall (some entry.1))) ++
    ((pagingCalls query).1 ++ (query.range.map fun (first, last) => rangeCall first last).toList) ++
    ((paths query.embeds).flatMap fun entry => entry.2.limit.toList.map fun limit => {
      method := "limit"
      arguments := toString limit :: optionsArgument [("referencedTable", stringLiteral entry.1)] }) ++
    singleCalls query

def nestedCalls (query : Query) : List MethodCall :=
  selectCall query :: (filterCalls (asRead query) ++ nestedClosing query)

theorem write_nested (fits : FitsNested query) :
    ∃ warnings, write client query = .ok {
      code := client ++ String.join (({ method := "from", arguments := [stringLiteral query.table] } ::
        nestedCalls query : List MethodCall).map MethodCall.text)
      warnings } := by
  have called : operationCalls query =
      .ok [{ method := "from", arguments := [stringLiteral query.table] }, selectCall query] := by
    rw [operationCalls, fits.select]
    rfl
  have none : mutationCalls query = ([], []) := by
    rw [mutationCalls, if_neg (by rw [fits.select]; decide)]
  have filters : query.filters.mapM (fun filter => filterCallOf filter.column filter) =
      .ok (query.filters.map fun filter => filterCall filter.column filter) :=
    mapM_of_ok fun filter member => filterCallOf_and _ (fits.filters filter member).1.connective
  have joined : ∀ entry ∈ paths query.embeds, ∀ filter ∈ entry.2.filters, filter.connective = .and :=
    fun entry member filter given => (fits.embedFilters entry member filter given).connective
  have main : (asRead query).filters = query.filters := rfl
  refine ⟨(pagingCalls query).2, ?_⟩
  rw [write, called, ok_bind]
  simp only [filters, mapM_embedFilters joined, ok_bind, none]
  rw [← List.flatMap_def, embedFilterCalls_all, embedLimitCalls_flat]
  simp only [nestedCalls, nestedClosing, filterCalls, main, List.append_assoc, List.cons_append,
    List.nil_append]
  rfl

/-- The last row of a limit behind an offset is counted exactly. -/
theorem toNat_lastRow {limit offset last : UInt64} (found : lastRow? limit offset = some last) :
    last.toNat + 1 = offset.toNat + limit.toNat := by
  unfold lastRow? at found
  split at found
  · next room =>
    obtain rfl := Option.some.inj found
    have positive : 0 < limit.toNat := UInt64.lt_iff_toNat_lt.mp room.1
    have rows : (limit - 1).toNat = limit.toNat - 1 :=
      UInt64.toNat_sub_of_le _ _ (UInt64.le_iff_toNat_le.mpr positive)
    rw [UInt64.toNat_add, rows, Nat.mod_eq_of_lt room.2]
    omega
  · cases found

theorem positive_of_lastRow {limit offset last : UInt64} (found : lastRow? limit offset = some last) :
    0 < limit.toNat := by
  unfold lastRow? at found
  split at found
  · next room => exact UInt64.lt_iff_toNat_lt.mp room.1
  · cases found

theorem le_lastRow {limit offset last : UInt64} (found : lastRow? limit offset = some last) :
    offset ≤ last := by
  have counted := toNat_lastRow found
  have positive := positive_of_lastRow found
  rw [UInt64.le_iff_toNat_le]
  omega

theorem takes_rangeCall {first last : UInt64} (forward : first ≤ last) :
    Takes options [rangeCall first last] parsed
      { parsed with query := { parsed.query with range := some (first, last) } } := by
  refine .one (means_range first last) ?_
  rw [applyCall, applyRange, if_neg (UInt64.not_lt.mpr forward)]

/-- What is read of the paging of a chain: a limit with an offset is a range, which a range of the
query itself replaces. -/
def readPaging (query : Query) : Option UInt64 × Option RowRange :=
  match query.limit, query.offset with
  | some limit, some offset =>
    match lastRow? limit offset with
    | some last => (none, query.range.or (some (offset, last)))
    | none => (some limit, query.range)
  | limit, _ => (limit, query.range)

theorem readPaging_plain (plain : query.offset = none) : readPaging query = (query.limit, query.range) := by
  unfold readPaging
  rw [plain]
  cases query.limit <;> rfl

theorem forward_readPaging (forward : ∀ rows ∈ query.range, rows.1 ≤ rows.2) :
    ∀ rows ∈ (readPaging query).2, rows.1 ≤ rows.2 := by
  unfold readPaging
  split
  · next limit offset _ _ =>
    cases found : lastRow? limit offset with
    | none => exact forward
    | some last =>
        cases given : query.range with
        | none =>
            intro rows same
            obtain rfl := Option.some.inj same
            exact le_lastRow found
        | some bounds =>
            rw [given] at forward
            exact forward
  · exact forward

theorem takes_paging (forward : ∀ rows ∈ query.range, rows.1 ≤ rows.2)
    (unlimited : parsed.query.limit = none) (whole : parsed.query.range = none) :
    Takes options ((pagingCalls query).1 ++
      (query.range.map fun (first, last) => rangeCall first last).toList) parsed
      { parsed with query := { parsed.query with
        limit := (readPaging query).1
        range := (readPaging query).2 } } := by
  have limited (limit : Option UInt64) : Takes options ((limit.map limitCall).toList ++
      (query.range.map fun (first, last) => rangeCall first last).toList) parsed
      { parsed with query := { parsed.query with limit, range := query.range } } :=
    (takes_limit limit unlimited).trans (takes_range forward whole)
  cases skipped : query.offset with
  | none =>
      rw [pagingCalls_eq skipped, readPaging_plain skipped]
      exact limited query.limit
  | some offset =>
      unfold pagingCalls readPaging
      cases wanted : query.limit with
      | none =>
          simp only [skipped]
          exact limited none
      | some limit =>
          cases found : lastRow? limit offset with
          | none =>
              simp only [skipped, found]
              exact limited (some limit)
          | some last =>
              have first : Takes options [rangeCall offset last] parsed
                  { parsed with query := { parsed.query with limit := none, range := some (offset, last) } } := by
                rw [← unlimited]
                exact takes_rangeCall (le_lastRow found)
              simp only [skipped, found]
              cases rows : query.range with
              | none => exact first
              | some bounds => exact first.trans (takes_rangeCall (forward bounds rows))

theorem takes_orderLevels (fits : FitsNested query)
    (start : parsed.query.embeds = mapAll filtered (asRead query).embeds) :
    Takes options ((paths query.embeds).flatMap fun entry => entry.2.order.map (orderCall (some entry.1)))
      parsed {
        query := { parsed.query with embeds := mapAll ordered (asRead query).embeds }
        warnings := parsed.warnings ++
          (deeper query.embeds).flatMap fun entry => entry.2.order.map fun _ => orderLost entry.1 } :=
  takes_levels Embed.order completes_orders fits routes_order (fun _ => rfl)
    (fun embed member place listed => (fits.asRead.silentBelow embed member place listed).2.1) start

theorem takes_limitLevels (fits : FitsNested query)
    (start : parsed.query.embeds = mapAll ordered (asRead query).embeds) :
    Takes options ((paths query.embeds).flatMap fun entry => entry.2.limit.toList.map fun limit => {
        method := "limit"
        arguments := toString limit :: optionsArgument [("referencedTable", stringLiteral entry.1)] })
      parsed {
        query := { parsed.query with embeds := (asRead query).embeds }
        warnings := parsed.warnings ++
          (deeper query.embeds).flatMap fun entry => entry.2.limit.toList.map fun _ => limitLost entry.1 } := by
  have takes := @takes_levels options query parsed _ _ _ _ (fun embed => embed.limit.toList) _ _ completes_limits
    fits routes_limit (fun _ => rfl)
    (fun embed member place listed => by
      rw [(fits.asRead.silentBelow embed member place listed).2.2]
      rfl)
    start
  rwa [mapAll_id fits.asRead.embeds] at takes

/-- The calls behind the filters complete the read, and warn of the embeds that they do not find. -/
theorem takes_readClosing (fits : FitsNested query) :
    Takes options (nestedClosing query) { query := selected (asRead query) } {
      query := { asRead query with limit := (readPaging query).1, range := (readPaging query).2 }
      warnings := lost query.embeds } := by
  let orderly : Query := { selected (asRead query) with
    order := query.order, embeds := mapAll ordered (asRead query).embeds }
  let paged : Query := { orderly with limit := (readPaging query).1, range := (readPaging query).2 }
  let told := (deeper query.embeds).flatMap fun entry => entry.2.order.map fun _ => orderLost entry.1
  have orders : Takes options (query.order.map (orderCall none)) { query := selected (asRead query) }
      { query := { selected (asRead query) with order := query.order } } := takes_orders query.order
  have embedOrders : Takes options
      ((paths query.embeds).flatMap fun entry => entry.2.order.map (orderCall (some entry.1)))
      { query := { selected (asRead query) with order := query.order } }
      { query := orderly, warnings := told } := takes_orderLevels fits rfl
  have paging : Takes options ((pagingCalls query).1 ++
      (query.range.map fun (first, last) => rangeCall first last).toList)
      { query := orderly, warnings := told } { query := paged, warnings := told } :=
    takes_paging fits.range rfl rfl
  have embedLimits : Takes options
      ((paths query.embeds).flatMap fun entry => entry.2.limit.toList.map fun limit => {
        method := "limit"
        arguments := toString limit :: optionsArgument [("referencedTable", stringLiteral entry.1)] })
      { query := paged, warnings := told }
      { query := { paged with embeds := (asRead query).embeds }, warnings := lost query.embeds } :=
    takes_limitLevels fits rfl
  have last : Takes options (singleCalls query)
      { query := { paged with embeds := (asRead query).embeds }, warnings := lost query.embeds } _ :=
    takes_single query rfl
  exact (((orders.trans embedOrders).trans paging).trans embedLimits).trans last

theorem takes_nestedClosing (fits : FitsNested query) :
    ∃ limit range, Takes options (nestedClosing query) { query := selected (asRead query) }
        { query := { asRead query with limit, range }, warnings := lost query.embeds } ∧
      (query.offset = none → limit = query.limit ∧ range = query.range) := by
  refine ⟨_, _, takes_readClosing fits, fun plain => ?_⟩
  rw [readPaging_plain plain]
  exact ⟨rfl, rfl⟩

theorem finish_nested (limit : Option UInt64) (range : Option RowRange) (warnings : List String) :
    finish { query := { asRead query with limit, range }, warnings } =
      { query := { asRead query with limit, range }, warnings } := by
  refine if_neg fun bare => ?_
  simp only [Bool.and_eq_true, decide_eq_true_eq, List.isEmpty_iff] at bare
  obtain ⟨⟨_, columns⟩, embeds⟩ := bare
  rcases shown_full query.columns query.embeds with some | some
  · exact some columns
  · exact some (List.map_eq_nil_iff.mp embeds)

/-- What is read of the chain of a read. -/
theorem readQuery_received {written : Written} (name : IsClient client) (free : client ∉ ["auth", "storage"])
    (fits : FitsNested query) (wrote : write client query = .ok written)
    (small : written.code.utf8ByteSize ≤ options.maxInputLength)
    (room : bracketDepth .outside 0 written.code.toList ≤ options.maxDepth)
    (shallow : greatestDepth query.embeds ≤ options.maxDepth) :
    readQuery options written.code = .ok {
      query := { asRead query with limit := (readPaging query).1, range := (readPaging query).2 }
      warnings := lost query.embeds } := by
  obtain ⟨warnings, called⟩ := @write_nested client query fits
  rw [called] at wrote
  obtain rfl := Except.ok.inj wrote
  have takes : Takes options (nestedCalls query) { query := { table := query.table, operation := .select } } _ :=
    (takes_select fits shallow).trans ((takes_readFilters fits.asRead rfl).trans (takes_readClosing fits))
  rw [readQuery_takes name free takes rfl small room, finish_nested]

/-- The chain of a read with nested embeds is read back with all filters, but with those of a deeper
embed on the embed of the first level above it, and without the orders and limits of deeper embeds,
each of which is warned of.  So everything is where it was just when no embed below the first level has
a filter, an order or a limit. -/
theorem readQuery_nested (name : IsClient client) (free : client ∉ ["auth", "storage"])
    (fits : FitsNested query) :
    ∃ written, write client query = .ok written ∧
      (written.code.utf8ByteSize ≤ options.maxInputLength →
        bracketDepth .outside 0 written.code.toList ≤ options.maxDepth →
        greatestDepth query.embeds ≤ options.maxDepth →
        ∃ limit range, readQuery options written.code =
            .ok { query := { asRead query with limit, range }, warnings := lost query.embeds } ∧
          (query.offset = none → limit = query.limit ∧ range = query.range)) ∧
      (modifiers (asRead query).embeds = modifiers query.embeds ↔ ∀ entry ∈ deeper query.embeds,
        entry.2.filters = [] ∧ entry.2.order = [] ∧ entry.2.limit = none) := by
  obtain ⟨warnings, written⟩ := @write_nested client query fits
  refine ⟨_, written, fun small room shallow => ?_, modifiers_kept⟩
  obtain ⟨limit, range, closing, kept⟩ := @takes_nestedClosing options query fits
  have takes : Takes options (nestedCalls query) { query := { table := query.table, operation := .select } }
      { query := { asRead query with limit, range }, warnings := lost query.embeds } :=
    (takes_select fits shallow).trans ((takes_readFilters fits.asRead rfl).trans closing)
  refine ⟨limit, range, ?_, kept⟩
  rw [readQuery_takes name free takes rfl small room, finish_nested]

/-- A read whose second level has a filter and an order. -/
def nestedQuery : Query := {
  table := "a"
  operation := .select
  embeds := [{
    relation := "b"
    columns := [{ name := "x" }]
    embeds := [{
      relation := "c"
      columns := [{ name := "y" }]
      filters := [{ column := "z", op := .eq, value := .bool true }]
      order := [{ column := "y" }] }] }] }

def nestedCode : String :=
  "db.from('a').select('b(x,c(y))').eq('b.c.z', true).order('y', \x7b referencedTable: 'b.c' \x7d)"

theorem nestedQuery_written : write "db" nestedQuery = .ok { code := nestedCode, warnings := [] } := by
  decide +kernel

/-- The filter of the second level comes back on the first, and the order does not. -/
theorem nested_misplaced :
    (write "db" nestedQuery).map Written.code = .ok nestedCode ∧
      modifiers nestedQuery.embeds = [{ path := "b" }, {
          path := "b.c"
          filters := [{ column := "z", op := .eq, value := .bool true }]
          order := [{ column := "y" }] }] ∧
      (readQuery {} nestedCode).map (fun parsed => (modifiers parsed.query.embeds, parsed.warnings)) =
        .ok ([
          { path := "b", filters := [{ column := "c.z", op := .eq, value := .bool true }] },
          { path := "b.c" }], [orderLost "b.c"]) := by
  refine ⟨by rw [nestedQuery_written]; rfl, by decide +kernel, ?_⟩
  decide +kernel

theorem nestedQuery_fits : FitsNested nestedQuery where
  select := rfl
  columns := List.forall_mem_nil _
  embeds := by
    intro embed member
    rw [List.mem_singleton.mp member]
    have column (name : String) (plain : IsWord name) :
        ∀ column ∈ [({ name } : Column)], column.IsPlain := by
      intro column inside
      rw [List.mem_singleton.mp inside]
      exact .named plain (by simp) (by simp)
    refine .intro (by decide) (by simp) (column _ (by decide)) (by decide) ?_
    intro other inside
    rw [List.mem_singleton.mp inside]
    exact .intro (by decide) (by simp) (column _ (by decide)) (by decide) (by simp)
  distinct := by decide
  filters := List.forall_mem_nil _
  embedFilters := by
    intro entry member
    simp only [nestedQuery, Embed.paths, Embed.pathsFrom, Embed.pathsBelow, List.flatMap_cons,
      List.flatMap_nil, List.append_nil, List.mem_cons, List.not_mem_nil, or_false] at member
    rcases member with rfl | rfl
    · exact List.forall_mem_nil _
    · intro filter listed
      rw [List.mem_singleton.mp listed]
      exact ⟨rfl, .literal rfl ⟨.bool true, (by simp), (by simp)⟩, (by simp)⟩
  range := by simp [nestedQuery]

theorem readQuery_nested_sample : FitsNested nestedQuery ∧
    ∃ limit range, readQuery {} nestedCode = .ok {
        query := { asRead nestedQuery with limit, range }
        warnings := [orderLost "b.c"] } ∧
      modifiers (asRead nestedQuery).embeds ≠ modifiers nestedQuery.embeds := by
  have name : IsClient "db" := ⟨by decide, by decide⟩
  have room : bracketDepth .outside 0 nestedCode.toList ≤ 32 := by
    rw [nestedCode, show String.toList _ = _ from String.toList_ofList]
    decide +kernel
  obtain ⟨written, wrote, reads, kept⟩ :=
    @readQuery_nested {} "db" nestedQuery name (by decide) nestedQuery_fits
  rw [nestedQuery_written] at wrote
  obtain rfl := Except.ok.inj wrote
  obtain ⟨limit, range, read, _⟩ := reads (by decide +kernel) room (by decide)
  refine ⟨nestedQuery_fits, limit, range, read, fun same => ?_⟩
  exact absurd (kept.mp same) (by decide)

end QueryNotation.Chain
