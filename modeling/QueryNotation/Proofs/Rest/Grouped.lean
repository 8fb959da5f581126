import QueryNotation.Proofs.Rest.Edits
import QueryNotation.Proofs.Rest.Roundtrip

namespace QueryNotation.Rest

/-! # Requests for several embeds of one name

The parameters of an embed name it, and its name leads to the first embed that is called so.  Of several
embeds with one name the first is read back with the filters and the orders of all, the others with none.
-/

open Text Embed

variable {bound : Nat} {query : Query} {parsed : Parsed} {embeds : List Embed}

/-- A filter that is read back from its parameter, perhaps with another value. -/
structure IsSent (reserved : List String) (filter : Filter) : Prop where
  word : IsWord filter.column
  free : filter.column ∉ reserved
  config : ∀ config ∈ filter.config, filter.op.searchesText = true ∧ '.' ∉ config.toList

theorem acts_sentFilter {filter : Filter} (sent : IsSent ["order", "limit", "offset", "or", "and"] filter) :
    Acts bound (fun filter => (filter.column, filterText filter))
      (fun filter => (EmbedEdit.filter (sentFilter filter)).apply) filter where
  flat := sent.word.absent (by decide)
  plain member := sent.free (by simp at member ⊢; tauto)
  reads path parsed := by
    have free := sent.free
    simp only [List.mem_cons, List.not_mem_nil, or_false, not_or] at free
    obtain ⟨order, limit, offset, or, and⟩ := free
    have logic : isLogicKey filter.column = false :=
      isLogicKey_pointless (sent.word.absent (by decide)) (by simp [or, and])
    simp only [applyEmbedParam, order, limit, offset, logic, if_false, Bool.false_eq_true,
      readFilter_retyped sent.config, ok_bind]
    rfl

theorem applyParam_sentFilter {filter : Filter}
    (sent : IsSent ["select", "order", "limit", "offset", "on_conflict", "columns", "or", "and"] filter) :
    applyParam bound parsed (filter.column, filterText filter) = .ok (addFilter (sentFilter filter) parsed) := by
  have free := sent.free
  simp only [List.mem_cons, List.not_mem_nil, or_false, not_or] at free
  have unreserved : filter.column ∉ reservedKeys := by simp [reservedKeys, free]
  have logic : isLogicKey filter.column = false :=
    isLogicKey_pointless (sent.word.absent (by decide)) (by simp [free])
  have alone : embedPath? parsed.query.embeds filter.column = none := by
    rw [embedPath?, splitPath?_pointless (sent.word.absent (by decide))]
    rfl
  rw [applyParam, reservedFilter?_of_free unreserved]
  show applyPlainParam bound filter.column (filterText filter) parsed = _
  rw [applyPlainParam_alone unreserved logic alone, readFilter_retyped sent.config]
  rfl

section Level

variable {α : Type} {edit : α → EmbedEdit} {param : α → String × String}

theorem updateAt?_listed {name : String} (listed : name ∈ embeds.map Embed.name) (edit : EmbedEdit) :
    updateAt? edit.apply [name] embeds = some (changeAt edit.apply [name] embeds) := by
  rw [changeAt, updateAt?]
  cases made : updateFirst? (·.name = name) (fun embed => some (edit.apply embed)) embeds with
  | none => exact absurd listed (updateFirst?_eq_none.mp made)
  | some changed => rfl

/-- Edits for names that embeds have are all made. -/
theorem foldlM_applyAt {list : List (String × α)} (listed : ∀ entry ∈ list, entry.1 ∈ embeds.map name) :
    (list.map fun entry => ([entry.1], entry.2)).foldlM (applyAt fun item => (edit item).apply) embeds =
      some (editAll (list.map fun entry => (entry.1, edit entry.2)) embeds) := by
  induction list generalizing embeds with
  | nil => rfl
  | cons entry rest induction =>
      have step : applyAt (fun item => (edit item).apply) embeds ([entry.1], entry.2) =
          some (changeAt (edit entry.2).apply [entry.1] embeds) :=
        updateAt?_listed (listed entry (by simp)) (edit entry.2)
      have names : (changeAt (edit entry.2).apply [entry.1] embeds).map name = embeds.map name :=
        map_name_editAll [(entry.1, edit entry.2)] embeds
      rw [List.map_cons, List.foldlM_cons, step, Option.bind_eq_bind, Option.bind_some, induction]
      · rfl
      · intro other member
        rw [names]
        exact listed other (by simp [member])

/-- The edits that what is said of each embed asks for, by its name. -/
def levelEdits (edit : α → EmbedEdit) (items : Embed → List α) (embeds : List Embed) :
    List (String × EmbedEdit) :=
  embeds.flatMap fun embed => (items embed).map fun item => (embed.name, edit item)

/-- What is said of the embeds with some names are the edits for these names. -/
theorem filter_levelEdits (items : Embed → List α) (test : String → Bool) :
    (levelEdits edit items embeds).filter (fun edit => test edit.1) =
      levelEdits edit items (embeds.filter fun embed => test embed.name) := by
  rw [levelEdits, levelEdits, List.filter_flatMap]
  induction embeds with
  | nil => rfl
  | cons embed rest induction =>
      have own : ((items embed).map fun item => (embed.name, edit item)).filter (fun edit => test edit.1) =
          if test embed.name then (items embed).map fun item => (embed.name, edit item) else [] := by
        rw [List.filter_map]
        cases shape : test embed.name <;> simp [Function.comp_def, shape]
      rw [List.flatMap_cons, induction, own, List.filter_cons]
      split <;> rfl

theorem editsFor_levelEdits (items : Embed → List α) (name : String) :
    editsFor name (levelEdits edit items embeds) =
      (embeds.filter fun embed => embed.name = name).flatMap fun embed => (items embed).map edit := by
  have same := @filter_levelEdits embeds α edit items fun other => other = name
  rw [editsFor, same, levelEdits, List.map_flatMap]
  refine List.flatMap_congr fun embed _ => ?_
  rw [List.map_map]
  rfl

theorem paths_flat (flat : ∀ embed ∈ embeds, embed.embeds = []) :
    paths embeds = embeds.map fun embed => (embed.name, embed) := by
  have each : paths embeds = embeds.flatMap fun embed => [(embed.name, embed)] := by
    refine List.flatMap_congr fun embed member => ?_
    rw [pathsFrom_eq, flat embed member, pathsBelow]
  rw [each, List.map_eq_flatMap]

/-- What is written for every embed is done to the first embed of its name. -/
theorem foldlM_levelParams {items : Embed → List α} (flat : ∀ embed ∈ embeds, embed.embeds = [])
    (words : ∀ embed ∈ embeds, IsWord embed.name)
    (acts : ∀ embed ∈ embeds, ∀ item ∈ items embed, Acts bound param (fun item => (edit item).apply) item)
    (level : parsed.query.embeds.map name = embeds.map name) :
    ((paths embeds).flatMap fun entry => (items entry.2).map (dottedParam param entry.1)).foldlM
        (applyParam bound) parsed =
      .ok (setEmbeds (editAll (levelEdits edit items embeds) parsed.query.embeds) parsed) := by
  -- The items, each with the name of its embed.
  have written : ((paths embeds).flatMap fun entry => (items entry.2).map (dottedParam param entry.1)) =
      ((embeds.flatMap fun embed => (items embed).map fun item => (embed.name, item)).map fun entry =>
        ([entry.1], entry.2)).map fun entry => dottedParam param (pathThrough entry.1) entry.2 := by
    rw [paths_flat flat, List.flatMap_map, List.map_map, List.map_flatMap]
    refine List.flatMap_congr fun embed _ => ?_
    rw [List.map_map]
    exact List.map_congr_left fun item _ => rfl
  have source : ∀ entry ∈ embeds.flatMap fun embed => (items embed).map fun item => (embed.name, item),
      ∃ embed ∈ embeds, entry.1 = embed.name ∧ entry.2 ∈ items embed := by
    intro entry member
    obtain ⟨embed, listed, inside⟩ := List.mem_flatMap.mp member
    obtain ⟨item, given, rfl⟩ := List.mem_map.mp inside
    exact ⟨embed, listed, rfl, given⟩
  have edits : (embeds.flatMap fun embed => (items embed).map fun item => (embed.name, item)).map
      (fun entry => (entry.1, edit entry.2)) = levelEdits edit items embeds := by
    rw [List.map_flatMap, levelEdits]
    exact List.flatMap_congr fun embed _ => List.map_map
  rw [written, ← edits]
  refine foldlM_dottedParams ?_ ?_ ?_ (foldlM_applyAt ?_)
  · intro place member
    obtain ⟨entry, _, rfl⟩ := List.mem_map.mp member
    exact List.cons_ne_nil _ _
  · intro place member name named
    obtain ⟨entry, inside, rfl⟩ := List.mem_map.mp member
    obtain ⟨embed, listed, same, _⟩ := source entry inside
    rw [List.mem_singleton.mp named, same]
    exact words embed listed
  · intro place member
    obtain ⟨entry, inside, rfl⟩ := List.mem_map.mp member
    obtain ⟨embed, listed, _, given⟩ := source entry inside
    exact acts embed listed entry.2 given
  · intro entry member
    obtain ⟨embed, listed, same, _⟩ := source entry member
    rw [level, same]
    exact List.mem_map_of_mem listed

end Level

/-- The edits that the filters and the orders of embeds ask for. -/
def saidOf (embeds : List Embed) : List (String × EmbedEdit) :=
  levelEdits (fun filter => .filter (sentFilter filter)) Embed.filters embeds ++
    levelEdits .order orders embeds

/-- Embeds as they are read back from the parameters that name them, behind embeds with the names
`seen`: the first with a name has the filters and the orders of all. -/
def regrouped (seen : List String) : List Embed → List Embed
  | [] => []
  | embed :: rest =>
    let said := if embed.name ∈ seen then []
      else (embed :: rest).filter fun other => other.name = embed.name
    { embed with
      columns := shown embed.columns embed.embeds
      filters := said.flatMap fun other => other.filters.map sentFilter
      order := said.flatMap Embed.order
      limit := none
      embeds := mapAll Embed.told embed.embeds } :: regrouped (embed.name :: seen) rest

theorem flatMap_orders (embed : Embed) : (orders embed).flatMap id = embed.order := by
  unfold orders
  split
  · next none => rw [List.isEmpty_iff.mp none]; rfl
  · exact List.flatMap_singleton _ _

/-- The first embed with a name takes what is said of all. -/
theorem applyAll_saidOf (name : String) (embeds : List Embed) (embed : Embed) :
    EmbedEdit.applyAll (editsFor name (saidOf embeds)) embed =
      let said := embeds.filter fun other => other.name = name
      { embed with
        filters := embed.filters ++ said.flatMap fun other => other.filters.map sentFilter
        order := embed.order ++ said.flatMap Embed.order } := by
  have split : editsFor name (saidOf embeds) =
      ((embeds.filter fun other => other.name = name).flatMap fun other =>
        other.filters.map fun filter => .filter (sentFilter filter)) ++
      (embeds.filter fun other => other.name = name).flatMap fun other => (orders other).map .order := by
    rw [← editsFor_levelEdits, ← editsFor_levelEdits, saidOf, editsFor, List.filter_append, List.map_append]
    rfl
  have order (other : Embed) : (orders other).flatMap (fun items => EmbedEdit.addedOrder (.order items)) =
      other.order := flatMap_orders other
  have limits : (editsFor name (saidOf embeds)).filterMap EmbedEdit.limitSet? = [] := by
    rw [split, List.filterMap_eq_nil_iff]
    intro edit member
    rcases List.mem_append.mp member with front | back
    · obtain ⟨other, _, inside⟩ := List.mem_flatMap.mp front
      obtain ⟨filter, _, rfl⟩ := List.mem_map.mp inside
      rfl
    · obtain ⟨other, _, inside⟩ := List.mem_flatMap.mp back
      obtain ⟨items, _, rfl⟩ := List.mem_map.mp inside
      rfl
  rw [EmbedEdit.applyAll_eq, limits, split]
  simp only [List.flatMap_append, List.flatMap_assoc, List.flatMap_map, order]
  simp [EmbedEdit.addedFilters, EmbedEdit.addedOrder, List.map_eq_flatMap]

theorem filter_saidOf (test : String → Bool) (embeds : List Embed) :
    (saidOf embeds).filter (fun edit => test edit.1) = saidOf (embeds.filter fun embed => test embed.name) := by
  rw [saidOf, List.filter_append, filter_levelEdits, filter_levelEdits, saidOf]

/-- What is said of embeds whose names were not seen before is said of the first with each name. -/
theorem editAll_saidOf (seen : List String) (embeds : List Embed) :
    editAll (saidOf (embeds.filter fun embed => embed.name ∉ seen)) (mapAll Embed.told embeds) =
      regrouped seen embeds := by
  induction embeds generalizing seen with
  | nil => rw [mapAll, editAll_empty]; rfl
  | cons embed rest induction =>
      have named : (embed.mapEach Embed.told).name = embed.name := by rw [mapEach_eq]; rfl
      have behind : (((embed :: rest).filter fun other => other.name ∉ seen).filter fun other =>
          other.name ≠ embed.name) = rest.filter fun other => other.name ∉ embed.name :: seen := by
        rw [List.filter_filter, List.filter_cons_of_neg (by simp)]
        refine List.filter_congr fun other _ => ?_
        simp
      have own : (((embed :: rest).filter fun other => other.name ∉ seen).filter fun other =>
          other.name = embed.name) = if embed.name ∈ seen then []
            else (embed :: rest).filter fun other => other.name = embed.name := by
        rw [List.filter_filter]
        split
        · next before =>
          rw [List.filter_eq_nil_iff]
          intro other _ both
          simp only [Bool.and_eq_true, decide_eq_true_eq] at both
          exact both.2 (both.1 ▸ before)
        · next first =>
          refine List.filter_congr fun other _ => ?_
          by_cases same : other.name = embed.name
          · simp [same, first]
          · simp [same]
      have others := filter_saidOf (· ≠ embed.name) ((embed :: rest).filter fun other => other.name ∉ seen)
      rw [mapAll, editAll_cons, named, applyAll_saidOf, regrouped, own, others, behind, induction, mapEach_eq]
      rfl

theorem map_relation_regrouped (seen : List String) (embeds : List Embed) :
    (regrouped seen embeds).map relation = embeds.map relation := by
  induction embeds generalizing seen with
  | nil => rfl
  | cons embed rest induction =>
      rw [regrouped, List.map_cons, List.map_cons, induction]

def ownConditions (embed : Embed) : List Filter × List OrderItem :=
  (embed.filters, embed.order)

def sentConditions (embed : Embed) : List Filter × List OrderItem :=
  (embed.filters.map sentFilter, embed.order)

/-- An embed without conditions. -/
def IsFree (embed : Embed) : Prop :=
  embed.filters = [] ∧ embed.order = []

theorem said_own (embed : Embed) (rest : List Embed) :
    (((embed :: rest).filter fun other => other.name = embed.name).flatMap (fun other =>
        other.filters.map sentFilter),
      ((embed :: rest).filter fun other => other.name = embed.name).flatMap Embed.order) =
        sentConditions embed ↔
      ∀ later ∈ rest, embed.name = later.name → IsFree later := by
  rw [List.filter_cons_of_pos (by simp), List.flatMap_cons, List.flatMap_cons, sentConditions,
    Prod.mk.injEq, List.append_right_eq_self, List.append_right_eq_self, List.flatMap_eq_nil_iff,
    List.flatMap_eq_nil_iff]
  simp only [List.mem_filter, decide_eq_true_eq, List.map_eq_nil_iff]
  constructor
  · rintro ⟨filters, order⟩ later member same
    exact ⟨filters later ⟨member, same.symm⟩, order later ⟨member, same.symm⟩⟩
  · intro free
    exact ⟨fun later ⟨member, same⟩ => (free later member same.symm).1,
      fun later ⟨member, same⟩ => (free later member same.symm).2⟩

theorem sentConditions_none {embed : Embed} : ([], []) = sentConditions embed ↔ IsFree embed := by
  rw [sentConditions, Prod.mk.injEq, eq_comm, List.map_eq_nil_iff, @eq_comm _ [] embed.order, IsFree]

/-- Every embed keeps its conditions just when none has any behind another of its name. -/
theorem regrouped_kept_behind (seen : List String) (embeds : List Embed) :
    (regrouped seen embeds).map ownConditions = embeds.map sentConditions ↔
      (∀ embed ∈ embeds, embed.name ∈ seen → IsFree embed) ∧
        embeds.Pairwise fun first later => first.name = later.name → IsFree later := by
  induction embeds generalizing seen with
  | nil => simp [regrouped]
  | cons embed rest induction =>
      rw [regrouped, List.map_cons, List.map_cons, List.cons.injEq, induction, List.pairwise_cons,
        List.forall_mem_cons]
      simp only [List.mem_cons]
      by_cases before : embed.name ∈ seen
      · simp only [ownConditions, if_pos before, List.flatMap_nil, sentConditions_none]
        constructor
        · rintro ⟨free, others, apart⟩
          exact ⟨⟨fun _ => free, fun other member inside => others other member (.inr inside)⟩,
            fun later member same => others later member (.inl same.symm), apart⟩
        · rintro ⟨⟨own, behind⟩, same, apart⟩
          exact ⟨own before, fun other member inside =>
            inside.elim (fun equal => same other member equal.symm) (behind other member), apart⟩
      · simp only [ownConditions, if_neg before, said_own]
        constructor
        · rintro ⟨same, others, apart⟩
          exact ⟨⟨fun inside => absurd inside before, fun other member inside =>
            others other member (.inr inside)⟩, same, apart⟩
        · rintro ⟨⟨_, behind⟩, same, apart⟩
          exact ⟨same, fun other member inside =>
            inside.elim (fun equal => same other member equal.symm) (behind other member), apart⟩

theorem regrouped_kept (embeds : List Embed) :
    (regrouped [] embeds).map ownConditions = embeds.map sentConditions ↔
      embeds.Pairwise fun first later => first.name = later.name → IsFree later := by
  rw [regrouped_kept_behind]
  simp

/-- The reads whose embeds, all of one level and perhaps several of one name, a request can name. -/
structure FitsLevel (query : Query) : Prop where
  select : query.operation = .select
  named : query.table ≠ ""
  plain : query.table ≠ "rpc"
  columns : ∀ column ∈ query.columns, column.IsPlain
  words : ∀ embed ∈ query.embeds, IsWord embed.relation
  shown : ∀ embed ∈ query.embeds, ∀ column ∈ embed.columns, column.IsPlain
  filters : ∀ filter ∈ query.filters,
    IsSent ["select", "order", "limit", "offset", "on_conflict", "columns", "or", "and"] filter
  order : ∀ item ∈ query.order, IsName item.column
  embedFilters : ∀ embed ∈ query.embeds, ∀ filter ∈ embed.filters,
    IsSent ["order", "limit", "offset", "or", "and"] filter
  embedOrder : ∀ embed ∈ query.embeds, ∀ item ∈ embed.order, IsName item.column

/-- What lies outside of what a joined selection says. -/
structure IsJoined (query : Query) : Prop where
  labels : ∀ embed ∈ query.embeds, embed.label = none
  limits : ∀ embed ∈ query.embeds, embed.limit = none
  flat : ∀ embed ∈ query.embeds, embed.embeds = []
  range : query.range = none
  body : query.body = none
  single : query.single = none
  conflict : query.onConflict = none
  ignores : query.ignoreDuplicates = false

theorem isName_orders {embed : Embed} (names : ∀ item ∈ embed.order, IsName item.column) :
    ∀ order ∈ orders embed, ∀ item ∈ order, IsName item.column := by
  intro order given
  unfold orders at given
  split at given
  · cases given
  · rwa [List.mem_singleton.mp given]

theorem IsJoined.name_eq (joined : IsJoined query) {embed : Embed} (listed : embed ∈ query.embeds) :
    embed.name = embed.relation := by
  rw [Embed.name, joined.labels embed listed]
  rfl

theorem filterParams_eq (embeds : List Embed) : ((paths embeds).flatMap fun (path, embed) =>
    embed.filters.map fun filter => (path ++ "." ++ filter.column, filterText filter)) =
    (paths embeds).flatMap fun entry => entry.2.filters.map
      (dottedParam (fun filter => (filter.column, filterText filter)) entry.1) :=
  rfl

theorem limitParams_none (flat : ∀ embed ∈ embeds, embed.embeds = [])
    (unlimited : ∀ embed ∈ embeds, embed.limit = none) : ((paths embeds).flatMap fun (path, embed) =>
    (embed.limit.map fun limit => (path ++ ".limit", toString limit)).toList) = [] := by
  rw [paths_flat flat, List.flatMap_map, List.flatMap_eq_nil_iff]
  intro embed listed
  show (embed.limit.map _).toList = []
  rw [unlimited embed listed]
  rfl

namespace FitsLevel

theorem isNamed (fits : FitsLevel query) (joined : IsJoined query) :
    ∀ embed ∈ query.embeds, embed.IsNamed := by
  intro embed listed
  have flat := joined.flat embed listed
  refine .intro (fits.words embed listed) ?_ (fits.shown embed listed) ?_ ?_
  · rw [joined.labels embed listed]
    simp
  · rw [flat]
    exact List.nodup_nil
  · rw [flat]
    exact List.forall_mem_nil _

/-- The parameters put back what the request line and the select list leave open. -/
theorem foldlM_params (fits : FitsLevel query) (joined : IsJoined query) {columns : List Column} :
    (params query).foldlM (applyParam bound) { query := {
        table := query.table
        operation := .select
        head := query.head
        columns
        embeds := mapAll Embed.told query.embeds } } =
      .ok { query := {
        table := query.table
        operation := .select
        head := query.head
        columns
        filters := query.filters.map sentFilter
        order := query.order
        limit := query.limit
        offset := query.offset
        embeds := regrouped [] query.embeds } } := by
  have named := fits.isNamed joined
  have items (column : Column) (listed : column ∈ query.columns) : column.IsItem :=
    (fits.columns column listed).isItem
  have words : ∀ embed ∈ query.embeds, IsWord embed.name := fun embed listed => name_word (named embed listed)
  have list (parsed : Parsed) : (if sendsSelect query then [("select", query.selectList)]
      else []).foldlM (applyParam bound) parsed = .ok parsed := by
    split
    · exact foldlM_singleton (applyParam_select items named)
    · rfl
  have filters {parsed : Parsed} (level : parsed.query.embeds.map name = query.embeds.map name) :
      ((paths query.embeds).flatMap fun entry => entry.2.filters.map
        (dottedParam (fun filter => (filter.column, filterText filter)) entry.1)).foldlM (applyParam bound) parsed =
      .ok (setEmbeds (editAll (levelEdits (fun filter => .filter (sentFilter filter)) Embed.filters
        query.embeds) parsed.query.embeds) parsed) :=
    foldlM_levelParams joined.flat words
      (fun embed listed filter given => acts_sentFilter (fits.embedFilters embed listed filter given)) level
  have orders {parsed : Parsed} (level : parsed.query.embeds.map name = query.embeds.map name) :
      ((paths query.embeds).flatMap fun entry => (orders entry.2).map
        (dottedParam (fun order => ("order", orderText order)) entry.1)).foldlM (applyParam bound) parsed =
      .ok (setEmbeds (editAll (levelEdits .order orders query.embeds) parsed.query.embeds) parsed) :=
    foldlM_levelParams joined.flat words
      (fun embed listed order given => acts_order (isName_orders (fits.embedOrder embed listed) order given)) level
  have level := map_name_told query.embeds
  -- The parameters in the order in which they are written; each group leaves the names of the embeds.
  rw [params, filterParams_eq, orderParams_eq, limitParams_none joined.flat joined.limits,
    List.foldlM_append, List.foldlM_append, List.foldlM_append, List.foldlM_append, List.foldlM_append,
    List.foldlM_append, List.foldlM_append, List.foldlM_append, list, ok_bind,
    foldlM_filters fun filter listed parsed => applyParam_sentFilter (fits.filters filter listed), ok_bind,
    filters level, ok_bind, foldlM_order fits.order rfl, ok_bind,
    orders ((map_name_editAll _ _).trans level), ok_bind, foldlM_limit _ rfl, ok_bind,
    foldlM_offset _ rfl, ok_bind]
  have told : editAll (saidOf query.embeds) (mapAll Embed.told query.embeds) = regrouped [] query.embeds := by
    rw [← editAll_saidOf, List.filter_eq_self.mpr]
    simp
  rw [saidOf, editAll_append] at told
  rw [if_neg (by rw [fits.select]; decide), ← told]
  rfl

end FitsLevel

/-- A read with embeds of one level is read back from its request, the embeds with what is said of
their names. -/
theorem read_level {options : Options} (fits : FitsLevel query) (joined : IsJoined query)
    (small : sizeOf (write query).request.raw ≤ options.maxInputLength)
    (shallow : greatestDepth query.embeds ≤ options.maxDepth) :
    read options (write query).request.raw = .ok { query := { query with
      columns := listedColumns query
      filters := query.filters.map sentFilter
      embeds := regrouped [] query.embeds } } := by
  have call : query.operation ≠ .call := by rw [fits.select]; decide
  have alone : sendsSelect query = false → query.embeds = [] := by
    intro unsent
    rw [sendsSelect_eq, fits.select] at unsent
    simp only [Operation.isMutation, Bool.not_false, Bool.true_or, Bool.true_and, Bool.not_eq_false',
      Bool.and_eq_true, List.isEmpty_iff] at unsent
    exact unsent.2
  have free (filter : Filter) (listed : filter ∈ query.filters) (same : filter.column = "select") :
      (reservedFilter? options.maxDepth filter.column (filterText filter)).isSome = true :=
    absurd (by rw [same]; decide) (fits.filters filter listed).free
  have started := start_named (fun column listed => (fits.columns column listed).isItem)
    (fits.isNamed joined) free alone shallow
  have single : FitsSingle query := ⟨by simp [joined.single], by simp [joined.single]⟩
  have body : FitsBody query.operation query.body := joined.body ▸ .none
  have line : lineOperation query.operation = .select := by rw [fits.select]; rfl
  have upserts : query.ignoreDuplicates = true → query.operation = .upsert := by simp [joined.ignores]
  have range : ∀ range ∈ query.range, range.1 ≤ range.2 := by simp [joined.range]
  rw [line] at started
  unfold read
  simp only [Options.checkSize_ok small, ok_bind, target_write call fits.named fits.plain fun _ => fits.select,
    line, decode_write, started, fits.foldlM_params joined]
  rw [applyHeaders_write single upserts range line.symm rfl rfl rfl rfl rfl, ok_bind,
    applyBody_write call body rfl rfl, ← fits.select, ← joined.conflict]

end QueryNotation.Rest
