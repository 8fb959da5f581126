import QueryNotation.Proofs.EmbedPath
import QueryNotation.Proofs.Rest.Filter
import QueryNotation.Proofs.Text.Unsigned
import QueryNotation.Rest.Reader

namespace QueryNotation.Rest

/-! # Reading back parameters

Each parameter of a query puts back one thing: a filter, an order or a count, of the main
table or of the embed that its path leads to.
-/

open Text Embed

variable {bound : Nat} {parsed : Parsed} {key path rest value : String}

/-- The keys that are read as the parameter itself when their value allows it. -/
def reservedKeys : List String :=
  ["limit", "offset", "order", "select", "on_conflict", "columns"]

theorem reservedFilter?_of_free (free : key ∉ reservedKeys) :
    reservedFilter? bound key value = none := by
  have unread : readsAsParameter? bound key value = none := by
    unfold readsAsParameter?
    split <;> first | rfl | exact absurd (by decide) free
  rw [reservedFilter?, unread]

theorem reservedFilter?_of_unread (reads : (readFilter key value).toOption = none) :
    reservedFilter? bound key value = none := by
  unfold reservedFilter?
  split
  · exact reads
  · rfl

theorem readFilter_pointless (absent : '.' ∉ value.toList) :
    (readFilter key value).toOption = none := by
  have lead : dropLead? "not.".toList value.toList = none := by
    refine dropLead?_eq_none ?_
    rintro ⟨rest, shape⟩
    exact absent (by rw [← shape]; simp)
  unfold readFilter
  simp only [lead, cutFirst_of_absent absent]
  rfl

theorem applyPlainParam_alone (free : key ∉ reservedKeys) (logic : isLogicKey key = false)
    (alone : embedPath? parsed.query.embeds key = none) :
    applyPlainParam bound key value parsed =
      readFilter key value >>= fun filter => .ok (addFilter filter parsed) := by
  unfold applyPlainParam
  split <;> first | exact absurd (by decide) free | skip
  simp only [logic, alone, Bool.false_eq_true, if_false]
  rfl

theorem applyPlainParam_embed (free : key ∉ reservedKeys) (logic : isLogicKey key = false)
    (found : embedPath? parsed.query.embeds key = some (path, rest)) :
    applyPlainParam bound key value parsed = applyEmbedParam bound key path rest value parsed := by
  unfold applyPlainParam
  split <;> first | exact absurd (by decide) free | skip
  simp only [logic, found, Bool.false_eq_true, if_false]

/-- A key without points is that of a group only if it is one of two. -/
theorem isLogicKey_pointless (absent : '.' ∉ key.toList) (plain : key ∉ ["or", "and"]) :
    isLogicKey key = false := by
  rw [isLogicKey, List.contains_eq_mem, decide_eq_false_iff_not]
  intro member
  have point : ∀ key ∈ ["or", "and", "not.or", "not.and"], key ∈ ["or", "and"] ∨ '.' ∈ key.toList := by
    decide
  rcases point key member with listed | inside
  · exact plain listed
  · exact absent inside

theorem splitPath?_pointless (absent : '.' ∉ key.toList) : splitPath? key = none := by
  rw [splitPath?, cutLast_of_absent absent]
  rfl

theorem applyParam_filter {filter : Filter} (fits : FitsFilter filter) (word : IsWord filter.column)
    (free : filter.column ∉ reservedKeys) (logic : isLogicKey filter.column = false) :
    applyParam bound parsed (filter.column, filterText filter) = .ok (addFilter filter parsed) := by
  have unreserved : reservedFilter? bound filter.column (filterText filter) = none :=
    reservedFilter?_of_free free
  have alone : embedPath? parsed.query.embeds filter.column = none := by
    rw [embedPath?, splitPath?_pointless (word.absent (by decide))]
    rfl
  simp only [applyParam, unreserved]
  rw [applyPlainParam_alone free logic alone, readFilter_filterText fits]
  rfl

theorem splitPath?_dotted (path : String) (absent : '.' ∉ rest.toList) :
    splitPath? (path ++ "." ++ rest) = some (path, rest) := by
  have cut := cutLast_append absent path.toList
  rw [splitPath?, String.toList_append, String.toList_append, List.append_assoc]
  refine (congrArg _ cut).trans ?_
  simp

theorem dotted_not_reserved (absent : '.' ∉ rest.toList) :
    path ++ "." ++ rest ∉ reservedKeys := by
  intro member
  have split := splitPath?_dotted path absent
  have none : ∀ key ∈ reservedKeys, splitPath? key = none := by decide
  rw [none _ member] at split
  cases split

theorem isLogicKey_dotted (absent : '.' ∉ rest.toList) (plain : rest ∉ ["or", "and"]) :
    isLogicKey (path ++ "." ++ rest) = false := by
  have split := splitPath?_dotted path absent
  have behind : ∀ key ∈ ["or", "and", "not.or", "not.and"],
      ∀ found ∈ splitPath? key, found.2 ∈ ["or", "and"] := by
    decide
  rw [isLogicKey, List.contains_eq_mem, decide_eq_false_iff_not]
  intro member
  exact plain (behind _ member _ split)

theorem applyParam_dotted (absent : '.' ∉ rest.toList) (plain : rest ∉ ["or", "and"])
    (there : (at? (pathNames path) parsed.query.embeds).isSome = true) :
    applyParam bound parsed (path ++ "." ++ rest, value) =
      applyEmbedParam bound (path ++ "." ++ rest) path rest value parsed := by
  have unreserved : reservedFilter? bound (path ++ "." ++ rest) value = none :=
    reservedFilter?_of_free (dotted_not_reserved absent)
  have found : embedPath? parsed.query.embeds (path ++ "." ++ rest) = some (path, rest) := by
    rw [embedPath?, splitPath?_dotted path absent, Option.filter_some, if_pos there]
  simp only [applyParam, unreserved]
  exact applyPlainParam_embed (dotted_not_reserved absent) (isLogicKey_dotted absent plain) found

def setEmbeds (embeds : List Embed) (parsed : Parsed) : Parsed :=
  { parsed with query := { parsed.query with embeds } }

section Entries

variable {α : Type} {param : α → String × String} {act : α → Embed → Embed}

/-- What is written behind the path to an embed does something to the embed. -/
structure Acts (bound : Nat) (param : α → String × String) (act : α → Embed → Embed) (item : α) :
    Prop where
  flat : '.' ∉ (param item).1.toList
  plain : (param item).1 ∉ ["or", "and"]
  reads : ∀ path parsed, applyEmbedParam bound (path ++ "." ++ (param item).1) path (param item).1
    (param item).2 parsed = .ok (changeEmbed path (act item) parsed)

def dottedParam (param : α → String × String) (path : String) (item : α) : String × String :=
  (path ++ "." ++ (param item).1, (param item).2)

theorem applyParam_entry {names : List String} {item : α} {changed : List Embed}
    (some : names ≠ []) (words : ∀ name ∈ names, IsWord name) (acts : Acts bound param act item)
    (found : applyAt act parsed.query.embeds (names, item) = .some changed) :
    applyParam bound parsed (dottedParam param (pathThrough names) item) =
      .ok (setEmbeds changed parsed) := by
  have led := pathNames_pathThrough some fun name listed => (words name listed).absent (by decide)
  have there := at?_of_updateAt? found
  rw [← led] at there
  rw [dottedParam, applyParam_dotted acts.flat acts.plain there, acts.reads, changeEmbed, led]
  unfold applyAt at found
  simp only [found]
  rfl

theorem foldlM_dottedParams {list : List (List String × α)} {changed : List Embed}
    (some : ∀ entry ∈ list, entry.1 ≠ []) (words : ∀ entry ∈ list, ∀ name ∈ entry.1, IsWord name)
    (acts : ∀ entry ∈ list, Acts bound param act entry.2)
    (found : list.foldlM (applyAt act) parsed.query.embeds = .some changed) :
    (list.map fun entry => dottedParam param (pathThrough entry.1) entry.2).foldlM
      (applyParam bound) parsed = .ok (setEmbeds changed parsed) := by
  induction list generalizing parsed with
  | nil =>
      cases found
      rfl
  | cons entry more induction =>
      rw [List.foldlM_cons] at found
      obtain ⟨next, first, found⟩ := Option.bind_eq_some_iff.mp found
      have step := applyParam_entry (some entry (by simp)) (words entry (by simp))
        (acts entry (by simp)) first
      rw [List.map_cons, List.foldlM_cons, step, ok_bind]
      exact induction (fun other member => some other (by simp [member]))
        (fun other member => words other (by simp [member]))
        (fun other member => acts other (by simp [member])) found

theorem map_entries {items : Embed → List α} {embeds : List Embed} :
    ((paths embeds).flatMap fun entry => (items entry.2).map (dottedParam param entry.1)) =
      (entries items embeds).map fun entry => dottedParam param (pathThrough entry.1) entry.2 := by
  rw [paths_eq, entries, List.flatMap_map, List.map_flatMap]
  simp only [List.map_map, Function.comp_def]

/-- What is written for every embed is done to every embed. -/
theorem foldlM_embedParams (param : α → String × String) {items : Embed → List α}
    {before after : Embed → Embed} {embeds : List Embed}
    (completes : Completes items act before after) (listed : ∀ embed ∈ embeds, embed.IsNamed)
    (distinct : (embeds.map name).Nodup)
    (acts : ∀ entry ∈ paths embeds, ∀ item ∈ items entry.2, Acts bound param act item)
    (start : parsed.query.embeds = mapAll before embeds) :
    ((paths embeds).flatMap fun entry => (items entry.2).map (dottedParam param entry.1)).foldlM
      (applyParam bound) parsed = .ok (setEmbeds (mapAll after embeds) parsed) := by
  have words : ∀ place ∈ places embeds, ∀ name ∈ place.1, IsWord name :=
    places_words fun embed given =>
      ⟨name_word (listed embed given), places_words_below (listed embed given)⟩
  have found := completes.foldlM_entries listed distinct
  rw [← start] at found
  rw [map_entries]
  refine foldlM_dottedParams entries_further ?_ ?_ found
  · intro entry member
    obtain ⟨place, found, inside⟩ := List.mem_flatMap.mp member
    obtain ⟨item, _, rfl⟩ := List.mem_map.mp inside
    exact words place found
  · intro entry member
    obtain ⟨place, found, inside⟩ := List.mem_flatMap.mp member
    obtain ⟨item, given, rfl⟩ := List.mem_map.mp inside
    refine acts (pathThrough place.1, place.2) ?_ item given
    rw [paths_eq]
    exact List.mem_map_of_mem found

end Entries

/-- What an embed has that its parameters can say. -/
structure FitsEmbed (embed : Embed) : Prop where
  filters : ∀ filter ∈ embed.filters, FitsFilter filter ∧ IsWord filter.column ∧
    filter.column ∉ ["order", "limit", "offset", "or", "and"]
  order : ∀ item ∈ embed.order, IsWord item.column

theorem acts_filter {filter : Filter} (fits : FitsFilter filter) (word : IsWord filter.column)
    (free : filter.column ∉ ["order", "limit", "offset", "or", "and"]) :
    Acts bound (fun filter => (filter.column, filterText filter))
      (fun filter embed => { embed with filters := embed.filters ++ [filter] }) filter where
  flat := word.absent (by decide)
  plain member := free (by simp at member ⊢; tauto)
  reads path parsed := by
    simp only [List.mem_cons, List.not_mem_nil, or_false, not_or] at free
    obtain ⟨order, limit, offset, or, and⟩ := free
    have logic : isLogicKey filter.column = false :=
      isLogicKey_pointless (word.absent (by decide)) (by simp [or, and])
    simp only [applyEmbedParam, order, limit, offset, logic, if_false, Bool.false_eq_true,
      readFilter_filterText fits, ok_bind]
    rfl

theorem acts_order {order : List OrderItem} (names : ∀ item ∈ order, IsName item.column) :
    Acts bound (fun order => ("order", orderText order))
      (fun order embed => { embed with order := embed.order ++ order }) order where
  flat := show '.' ∉ "order".toList by decide
  plain := show "order" ∉ ["or", "and"] by decide
  reads path parsed := by
    simp only [applyEmbedParam, readOrder_orderText names, if_true, ok_bind]
    rfl

theorem readCount_toString (key : String) (count : UInt64) :
    readCount key (toString count) = .ok count := by
  unfold readCount
  simp only [trim_count, unsigned?_toString]

theorem acts_limit (limit : UInt64) :
    Acts bound (fun limit => ("limit", toString limit))
      (fun limit embed => { embed with limit := some limit }) limit where
  flat := show '.' ∉ "limit".toList by decide
  plain := show "limit" ∉ ["or", "and"] by decide
  reads path parsed := by
    have other : ("limit" : String) ≠ "order" := by decide
    simp only [applyEmbedParam, other, if_false, if_true, readCount_toString, ok_bind]
    rfl

/-- The order of an embed, if it has one. -/
def orders (embed : Embed) : List (List OrderItem) :=
  if embed.order.isEmpty then [] else [embed.order]

theorem orderParams_eq (embeds : List Embed) : ((paths embeds).flatMap fun (path, embed) =>
    if embed.order.isEmpty then [] else [(path ++ ".order", orderText embed.order)]) =
    (paths embeds).flatMap fun entry => (orders entry.2).map
      (dottedParam (fun order => ("order", orderText order)) entry.1) := by
  refine List.flatMap_congr fun entry _ => ?_
  have key : entry.1 ++ ".order" = entry.1 ++ "." ++ "order" := by rw [String.append_assoc]; rfl
  simp only [orders, key]
  split <;> rfl

section Embeds

variable {embeds : List Embed} (listed : ∀ embed ∈ embeds, embed.IsNamed)
  (distinct : (embeds.map name).Nodup)

include listed distinct

theorem foldlM_embedFilters (fits : ∀ entry ∈ paths embeds, FitsEmbed entry.2)
    (start : parsed.query.embeds = mapAll told embeds) :
    ((paths embeds).flatMap fun (path, embed) =>
      embed.filters.map fun filter => (path ++ "." ++ filter.column, filterText filter)).foldlM
        (applyParam bound) parsed = .ok (setEmbeds (mapAll (filtered ∘ starred) embeds) parsed) := by
  have completes : Completes Embed.filters (fun filter embed => { embed with filters := embed.filters ++ [filter] })
      told (filtered ∘ starred) := by
    refine ⟨fun _ _ => rfl, fun _ => ⟨rfl, rfl⟩, fun embed below => ?_⟩
    rw [foldl_filters]
    rfl
  refine foldlM_embedParams (fun filter => (filter.column, filterText filter)) completes listed distinct ?_ start
  intro entry member filter given
  obtain ⟨fitting, word, free⟩ := (fits entry member).filters filter given
  exact acts_filter fitting word free

theorem foldlM_embedOrders (fits : ∀ entry ∈ paths embeds, FitsEmbed entry.2)
    (start : parsed.query.embeds = mapAll (filtered ∘ starred) embeds) :
    ((paths embeds).flatMap fun (path, embed) =>
      if embed.order.isEmpty then [] else [(path ++ ".order", orderText embed.order)]).foldlM
        (applyParam bound) parsed = .ok (setEmbeds (mapAll (ordered ∘ starred) embeds) parsed) := by
  have completes : Completes orders (fun order embed => { embed with order := embed.order ++ order })
      (filtered ∘ starred) (ordered ∘ starred) := by
    refine ⟨fun _ _ => rfl, fun _ => ⟨rfl, rfl⟩, fun embed below => ?_⟩
    unfold orders Function.comp filtered ordered starred
    split
    · next none => simp [List.isEmpty_iff.mp none]
    · simp
  rw [orderParams_eq]
  refine foldlM_embedParams (fun order => ("order", orderText order)) completes listed distinct ?_ start
  intro entry member order given
  unfold orders at given
  split at given
  · cases given
  · rw [List.mem_singleton.mp given]
    exact acts_order fun item given => ((fits entry member).order item given).isName

theorem foldlM_embedLimits (start : parsed.query.embeds = mapAll (ordered ∘ starred) embeds) :
    ((paths embeds).flatMap fun (path, embed) =>
      (embed.limit.map fun limit => (path ++ ".limit", toString limit)).toList).foldlM
        (applyParam bound) parsed = .ok (setEmbeds (mapAll starred embeds) parsed) := by
  have written : ((paths embeds).flatMap fun (path, embed) =>
      (embed.limit.map fun limit => (path ++ ".limit", toString limit)).toList) =
      (paths embeds).flatMap fun entry => entry.2.limit.toList.map
        (dottedParam (fun limit => ("limit", toString limit)) entry.1) := by
    refine List.flatMap_congr fun entry _ => ?_
    have key : entry.1 ++ ".limit" = entry.1 ++ "." ++ "limit" := by rw [String.append_assoc]; rfl
    simp only [key]
    cases entry.2.limit <;> rfl
  have completes : Completes (fun embed => embed.limit.toList) (fun limit embed => { embed with limit := some limit })
      (ordered ∘ starred) starred := by
    refine ⟨fun _ _ => rfl, fun _ => ⟨rfl, rfl⟩, fun embed below => ?_⟩
    unfold Function.comp ordered starred
    cases embed.limit <;> simp
  rw [written]
  exact foldlM_embedParams _ completes listed distinct (fun _ _ limit _ => acts_limit limit) start

end Embeds

end QueryNotation.Rest
