import QueryNotation.Chain.Reader
import QueryNotation.Proofs.Chain.Filter
import QueryNotation.Proofs.Chain.Spelling
import QueryNotation.Proofs.EmbedPath

namespace QueryNotation.Chain

/-! # Folding calls

A chain whose calls have a meaning is read by folding the meanings in order.
-/

open Text Embed

variable {options : Options} {client table : String} {parsed : Parsed}

theorem rootOf?_client (free : client ∉ ["auth", "storage"]) : rootOf? (.property client) = none := by
  simp only [List.mem_cons, List.not_mem_nil, or_false, not_or] at free
  unfold rootOf?
  split
  · next same => cases same
  · next same => cases same
  · next same => exact absurd (Segment.property.inj same) free.1
  · next same => exact absurd (Segment.property.inj same) free.2
  · rfl

theorem splitRoot_client (free : client ∉ ["auth", "storage"]) (values : List Json)
    (behind : List Segment) :
    splitRoot (.property client :: .call "from" values :: behind) =
      some ([.property client], .query (.table values), behind) := by
  have root : rootOf? (.call "from" values) = some (.query (.table values)) := rfl
  rw [splitRoot, rootOf?_client free, splitRoot, root]
  rfl

theorem foldChain_table (client table : String) (behind : List Segment) :
    foldChain options [.property client] (.table [.string table]) behind =
      (behind.foldlM (applySegment options) { query := { table, operation := .select } }).map finish := by
  have started : startQuery (.table [.string table]) = .ok { table, operation := .select } := rfl
  rw [foldChain, started, ok_bind]
  exact bind_pure_comp finish _

/-- Some written calls take a reading from one state to another. -/
inductive Takes (options : Options) : List MethodCall → Parsed → Parsed → Prop where
  | nil (parsed : Parsed) : Takes options [] parsed parsed
  | cons {call : MethodCall} {calls : List MethodCall} {meaning : Call} {before between after : Parsed}
    (means : Means call meaning) (applies : applyCall options before meaning = .ok between)
    (behind : Takes options calls between after) : Takes options (call :: calls) before after

namespace Takes

variable {calls more : List MethodCall} {before between after : Parsed}

theorem one {call : MethodCall} {meaning : Call} (means : Means call meaning)
    (applies : applyCall options before meaning = .ok after) : Takes options [call] before after :=
  .cons means applies (.nil after)

theorem trans (front : Takes options calls before between) (back : Takes options more between after) :
    Takes options (calls ++ more) before after := by
  induction front with
  | nil parsed => exact back
  | cons means applies _ induction => exact .cons means applies (induction back)

/-- The calls of a run are decoded, and folding what they decode to is the run. -/
theorem decoded (takes : Takes options calls before after) :
    ∃ decoded : List Arguments, (∀ call ∈ decoded, call.IsWritten) ∧
      calls.flatMap (fun call => call.text.toList) = callsChars decoded ∧
      (decoded.map callSegment).foldlM (applySegment options) before = .ok after := by
  induction takes with
  | nil parsed => exact ⟨[], List.forall_mem_nil _, rfl, rfl⟩
  | @cons call calls meaning before between after means applies _ induction =>
      obtain ⟨values, denotes, classified⟩ := means
      obtain ⟨decoded, written, chars, folded⟩ := induction
      refine ⟨{ method := call.method, values } :: decoded, ?_, ?_, ?_⟩
      · intro other member
        rcases List.mem_cons.mp member with rfl | later
        · exact denotes.isWritten
        · exact written other later
      · rw [List.flatMap_cons, chars, toList_text denotes, callsChars, callsChars, List.flatMap_cons]
      · rw [List.map_cons, List.foldlM_cons, callSegment, applySegment]
        simp only [classified, ok_bind, applies, folded]

end Takes

/-- A chain of calls behind a table is read by the run of the calls. -/
theorem readQuery_takes {calls : List MethodCall} {after : Parsed} {code : String}
    (name : IsClient client) (free : client ∉ ["auth", "storage"])
    (takes : Takes options calls { query := { table, operation := .select } } after)
    (written : code = client ++ String.join (({ method := "from", arguments := [stringLiteral table] } ::
      calls : List MethodCall).map MethodCall.text))
    (small : code.utf8ByteSize ≤ options.maxInputLength)
    (room : bracketDepth .outside 0 code.toList ≤ options.maxDepth) :
    readQuery options code = .ok (finish after) := by
  have root : Denotes { method := "from", arguments := [stringLiteral table] } [.string table] := by
    have named : ∀ c ∈ "from".toList, isNameCharacter c = true := by decide
    refine ⟨by simp, named, by rw [List.map_singleton, literal], fun value member => ?_⟩
    rw [List.mem_singleton.mp member]
    exact stable_string table
  obtain ⟨decoded, each, chars, folded⟩ := takes.decoded
  have whole : code.toList =
      chainChars client ({ method := "from", values := [.string table] } :: decoded) := by
    rw [written, String.toList_append, String.toList_join, List.flatMap_map, List.flatMap_cons, chars,
      toList_text root, chainChars, callsChars, callsChars, List.flatMap_cons]
  have every : ∀ call ∈ ({ method := "from", values := [.string table] } :: decoded : List Arguments),
      call.IsWritten := by
    intro call member
    rcases List.mem_cons.mp member with rfl | later
    · exact root.isWritten
    · exact each call later
  rw [whole] at room
  have found := segments_chain name (by simp) every room
  rw [List.map_cons, callSegment] at found
  -- Size, segments, root and fold, in the order in which a chain is read.
  rw [readQuery, read, Options.checkSize_ok small, ok_bind, whole]
  simp only [found, ok_bind, splitRoot_client free, foldChain_table, folded]
  rfl

theorem changeEmbed?_eq_none {name : String} {change : Embed → Embed} :
    changeEmbed? name change parsed = none ↔ name ∉ parsed.query.embeds.map Embed.name := by
  rw [changeEmbed?, Option.map_eq_none_iff, updateFirst?_eq_none]

/-- True when no embed takes the filter for its own. -/
def IsMain (embeds : List Embed) (filter : Filter) : Prop :=
  ∀ embed ∈ embeds, ¬ embed.name.toList ++ ['.'] <+: filter.column.toList

theorem routeFilter_main {filter : Filter} (main : IsMain parsed.query.embeds filter) :
    routeFilter parsed filter =
      { parsed with query := { parsed.query with filters := parsed.query.filters ++ [filter] } } := by
  unfold routeFilter
  cases cut : cutFirst '.' filter.column.toList with
  | none => rfl
  | some parts =>
      obtain ⟨name, column⟩ := parts
      have absent : String.ofList name ∉ parsed.query.embeds.map Embed.name := by
        intro listed
        obtain ⟨embed, member, same⟩ := List.mem_map.mp listed
        refine main embed member ⟨column, ?_⟩
        rw [(cutFirst_eq_some cut).1, same, String.toList_ofList, List.append_assoc]
        rfl
      simp only [Option.bind_some, changeEmbed?_eq_none.mpr absent]
      rfl

theorem takes_filters {filters : List Filter}
    (fits : ∀ filter ∈ filters, FitsCall filter ∧ IsMain parsed.query.embeds filter) :
    Takes options (filters.map fun filter => filterCall filter.column filter) parsed
      { parsed with query := { parsed.query with filters := parsed.query.filters ++ filters } } := by
  induction filters generalizing parsed with
  | nil =>
      rw [List.append_nil]
      exact .nil parsed
  | cons filter rest induction =>
      obtain ⟨fitting, main⟩ := fits filter (by simp)
      have behind := @induction
        { parsed with query := { parsed.query with filters := parsed.query.filters ++ [filter] } }
        fun other member => fits other (by simp [member])
      rw [List.append_assoc, List.singleton_append] at behind
      refine .cons (means_filter filter.column fitting) ?_ behind
      exact congrArg Except.ok (routeFilter_main main)

section Entries

variable {α : Type} {call : String → α → MethodCall} {act : α → Embed → Embed}
  {items : Embed → List α} {embeds : List Embed}

/-- What is called with the name of an embed does something to the embed. -/
def Acts (options : Options) (call : String → α → MethodCall) (act : α → Embed → Embed) (item : α) :
    Prop :=
  ∀ name parsed next, IsWord name → changeEmbed? name (act item) parsed = some next →
    Takes options [call name item] parsed next

theorem acts_filter {filter : Filter} (fits : FitsCall filter) :
    Acts options (fun name filter => filterCall (name ++ "." ++ filter.column) filter)
      (fun filter embed => { embed with filters := embed.filters ++ [filter] }) filter := by
  intro name parsed next word changed
  refine .one (means_filter _ fits) ?_
  have cut : cutFirst '.' (name ++ "." ++ filter.column).toList = some (name.toList, filter.column.toList) := by
    have whole : (name ++ "." ++ filter.column).toList = name.toList ++ '.' :: filter.column.toList := by simp
    rw [whole, cutFirst_append (word.absent (by decide))]
  rw [applyCall, routeFilter, cut, Option.bind_some]
  simp only [String.ofList_toList, changed, Option.getD_some]

/-- The two ways in which an order says which way and where nulls go. -/
theorem orderItem_eq (item : OrderItem) : ({
    column := item.column
    descending := !!item.descending
    nulls := (item.nulls.map fun nulls => nulls == .first).map fun first =>
      if first then NullsOrder.first else .last } : OrderItem) = item := by
  obtain ⟨column, descending, nulls⟩ := item
  rcases descending with _ | _ <;> rcases nulls with _ | _ | _ <;> rfl

theorem acts_order (item : OrderItem) :
    Acts options (fun name item => orderCall (some name) item)
      (fun item embed => { embed with order := embed.order ++ [item] }) item := by
  intro name parsed next word changed
  refine .one (means_order (some name) item) ?_
  rw [applyCall, orderItem_eq, applyOrder, changed]
  rfl

theorem acts_limit (limit : UInt64) :
    Acts options (fun name limit => {
        method := "limit"
        arguments := toString limit :: optionsArgument [("referencedTable", stringLiteral name)] })
      (fun limit embed => { embed with limit := some limit }) limit := by
  intro name parsed next word changed
  refine .one (means_limit limit (some name)) ?_
  rw [applyCall, applyLimit, changed]
  rfl

theorem entries_nil {below : List Embed} (none : ∀ place ∈ places below, items place.2 = []) :
    entries items below = [] := by
  rw [entries, List.flatMap_eq_nil_iff]
  intro place member
  rw [none place member]
  rfl

/-- Where only the embeds of the first level have items, no path is longer than a name. -/
theorem entries_single (below : ∀ embed ∈ embeds, ∀ place ∈ places embed.embeds, items place.2 = []) :
    entries items embeds = embeds.flatMap fun embed => (items embed).map fun item => ([embed.name], item) := by
  induction embeds with
  | nil =>
      rw [entries, places]
      rfl
  | cons embed rest induction =>
      rw [entries_cons, entries_nil (below embed (by simp)),
        induction fun other member => below other (by simp [member]), List.flatMap_cons]
      rfl

theorem takes_acts {list : List (String × α)} {changed : List Embed}
    (words : ∀ entry ∈ list, IsWord entry.1) (acts : ∀ entry ∈ list, Acts options call act entry.2)
    (found : (list.map fun entry => ([entry.1], entry.2)).foldlM (applyAt act) parsed.query.embeds =
      some changed) :
    Takes options (list.map fun entry => call entry.1 entry.2) parsed
      { parsed with query := { parsed.query with embeds := changed } } := by
  induction list generalizing parsed with
  | nil =>
      cases found
      exact .nil parsed
  | cons entry more induction =>
      rw [List.map_cons, List.foldlM_cons] at found
      obtain ⟨next, first, found⟩ := Option.bind_eq_some_iff.mp found
      have made : changeEmbed? entry.1 (act entry.2) parsed =
          some { parsed with query := { parsed.query with embeds := next } } := by
        rw [changeEmbed?, show updateFirst? _ _ parsed.query.embeds = some next from first]
        rfl
      have here := acts entry (by simp) _ _ _ (words entry (by simp)) made
      exact here.trans (@induction { parsed with query := { parsed.query with embeds := next } }
        (fun other member => words other (by simp [member]))
        (fun other member => acts other (by simp [member])) found)

/-- What is to be done at every name of the first level is done to every embed. -/
theorem foldlM_first {before after : Embed → Embed} (completes : Completes items act before after)
    (plain : ∀ embed ∈ embeds, embed.IsPlain) (distinct : (embeds.map name).Nodup)
    (below : ∀ embed ∈ embeds, ∀ place ∈ places embed.embeds, items place.2 = []) :
    ((embeds.flatMap fun embed => (items embed).map fun item => (embed.name, item)).map
      fun entry => ([entry.1], entry.2)).foldlM (applyAt act) (mapAll before embeds) =
        some (mapAll after embeds) := by
  have found := completes.foldlM_entries (fun embed listed => (plain embed listed).isNamed) distinct
  have single : entries items embeds =
      (embeds.flatMap fun embed => (items embed).map fun item => (embed.name, item)).map
        fun entry => ([entry.1], entry.2) := by
    rw [entries_single below, List.map_flatMap]
    simp only [List.map_map, Function.comp_def]
  rwa [single] at found

/-- What is called for every embed of the first level is done to every embed. -/
theorem takes_embedCalls {call : String → α → MethodCall} {before after : Embed → Embed}
    (completes : Completes items act before after) (plain : ∀ embed ∈ embeds, embed.IsPlain)
    (distinct : (embeds.map name).Nodup)
    (below : ∀ embed ∈ embeds, ∀ place ∈ places embed.embeds, items place.2 = [])
    (acts : ∀ embed ∈ embeds, ∀ item ∈ items embed, Acts options call act item)
    (start : parsed.query.embeds = mapAll before embeds) :
    Takes options (embeds.flatMap fun embed => (items embed).map (call embed.name)) parsed
      { parsed with query := { parsed.query with embeds := mapAll after embeds } } := by
  have found := foldlM_first completes plain distinct below
  have calls : (embeds.flatMap fun embed => (items embed).map (call embed.name)) =
      (embeds.flatMap fun embed => (items embed).map fun item => (embed.name, item)).map
        fun entry => call entry.1 entry.2 := by
    rw [List.map_flatMap]
    simp only [List.map_map, Function.comp_def]
  rw [← start] at found
  rw [calls]
  refine takes_acts ?_ ?_ found
  · intro entry member
    obtain ⟨embed, listed, inside⟩ := List.mem_flatMap.mp member
    obtain ⟨item, _, rfl⟩ := List.mem_map.mp inside
    exact name_word (plain embed listed).isNamed
  · intro entry member
    obtain ⟨embed, listed, inside⟩ := List.mem_flatMap.mp member
    obtain ⟨item, given, rfl⟩ := List.mem_map.mp inside
    exact acts embed listed item given

end Entries

end QueryNotation.Chain
