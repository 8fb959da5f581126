import QueryNotation.Proofs.Chain.Reading
import QueryNotation.Proofs.Chain.Run
import QueryNotation.Proofs.Rest.Routing

namespace QueryNotation.Chain

/-! # Values of chains

The values in the filters of a chain are arguments of its calls, decoded as JSON or read as on the
wire.
-/

open Embed
open Rest (EmbedEdit editAll)

variable {options : Options} {parsed next : Parsed} {given : List Value}

/-- A value that an argument stands for. -/
def IsArgument (value : Value) : Prop :=
  (∃ json, value = Value.ofJson json) ∨ ∃ op token, value = Value.ofWire op token

def Call.values : Call → List Value
  | .filter comparison => [comparison.value]
  | .equal row => row.map fun (_, value) => Value.ofJson value
  | _ => []

theorem isArgument_filterValue (op : Operator) (json : Json) : IsArgument (Call.filterValue op json) := by
  unfold Call.filterValue
  split
  · exact .inr ⟨_, _, rfl⟩
  · exact .inl ⟨_, rfl⟩

theorem isArgument_taggedValue (op : Operator) (json : Json) : IsArgument (Call.taggedValue op json) := by
  unfold Call.taggedValue
  split
  · exact .inr ⟨_, _, rfl⟩
  · exact isArgument_filterValue op json

theorem isArgument_taggedFilter {arguments : Arguments} {filter : Filter}
    (read : Call.taggedFilter arguments = .ok filter) : IsArgument filter.value := by
  obtain ⟨column, _, read⟩ := ok_of_bind read
  obtain ⟨written, _, read⟩ := ok_of_bind read
  dsimp only at read
  split at read
  · cases read
  · obtain ⟨value, _, read⟩ := ok_of_bind read
    obtain rfl := Except.ok.inj read
    exact isArgument_taggedValue _ value

theorem isArgument_searchFilter {arguments : Arguments} {filter : Filter}
    (read : Call.searchFilter arguments = .ok filter) : IsArgument filter.value := by
  obtain ⟨column, _, read⟩ := ok_of_bind read
  obtain ⟨query, _, read⟩ := ok_of_bind read
  obtain rfl := Except.ok.inj read
  exact .inl ⟨.string query, by rw [Value.ofJson]⟩

theorem values_of_bind {α : Type} {found : Outcome α} {make : α → Call} {call : Call}
    (plain : ∀ value, (make value).values = [])
    (read : (found >>= fun value => pure (make value)) = .ok call) : call.values = [] := by
  obtain ⟨value, _, read⟩ := ok_of_bind read
  obtain rfl := Except.ok.inj read
  exact plain value

theorem isArgument_ofMethod {method : String} {arguments : Arguments} {call : Call}
    (read : Call.ofMethod method arguments = .ok call) : ∀ value ∈ call.values, IsArgument value := by
  have none (plain : call.values = []) : ∀ value ∈ call.values, IsArgument value := by
    rw [plain]
    exact List.forall_mem_nil _
  unfold Call.ofMethod at read
  split at read
  · exact none (values_of_bind (fun _ => rfl) read)
  · obtain ⟨filter, tagged, read⟩ := ok_of_bind read
    obtain rfl := Except.ok.inj read
    exact List.forall_mem_singleton.mpr (isArgument_taggedFilter tagged)
  · obtain ⟨filter, tagged, read⟩ := ok_of_bind read
    obtain rfl := Except.ok.inj read
    exact List.forall_mem_singleton.mpr (isArgument_taggedFilter tagged)
  · obtain ⟨filter, searched, read⟩ := ok_of_bind read
    obtain rfl := Except.ok.inj read
    exact List.forall_mem_singleton.mpr (isArgument_searchFilter searched)
  · obtain ⟨row, _, read⟩ := ok_of_bind read
    obtain rfl := Except.ok.inj read
    exact List.forall_mem_map.mpr fun field _ => .inl ⟨field.2, rfl⟩
  · cases read
  · cases read
  · cases read
  · cases read
  · cases read
  · exact none (values_of_bind (fun _ => rfl) read)
  · exact none (values_of_bind (fun _ => rfl) read)
  · obtain ⟨first, _, read⟩ := ok_of_bind read
    exact none (values_of_bind (fun _ => rfl) read)
  · exact none (by rw [← Except.ok.inj read]; rfl)
  · exact none (by rw [← Except.ok.inj read]; rfl)
  · exact none (values_of_bind (fun _ => rfl) read)
  · exact none (values_of_bind (fun _ => rfl) read)
  · exact none (values_of_bind (fun _ => rfl) read)
  · exact none (by rw [← Except.ok.inj read]; rfl)
  · exact none (by rw [← Except.ok.inj read]; rfl)

/-- Every value of a call is an argument. -/
theorem isArgument_classify {method : String} {arguments : List Json} {call : Call}
    (read : Call.classify method arguments = .ok call) : ∀ value ∈ call.values, IsArgument value := by
  unfold Call.classify at read
  dsimp only at read
  split at read
  · obtain ⟨column, _, read⟩ := ok_of_bind read
    obtain ⟨json, _, read⟩ := ok_of_bind read
    obtain rfl := Except.ok.inj read
    exact List.forall_mem_singleton.mpr (isArgument_filterValue _ json)
  · exact isArgument_ofMethod read

theorem filtersBelow_changeAt (edit : EmbedEdit) (name : String) (embeds : List Embed) :
    ∀ filter ∈ filtersBelow (changeAt edit.apply [name] embeds),
      filter ∈ filtersBelow embeds ∨ filter ∈ edit.addedFilters := by
  have inside (embed : Embed) : ∀ filter ∈ (edit.apply embed).filtersFrom,
      filter ∈ embed.filtersFrom ∨ filter ∈ edit.addedFilters := by
    intro filter member
    rw [filtersFrom_eq] at member ⊢
    cases edit with
    | order items => exact .inl member
    | limit count => exact .inl member
    | filter added =>
        rw [List.mem_append] at member ⊢
        rcases member with own | further
        · exact (List.mem_append.mp own).imp_left .inl
        · exact .inl (.inr further)
  change ∀ filter ∈ filtersBelow ((updateFirst? (·.name = name) (fun embed => some (edit.apply embed)) embeds).getD
    embeds), _
  cases changed : updateFirst? (·.name = name) (fun embed => some (edit.apply embed)) embeds with
  | none => exact fun filter => .inl
  | some others => exact filtersBelow_updateFirst? (· ∈ edit.addedFilters) inside changed

/-- A run of edits adds no filters but those of its edits. -/
theorem filtersBelow_editAll (edits : List (String × EmbedEdit)) (embeds : List Embed) :
    ∀ filter ∈ filtersBelow (editAll edits embeds),
      filter ∈ filtersBelow embeds ∨ ∃ edit ∈ edits, filter ∈ edit.2.addedFilters := by
  induction edits generalizing embeds with
  | nil => exact fun filter => .inl
  | cons edit rest induction =>
      intro filter member
      rcases induction (changeAt edit.2.apply [edit.1] embeds) filter member with here | ⟨other, listed, added⟩
      · rcases filtersBelow_changeAt edit.2 edit.1 embeds filter here with before | added
        · exact .inl before
        · exact .inr ⟨edit, by simp, added⟩
      · exact .inr ⟨other, by simp [listed], added⟩

namespace Call

theorem values_eq (call : Call) : call.values = call.filters.map Filter.value := by
  cases call with
  | equal row => simp [values, filters]
  | _ => rfl

/-- What the edits of a call compare with, the call compares with. -/
theorem value_of_edit {call : Call} {edit : String × EmbedEdit} {added : Filter} (asked : edit ∈ call.edits)
    (adds : added ∈ edit.2.addedFilters) : added.value ∈ call.values := by
  rw [values_eq]
  unfold edits at asked
  split at asked
  · rw [List.mem_singleton.mp asked] at adds
    cases adds
  · rw [List.mem_singleton.mp asked] at adds
    cases adds
  · obtain ⟨filter, listed, made⟩ := List.mem_filterMap.mp asked
    obtain ⟨parts, _, rfl⟩ := Option.map_eq_some_iff.mp made
    rw [List.mem_singleton.mp adds]
    exact List.mem_map.mpr ⟨filter, listed, rfl⟩

end Call

/-- Each filter was there before or has one of some values. -/
def Adds (given : List Value) (before after : Parsed) : Prop :=
  ∀ filter ∈ after.query.allFilters, filter ∈ before.query.allFilters ∨ filter.value ∈ given

theorem adds_select {bound : Nat} {columns : String} {count : Option CountMode} {head : Bool}
    (applied : applySelect bound columns count head parsed = .ok next) : Adds given parsed next := by
  obtain ⟨selection, read, applied⟩ := ok_of_bind applied
  obtain rfl := Except.ok.inj applied
  intro filter member
  have bare : filtersBelow selection.embeds = [] :=
    filtersBelow_of_bare (Rest.hasBareEmbeds_ofChars read)
  unfold Query.allFilters at member
  rw [bare, List.append_nil] at member
  exact .inl (List.mem_append_left _ member)

theorem adds_onQuery {call : Call} (reached : next.query = call.onQuery parsed.query) :
    Adds call.values parsed next := by
  intro filter member
  unfold Query.allFilters at member ⊢
  rw [reached, List.mem_append] at member
  rw [List.mem_append]
  rcases member with main | embedded
  · rcases List.mem_append.mp main with before | added
    · exact .inl (.inl before)
    · rw [call.values_eq]
      exact .inr (List.mem_map_of_mem (List.mem_of_mem_filter added))
  · rcases filtersBelow_editAll call.edits _ filter embedded with before | ⟨edit, asked, added⟩
    · exact .inl (.inr before)
    · exact .inr (Call.value_of_edit asked added)

theorem adds_applyCall {call : Call} (applied : applyCall options parsed call = .ok next) :
    Adds call.values parsed next := by
  rcases applyCall_cases applied with ⟨columns, count, head, rfl, applied⟩ | reached
  · exact adds_select applied
  · exact adds_onQuery reached

theorem given_applySegment {segment : Segment} (applied : applySegment options parsed segment = .ok next) :
    ∃ given, (∀ value ∈ given, IsArgument value) ∧ Adds given parsed next := by
  cases segment with
  | property name =>
      obtain rfl := Except.ok.inj applied
      exact ⟨[], List.forall_mem_nil _, fun filter => .inl⟩
  | call name arguments =>
      obtain ⟨call, meant, applied⟩ := ok_of_bind applied
      exact ⟨call.values, isArgument_classify meant, adds_applyCall applied⟩

/-- All values of a query are arguments. -/
def HasArguments (parsed : Parsed) : Prop :=
  ∀ filter ∈ parsed.query.allFilters, IsArgument filter.value

theorem hasArguments_applySegment {segment : Segment} (before : HasArguments parsed)
    (applied : applySegment options parsed segment = .ok next) : HasArguments next := by
  obtain ⟨given, arguments, adds⟩ := given_applySegment applied
  intro filter member
  exact (adds filter member).elim (before filter) (arguments filter.value)

theorem allFilters_startQuery {root : QueryRoot} {query : Query} (started : startQuery root = .ok query) :
    query.allFilters = [] := by
  cases root with
  | function values =>
      obtain ⟨name, _, started⟩ := ok_of_bind started
      dsimp only at started
      split at started
      · obtain rfl := Except.ok.inj started
        rfl
      · cases started
      · obtain rfl := Except.ok.inj started
        rfl
  | table values =>
      obtain ⟨name, _, started⟩ := ok_of_bind started
      obtain rfl := Except.ok.inj started
      rfl

/-- Every value that a chain compares with is an argument of one of its calls. -/
theorem hasArguments_readQuery {text : String} (accepted : readQuery options text = .ok parsed) :
    HasArguments parsed := by
  refine readQuery_invariant HasArguments (fun started => ?_) hasArguments_applySegment (fun every => ?_) accepted
  · unfold HasArguments
    rw [allFilters_startQuery started]
    exact List.forall_mem_nil _
  · unfold finish
    dsimp only
    split
    · exact every
    · exact every

end QueryNotation.Chain
