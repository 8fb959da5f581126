import QueryNotation.Proofs.Chain.Call
import QueryNotation.Proofs.Operator
import QueryNotation.Proofs.Value.Wire

namespace QueryNotation.Chain

/-! # Reading back filters

A filter comes back from its call when its value comes back from the form that its operator
and its negation give it: the method of an operator takes a literal, and a negation takes
lists and strings as on the wire.
-/

open Text Operator

/-- The values that come back from a negation. -/
inductive FitsNegation (op : Operator) : Value → Prop where
  | null : FitsNegation op .null
  | bool (value : Bool) : FitsNegation op (.bool value)
  | number {text : String} (stable : Value.IsStable (.number text)) : FitsNegation op (.number text)
  | string {text : String}
    (kept : if hasPattern op then '*' ∉ text.toList else Value.ofWire op text = .string text) :
    FitsNegation op (.string text)
  | list {items : List Value} (fits : Value.FitsWire op (.list items)) : FitsNegation op (.list items)

/-- The values that come back from a literal. -/
structure FitsLiteral (op : Operator) (value : Value) : Prop where
  stable : value.IsStable
  list : op = .oneOf → ∃ items, value = .list items
  pattern : hasPattern op = true → ∀ text, value = .string text → '*' ∉ text.toList

/-- The values that come back from a filter that is not negated. -/
inductive FitsMethod (op : Operator) : Value → Prop where
  | text {text : String} (bare : op.method = none) : FitsMethod op (.string text)
  | literal {value : Value} (named : op.method.isSome = true) (fits : FitsLiteral op value) :
    FitsMethod op value

/-- The filters that come back from their calls. -/
structure FitsCall (filter : Filter) : Prop where
  connective : filter.connective = .and
  value : if filter.negated then FitsNegation filter.op filter.value else FitsMethod filter.op filter.value
  config : filter.config.isSome = true → filter.op.searchesText = true

variable {op : Operator} {value : Value} {filter : Filter}

/-- The JSON value of a negated filter. -/
def negatedJson (op : Operator) (value : Value) : Json :=
  match value with
  | .list _ => .string (Value.wireToken op value)
  | other => other.toJson

theorem negatedValue_eq (same : filter.value = value) (fits : FitsNegation filter.op value) :
    negatedValue filter = literal (negatedJson filter.op value) := by
  unfold negatedValue negatedJson
  rw [same]
  cases fits with
  | null => rfl
  | bool value => rfl
  | number stable => rfl
  | @string text kept =>
      simp only [Value.toJson]
      split
      · next pattern =>
        have absent : '*' ∉ text.toList := by rwa [if_pos pattern] at kept
        rw [patternLiteral, Value.replaceChar_of_absent absent, literal]
      · rfl
  | list fits => simp only [literal]

theorem stable_negatedJson (fits : FitsNegation op value) :
    ∃ depth, Json.ReadsBack depth (negatedJson op value) := by
  cases fits with
  | null => exact Value.readsBack_toJson .null
  | bool value => exact Value.readsBack_toJson (.bool value)
  | number stable => exact Value.readsBack_toJson stable
  | string kept => exact Value.readsBack_toJson (.string _)
  | list fits => exact stable_string _

theorem filterValue_toJson (stable : value.IsStable) (list : ∀ text, value ≠ .string text) :
    Call.taggedValue op value.toJson = value := by
  have plain : ∀ text, value.toJson ≠ .string text := by
    intro text same
    have back := Value.ofJson_toJson stable
    rw [same, Value.ofJson] at back
    exact list text back.symm
  rw [Call.taggedValue]
  · rw [Call.filterValue]
    · exact Value.ofJson_toJson stable
    · exact fun text _ same => plain text same
  · exact plain

theorem taggedValue_negatedJson (fits : FitsNegation op value) :
    Call.taggedValue op (negatedJson op value) = value := by
  cases fits with
  | null => exact filterValue_toJson .null fun text => Value.noConfusion
  | bool value => exact filterValue_toJson (.bool value) fun text => Value.noConfusion
  | number stable => exact filterValue_toJson stable fun text => Value.noConfusion
  | @string text kept =>
      have same : negatedJson op (.string text) = .string text := by
        rw [negatedJson, Value.toJson]
        intro items other
        cases other
      rw [same, Call.taggedValue]
      split at kept
      · next pattern =>
        simp only [hasPattern, Bool.or_eq_true, decide_eq_true_eq] at pattern
        rcases pattern with rfl | rfl <;> rfl
      · exact kept
  | list fits => exact Value.ofWire_wireToken fits

def tagText (op : Operator) (config : Option String) : String :=
  String.ofList (frontText op config)

theorem toList_tagText (op : Operator) (config : Option String) :
    (tagText op config).toList = frontText op config :=
  String.toList_ofList

theorem tagText_none (op : Operator) : tagText op none = op.tag := by
  rw [tagText, ← String.toList_inj, String.toList_ofList]
  simp [frontText]

theorem tagText_some (op : Operator) (config : String) :
    tagText op (some config) = op.tag ++ ("(" ++ config ++ ")") := by
  rw [tagText, ← String.toList_inj, String.toList_ofList]
  simp [frontText]

theorem filterCall_negated (column : String) (negated : filter.negated = true)
    (fits : FitsNegation filter.op filter.value) :
    filterCall column filter = {
      method := "not"
      arguments := [Json.string column, .string (tagText filter.op filter.config),
        negatedJson filter.op filter.value].map literal } := by
  rw [filterCall, if_pos negated, List.map_cons, List.map_cons, List.map_singleton,
    ← negatedValue_eq rfl fits, literal, literal]
  cases shape : filter.config with
  | none =>
      simp only [tagText_none]
      simp
  | some config =>
      simp only [tagText_some]

theorem splitConfig_frontText (op : Operator) (config : Option String) :
    Call.splitConfig (frontText op config) = (op.tag.toList, config.map String.toList) := by
  unfold Call.splitConfig
  rw [cutFirst_frontText]
  cases config with
  | none => simp only [Option.map_none, frontText, List.append_nil]
  | some config => simp only [Option.map_some, dropTail?_append]

theorem classify_negation (column : String) (config : Option String) {value : Json} {result : Value}
    (read : Call.taggedValue op value = result) :
    Call.classify "not" [.string column, .string (tagText op config), value] =
      .ok (.filter { column, op, value := result, negated := true, config }) := by
  have lead : dropLead? "not.".toList (tagText op config).toList = none := by
    refine dropLead?_eq_none ?_
    rw [toList_tagText]
    exact tag_apart op _
  have kept : (config.map String.toList).map String.ofList = config := by
    cases config with
    | none => rfl
    | some config => simp
  have filter : Call.taggedFilter {
      method := "not", values := [.string column, .string (tagText op config), value] } =
      .ok { column, op, value := result, negated := true, config } := by
    rw [Call.taggedFilter]
    have first : Arguments.string {
        method := "not", values := [.string column, .string (tagText op config), value] } 0 =
        .ok column := rfl
    have second : Arguments.string {
        method := "not", values := [.string column, .string (tagText op config), value] } 1 =
        .ok (tagText op config) := rfl
    have third : Arguments.value {
        method := "not", values := [.string column, .string (tagText op config), value] } 2 =
        .ok value := rfl
    have tagged := splitConfig_frontText op config
    simp only [first, second, third, ok_bind, lead]
    rw [toList_tagText, tagged]
    simp only [String.ofList_toList, ofTag?_tag, read, kept]
    rfl
  rw [classify_method (by decide)]
  change (Call.taggedFilter _ >>= fun _ => _) = _
  rw [filter, ok_bind]
  rfl

theorem means_negation (column : String) (negated : filter.negated = true)
    (fits : FitsNegation filter.op filter.value) (connective : filter.connective = .and) :
    Means (filterCall column filter) (.filter { filter with column }) := by
  have meaning : ({ filter with column } : Filter) =
      { column, op := filter.op, value := filter.value, negated := true, config := filter.config } := by
    rw [negated, connective]
  rw [filterCall_negated column negated fits, meaning]
  refine means_of_values _ (by decide) (by decide) ?_ (classify_negation column _ (taggedValue_negatedJson fits))
  intro value member
  simp only [List.mem_cons, List.not_mem_nil, or_false] at member
  rcases member with rfl | rfl | rfl
  · exact stable_string column
  · exact stable_string _
  · exact stable_negatedJson fits

def searchSettings (op : Operator) (config : Option String) : List (String × Json) :=
  (match op with
    | .plainText => [("type", .string "plain")]
    | .phraseText => [("type", .string "phrase")]
    | .webText => [("type", .string "websearch")]
    | _ => []) ++
  (config.map fun config => ("config", Json.string config)).toList

/-- The operators that search text. -/
theorem search_cases (search : op.searchesText = true) :
    op = .fullText ∨ op = .plainText ∨ op = .phraseText ∨ op = .webText := by
  revert search
  cases op <;> decide

theorem searchSettings_known (search : op.searchesText = true) (config : Option String) :
    AreOptions (searchSettings op config) := by
  rcases search_cases search with rfl | rfl | rfl | rfl
  all_goals
    refine ⟨?_, ?_, ?_⟩ <;> cases config <;>
      simp [searchSettings, Json.Row.keys, isOptionValue] <;> decide

theorem means_search {text : String} (column : String) (positive : filter.negated = false)
    (search : filter.op.searchesText = true) (same : filter.value = .string text)
    (connective : filter.connective = .and) :
    Means (filterCall column filter) (.filter { filter with column }) := by
  obtain ⟨held, op, value, negated, connective, config⟩ := filter
  simp only at positive search same connective
  subst positive same connective
  have written : filterCall column ⟨held, op, .string text, false, .and, config⟩ = {
      method := "textSearch"
      arguments := [Json.string column, .string text].map literal ++
        optionsArgument ((searchSettings op config).map fun option => (option.1, literal option.2)) } := by
    have options : searchOptions ⟨held, op, .string text, false, .and, config⟩ =
        (searchSettings op config).map fun option => (option.1, literal option.2) := by
      rcases search_cases search with rfl | rfl | rfl | rfl <;> cases config <;>
        simp [searchOptions, searchSettings, literal]
    rw [filterCall, if_neg Bool.false_ne_true, if_pos search, options, Value.toJson, List.map_cons,
      List.map_singleton, literal, literal]
    rfl
  rw [written]
  refine means_of_options (by decide) (by decide) ?_ (searchSettings_known search config) ?_
  · intro value member
    simp only [List.mem_cons, List.not_mem_nil, or_false] at member
    rcases member with rfl | rfl
    · exact stable_string column
    · exact stable_string text
  · rw [classify_method (by decide)]
    rcases search_cases search with rfl | rfl | rfl | rfl <;> cases config <;> rfl

theorem name_of_method {method : String} (named : op.method = some method) :
    method ≠ "" ∧ (∀ c ∈ method.toList, isNameCharacter c = true) ∧ ofMethod? method = some op := by
  have table : ∀ name ∈ op.method, name ≠ "" ∧ (∀ c ∈ name.toList, isNameCharacter c = true) ∧
      ofMethod? name = some op := by
    cases op <;> decide
  exact table method named

theorem filterValue_stable (stable : value.IsStable) (list : op = .oneOf → ∃ items, value = .list items) :
    Call.filterValue op value.toJson = value := by
  rw [Call.filterValue]
  · exact Value.ofJson_toJson stable
  · rintro text rfl same
    obtain ⟨items, rfl⟩ := list rfl
    rw [Value.toJson] at same
    cases same

theorem methodValue_eq (fits : FitsLiteral filter.op filter.value) :
    methodValue filter = literal filter.value.toJson := by
  obtain ⟨column, op, value, negated, connective, config⟩ := filter
  obtain ⟨stable, list, pattern⟩ := fits
  simp only at stable list pattern
  unfold methodValue
  simp only
  split
  · rfl
  · next other =>
    obtain ⟨items, rfl⟩ := list rfl
    exact absurd rfl (other items)
  · next text _ =>
    rw [Value.toJson]
    split
    · next matching =>
      rw [patternLiteral, Value.replaceChar_of_absent (pattern matching text rfl), literal]
    · rfl
  · rfl

theorem means_method {method : String} (column : String) (positive : filter.negated = false)
    (plain : filter.op.searchesText = false) (named : filter.op.method = some method)
    (fits : FitsLiteral filter.op filter.value) (connective : filter.connective = .and)
    (config : filter.config = none) :
    Means (filterCall column filter) (.filter { filter with column }) := by
  obtain ⟨full, letters, found⟩ := name_of_method named
  have meaning : ({ filter with column } : Filter) = { column, op := filter.op, value := filter.value } := by
    rw [positive, connective, config]
  have written : filterCall column filter = {
      method, arguments := [Json.string column, filter.value.toJson].map literal } := by
    rw [filterCall, if_neg (by simp [positive]), if_neg (by simp [plain]), named]
    simp only [methodValue_eq fits, List.map_cons, List.map_nil, literal]
  have read := filterValue_stable fits.stable fits.list
  rw [written, meaning]
  refine means_of_values _ full letters ?_ ?_
  · intro value member
    simp only [List.mem_cons, List.not_mem_nil, or_false] at member
    rcases member with rfl | rfl
    · exact stable_string column
    · exact Value.readsBack_toJson fits.stable
  · have first : Arguments.string { method, values := [.string column, filter.value.toJson] } 0 =
        .ok column := rfl
    have second : Arguments.value { method, values := [.string column, filter.value.toJson] } 1 =
        .ok filter.value.toJson := rfl
    rw [Call.classify]
    simp only [found, first, second, ok_bind, read]
    rfl

theorem means_tag {text : String} (column : String) (positive : filter.negated = false)
    (expression : filter.op = .matches ∨ filter.op = .imatches) (same : filter.value = .string text)
    (connective : filter.connective = .and) (config : filter.config = none) :
    Means (filterCall column filter) (.filter { filter with column }) := by
  obtain ⟨held, op, value, negated, connective, config⟩ := filter
  simp only at positive expression same connective config
  subst positive same connective config
  have written : filterCall column ⟨held, op, .string text, false, .and, none⟩ = {
      method := "filter"
      arguments := [Json.string column, .string op.tag, .string text].map literal } := by
    rw [List.map_cons, List.map_cons, List.map_singleton, literal, literal, literal]
    rcases expression with rfl | rfl <;> rfl
  rw [written]
  refine means_of_values _ (by decide) (by decide) ?_ ?_
  · intro value member
    simp only [List.mem_cons, List.not_mem_nil, or_false] at member
    rcases member with rfl | rfl | rfl <;> exact stable_string _
  · rw [classify_method (by decide)]
    rcases expression with rfl | rfl <;> rfl

theorem FitsMethod.cases (fits : FitsMethod op value) :
    (op.method = none ∧ ∃ text, value = .string text) ∨
      ∃ method, op.method = some method ∧ FitsLiteral op value := by
  cases fits with
  | @text text bare => exact .inl ⟨bare, text, rfl⟩
  | literal named fits =>
      obtain ⟨method, named⟩ := Option.isSome_iff_exists.mp named
      exact .inr ⟨method, named, fits⟩

/-- An operator without a method matches an expression or searches text. -/
theorem bare_cases (bare : op.method = none) :
    (op = .matches ∨ op = .imatches) ∨ op.searchesText = true := by
  revert bare
  cases op <;> decide

theorem plain_of_method {method : String} (named : op.method = some method) : op.searchesText = false := by
  have table : op.method.isSome = true → op.searchesText = false := by
    cases op <;> decide
  exact table (by rw [named]; rfl)

/-- The call of a filter means the filter. -/
theorem means_filter (column : String) (fits : FitsCall filter) :
    Means (filterCall column filter) (.filter { filter with column }) := by
  have value := fits.value
  by_cases negated : filter.negated = true
  · rw [if_pos negated] at value
    exact means_negation column negated value fits.connective
  · rw [if_neg negated] at value
    have positive : filter.negated = false := by simpa using negated
    have unconfigured (plain : filter.op.searchesText = false) : filter.config = none := by
      cases shape : filter.config with
      | none => rfl
      | some config => exact absurd (fits.config (by rw [shape]; rfl)) (by simp [plain])
    rcases value.cases with ⟨bare, text, same⟩ | ⟨method, named, fitting⟩
    · rcases bare_cases bare with expression | search
      · have plain : filter.op.searchesText = false := by
          rcases expression with op | op <;> rw [op] <;> rfl
        exact means_tag column positive expression same fits.connective (unconfigured plain)
      · exact means_search column positive search same fits.connective
    · have plain := plain_of_method named
      exact means_method column positive plain named fitting fits.connective (unconfigured plain)

end QueryNotation.Chain
