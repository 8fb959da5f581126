import QueryNotation.Proofs.Rest.Filter
import QueryNotation.Sql.Condition

namespace QueryNotation.Rest

/-! # The wire keeps the meaning of a filter

A token is read without the type of what was written, so a value may come back as another
one.  Its literal in SQL is the same: strings that spell a number or a keyword stand bare
there too, and the text of an array is quoted like any other.
-/

open Sql Value Text

variable {filter : Filter} {op : Operator} {value : Value} {text : String}

theorem scalarLiteral_ofToken (text : String) :
    scalarLiteral (ofToken text) = scalarLiteral (.string text) := by
  unfold ofToken
  split
  · next null => rw [null]; rfl
  · split
    · next null true => rw [true]; rfl
    · split
      · next null true false => rw [false]; rfl
      · split
        · next null true false numeric =>
          simp only [scalarLiteral, if_neg null, numeric, or_true, if_true]
        · rfl

theorem scalarLiteral_numeric (numeric : isNumeric text = true) :
    scalarLiteral (.string text) = text := by
  rw [← scalarLiteral_ofToken, ofToken_number numeric, scalarLiteral]

/-- The text of an array spells neither a number nor a keyword. -/
theorem scalarLiteral_arrayText (items : List Value) :
    scalarLiteral (.string (arrayText items)) = quote (arrayText items) := by
  have opened : ∀ other : String, other.toList.head? ≠ some '\x7b' → arrayText items ≠ other := by
    rintro _ differs rfl
    exact differs (by simp [arrayText, bareText])
  have digits : ¬ isNumeric (arrayText items) = true := by
    intro numeric
    have first : '\x7b' ∈ (arrayText items).toList := by simp [arrayText, bareText]
    rcases numeric_mem numeric first with minus | digit | point
    · exact absurd minus (by decide)
    · exact absurd digit (by decide)
    · exact absurd point (by decide)
  have others : ¬ (arrayText items = "true" ∨ arrayText items = "false" ∨
      isNumeric (arrayText items) = true) := by
    rintro (same | same | numeric)
    · exact opened _ (by decide) same
    · exact opened _ (by decide) same
    · exact digits numeric
  rw [scalarLiteral, if_neg (opened "null" (by decide)), if_neg others]

theorem scalarLiteral_bareText (numeric : ∀ text, value = .number text → isNumeric text = true) :
    scalarLiteral (.string (bareText value)) = scalarLiteral value := by
  cases value with
  | null => rfl
  | bool value => cases value <;> rfl
  | number text => exact scalarLiteral_numeric (numeric text rfl)
  | string text => rfl
  | list items => exact scalarLiteral_arrayText items

theorem scalarLiteral_retyped (value : Value) :
    scalarLiteral value.retyped = scalarLiteral value := by
  cases value with
  | string text =>
      rw [retyped]
      split
      · rfl
      · exact scalarLiteral_ofToken text
  | _ => rfl

theorem replaceChar_twice (pattern : String) :
    replaceChar '*' '%' (replaceChar '%' '*' pattern) = replaceChar '*' '%' pattern := by
  unfold replaceChar
  rw [String.toList_ofList, List.map_map]
  refine congrArg String.ofList (List.map_congr_left fun c _ => ?_)
  by_cases percent : c = '%'
  · simp [percent]
  · simp [percent]

/-- The values whose meaning behind an operator is carried.  Arrays are not among them: a null
in one comes back as text. -/
inductive Carries : Operator → Value → Prop
  | search {op : Operator} {value : Value} (searches : op.searchesText = true) : Carries op value
  | list {items : List Value} (scalars : ∀ item ∈ items, item.IsScalar) : Carries .oneOf (.list items)
  | pattern {op : Operator} {text : String} (wild : op = .like ∨ op = .ilike) : Carries op (.string text)
  | null : Carries .is .null
  | bool (value : Bool) : Carries .is (.bool value)
  | compared {op : Operator} {value : Value}
      (compares : op ∈ [.eq, .neq, .gt, .gte, .lt, .lte, .matches, .imatches, .strictlyLeft,
        .strictlyRight, .notExtendRight, .notExtendLeft, .adjacent])
      (numeric : ∀ text, value = .number text → isNumeric text = true) : Carries op value

theorem literal_compared (compares : op ∈ [.eq, .neq, .gt, .gte, .lt, .lte, .matches, .imatches,
      .strictlyLeft, .strictlyRight, .notExtendRight, .notExtendLeft, .adjacent])
    (value : Value) (config : Option String) :
    literal op value config = scalarLiteral value ∧
      scalarLiteral (ofWire op (wireToken op value)) = scalarLiteral (.string (bareText value)) := by
  simp only [List.mem_cons, List.not_mem_nil, or_false] at compares
  rcases compares with rfl | rfl | rfl | rfl | rfl | rfl | rfl | rfl | rfl | rfl | rfl | rfl | rfl
  case inr.inr.inr.inr.inr.inr.inl | inr.inr.inr.inr.inr.inr.inr.inl => exact ⟨rfl, rfl⟩
  all_goals exact ⟨rfl, scalarLiteral_ofToken _⟩

/-- The value that comes back from a token has the literal of the value that was sent. -/
theorem literal_ofWire (carried : Carries op value) (config : Option String) :
    literal op (ofWire op (wireToken op value)) config = literal op value config := by
  cases carried with
  | search searches =>
      obtain ⟨function, known⟩ := Option.isSome_iff_exists.mp searches
      unfold ofWire wireToken literal
      rw [if_pos searches, if_pos searches]
      simp only [known, bareText]
  | @list items scalars =>
      have read : ofWire .oneOf (wireToken .oneOf (.list items)) = .list (items.map retyped) :=
        congrArg Value.list (readList_join scalars)
      have same : (items.map retyped).map scalarLiteral = items.map scalarLiteral := by
        rw [List.map_map]
        exact List.map_congr_left fun item _ => scalarLiteral_retyped item
      rw [read]
      exact congrArg (fun texts => "(" ++ String.intercalate ", " texts ++ ")") same
  | @pattern op text wild =>
      have same := replaceChar_twice text
      rcases wild with rfl | rfl
      · exact congrArg quote same
      · exact congrArg quote same
  | null =>
      have kept : FitsWire .is .null := ⟨trivial, fun text other => Value.noConfusion other⟩
      rw [ofWire_wireToken kept]
  | bool value =>
      have kept : FitsWire .is (.bool value) := ⟨trivial, fun text other => Value.noConfusion other⟩
      rw [ofWire_wireToken kept]
  | compared compares numeric =>
      rw [(literal_compared compares _ config).1, (literal_compared compares _ config).1,
        (literal_compared compares value config).2, scalarLiteral_bareText numeric]

/-- A list comes back empty exactly when it was sent empty. -/
theorem isEmptyList_ofWire (carried : Carries .oneOf value) :
    isEmptyList (ofWire .oneOf (wireToken .oneOf value)) = isEmptyList value := by
  cases carried with
  | @list items scalars =>
      have read : ofWire .oneOf (wireToken .oneOf (.list items)) = .list (items.map retyped) :=
        congrArg Value.list (readList_join scalars)
      rw [read]
      cases items <;> rfl
  | search searches => cases searches
  | pattern wild => rcases wild with wild | wild <;> cases wild
  | compared compares => exact absurd compares (by decide)

/-- The condition of a filter that comes back from its parameter is written like that of the
filter that was sent. -/
theorem conditionText_sent (carried : Carries filter.op filter.value) (qualifier : Option String) :
    conditionText qualifier (sentFilter filter) = conditionText qualifier filter := by
  have listed : (filter.op = .oneOf ∧
      isEmptyList (ofWire filter.op (wireToken filter.op filter.value)) = true) =
      (filter.op = .oneOf ∧ isEmptyList filter.value = true) := by
    refine propext (and_congr_right fun isIn => ?_)
    rw [isIn] at carried ⊢
    rw [isEmptyList_ofWire carried]
  unfold sentFilter
  simp only [conditionText, literal_ofWire carried, listed]

/-- The condition of a filter that comes back from its parameter is the condition of the filter
that was sent, behind every qualifier. -/
theorem readFilter_condition (filter : Filter) (joined : filter.connective = .and)
    (carried : Carries filter.op filter.value)
    (configured : ∀ config ∈ filter.config,
      filter.op.searchesText = true ∧ '.' ∉ config.toList) :
    ∃ read, readFilter filter.column (filterText filter) = .ok read ∧
      ∀ qualifier, condition qualifier read = condition qualifier filter ∧
        condition qualifier filter = .ok (conditionText qualifier filter) := by
  refine ⟨sentFilter filter, readFilter_retyped configured, fun qualifier => ?_⟩
  have sent : condition qualifier (sentFilter filter) = .ok (conditionText qualifier (sentFilter filter)) :=
    rfl
  rw [sent, conditionText_sent carried, condition, joined]
  exact ⟨rfl, rfl⟩

/-- An `in` whose items look like numbers and keywords, or hold what a list is written with. -/
def hostileFilter : Filter where
  column := "tag"
  op := .oneOf
  value := .list [.string "10", .string "null", .string "a,b", .string "\"\\)", .string " ",
    .string "", .number "-1.5", .null, .bool true]
  negated := true

theorem readFilter_condition_hostile :
    ∃ read, readFilter "tag" (filterText hostileFilter) = .ok read ∧
      condition (some "t") read = .ok
        "t.tag NOT IN (10, NULL, 'a,b', '\"\\)', ' ', '', -1.5, NULL, true)" := by
  have scalars : ∀ item ∈ [Value.string "10", .string "null", .string "a,b", .string "\"\\)",
      .string " ", .string "", .number "-1.5", .null, .bool true], item.IsScalar := by
    intro item member
    simp only [List.mem_cons, List.not_mem_nil, or_false] at member
    rcases member with rfl | rfl | rfl | rfl | rfl | rfl | rfl | rfl | rfl
    case inr.inr.inr.inr.inr.inr.inl => exact show isNumeric "-1.5" = true by decide
    all_goals trivial
  obtain ⟨read, found, same⟩ := readFilter_condition hostileFilter rfl (.list scalars) (by simp [hostileFilter])
  refine ⟨read, found, ?_⟩
  rw [(same (some "t")).1]
  decide +kernel

end QueryNotation.Rest
