import QueryNotation.Proofs.Operator
import QueryNotation.Proofs.Outcome
import QueryNotation.Proofs.Text.Word
import QueryNotation.Proofs.Value.Wire
import QueryNotation.Rest.Filter

namespace QueryNotation.Rest

/-! # Reading back filters and orders

The parameter of a filter is read back when the value comes back from its token and the
configuration, which only text search has, holds no point.
-/

open Text Operator

/-- The filters that come back from their parameters. -/
structure FitsFilter (filter : Filter) : Prop where
  connective : filter.connective = .and
  value : filter.value.FitsWire filter.op
  config : ∀ config ∈ filter.config, filter.op.searchesText = true ∧ '.' ∉ config.toList

theorem toList_filterText (filter : Filter) :
    (filterText filter).toList =
      (if filter.negated then ['n', 'o', 't', '.'] else []) ++
        (frontText filter.op filter.config ++
          '.' :: (Value.wireToken filter.op filter.value).toList) := by
  unfold filterText frontText
  cases filter.negated <;> cases filter.config <;> simp

theorem splitConfig_frontText (op : Operator) (config : Option String) :
    splitConfig (frontText op config) = some (op.tag.toList, config.map String.toList) := by
  unfold splitConfig
  rw [cutFirst_frontText]
  cases config with
  | none => simp only [Option.map_none, frontText, List.append_nil]
  | some config => simp only [Option.map_some, dropTail?_append]

/-- The filter that the parameter of a filter says: its value is read from the token. -/
def sentFilter (filter : Filter) : Filter :=
  { filter with
    value := Value.ofWire filter.op (Value.wireToken filter.op filter.value)
    connective := .and }

/-- A filter comes back from its parameter with the value that is read from the token. -/
theorem readFilter_retyped {filter : Filter} (configured : ∀ config ∈ filter.config,
      filter.op.searchesText = true ∧ '.' ∉ config.toList) :
    readFilter filter.column (filterText filter) = .ok (sentFilter filter) := by
  obtain ⟨column, op, value, negated, connective, config⟩ := filter
  have point : '.' ∉ frontText op config := by
    intro member
    rcases List.mem_append.mp member with tag | behind
    · exact (tag_plain op _ tag).1 rfl
    · cases config with
      | none => cases behind
      | some config =>
          have free := (configured config rfl).2
          simp [free] at behind
  have cut := cutFirst_append point (Value.wireToken op value).toList
  -- The text of a filter without a negation begins with a tag, and no tag begins as a negation does.
  have lead : dropLead? "not.".toList
      (filterText ⟨column, op, value, negated, connective, config⟩).toList =
        if negated then some (frontText op config ++ '.' :: (Value.wireToken op value).toList)
        else none := by
    rw [toList_filterText]
    cases negated with
    | true => exact dropLead?_append _ _
    | false =>
        refine dropLead?_eq_none ?_
        rw [if_neg Bool.false_ne_true, List.nil_append]
        unfold frontText
        rw [List.append_assoc]
        exact tag_apart op _
  have needed : ¬ ((config.map String.toList).isSome && !op.searchesText) = true := by
    cases config with
    | none => simp
    | some config => simp [(configured config rfl).1]
  have kept : (config.map String.toList).map String.ofList = config := by
    cases config with
    | none => rfl
    | some config => simp
  have rest : (filterText ⟨column, op, value, false, connective, config⟩).toList =
      frontText op config ++ '.' :: (Value.wireToken op value).toList := toList_filterText _
  unfold readFilter
  rw [lead]
  cases negated with
  | true =>
      simp only [if_true, cut, splitConfig_frontText, String.ofList_toList, Operator.ofTag?_tag,
        if_neg needed, kept, sentFilter]
  | false =>
      simp only [Bool.false_eq_true, if_false, rest, cut, splitConfig_frontText,
        String.ofList_toList, Operator.ofTag?_tag, if_neg needed, kept, sentFilter]

/-- A filter that fits is read back from its parameter. -/
theorem readFilter_filterText {filter : Filter} (fits : FitsFilter filter) :
    readFilter filter.column (filterText filter) = .ok filter := by
  rw [readFilter_retyped fits.config, sentFilter, Value.ofWire_wireToken fits.value, ← fits.connective]

/-- What stands behind the column of an item of an order. -/
def modifiersText (descending : Bool) (nulls : Option NullsOrder) : List Char :=
  (if descending then "desc" else "asc").toList ++
    match nulls with
    | some .first => ".nullsfirst".toList
    | some .last => ".nullslast".toList
    | none => []

theorem toList_orderItemText (item : OrderItem) :
    (orderItemText item).toList = item.column.toList ++ '.' :: modifiersText item.descending item.nulls := by
  obtain ⟨column, descending, nulls⟩ := item
  unfold orderItemText modifiersText
  simp only [String.toList_append, List.append_assoc]
  refine congrArg (column.toList ++ ·) ?_
  cases descending <;> rcases nulls with _ | _ | _ <;> simp

theorem modifiersText_plain (descending : Bool) (nulls : Option NullsOrder) :
    ∀ c ∈ modifiersText descending nulls, (isWordChar c || c == '.') = true := by
  cases descending <;> rcases nulls with _ | _ | _ <;> decide

theorem pieces_modifiersText (descending : Bool) (nulls : Option NullsOrder) :
    (pieces (· == '.') (modifiersText descending nulls)).map String.ofList =
      (if descending then "desc" else "asc") ::
        match nulls with
        | some .first => ["nullsfirst"]
        | some .last => ["nullslast"]
        | none => [] := by
  cases descending <;> rcases nulls with _ | _ | _ <;> decide

/-- An item of an order is read back from its text. -/
theorem readOrderItem_text {item : OrderItem} (name : IsName item.column) :
    readOrderItem (orderItemText item).toList = .ok item := by
  have point : ∀ c ∈ item.column.toList, (c == '.') = false := by
    intro c member
    rw [beq_eq_false_iff_ne]
    rintro rfl
    exact name.absent (by decide) member
  have cut := pieces_append point (show ('.' == '.') = true from rfl)
    (modifiersText item.descending item.nulls)
  unfold readOrderItem
  rw [toList_orderItemText, cut]
  simp only [name.trim_eq, List.isEmpty_iff, name.ne_nil, if_false, String.ofList_toList,
    pieces_modifiersText]
  obtain ⟨column, descending, nulls⟩ := item
  cases descending <;> rcases nulls with _ | _ | _ <;> simp [applyModifier]

theorem orderItem_plain {item : OrderItem} (name : IsName item.column) :
    ∀ c ∈ (orderItemText item).toList, isNameChar c = true ∨ c = '.' := by
  intro c member
  rw [toList_orderItemText, List.mem_append, List.mem_cons] at member
  rcases member with inside | rfl | behind
  · exact .inl (name.plain c inside)
  · exact .inr rfl
  · have plain := modifiersText_plain _ _ c behind
    rw [Bool.or_eq_true, beq_iff_eq] at plain
    exact plain.imp_left isNameChar_wordChar

/-- An order is read back from its parameter. -/
theorem readOrder_orderText {order : List OrderItem} (names : ∀ item ∈ order, IsName item.column)
    (bound : Nat) : readOrder bound (orderText order) = .ok order := by
  have texts : (orderText order).toList =
      [','].intercalate (order.map fun item => (orderItemText item).toList) := by
    rw [orderText, String.toList_intercalate, List.map_map]
    rfl
  have split : splitTopLevel ',' bound (orderText order).toList =
      .ok (order.map fun item => (orderItemText item).toList) := by
    rw [texts]
    refine splitTopLevel_join ?_ ?_ ?_
    · intro part member
      obtain ⟨item, listed, rfl⟩ := List.mem_map.mp member
      refine .of_flat fun c inside => ?_
      rcases orderItem_plain (names item listed) c inside with plain | rfl
      · refine ⟨isFlat_nameChar plain, ?_⟩
        rintro rfl
        exact absurd plain (by decide)
      · exact ⟨⟨rfl, rfl, rfl⟩, by decide⟩
    · intro part member
      obtain ⟨item, listed, rfl⟩ := List.mem_map.mp member
      refine trim_of_solid fun c inside => ?_
      rcases orderItem_plain (names item listed) c inside with plain | rfl
      · exact isBlank_nameChar plain
      · decide
    · intro part member
      obtain ⟨item, listed, rfl⟩ := List.mem_map.mp member
      rw [toList_orderItemText]
      simp
  rw [readOrder, split]
  exact mapM_ok fun item listed => readOrderItem_text (names item listed)

end QueryNotation.Rest
