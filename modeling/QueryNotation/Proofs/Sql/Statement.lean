import QueryNotation.Proofs.Outcome
import QueryNotation.Proofs.Sql.Region
import QueryNotation.Proofs.Text.Unsigned
import QueryNotation.Proofs.TypeName
import QueryNotation.Proofs.Value.Wire
import QueryNotation.Sql.Writer

namespace QueryNotation.Sql

/-! # Statements cannot be broken out of

Every piece of a statement is sealed: names and strings close their marks whatever is in
them, and what stands bare is a word, a number, an operator or the name of a type.
-/

open Text

theorem isPlain_of_class (allowed : Char → Bool) {c : Char}
    (apart : ['\'', '"', ';', '\\', '$', '/', '-'].all (fun mark => !allowed mark) = true)
    (holds : allowed c = true) : isPlain c = true := by
  simp only [isPlain, Bool.not_eq_true', List.contains_eq_mem, decide_eq_false_iff_not]
  intro member
  have refused := List.all_eq_true.mp apart c member
  rw [holds] at refused
  cases refused

theorem isPlain_digit {c : Char} (digit : c.isDigit = true) : isPlain c = true :=
  isPlain_of_class Char.isDigit (by decide) digit

theorem isPlain_typeChar {c : Char} (typed : TypeName.isTypeChar c = true) : isPlain c = true :=
  isPlain_of_class TypeName.isTypeChar (by decide) typed

def IsSealed (text : String) : Prop :=
  Sealed text.toList

namespace IsSealed

variable {left right text : String}

theorem append (first : IsSealed left) (second : IsSealed right) : IsSealed (left ++ right) := by
  rw [IsSealed, String.toList_append]
  exact Sealed.append first second

/-- The fixed words of a statement. -/
theorem word (plain : text.toList.all isPlain = true) : IsSealed text :=
  .of_plain (List.all_eq_true.mp plain)

theorem region {mark : Char} (quotes : isMark mark = true) (content : List Char) :
    IsSealed (String.ofList (mark :: substitute mark [mark, mark] content ++ [mark])) := by
  rw [IsSealed, String.toList_ofList, List.cons_append]
  exact .region content quotes .nil

theorem intercalate {separator : String} {items : List String} (apart : IsSealed separator)
    (all : ∀ item ∈ items, IsSealed item) : IsSealed (separator.intercalate items) := by
  rw [IsSealed, String.toList_intercalate]
  induction items with
  | nil => exact .nil
  | cons item more induction =>
      have first := all item (by simp)
      have others := induction fun other member => all other (by simp [member])
      cases more with
      | nil =>
          rw [List.map_singleton, List.intercalate_singleton]
          exact first
      | cons next rest =>
          rw [List.map_cons, List.map_cons, List.intercalate_cons_cons]
          exact Sealed.append (Sealed.append first apart) others

theorem join {items : List String} (all : ∀ item ∈ items, IsSealed item) :
    IsSealed (String.join items) := by
  induction items with
  | nil => exact .nil
  | cons item more induction =>
      rw [String.join_cons]
      exact (all item (by simp)).append (induction fun other member => all other (by simp [member]))

end IsSealed

theorem isSealed_escapeName (name : String) : IsSealed (escapeName name) := by
  unfold escapeName
  split
  · next star => subst star; exact .word (by decide)
  · split
    · next bare =>
      simp only [isBareName, Bool.and_eq_true] at bare
      refine .word (List.all_eq_true.mpr fun c member => ?_)
      exact isPlain_of_class (fun c => isLetterOrNumeral c || c == '_') (by decide)
        (List.all_eq_true.mp bare.1.2 c member)
    · exact .region rfl name.toList

theorem isSealed_escapeIdentifier (name : String) : IsSealed (escapeIdentifier name) := by
  refine .intercalate (.word (by decide)) fun item member => ?_
  obtain ⟨part, _, rfl⟩ := List.mem_map.mp member
  exact isSealed_escapeName _

theorem isSealed_qualified (qualifier : Option String) (column : String) :
    IsSealed (qualified qualifier column) := by
  cases qualifier with
  | none => exact isSealed_escapeName column
  | some table =>
      exact ((isSealed_escapeName table).append (.word (by decide))).append
        (isSealed_escapeName column)

theorem isSealed_quote (text : String) : IsSealed (quote text) :=
  .region rfl text.toList

theorem sealed_negative {digits : List Char} (some : digits ≠ [])
    (plain : ∀ c ∈ digits, isPlain c = true) : Sealed ('-' :: digits) := by
  cases digits with
  | nil => exact absurd rfl some
  | cons c rest =>
      exact .dash (plain c (by simp)) (.of_plain fun d member => plain d (by simp [member]))

theorem isPlain_numeric {c : Char} (numeric : (c.isDigit || c == '.') = true) :
    isPlain c = true :=
  isPlain_of_class (fun c => c.isDigit || c == '.') (by decide) numeric

theorem isSealed_numeric {text : String} (numeric : isNumeric text = true) : IsSealed text := by
  simp only [isNumeric, Bool.and_eq_true, List.all_eq_true] at numeric
  obtain ⟨⟨⟨first, _⟩, plain⟩, _⟩ := numeric
  unfold IsSealed
  split at plain
  · next digits shape =>
    simp only [shape] at first
    rw [shape]
    refine sealed_negative ?_ fun c member => isPlain_numeric (plain c member)
    rintro rfl
    cases first
  · exact .of_plain fun c member => isPlain_numeric (plain c member)

theorem isPlain_toDigits {value : Nat} {c : Char} (member : c ∈ Nat.toDigits 10 value) :
    isPlain c = true :=
  isPlain_digit (toDigits_all_isDigit value c member)

theorem sealed_positional {digits : List Char} (plain : ∀ c ∈ digits, isPlain c = true)
    (exponent : Int) : Sealed (Decimal.positional digits exponent) := by
  have zeros (count : Nat) : ∀ c ∈ List.replicate count '0', isPlain c = true := by
    intro c member
    rw [List.eq_of_mem_replicate member]
    decide
  unfold Decimal.positional
  simp only
  split
  · exact .plain (by decide) (.plain (by decide) ((Sealed.of_plain (zeros _)).append (.of_plain plain)))
  · split
    · exact ((Sealed.of_plain plain).append (.of_plain (zeros _))).append (.of_plain (by decide))
    · refine (Sealed.of_plain fun c member => plain c (List.mem_of_mem_take member)).append ?_
      exact .plain (by decide) (.of_plain fun c member => plain c (List.mem_of_mem_drop member))

theorem sealed_scientific {digits : List Char} (plain : ∀ c ∈ digits, isPlain c = true)
    (leading : Int) : Sealed (Decimal.scientific Json.numberLayout digits leading) := by
  unfold Decimal.scientific
  simp only
  rw [List.append_assoc]
  refine Sealed.append ?_ (.plain (by decide) ?_)
  · cases digits with
    | nil => exact .nil
    | cons digit more =>
        cases more with
        | nil => exact .of_plain plain
        | cons next rest =>
            exact .plain (plain digit (by simp)) (.plain (by decide)
              (.of_plain fun c member => plain c (List.mem_cons_of_mem _ member)))
  · split
    · exact sealed_negative Nat.toDigits_ne_nil fun c member => isPlain_toDigits member
    · exact Sealed.append (show IsSealed "+" from .word (by decide))
        (.of_plain fun c member => isPlain_toDigits member)

theorem head_positional (first : Char) (more : List Char) (exponent : Int) :
    ∃ c rest, Decimal.positional (first :: more) exponent = c :: rest ∧ (c = '0' ∨ c = first) := by
  unfold Decimal.positional
  simp only
  split
  · exact ⟨'0', _, rfl, .inl rfl⟩
  · next whole =>
    split
    · exact ⟨first, _, rfl, .inr rfl⟩
    · obtain ⟨count, positive⟩ :
          ∃ count, ((first :: more).length + exponent).toNat = count + 1 :=
        ⟨((first :: more).length + exponent).toNat - 1, by omega⟩
      rw [positive, List.take_succ_cons]
      exact ⟨first, _, rfl, .inr rfl⟩

/-- What is laid out for a decimal begins with a digit. -/
theorem render_eq_cons (decimal : Decimal.Digits) :
    ∃ c rest, Json.numberLayout.render decimal = c :: rest ∧ isPlain c = true ∧ Sealed rest := by
  unfold Decimal.Layout.render
  simp only
  have plain : ∀ c ∈ Nat.toDigits 10 decimal.digits, isPlain c = true :=
    fun c member => isPlain_toDigits member
  cases digits : Nat.toDigits 10 decimal.digits with
  | nil => exact absurd digits Nat.toDigits_ne_nil
  | cons first more =>
      rw [digits] at plain
      have firstPlain := plain first (by simp)
      split
      · obtain ⟨c, rest, shape, same⟩ := head_positional first more decimal.exponent
        have closed := sealed_positional plain decimal.exponent
        rw [shape] at closed ⊢
        have head : isPlain c = true := by
          rcases same with rfl | rfl
          · decide
          · exact firstPlain
        exact ⟨c, rest, rfl, head, closed.behind head⟩
      · have closed := sealed_scientific plain
          (decimal.exponent + ((first :: more).length : Nat) - 1)
        cases more with
        | nil => exact ⟨first, _, rfl, firstPlain, closed.behind firstPlain⟩
        | cons next rest => exact ⟨first, _, rfl, firstPlain, closed.behind firstPlain⟩

theorem isSealed_jsonNumber (number : Json.Number) : IsSealed number.text := by
  rw [IsSealed, Json.Number.text, String.toList_ofList]
  cases number with
  | integer value =>
      rw [Json.Number.chars]
      split
      · exact sealed_negative Nat.toDigits_ne_nil fun c member => isPlain_toDigits member
      · exact .of_plain fun c member => isPlain_toDigits member
  | real negative magnitude =>
      obtain ⟨c, rest, shape, plain, closed⟩ := render_eq_cons (Decimal.shortest magnitude)
      rw [Json.Number.chars, shape]
      split
      · exact .dash plain closed
      · exact .plain plain closed

theorem isSealed_jsonLiteral (json : Json) : IsSealed (jsonLiteral json) := by
  cases json with
  | null => exact .word (by decide)
  | bool value => cases value <;> exact .word (by decide)
  | number value => exact isSealed_jsonNumber value
  | string text => exact isSealed_quote text
  | array items => exact isSealed_quote _
  | object fields => exact isSealed_quote _

/-- Every number in a value is decimal text. -/
inductive HasNumeric : Value → Prop where
  | null : HasNumeric .null
  | bool (value : Bool) : HasNumeric (.bool value)
  | number {text : String} (numeric : isNumeric text = true) : HasNumeric (.number text)
  | string (text : String) : HasNumeric (.string text)
  | list {items : List Value} (all : ∀ item ∈ items, HasNumeric item) : HasNumeric (.list items)

variable {value : Value}

theorem isSealed_boolText (value : Bool) : IsSealed (Value.boolText value) := by
  cases value <;> exact .word (by decide)

theorem isSealed_scalarLiteral (numeric : HasNumeric value) : IsSealed (scalarLiteral value) := by
  cases numeric with
  | null => exact .word (by decide)
  | bool value => exact isSealed_boolText value
  | number numeric => exact isSealed_numeric numeric
  | string text =>
      rw [scalarLiteral]
      split
      · exact .word (by decide)
      · split
        · next bare =>
          rcases bare with rfl | rfl | numeric
          · exact .word (by decide)
          · exact .word (by decide)
          · exact isSealed_numeric numeric
        · exact isSealed_quote text
  | list => exact isSealed_quote _

theorem hasNumeric_ofToken (token : String) : HasNumeric (Value.ofToken token) := by
  unfold Value.ofToken
  split
  · exact .null
  · split
    · exact .bool true
    · split
      · exact .bool false
      · split
        · next numeric => exact .number numeric
        · exact .string token

theorem hasNumeric_finishItem (wasQuoted : Bool) (held : List Char) :
    HasNumeric (Value.finishItem wasQuoted held) := by
  cases wasQuoted with
  | true => exact .string _
  | false => exact hasNumeric_ofToken _

theorem hasNumeric_scanItems {state : Value.ItemState} {wasQuoted : Bool} {held text : List Char} :
    ∀ item ∈ Value.scanItems state wasQuoted held text, HasNumeric item := by
  fun_induction Value.scanItems state wasQuoted held text with
  | case1 =>
      intro item member
      rw [List.mem_singleton.mp member]
      exact hasNumeric_finishItem _ _
  | case7 _ _ _ _ induction =>
      intro item member
      rcases List.mem_cons.mp member with rfl | behind
      · exact hasNumeric_finishItem _ _
      · exact induction item behind
  | _ => assumption

theorem hasNumeric_listOperands (numeric : HasNumeric value) :
    ∀ item ∈ listOperands value, HasNumeric item := by
  cases numeric with
  | list all => exact all
  | string text =>
      rw [listOperands, Value.readList]
      simp only [Value.readItems]
      split
      · exact List.forall_mem_nil _
      · exact hasNumeric_scanItems
  | null => exact fun item member => List.mem_singleton.mp member ▸ .null
  | bool value => exact fun item member => List.mem_singleton.mp member ▸ .bool value
  | number numeric => exact fun item member => List.mem_singleton.mp member ▸ .number numeric

theorem isPlain_toUpper {c lower : Char} (same : c.toLower = lower)
    (plain : isPlain lower.toUpper = true) : isPlain c.toUpper = true := by
  by_cases upper : c.isUpper = true
  · have kept : c.toUpper = c := by
      refine toUpper_of_not_isLower fun lower => ?_
      have above := isUpper_iff.mp upper
      have below := isLower_iff.mp lower
      omega
    rw [kept]
    exact isPlain_of_class Char.isUpper (by decide) upper
  · rwa [← same, toLower_of_not_isUpper upper] at plain

theorem isSealed_isOperand (numeric : HasNumeric value) : IsSealed (isOperand value) := by
  cases numeric with
  | null => exact .word (by decide)
  | bool value => cases value <;> exact .word (by decide)
  | string text =>
      rw [isOperand]
      split
      · next known =>
        have plain : ∀ word ∈ ["null", "true", "false", "unknown"], ∀ c ∈ word.toList,
            isPlain c.toUpper = true := by decide
        refine .word (List.all_eq_true.mpr fun c member => ?_)
        rw [String.toUpper, String.toList_map] at member
        obtain ⟨d, inside, rfl⟩ := List.mem_map.mp member
        refine isPlain_toUpper rfl (plain _ (List.contains_iff_mem.mp known) _ ?_)
        rw [toList_toLower]
        exact List.mem_map_of_mem inside
      · exact isSealed_quote text
  | number numeric => exact isSealed_numeric numeric
  | list all => exact isSealed_quote _

theorem isSealed_literal (op : Operator) (numeric : HasNumeric value) (config : Option String) :
    IsSealed (literal op value config) := by
  have scalar := isSealed_scalarLiteral numeric
  unfold literal
  split
  · next function search =>
    have named : IsSealed function := by
      cases op <;> simp [Operator.searchFunction, Operator.entry] at search <;> subst search <;>
        exact .word (by decide)
    split
    · exact ((((named.append (.word (by decide))).append (isSealed_quote _)).append
        (.word (by decide))).append (isSealed_quote _)).append (.word (by decide))
    · exact ((named.append (.word (by decide))).append (isSealed_quote _)).append (.word (by decide))
  · split
    · refine ((IsSealed.word (by decide)).append (.intercalate (.word (by decide)) ?_)).append
        (.word (by decide))
      intro item member
      obtain ⟨operand, listed, rfl⟩ := List.mem_map.mp member
      exact isSealed_scalarLiteral (hasNumeric_listOperands numeric operand listed)
    · exact isSealed_isOperand numeric
    · split
      · exact isSealed_quote _
      · exact scalar
    · split
      · exact isSealed_quote _
      · exact scalar
    · split
      · exact isSealed_quote _
      · exact scalar
    · split
      · exact isSealed_quote _
      · exact scalar
    · split
      · exact isSealed_quote _
      · exact scalar
    · exact scalar

/-- An operator between blanks: its dashes are followed by something else. -/
theorem isSealed_symbol (op : Operator) : IsSealed (" " ++ op.symbol ++ " ") := by
  cases op with
  | adjacent =>
      exact .plain (by decide) (.dash (by decide) (.dash (by decide) .nil))
  | _ => exact .word (by decide)

theorem isSealed_comparison {left right : String} (op : Operator) (first : IsSealed left)
    (second : IsSealed right) : IsSealed (left ++ " " ++ op.symbol ++ " " ++ right) := by
  have joined := (first.append (isSealed_symbol op)).append second
  rwa [← String.append_assoc, ← String.append_assoc] at joined

theorem isSealed_conditionText (qualifier : Option String) {filter : Filter}
    (numeric : HasNumeric filter.value) : IsSealed (conditionText qualifier filter) := by
  have column := isSealed_qualified qualifier filter.column
  have operand := isSealed_literal filter.op numeric filter.config
  have plain := isSealed_comparison filter.op column operand
  have negative := isSealed_comparison filter.op
    (column.append (show IsSealed " NOT" from .word (by decide))) operand
  rw [@String.append_assoc _ " NOT" " ", show " NOT" ++ " " = " NOT " from rfl] at negative
  have opposite {words : String} (word : IsSealed words) :=
    (column.append word).append operand
  unfold conditionText
  simp only
  split
  · split
    · exact .word (by decide)
    · exact .word (by decide)
  · split
    · exact plain
    · split
      · exact opposite (.word (by decide))
      · exact negative
      · exact negative
      · exact negative
      · exact opposite (.word (by decide))
      · exact opposite (.word (by decide))
      · exact ((IsSealed.word (by decide)).append plain).append (.word (by decide))

/-- Every number in the values of some filters is decimal text. -/
def NumericFilters (filters : List Filter) : Prop :=
  ∀ filter ∈ filters, HasNumeric filter.value

theorem isSealed_conditions {qualifier : Option String} {filters : List Filter}
    {texts : List String} (numeric : NumericFilters filters)
    (written : conditions qualifier filters = .ok texts) : ∀ text ∈ texts, IsSealed text := by
  intro text member
  obtain ⟨filter, listed, single⟩ := ok_of_mapM written text member
  unfold condition at single
  split at single
  · cases single
  · obtain rfl := Except.ok.inj single
    exact isSealed_conditionText qualifier (numeric filter listed)

theorem isSealed_label {lead : String} (first : IsSealed lead) (label : Option String) :
    IsSealed (match label with
      | some label => lead ++ escapeIdentifier label
      | none => "") := by
  cases label with
  | none => exact .nil
  | some label => exact first.append (isSealed_escapeIdentifier label)

theorem isSealed_columnText {qualifier : Option String} {column : Column} {text : String}
    (written : columnText qualifier column = .ok text) : IsSealed text := by
  unfold columnText at written
  split at written
  · cases written
  · next unbroken =>
    obtain rfl := Except.ok.inj written
    refine ((isSealed_qualified _ _).append ?_).append
      (isSealed_label (.word (by decide)) column.label)
    cases given : column.cast with
    | none => exact .nil
    | some cast =>
        have typed : isTypeName cast = true := by
          simpa [Column.brokenCast?, Option.filter_eq_none_iff, given] using unbroken
        refine (IsSealed.word (by decide)).append (.word (List.all_eq_true.mpr fun c member => ?_))
        exact isPlain_typeChar (isTypeChar_of_isTypeName typed member)

theorem isSealed_columnTexts {qualifier : Option String} {columns : List Column}
    {texts : List String} (written : columns.mapM (columnText qualifier) = .ok texts) :
    ∀ text ∈ texts, IsSealed text := by
  intro text member
  obtain ⟨column, _, single⟩ := ok_of_mapM written text member
  exact isSealed_columnText single

theorem isSealed_clause {lead separator : String} {items : List String} (first : IsSealed lead)
    (apart : IsSealed separator) (all : ∀ item ∈ items, IsSealed item) :
    IsSealed (clause lead separator items) := by
  unfold clause
  split
  · exact .nil
  · exact first.append (.intercalate apart all)

theorem isSealed_whereClause {query : Query} {text : String}
    (numeric : NumericFilters query.filters) (written : whereClause query = .ok text) :
    IsSealed text := by
  obtain ⟨found, conditioned, written⟩ := ok_of_bind written
  obtain rfl := Except.ok.inj written
  exact isSealed_clause (.word (by decide)) (.word (by decide))
    (isSealed_conditions numeric conditioned)

theorem isSealed_returningClause {query : Query} {text : String}
    (written : returningClause query = .ok text) : IsSealed text := by
  unfold returningClause at written
  split at written
  · obtain rfl := Except.ok.inj written
    exact .nil
  · split at written
    · obtain rfl := Except.ok.inj written
      exact .word (by decide)
    · obtain ⟨columns, listed, written⟩ := ok_of_bind written
      obtain rfl := Except.ok.inj written
      exact (IsSealed.word (by decide)).append
        (.intercalate (.word (by decide)) (isSealed_columnTexts listed))

variable {policy : KeyPolicy} {query : Query} {written : Written}

theorem isSealed_writeDelete (numeric : NumericFilters query.filters)
    (finished : writeDelete query = .ok written) : IsSealed written.text := by
  unfold writeDelete at finished
  split at finished
  · cases finished
  · obtain ⟨found, conditioned, finished⟩ := ok_of_bind finished
    obtain ⟨returning, returned, finished⟩ := ok_of_bind finished
    obtain rfl := Except.ok.inj finished
    exact (((IsSealed.word (by decide)).append (isSealed_escapeIdentifier query.table)).append
      (isSealed_whereClause numeric conditioned)).append (isSealed_returningClause returned)

theorem isSealed_writeUpdate (numeric : NumericFilters query.filters)
    (finished : writeUpdate query = .ok written) : IsSealed written.text := by
  obtain ⟨row, _, finished⟩ := ok_of_bind finished
  obtain ⟨found, conditioned, finished⟩ := ok_of_bind finished
  obtain ⟨returning, returned, finished⟩ := ok_of_bind finished
  obtain rfl := Except.ok.inj finished
  refine IsSealed.append (.append (.append (.append (.append (.word (by decide))
    (isSealed_escapeIdentifier query.table)) (.word (by decide))) ?_)
    (isSealed_whereClause numeric conditioned)) (isSealed_returningClause returned)
  refine .intercalate (.word (by decide)) fun item member => ?_
  obtain ⟨⟨column, value⟩, _, rfl⟩ := List.mem_map.mp member
  exact ((isSealed_escapeIdentifier column).append (.word (by decide))).append
    (isSealed_jsonLiteral value)

theorem isSealed_identifiers (names : List String) :
    IsSealed (String.intercalate ", " (names.map escapeIdentifier)) := by
  refine .intercalate (.word (by decide)) fun item member => ?_
  obtain ⟨name, _, rfl⟩ := List.mem_map.mp member
  exact isSealed_escapeIdentifier name

theorem isSealed_conflictClause (columns : List String) :
    IsSealed (conflictClause policy query columns) := by
  unfold conflictClause
  simp only
  refine IsSealed.append (.append (.append (.word (by decide)) (isSealed_identifiers _))
    (.word (by decide))) ?_
  split
  · exact .word (by decide)
  · refine (IsSealed.word (by decide)).append (.intercalate (.word (by decide)) fun item member => ?_)
    obtain ⟨column, _, rfl⟩ := List.mem_map.mp member
    exact ((isSealed_escapeIdentifier column).append (.word (by decide))).append
      (isSealed_escapeIdentifier column)

theorem isSealed_rowLiterals (columns : List String) (row : Json.Row) :
    ∀ text ∈ rowLiterals columns row, IsSealed text := by
  intro text member
  obtain ⟨column, _, rfl⟩ := List.mem_map.mp member
  split
  · exact isSealed_jsonLiteral _
  · exact .word (by decide)

theorem isSealed_writeInsert (finished : writeInsert policy query = .ok written) :
    IsSealed written.text := by
  obtain ⟨rows, _, finished⟩ := ok_of_bind finished
  obtain ⟨returning, returned, finished⟩ := ok_of_bind finished
  obtain rfl := Except.ok.inj finished
  refine IsSealed.append (.append (.append (.append (.append (.append (.append (.word (by decide))
    (isSealed_escapeIdentifier query.table)) (.word (by decide))) (isSealed_identifiers _))
    (.word (by decide))) ?_) ?_) (isSealed_returningClause returned)
  · refine .intercalate (.word (by decide)) fun item member => ?_
    obtain ⟨row, _, rfl⟩ := List.mem_map.mp member
    exact ((IsSealed.word (by decide)).append (.intercalate (.word (by decide))
      (isSealed_rowLiterals _ row))).append (.word (by decide))
  · split
    · exact isSealed_conflictClause _
    · exact .nil

theorem isSealed_orderText (qualifier : Option String) (item : OrderItem) :
    IsSealed (orderText qualifier item) := by
  unfold orderText
  refine ((isSealed_qualified _ _).append ?_).append ?_
  · split <;> exact .word (by decide)
  · split
    · exact .word (by decide)
    · exact .word (by decide)
    · exact .nil

theorem isSealed_orders (qualifier : Option String) (order : List OrderItem)
    (joins : List (Embed × Join)) :
    ∀ text ∈ order.map (orderText qualifier) ++ joins.flatMap (fun (embed, join) =>
      embed.order.map (orderText (some join.qualifier))), IsSealed text := by
  intro text member
  rcases List.mem_append.mp member with main | joined
  · obtain ⟨item, _, rfl⟩ := List.mem_map.mp main
    exact isSealed_orderText _ item
  · obtain ⟨⟨embed, join⟩, _, inside⟩ := List.mem_flatMap.mp joined
    obtain ⟨item, _, rfl⟩ := List.mem_map.mp inside
    exact isSealed_orderText _ item

theorem isSealed_count (count : UInt64) : IsSealed (toString count) := by
  rw [IsSealed, toList_count]
  exact .of_plain fun c member => isPlain_toDigits member

/-- A word in front of a number of rows that may be missing. -/
theorem isSealed_rowCount {lead : String} (first : IsSealed lead) (count : Option UInt64) :
    IsSealed (match count with
      | some count => lead ++ toString count
      | none => "") := by
  cases count with
  | none => exact .nil
  | some count => exact first.append (isSealed_count count)

theorem isSealed_join {table : String} {embed : Embed} {join : Join}
    (joined : Join.ofEmbed policy table embed = .ok join) : IsSealed join.clause := by
  unfold Join.ofEmbed at joined
  split at joined
  · cases joined
  · obtain rfl := Except.ok.inj joined
    refine IsSealed.append (.append (.append ?_ ?_) (.word (by decide))) ?_
    · split <;> exact .word (by decide)
    · exact (isSealed_escapeIdentifier _).append (isSealed_label (.word (by decide)) _)
    · exact ((isSealed_qualified _ _).append (.word (by decide))).append (isSealed_qualified _ _)

theorem isSealed_selectColumns {qualifier : Option String} {joins : List (Embed × Join)}
    {columns : List String} (listed : selectColumns query qualifier joins = .ok columns) :
    ∀ text ∈ columns, IsSealed text := by
  obtain ⟨own, ownSealed, listed⟩ : ∃ own : List String, (∀ text ∈ own, IsSealed text) ∧
      ((joins.mapM fun (embed, join) => embed.columns.mapM (columnText (some join.qualifier))) >>=
        fun embedded => Except.ok <| if (own ++ embedded.flatten).isEmpty then
          [qualified qualifier "*"] else own ++ embedded.flatten) = .ok columns := by
    unfold selectColumns at listed
    split at listed
    · refine ⟨["*"], fun text member => ?_, listed⟩
      rw [List.mem_singleton.mp member]
      exact .word (by decide)
    · obtain ⟨own, ownListed, listed⟩ := ok_of_bind listed
      exact ⟨own, isSealed_columnTexts ownListed, listed⟩
  obtain ⟨embedded, embeddedListed, listed⟩ := ok_of_bind listed
  obtain rfl := Except.ok.inj listed
  intro text member
  split at member
  · rw [List.mem_singleton.mp member]
    exact isSealed_qualified _ _
  · rcases List.mem_append.mp member with main | joined
    · exact ownSealed text main
    · obtain ⟨texts, among, inside⟩ := List.mem_flatten.mp joined
      obtain ⟨⟨embed, join⟩, _, single⟩ := ok_of_mapM embeddedListed texts among
      exact isSealed_columnTexts single text inside

/-- What the embeds of a query add to a statement is sealed as their joins are. -/
theorem isSealed_writeSelect (numeric : NumericFilters query.filters)
    (embedsNumeric : ∀ embed ∈ query.embeds, NumericFilters embed.filters)
    (finished : writeSelect policy query = .ok written) : IsSealed written.text := by
  obtain ⟨plans, planned, finished⟩ := ok_of_bind finished
  obtain ⟨columns, listed, finished⟩ := ok_of_bind finished
  obtain ⟨own, ownConditions, finished⟩ := ok_of_bind finished
  obtain ⟨embedded, embeddedConditions, finished⟩ := ok_of_bind finished
  obtain ⟨paging, _, finished⟩ := ok_of_bind finished
  obtain rfl := Except.ok.inj finished
  have ownSealed := isSealed_conditions numeric ownConditions
  have embeddedSealed : ∀ text ∈ embedded.flatten, IsSealed text := by
    intro text member
    obtain ⟨texts, among, inside⟩ := List.mem_flatten.mp member
    obtain ⟨⟨embed, join⟩, paired, single⟩ := ok_of_mapM embeddedConditions texts among
    exact isSealed_conditions (embedsNumeric embed (List.of_mem_zip paired).1) single text inside
  have joinsSealed : IsSealed (String.join (plans.map fun join => " " ++ join.clause)) := by
    refine .join fun item member => ?_
    obtain ⟨join, among, rfl⟩ := List.mem_map.mp member
    obtain ⟨embed, _, joined⟩ := ok_of_mapM planned join among
    exact (IsSealed.word (by decide)).append (isSealed_join joined)
  have conditionsSealed : ∀ text ∈ own ++ embedded.flatten, IsSealed text := by
    intro text member
    rcases List.mem_append.mp member with main | joined
    · exact ownSealed text main
    · exact embeddedSealed text joined
  refine IsSealed.append (.append (.append (.append (.append (.append (.append
    (.append (.word (by decide)) (.intercalate (.word (by decide)) (isSealed_selectColumns listed)))
    (.word (by decide))) (isSealed_escapeIdentifier query.table)) joinsSealed) ?_) ?_) ?_) ?_
  · exact isSealed_clause (.word (by decide)) (.word (by decide)) conditionsSealed
  · exact isSealed_clause (.word (by decide)) (.word (by decide)) (isSealed_orders _ _ _)
  · exact isSealed_rowCount (.word (by decide)) paging.limit
  · exact isSealed_rowCount (.word (by decide)) paging.offset

/-- A written statement ends outside every quoted region, and outside them it holds no
semicolon, comment, backslash or dollar sign, whatever the names, texts, values and
bodies of the query are, as long as its numbers are decimal text. -/
theorem write_contained (policy : KeyPolicy) (query : Query) (written : Written)
    (numeric : NumericFilters query.filters)
    (embedsNumeric : ∀ embed ∈ query.embeds, NumericFilters embed.filters)
    (finished : write policy query = .ok written) : Contained written.text := by
  refine Sealed.contained ?_
  unfold write at finished
  split at finished
  · exact isSealed_writeSelect numeric embedsNumeric finished
  · exact isSealed_writeInsert finished
  · exact isSealed_writeInsert finished
  · exact isSealed_writeUpdate numeric finished
  · exact isSealed_writeDelete numeric finished
  · cases finished

/-- A query whose table, column and text try to leave their places. -/
def hostileQuery : Query where
  table := "users\"; --"
  operation := .select
  filters := [
    { column := "na\"me", op := .eq, value := .string "'; DROP TABLE users; --" },
    { column := "age", op := .gt, value := .number "-1" }]
  embeds := [
    { relation := "posts", columns := [.star],
      filters := [{ column := "score", op := .oneOf, value := .list [.number "-2", .null] }] }]

theorem write_contained_hostile :
    ∃ written, write (.ofOptions {}) hostileQuery = .ok written ∧ Contained written.text := by
  have numeric : NumericFilters hostileQuery.filters := by
    intro filter member
    simp only [hostileQuery, List.mem_cons, List.not_mem_nil, or_false] at member
    rcases member with rfl | rfl
    · exact .string _
    · exact .number (by decide)
  have embedsNumeric : ∀ embed ∈ hostileQuery.embeds, NumericFilters embed.filters := by
    intro embed member filter inside
    simp only [hostileQuery, List.mem_singleton] at member
    subst member
    rw [List.mem_singleton.mp inside]
    refine .list fun item listed => ?_
    simp only [List.mem_cons, List.not_mem_nil, or_false] at listed
    rcases listed with rfl | rfl
    · exact .number (by decide)
    · exact .null
  exact ⟨_, rfl, write_contained _ _ _ numeric embedsNumeric rfl⟩

end QueryNotation.Sql
