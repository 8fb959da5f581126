import QueryNotation.Proofs.EmbedPlace
import QueryNotation.Proofs.Sql.Statement

namespace QueryNotation

/-! # Numbers in values

A number keeps the text it was written with.  On the wire only decimal text is a number; a number
of JSON is decimal text unless it is shown with an exponent.
-/

open Text

mutual

def Value.numbers : Value → List String
  | .number text => [text]
  | .list items => Value.numbersOf items
  | _ => []

def Value.numbersOf : List Value → List String
  | [] => []
  | item :: rest => item.numbers ++ Value.numbersOf rest

end

def Query.numbers (query : Query) : List String :=
  query.allFilters.flatMap fun filter => filter.value.numbers

theorem Query.mem_numbers {query : Query} {text : String} :
    text ∈ query.numbers ↔ ∃ filter ∈ query.allFilters, text ∈ filter.value.numbers :=
  List.mem_flatMap

namespace Value

variable {text : String} {items : List Value}

theorem mem_numbersOf : text ∈ numbersOf items ↔ ∃ item ∈ items, text ∈ item.numbers := by
  induction items with
  | nil => simp [numbersOf]
  | cons item rest induction => simp [numbersOf, induction]

theorem numeric_of_mem_numbers {value : Value} (numeric : Sql.HasNumeric value) :
    ∀ text ∈ value.numbers, isNumeric text = true := by
  induction numeric with
  | null => exact fun _ member => absurd member (by simp [numbers])
  | bool value => exact fun _ member => absurd member (by simp [numbers])
  | string text => exact fun _ member => absurd member (by simp [numbers])
  | number numeric =>
      intro text member
      rw [numbers, List.mem_singleton] at member
      rwa [member]
  | list all induction =>
      intro text member
      rw [numbers, mem_numbersOf] at member
      obtain ⟨item, listed, inside⟩ := member
      exact induction item listed text inside

theorem hasNumeric_readItems (text : List Char) : ∀ item ∈ readItems text, Sql.HasNumeric item := by
  unfold readItems
  split
  · exact List.forall_mem_nil _
  · exact Sql.hasNumeric_scanItems

theorem hasNumeric_readArray (text : String) : Sql.HasNumeric (readArray text) := by
  unfold readArray
  split
  · split
    · exact .string text
    · exact .list (hasNumeric_readItems _)
  · exact .string text

/-- Whatever stands on the wire, the numbers in its value are decimal. -/
theorem hasNumeric_ofWire (op : Operator) (token : String) : Sql.HasNumeric (ofWire op token) := by
  unfold ofWire
  split
  · exact .string token
  · split
    · exact .list (hasNumeric_readItems _)
    · exact Sql.hasNumeric_ofToken _
    · exact .string token
    · exact .string token
    · exact .string token
    · exact .string token
    · exact hasNumeric_readArray token
    · exact hasNumeric_readArray token
    · exact hasNumeric_readArray token
    · exact Sql.hasNumeric_ofToken _

end Value

/-- Digits with at most one point between them. -/
structure IsDecimal (text : List Char) : Prop where
  first : text.head?.any Char.isDigit = true
  last : text.getLast?.any Char.isDigit = true
  plain : ∀ c ∈ text, c.isDigit = true ∨ c = '.'
  once : text.count '.' ≤ 1

theorem isNumeric_of_isDecimal {text : List Char} (decimal : IsDecimal text) (negative : Bool) :
    isNumeric (String.ofList ((if negative then ['-'] else []) ++ text)) = true := by
  obtain ⟨first, last, plain, once⟩ := decimal
  have whole : (text.head?.any Char.isDigit && text.getLast?.any Char.isDigit &&
      text.all (fun c => c.isDigit || c == '.') && decide (text.count '.' ≤ 1)) = true := by
    simp only [Bool.and_eq_true, decide_eq_true_eq, List.all_eq_true, Bool.or_eq_true, beq_iff_eq]
    exact ⟨⟨⟨first, last⟩, plain⟩, once⟩
  unfold isNumeric
  rw [String.toList_ofList]
  cases negative with
  | true => exact whole
  | false =>
      cases text with
      | nil => cases first
      | cons c rest =>
          have digit : c.isDigit = true := first
          have unsigned : c ≠ '-' := by
            rintro rfl
            cases digit
          simp only [Bool.false_eq_true, if_false, List.nil_append]
          split
          · next same => exact absurd (List.cons.inj same).1 unsigned
          · exact whole

theorem isDecimal_digits {text : List Char} (some : text ≠ []) (digits : ∀ c ∈ text, c.isDigit = true) :
    IsDecimal text where
  first := by
    rw [List.head?_eq_some_head some]
    exact digits _ (List.head_mem some)
  last := by
    rw [List.getLast?_eq_some_getLast some]
    exact digits _ (List.getLast_mem some)
  plain c member := .inl (digits c member)
  once := by
    rw [List.count_eq_zero_of_not_mem fun member => absurd (digits _ member) (by decide)]
    exact Nat.zero_le 1

theorem isDecimal_point {whole fraction : List Char} (someWhole : whole ≠ []) (someFraction : fraction ≠ [])
    (wholeDigits : ∀ c ∈ whole, c.isDigit = true) (fractionDigits : ∀ c ∈ fraction, c.isDigit = true) :
    IsDecimal (whole ++ '.' :: fraction) := by
  have front := isDecimal_digits someWhole wholeDigits
  have back := isDecimal_digits someFraction fractionDigits
  have none (text : List Char) (digits : ∀ c ∈ text, c.isDigit = true) : text.count '.' = 0 :=
    List.count_eq_zero_of_not_mem fun member => absurd (digits _ member) (by decide)
  refine ⟨?_, ?_, ?_, ?_⟩
  · rw [List.head?_append_of_ne_nil _ someWhole]
    exact front.first
  · rw [List.getLast?_append, List.getLast?_cons_of_ne_nil someFraction,
      List.getLast?_eq_some_getLast someFraction]
    exact fractionDigits _ (List.getLast_mem someFraction)
  · intro c member
    rcases List.mem_append.mp member with inside | behind
    · exact .inl (wholeDigits c inside)
    · rcases List.mem_cons.mp behind with rfl | inside
      · exact .inr rfl
      · exact .inl (fractionDigits c inside)
  · rw [List.count_append, none whole wholeDigits, List.count_cons, none fraction fractionDigits]
    simp

theorem isDecimal_positional {digits : List Char} (some : digits ≠ [])
    (plain : ∀ c ∈ digits, c.isDigit = true) (exponent : Int) :
    IsDecimal (Decimal.positional digits exponent) := by
  have zeros (count : Nat) : ∀ c ∈ List.replicate count '0', c.isDigit = true := by
    intro c member
    rw [List.eq_of_mem_replicate member]
    decide
  have both {front back : List Char} (left : ∀ c ∈ front, c.isDigit = true)
      (right : ∀ c ∈ back, c.isDigit = true) : ∀ c ∈ front ++ back, c.isDigit = true :=
    fun c member => (List.mem_append.mp member).elim (left c) (right c)
  have positive : 0 < digits.length := List.length_pos_iff.mpr some
  unfold Decimal.positional
  simp only
  split
  · exact @isDecimal_point ['0'] _ (by simp) (by simp [some]) (by decide) (both (zeros _) plain)
  · split
    · exact isDecimal_point (by simp [some]) (by simp) (both plain (zeros _)) (by decide)
    · refine isDecimal_point ?_ ?_ (fun c member => plain c (List.mem_of_mem_take member))
        fun c member => plain c (List.mem_of_mem_drop member)
      · rw [← List.length_pos_iff, List.length_take]
        omega
      · rw [← List.length_pos_iff, List.length_drop]
        omega

theorem isDecimal_render (layout : Decimal.Layout) (decimal : Decimal.Digits) :
    IsDecimal (layout.render decimal) ∨ 'e' ∈ layout.render decimal := by
  unfold Decimal.Layout.render
  simp only
  split
  · exact .inl (isDecimal_positional Nat.toDigits_ne_nil (toDigits_all_isDigit _) _)
  · right
    unfold Decimal.scientific
    simp

/-- A number of JSON is decimal text, unless it is shown with an exponent. -/
theorem isNumeric_jsonNumber (number : Json.Number) :
    isNumeric number.text = true ∨ 'e' ∈ number.text.toList := by
  rw [Json.Number.text, String.toList_ofList]
  cases number with
  | integer value =>
      left
      have decimal := isDecimal_digits Nat.toDigits_ne_nil (toDigits_all_isDigit value.natAbs)
      have numeric := isNumeric_of_isDecimal decimal (decide (value < 0))
      simpa only [Json.Number.chars, decide_eq_true_eq] using numeric
  | real negative magnitude =>
      rw [Json.Number.chars]
      rcases isDecimal_render Json.numberLayout (Decimal.shortest magnitude) with decimal | exponent
      · exact .inl (isNumeric_of_isDecimal decimal negative)
      · exact .inr (List.mem_append_right _ exponent)

mutual

/-- The numbers of a JSON value are shown as JSON shows them. -/
theorem Value.jsonNumber_of_mem (json : Json) :
    ∀ text ∈ (Value.ofJson json).numbers, ∃ number : Json.Number, text = number.text := by
  cases json with
  | number value =>
      intro text member
      rw [Value.ofJson, Value.numbers, List.mem_singleton] at member
      exact ⟨value, member⟩
  | array items =>
      rw [Value.ofJson, Value.numbers]
      exact Value.jsonNumber_of_mem_items items
  | _ => simp [Value.ofJson, Value.numbers]

theorem Value.jsonNumber_of_mem_items (items : List Json) :
    ∀ text ∈ Value.numbersOf (Value.ofJsonItems items), ∃ number : Json.Number, text = number.text := by
  cases items with
  | nil => simp [Value.ofJsonItems, Value.numbersOf]
  | cons item rest =>
      intro text member
      rw [Value.ofJsonItems, Value.numbersOf, List.mem_append] at member
      rcases member with here | behind
      · exact Value.jsonNumber_of_mem item text here
      · exact Value.jsonNumber_of_mem_items rest text behind

end

end QueryNotation
