import QueryNotation.Json.Printer
import QueryNotation.Proofs.Text.Unsigned

namespace QueryNotation.Json

/-! # Compact text is one line

Control characters are escaped inside strings, and nothing but brackets, marks, digits and
words stands outside of them.
-/

open Decimal Text

/-- A character that is no control character of ASCII. -/
def IsPrinted (c : Char) : Prop :=
  0x20 ≤ c.toNat

instance (c : Char) : Decidable (IsPrinted c) :=
  inferInstanceAs (Decidable (0x20 ≤ c.toNat))

def IsNumberChar (c : Char) : Prop :=
  c.isDigit = true ∨ c ∈ ['-', '+', '.', 'e']

instance (c : Char) : Decidable (IsNumberChar c) :=
  inferInstanceAs (Decidable (_ ∨ _))

theorem IsNumberChar.printed {c : Char} (plain : IsNumberChar c) : IsPrinted c := by
  rcases plain with digit | mark
  · rw [isDigit_iff] at digit
    unfold IsPrinted
    omega
  · revert c
    decide

theorem IsNumberChar.solid {c : Char} (plain : IsNumberChar c) : isBlank c = false := by
  rcases plain with digit | mark
  · exact isBlank_digit digit
  · revert c
    decide

theorem isNumberChar_toDigits {value : Nat} : ∀ c ∈ Nat.toDigits 10 value, IsNumberChar c :=
  fun c member => .inl (toDigits_all_isDigit value c member)

theorem isNumberChar_positional {digits : List Char} (plain : ∀ c ∈ digits, IsNumberChar c)
    (exponent : Int) : ∀ c ∈ positional digits exponent, IsNumberChar c := by
  have zeros (count : Nat) : ∀ c ∈ List.replicate count '0', IsNumberChar c := by
    intro c member
    rw [List.eq_of_mem_replicate member]
    decide
  intro c member
  unfold positional at member
  simp only at member
  split at member
  · simp only [List.cons_append, List.mem_cons, List.mem_append] at member
    rcases member with rfl | rfl | zero | inside
    · decide
    · decide
    · exact zeros _ c zero
    · exact plain c inside
  · split at member
    · simp only [List.mem_append, List.mem_cons, List.not_mem_nil, or_false] at member
      rcases member with (inside | zero) | rfl | rfl
      · exact plain c inside
      · exact zeros _ c zero
      · decide
      · decide
    · simp only [List.mem_append, List.mem_cons] at member
      rcases member with front | rfl | back
      · exact plain c (List.mem_of_mem_take front)
      · decide
      · exact plain c (List.mem_of_mem_drop back)

theorem isNumberChar_scientific {digits : List Char} (plain : ∀ c ∈ digits, IsNumberChar c)
    (leading : Int) : ∀ c ∈ scientific numberLayout digits leading, IsNumberChar c := by
  intro c member
  unfold scientific at member
  simp only [List.append_assoc, List.cons_append, List.mem_append, List.mem_cons] at member
  rcases member with mantissa | rfl | sign | exponent
  · split at mantissa
    · cases mantissa
    · exact plain c mantissa
    · simp only [List.mem_cons] at mantissa plain
      rcases mantissa with rfl | rfl | more
      · exact plain c (.inl rfl)
      · decide
      · exact plain c (.inr more)
  · decide
  · split at sign
    · rw [List.mem_singleton.mp sign]
      decide
    · rw [List.mem_singleton.mp (show c ∈ ['+'] from sign)]
      decide
  · exact isNumberChar_toDigits c exponent

theorem isNumberChar_chars (number : Number) : ∀ c ∈ number.chars, IsNumberChar c := by
  have signed {negative : Prop} [Decidable negative] {text : List Char}
      (plain : ∀ c ∈ text, IsNumberChar c) :
      ∀ c ∈ (if negative then ['-'] else []) ++ text, IsNumberChar c := by
    intro c member
    rcases List.mem_append.mp member with sign | inside
    · split at sign
      · rw [List.mem_singleton.mp sign]
        decide
      · cases sign
    · exact plain c inside
  cases number with
  | integer value => exact signed isNumberChar_toDigits
  | real negative magnitude =>
      refine signed ?_
      unfold Layout.render
      simp only
      split
      · exact isNumberChar_positional isNumberChar_toDigits _
      · exact isNumberChar_scientific isNumberChar_toDigits _

theorem render_ne_nil (decimal : Decimal.Digits) : numberLayout.render decimal ≠ [] := by
  unfold Layout.render
  simp only
  split
  · unfold positional
    simp only
    split
    · simp
    · split <;> simp
  · simp [scientific]

theorem number_ne_nil (number : Number) : number.chars ≠ [] := by
  cases number with
  | integer value => simp [Number.chars]
  | real negative magnitude => simp [Number.chars, render_ne_nil]

theorem isPrinted_escape (c : Char) : ∀ d ∈ escape c, IsPrinted d := by
  have controls : ∀ code < 0x20, ∀ d ∈ escape (Char.ofNat code), IsPrinted d := by decide
  by_cases control : c.toNat < 0x20
  · have found := controls c.toNat control
    rwa [Char.ofNat_toNat] at found
  · by_cases short : c ∈ ['"', '\\', '\n', '\r', '\t', '\x08', '\x0c']
    · simp only [List.mem_cons, List.not_mem_nil, or_false] at short
      rcases short with rfl | rfl | rfl | rfl | rfl | rfl | rfl <;> decide
    · simp only [List.mem_cons, List.not_mem_nil, or_false, not_or] at short
      have plain : escape c = [c] := by simp [escape, short, control]
      intro d member
      rw [plain, List.mem_singleton] at member
      rw [member]
      exact Nat.le_of_not_lt control

theorem isPrinted_quoted (text : String) : ∀ c ∈ quoted text, IsPrinted c := by
  intro c member
  unfold quoted at member
  simp only [List.cons_append, List.mem_cons, List.mem_append, List.mem_flatMap, List.not_mem_nil,
    or_false] at member
  rcases member with rfl | ⟨d, _, inside⟩ | rfl
  · decide
  · exact isPrinted_escape d c inside
  · decide

mutual

/-- The compact text of a value holds no control character. -/
theorem isPrinted_chars (value : Json) : ∀ c ∈ value.chars, IsPrinted c := by
  cases value with
  | null => decide
  | bool value => cases value <;> decide
  | number value => exact fun c member => (isNumberChar_chars value c member).printed
  | string text => exact isPrinted_quoted text
  | array items =>
      cases items with
      | nil => decide
      | cons item rest =>
          intro c member
          simp only [chars, List.cons_append, List.mem_cons, List.mem_append] at member
          rcases member with rfl | first | more
          · decide
          · exact isPrinted_chars item c first
          · exact isPrinted_moreItems rest c more
  | object fields =>
      cases fields with
      | nil => decide
      | cons field rest =>
          intro c member
          obtain ⟨key, value⟩ := field
          simp only [chars, List.cons_append, List.append_assoc, List.mem_cons, List.mem_append] at member
          rcases member with rfl | name | rfl | first | more
          · decide
          · exact isPrinted_quoted key c name
          · decide
          · exact isPrinted_chars value c first
          · exact isPrinted_moreFields rest c more

theorem isPrinted_moreItems (items : List Json) : ∀ c ∈ moreItems items, IsPrinted c := by
  cases items with
  | nil => decide
  | cons item rest =>
      intro c member
      simp only [moreItems, List.cons_append, List.mem_cons, List.mem_append] at member
      rcases member with rfl | first | more
      · decide
      · exact isPrinted_chars item c first
      · exact isPrinted_moreItems rest c more

theorem isPrinted_moreFields (fields : List (String × Json)) : ∀ c ∈ moreFields fields, IsPrinted c := by
  cases fields with
  | nil => decide
  | cons field rest =>
      intro c member
      obtain ⟨key, value⟩ := field
      simp only [moreFields, List.cons_append, List.append_assoc, List.mem_cons, List.mem_append] at member
      rcases member with rfl | name | rfl | first | more
      · decide
      · exact isPrinted_quoted key c name
      · decide
      · exact isPrinted_chars value c first
      · exact isPrinted_moreFields rest c more

end

theorem getLast?_moreItems (items : List Json) : (moreItems items).getLast? = some ']' := by
  induction items with
  | nil => rfl
  | cons item rest induction =>
      rw [moreItems, List.cons_append, List.getLast?_cons, List.getLast?_append, induction]
      rfl

theorem getLast?_moreFields (fields : List (String × Json)) :
    (moreFields fields).getLast? = some '}' := by
  induction fields with
  | nil => rfl
  | cons field rest induction =>
      obtain ⟨key, value⟩ := field
      rw [moreFields, List.cons_append, List.cons_append, List.getLast?_cons, List.getLast?_append,
        induction]
      rfl

theorem chars_ne_nil (value : Json) : value.chars ≠ [] := by
  cases value with
  | null => decide
  | bool value => cases value <;> decide
  | number value => exact number_ne_nil value
  | string text => simp [chars, quoted]
  | array items => cases items <;> simp [chars]
  | object fields => cases fields <;> simp [chars]

theorem word_solid (value : Json) (word : value = .null ∨ ∃ truth, value = .bool truth) :
    ∀ c ∈ value.chars, isBlank c = false := by
  rcases word with rfl | ⟨_ | _, rfl⟩
  all_goals decide

theorem head_solid (value : Json) : ∀ c ∈ value.chars.head?, isBlank c = false := by
  cases value with
  | null => exact fun c first => word_solid .null (.inl rfl) c (List.mem_of_mem_head? first)
  | bool value => exact fun c first => word_solid _ (.inr ⟨value, rfl⟩) c (List.mem_of_mem_head? first)
  | number value =>
      exact fun c first => (isNumberChar_chars value c (List.mem_of_mem_head? first)).solid
  | string text =>
      intro c first
      rw [chars] at first
      obtain rfl := Option.some.inj first
      decide
  | array items =>
      intro c first
      cases items <;> rw [chars] at first <;> obtain rfl := Option.some.inj first <;> decide
  | object fields =>
      intro c first
      cases fields <;> rw [chars] at first <;> obtain rfl := Option.some.inj first <;> decide

theorem last_solid (value : Json) : ∀ c ∈ value.chars.getLast?, isBlank c = false := by
  cases value with
  | null => exact fun c last => word_solid .null (.inl rfl) c (List.mem_of_getLast? last)
  | bool value => exact fun c last => word_solid _ (.inr ⟨value, rfl⟩) c (List.mem_of_getLast? last)
  | number value =>
      exact fun c last => (isNumberChar_chars value c (List.mem_of_getLast? last)).solid
  | string text =>
      intro c last
      rw [chars, quoted, List.getLast?_concat] at last
      obtain rfl := Option.some.inj last
      decide
  -- What a list or an object ends in is its own bracket.
  | array items =>
      cases items with
      | nil =>
          intro c last
          obtain rfl := Option.some.inj last
          decide
      | cons item rest =>
          intro c last
          rw [chars, List.cons_append, List.getLast?_cons, List.getLast?_append,
            getLast?_moreItems] at last
          obtain rfl := Option.some.inj last
          exact show isBlank ']' = false by decide
  | object fields =>
      cases fields with
      | nil =>
          intro c last
          obtain rfl := Option.some.inj last
          decide
      | cons field rest =>
          intro c last
          rw [chars, List.cons_append, List.cons_append, List.getLast?_cons, List.getLast?_append,
            getLast?_moreFields] at last
          obtain rfl := Option.some.inj last
          exact show isBlank '}' = false by decide

end QueryNotation.Json
