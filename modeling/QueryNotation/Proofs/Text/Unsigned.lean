import QueryNotation.Proofs.Text.Blank
import QueryNotation.Text.Unsigned

namespace QueryNotation.Text

/-! # Reading back counts -/

theorem digitsValue_cons (value : Nat) (c : Char) (rest : List Char) :
    digitsValue value (c :: rest) = digitsValue (value * 10 + (c.toNat - '0'.toNat)) rest := by
  conv => lhs; unfold digitsValue

theorem digitsValue_eq_ofDigitChars (value : Nat) (text : List Char) :
    digitsValue value text = Nat.ofDigitChars 10 text value := by
  induction text generalizing value with
  | nil => unfold digitsValue; rfl
  | cons c rest induction =>
      rw [digitsValue_cons, induction, Nat.ofDigitChars_cons, Nat.mul_comm value 10]

theorem digitsValue_toDigits (value : Nat) : digitsValue 0 (Nat.toDigits 10 value) = value := by
  rw [digitsValue_eq_ofDigitChars, Nat.ofDigitChars_ten_toDigits]

theorem toDigits_all_isDigit (value : Nat) : ∀ c ∈ Nat.toDigits 10 value, c.isDigit = true :=
  fun _ member => Nat.isDigit_of_mem_toDigits (by decide) (by decide) member

/-- No digits but those of zero begin with a zero. -/
theorem toDigits_head {value : Nat} (positive : 0 < value) :
    ∀ c ∈ (Nat.toDigits 10 value).head?, c ≠ '0' := by
  induction value using Nat.strongRecOn with
  | ind value induction =>
      by_cases small : value < 10
      · have table : ∀ digit < 10, 0 < digit → digit.digitChar ≠ '0' := by decide
        rw [Nat.toDigits_of_lt_base small]
        intro c member
        obtain rfl := Option.some.inj member
        exact table value small positive
      · have lower := induction (value / 10) (by omega) (by omega)
        obtain ⟨first, rest, shape⟩ := List.exists_cons_of_ne_nil (@Nat.toDigits_ne_nil (value / 10) 10)
        rw [Nat.toDigits_of_base_le (by decide) (by omega), shape]
        rw [shape] at lower
        exact lower

theorem isDigits_toDigits (value : Nat) : isDigits (Nat.toDigits 10 value) = true := by
  simp only [isDigits, Bool.and_eq_true, Bool.not_eq_true', List.isEmpty_eq_false_iff,
    List.all_eq_true]
  exact ⟨Nat.toDigits_ne_nil, toDigits_all_isDigit value⟩

theorem toList_count (count : UInt64) :
    (toString count).toList = Nat.toDigits 10 count.toNat :=
  Nat.toList_repr

theorem isBlank_digit {c : Char} (digit : c.isDigit = true) : isBlank c = false :=
  isBlank_alphanum (by simp [Char.isAlphanum, digit])

theorem trim_count (count : UInt64) : trim (toString count).toList = (toString count).toList := by
  rw [toList_count]
  exact trim_of_solid fun c member => isBlank_digit (toDigits_all_isDigit _ c member)

/-- Without a sign the digits alone decide. -/
theorem unsigned?_digits {text : List Char} (digits : isDigits text = true)
    (small : digitsValue 0 text < UInt64.size) :
    unsigned? text = some (UInt64.ofNat (digitsValue 0 text)) := by
  unfold unsigned?
  split
  · next rest =>
    simp only [isDigits, List.all_cons, Bool.and_eq_true] at digits
    exact absurd digits.2.1 (by decide)
  · simp only [digits, small, decide_true, Bool.and_self, if_true]

theorem unsigned?_of_letter {c : Char} (letter : c.isDigit = false) (bare : c ≠ '+') (rest : List Char) :
    unsigned? (c :: rest) = none := by
  have mixed : isDigits (c :: rest) = false := by simp [isDigits, letter]
  unfold unsigned?
  split
  · next same => exact absurd (List.cons.inj same).1 bare
  · simp only [mixed, Bool.false_and, Bool.false_eq_true, if_false]

/-- The text of a count is read as the count. -/
theorem unsigned?_toString (count : UInt64) : unsigned? (toString count).toList = some count := by
  have small : digitsValue 0 (Nat.toDigits 10 count.toNat) < UInt64.size := by
    rw [digitsValue_toDigits]
    exact UInt64.toNat_lt_size count
  rw [toList_count, unsigned?_digits (isDigits_toDigits _) small, digitsValue_toDigits,
    UInt64.ofNat_toNat]

end QueryNotation.Text
