import QueryNotation.Proofs.Chain.Number
import QueryNotation.Proofs.Value.Number

namespace QueryNotation

/-! # Numerals

The texts that stand for numbers: digits, perhaps a fraction, perhaps a power of ten, and a sign
in front.  Decimal text is a numeral, and so is what JSON shows for a number.
-/

open Text
open Chain (IsNumberChar)

variable {text digits whole fraction : List Char}

/-- One digit or more. -/
def AreDigits (text : List Char) : Prop :=
  text ≠ [] ∧ ∀ c ∈ text, c.isDigit = true

/-- A fraction with its point, or nothing. -/
inductive IsFraction : List Char → Prop
  | none : IsFraction []
  | point {digits : List Char} (some : AreDigits digits) : IsFraction ('.' :: digits)

/-- A power of ten with its letter, or nothing. -/
inductive IsPower : List Char → Prop
  | none : IsPower []
  | letter {sign digits : List Char} (signed : sign ∈ [[], ['+'], ['-']]) (some : AreDigits digits) :
    IsPower ('e' :: (sign ++ digits))

/-- A numeral without its sign. -/
inductive IsUnsigned : List Char → Prop
  | intro {whole fraction power : List Char} (some : AreDigits whole) (behind : IsFraction fraction)
    (last : IsPower power) : IsUnsigned (whole ++ fraction ++ power)

/-- A numeral, perhaps with a minus sign. -/
inductive IsNumeral : List Char → Prop
  | plain {text : List Char} (unsigned : IsUnsigned text) : IsNumeral text
  | negative {text : List Char} (unsigned : IsUnsigned text) : IsNumeral ('-' :: text)

theorem IsNumeral.signed (unsigned : IsUnsigned text) (negative : Bool) :
    IsNumeral ((if negative then ['-'] else []) ++ text) := by
  cases negative with
  | true => exact .negative unsigned
  | false => exact .plain unsigned

theorem AreDigits.chars (some : AreDigits text) : ∀ c ∈ text, IsNumberChar c :=
  fun c member => .inl (some.2 c member)

theorem IsUnsigned.head (unsigned : IsUnsigned text) : ∃ c rest, text = c :: rest ∧ c.isDigit = true := by
  obtain ⟨some, _, _⟩ := unsigned
  obtain ⟨c, rest, rfl⟩ := List.exists_cons_of_ne_nil some.1
  exact ⟨c, _, rfl, some.2 c (by simp)⟩

/-- What stands behind the whole digits of a numeral begins with a point or with a letter. -/
theorem IsFraction.head_append {power : List Char} (behind : IsFraction fraction) (last : IsPower power) :
    ∀ c ∈ (fraction ++ power).head?, c = '.' ∨ c = 'e' := by
  intro c first
  cases behind with
  | none =>
      cases last with
      | none => cases first
      | letter _ _ => exact .inr (Option.some.inj first).symm
  | point _ => exact .inl (Option.some.inj first).symm

theorem IsUnsigned.chars (unsigned : IsUnsigned text) : ∀ c ∈ text, IsNumberChar c := by
  obtain ⟨some, behind, last⟩ := unsigned
  intro c member
  rcases List.mem_append.mp member with front | power
  · rcases List.mem_append.mp front with whole | fraction
    · exact some.chars c whole
    · cases behind with
      | none => cases fraction
      | point digits =>
          rcases List.mem_cons.mp fraction with rfl | digit
          · exact .inr (by simp)
          · exact digits.chars c digit
  · cases last with
    | none => cases power
    | letter signed digits =>
        rcases List.mem_cons.mp power with rfl | inside
        · exact .inr (by simp)
        · rcases List.mem_append.mp inside with sign | digit
          · simp only [List.mem_cons, List.not_mem_nil, or_false] at signed
            rcases signed with rfl | rfl | rfl
            · cases sign
            · rw [List.mem_singleton.mp sign]
              exact .inr (by simp)
            · rw [List.mem_singleton.mp sign]
              exact .inr (by simp)
          · exact digits.chars c digit

theorem IsNumeral.chars (numeral : IsNumeral text) : ∀ c ∈ text, IsNumberChar c := by
  cases numeral with
  | plain unsigned => exact unsigned.chars
  | negative unsigned =>
      intro c member
      rcases List.mem_cons.mp member with rfl | inside
      · exact .inr (by simp)
      · exact unsigned.chars c inside

theorem IsNumeral.ne_nil (numeral : IsNumeral text) : text ≠ [] := by
  cases numeral with
  | plain unsigned =>
      obtain ⟨c, rest, rfl, _⟩ := unsigned.head
      exact List.cons_ne_nil c rest
  | negative _ => exact List.cons_ne_nil _ _

theorem isUnsigned_digits (some : AreDigits text) : IsUnsigned text := by
  have numeral := IsUnsigned.intro some .none .none
  rwa [List.append_nil, List.append_nil] at numeral

theorem isUnsigned_point (some : AreDigits whole) (behind : AreDigits fraction) :
    IsUnsigned (whole ++ '.' :: fraction) := by
  have numeral := IsUnsigned.intro some (.point behind) .none
  rwa [List.append_nil] at numeral

/-- Digits with one point between them are digits in front of the point and digits behind it. -/
theorem IsDecimal.isUnsigned (decimal : IsDecimal text) : IsUnsigned text := by
  obtain ⟨first, last, plain, once⟩ := decimal
  by_cases point : '.' ∈ text
  · obtain ⟨whole, fraction, rfl⟩ := List.append_of_mem point
    rw [List.count_append, List.count_cons_self] at once
    have front : '.' ∉ whole := List.count_eq_zero.mp (by omega)
    have back : '.' ∉ fraction := List.count_eq_zero.mp (by omega)
    have digit {c : Char} (member : c ∈ whole ++ '.' :: fraction) (other : c ≠ '.') : c.isDigit = true :=
      (plain c member).resolve_right other
    refine isUnsigned_point ⟨?_, fun c member => ?_⟩ ⟨?_, fun c member => ?_⟩
    · rintro rfl
      cases first
    · exact digit (List.mem_append_left _ member) fun same => front (same ▸ member)
    · rintro rfl
      rw [List.getLast?_append] at last
      cases last
    · exact digit (List.mem_append_right _ (List.mem_cons_of_mem _ member)) fun same => back (same ▸ member)
  · refine isUnsigned_digits ⟨?_, fun c member => ?_⟩
    · rintro rfl
      cases first
    · exact (plain c member).resolve_right fun same => point (same ▸ member)

theorem isDecimal_of_checks (checked : (text.head?.any Char.isDigit && text.getLast?.any Char.isDigit &&
    text.all (fun c => c.isDigit || c == '.') && decide (text.count '.' ≤ 1)) = true) : IsDecimal text := by
  simp only [Bool.and_eq_true, decide_eq_true_eq, List.all_eq_true, Bool.or_eq_true, beq_iff_eq] at checked
  obtain ⟨⟨⟨first, last⟩, plain⟩, once⟩ := checked
  exact ⟨first, last, plain, once⟩

theorem isNumeral_of_isNumeric {number : String} (numeric : isNumeric number = true) :
    IsNumeral number.toList := by
  unfold isNumeric at numeric
  cases shape : number.toList with
  | nil => rw [shape] at numeric; cases numeric
  | cons c rest =>
      rw [shape] at numeric
      by_cases minus : c = '-'
      · subst minus
        exact .negative (isDecimal_of_checks numeric).isUnsigned
      · refine .plain (isDecimal_of_checks ?_).isUnsigned
        dsimp only at numeric
        split at numeric
        · next same => exact absurd (List.cons.inj same).1 minus
        · exact numeric

theorem areDigits_toDigits (value : Nat) : AreDigits (Nat.toDigits 10 value) :=
  ⟨Nat.toDigits_ne_nil, toDigits_all_isDigit value⟩

theorem isUnsigned_scientific {layout : Decimal.Layout} (plus : layout.exponentPlus = "+")
    (some : AreDigits digits) (leading : Int) : IsUnsigned (Decimal.scientific layout digits leading) := by
  have signed : (if leading < 0 then ['-'] else layout.exponentPlus.toList) ∈ [[], ['+'], ['-']] := by
    rw [plus]
    split <;> decide
  have power := IsPower.letter signed (areDigits_toDigits leading.natAbs)
  unfold Decimal.scientific
  match digits, some with
  | [], some => exact absurd rfl some.1
  | [digit], some =>
      have numeral := IsUnsigned.intro some .none power
      simpa using numeral
  | digit :: next :: more, some =>
      have front : AreDigits [digit] := ⟨by simp, fun c member => some.2 c (by simp_all)⟩
      have back : AreDigits (next :: more) := ⟨by simp, fun c member => some.2 c (List.mem_cons_of_mem _ member)⟩
      have numeral := IsUnsigned.intro front (.point back) power
      simpa using numeral

theorem isUnsigned_render {layout : Decimal.Layout} (plus : layout.exponentPlus = "+")
    (decimal : Decimal.Digits) : IsUnsigned (layout.render decimal) := by
  have some := areDigits_toDigits decimal.digits
  unfold Decimal.Layout.render
  simp only
  split
  · exact (isDecimal_positional some.1 some.2 _).isUnsigned
  · exact isUnsigned_scientific plus some _

theorem isNumeral_jsonNumber (number : Json.Number) : IsNumeral number.chars := by
  cases number with
  | integer value =>
      rw [Json.Number.chars]
      have numeral := IsNumeral.signed (isUnsigned_digits (areDigits_toDigits value.natAbs)) (decide (value < 0))
      simpa only [decide_eq_true_eq] using numeral
  | real negative magnitude =>
      exact .signed (isUnsigned_render rfl _) negative

end QueryNotation
