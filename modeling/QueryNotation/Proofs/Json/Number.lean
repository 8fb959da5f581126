import QueryNotation.Json.Number
import QueryNotation.Proofs.Text.Unsigned

namespace QueryNotation.Json

/-! # Where a number ends

Reading a number looks no further than the first character that cannot belong to it, so
a number that is read from the whole of a text is read from the front of a longer one.
-/

/-- No character of a number stands in front. -/
def EndsNumber (text : List Char) : Prop :=
  ∀ c ∈ text.head?, c.isDigit = false ∧ c ≠ '.' ∧ c ≠ 'e' ∧ c ≠ 'E'

variable {text rest behind : List Char} {found : Number} {negative : Bool} {significand : Nat}
  {exponent : Int}

namespace EndsNumber

theorem nil : EndsNumber [] := by
  intro c first
  cases first

theorem cons {c : Char} (other : c.isDigit = false ∧ c ≠ '.' ∧ c ≠ 'e' ∧ c ≠ 'E') :
    EndsNumber (c :: rest) := by
  intro d member
  obtain rfl := Option.some.inj member
  exact other

theorem not_beginsWithDigit (ends : EndsNumber rest) : beginsWithDigit rest = false := by
  cases rest with
  | nil => rfl
  | cons c more => exact (ends c rfl).1

end EndsNumber

theorem beginsWithDigit_append (text : List Char) (ends : EndsNumber rest) :
    beginsWithDigit (text ++ rest) = beginsWithDigit text := by
  cases text with
  | nil => exact ends.not_beginsWithDigit
  | cons c more => rfl

theorem takeWhile_digits_append (ends : EndsNumber rest) :
    (text ++ rest).takeWhile Char.isDigit = text.takeWhile Char.isDigit := by
  induction text with
  | nil =>
      cases rest with
      | nil => rfl
      | cons c more => simp [(ends c rfl).1]
  | cons c more induction =>
      rw [List.cons_append, List.takeWhile_cons, List.takeWhile_cons, induction]

theorem dropWhile_digits_append (ends : EndsNumber rest) :
    (text ++ rest).dropWhile Char.isDigit = text.dropWhile Char.isDigit ++ rest := by
  induction text with
  | nil =>
      cases rest with
      | nil => rfl
      | cons c more => simp [(ends c rfl).1]
  | cons c more induction =>
      rw [List.cons_append, List.dropWhile_cons, List.dropWhile_cons, induction]
      split <;> rfl

theorem appendDigits_append (text : List Char) (ends : EndsNumber rest) (bound value : Nat) :
    appendDigits bound value (text ++ rest) =
      ((appendDigits bound value text).1, (appendDigits bound value text).2.1,
        (appendDigits bound value text).2.2 ++ rest) := by
  induction text generalizing value with
  | nil =>
      cases rest with
      | nil => rfl
      | cons c more => simp [appendDigits, (ends c rfl).1]
  | cons c more induction =>
      rw [List.cons_append, appendDigits, appendDigits]
      split
      · simp only [induction]
        split <;> rfl
      · rfl

theorem finishReal_append (read : finishReal negative significand exponent text = .ok (found, behind))
    (rest : List Char) :
    finishReal negative significand exponent (text ++ rest) = .ok (found, behind ++ rest) := by
  unfold finishReal at read ⊢
  split at read
  · obtain ⟨rfl, rfl⟩ := Prod.mk.inj (Except.ok.inj read)
    rfl
  · cases read

def readExponentDigits (negative : Bool) (significand : Nat) (exponent : Int) (positive : Bool)
    (digits : List Char) : Except Failure (Number × List Char) :=
  match digits with
  | [] => fail .endInValue [] 0
  | _ =>
    if beginsWithDigit digits then
      let (value, _, rest) := appendDigits greatestExponent 0 digits
      if beginsWithDigit rest then
        if significand ≠ 0 ∧ positive then fail .numberOutOfRange (rest.drop 1) 0
        else .ok (.real negative .zero, rest.dropWhile Char.isDigit)
      else
        finishReal negative significand (if positive then exponent + value else exponent - value)
          rest
    else fail .invalidNumber digits 1

theorem readExponent_unsigned {c : Char} (plus : c ≠ '+') (minus : c ≠ '-') (rest : List Char) :
    readExponent negative significand exponent (c :: rest) =
      readExponentDigits negative significand exponent true (c :: rest) := by
  unfold readExponent
  split
  next positive digits signs =>
  split at signs
  · next same => exact absurd (List.cons.inj same).1 plus
  · next same => exact absurd (List.cons.inj same).1 minus
  · obtain ⟨rfl, rfl⟩ := Prod.mk.inj signs
    rfl

theorem readExponentDigits_append {positive : Bool} (text : List Char) (ends : EndsNumber rest)
    (read : readExponentDigits negative significand exponent positive text = .ok (found, behind)) :
    readExponentDigits negative significand exponent positive (text ++ rest) =
      .ok (found, behind ++ rest) := by
  cases text with
  | nil => cases read
  | cons c more =>
      have begins := beginsWithDigit_append (c :: more) ends
      have scanned := appendDigits_append (c :: more) ends greatestExponent 0
      rw [List.cons_append] at *
      unfold readExponentDigits at read ⊢
      simp only [begins, scanned] at read ⊢
      split at read
      · split at read
        · split at read
          · cases read
          · next starts more small =>
            obtain ⟨rfl, rfl⟩ := Prod.mk.inj (Except.ok.inj read)
            rw [if_pos starts, beginsWithDigit_append _ ends, if_pos more, if_neg small,
              dropWhile_digits_append ends]
        · next starts done =>
          rw [if_pos starts, beginsWithDigit_append _ ends, if_neg done]
          exact finishReal_append read rest
      · cases read

theorem readExponent_append (ends : EndsNumber rest)
    (read : readExponent negative significand exponent text = .ok (found, behind)) :
    readExponent negative significand exponent (text ++ rest) = .ok (found, behind ++ rest) := by
  cases text with
  | nil => cases read
  | cons c more =>
      by_cases plus : c = '+'
      · subst plus
        exact readExponentDigits_append more ends read
      · by_cases minus : c = '-'
        · subst minus
          exact readExponentDigits_append more ends read
        · rw [List.cons_append, readExponent_unsigned plus minus]
          rw [readExponent_unsigned plus minus] at read
          exact readExponentDigits_append (c :: more) ends read

theorem readOptionalExponent_plain (plain : ∀ c ∈ text.head?, c ≠ 'e' ∧ c ≠ 'E') :
    readOptionalExponent negative significand exponent text =
      finishReal negative significand exponent text := by
  unfold readOptionalExponent
  split
  · exact absurd rfl (plain 'e' rfl).1
  · exact absurd rfl (plain 'E' rfl).2
  · rfl

theorem head_append_plain {p : Char → Prop} (ends : ∀ c ∈ rest.head?, p c)
    (plain : ∀ c ∈ text.head?, p c) : ∀ c ∈ (text ++ rest).head?, p c := by
  cases text with
  | nil => exact ends
  | cons c more => exact plain

theorem readOptionalExponent_append (ends : EndsNumber rest)
    (read : readOptionalExponent negative significand exponent text = .ok (found, behind)) :
    readOptionalExponent negative significand exponent (text ++ rest) =
      .ok (found, behind ++ rest) := by
  by_cases plain : ∀ c ∈ text.head?, c ≠ 'e' ∧ c ≠ 'E'
  · rw [readOptionalExponent_plain plain] at read
    rw [readOptionalExponent_plain (head_append_plain (fun c member => (ends c member).2.2) plain)]
    exact finishReal_append read rest
  · cases text with
    | nil => simp at plain
    | cons c more =>
        by_cases lower : c = 'e'
        · subst lower
          exact readExponent_append ends read
        · by_cases upper : c = 'E'
          · subst upper
            exact readExponent_append ends read
          · refine absurd (fun d member => ?_) plain
            obtain rfl := Option.some.inj member
            exact ⟨lower, upper⟩

theorem readFraction_append (ends : EndsNumber rest)
    (read : readFraction negative significand exponent text = .ok (found, behind)) :
    readFraction negative significand exponent (text ++ rest) = .ok (found, behind ++ rest) := by
  unfold readFraction at read ⊢
  simp only [appendDigits_append text ends] at read ⊢
  rw [beginsWithDigit_append _ ends]
  split at read
  · next more =>
    rw [if_pos more, dropWhile_digits_append ends]
    exact readOptionalExponent_append ends read
  · next done =>
    rw [if_neg done]
    split at read
    · split at read <;> cases read
    · next some =>
      rw [if_neg some]
      exact readOptionalExponent_append ends read

/-- The number whose whole digits are all there is of it, `dropped` of them too many. -/
def finishWhole (negative : Bool) (significand dropped : Nat) (rest : List Char) :
    Except Failure (Number × List Char) :=
  if dropped ≠ 0 then finishReal negative significand dropped rest
  else if !negative then .ok (.integer significand, rest)
  else if significand = 0 ∨ UInt64.size / 2 < significand then finishReal true significand 0 rest
  else .ok (.integer (-(significand : Int)), rest)

theorem readAfterWhole_plain
    (plain : ∀ c ∈ (text.dropWhile Char.isDigit).head?, c ≠ '.' ∧ c ≠ 'e' ∧ c ≠ 'E') :
    readAfterWhole negative significand text =
      finishWhole negative significand (text.takeWhile Char.isDigit).length
        (text.dropWhile Char.isDigit) := by
  unfold readAfterWhole
  simp only
  split
  · next point => exact absurd rfl (plain '.' (by rw [point]; rfl)).1
  · next lower => exact absurd rfl (plain 'e' (by rw [lower]; rfl)).2.1
  · next upper => exact absurd rfl (plain 'E' (by rw [upper]; rfl)).2.2
  · rfl

theorem finishWhole_append {dropped : Nat}
    (read : finishWhole negative significand dropped text = .ok (found, behind))
    (rest : List Char) :
    finishWhole negative significand dropped (text ++ rest) = .ok (found, behind ++ rest) := by
  unfold finishWhole at read ⊢
  split at read
  · next scaled => rw [if_pos scaled]; exact finishReal_append read rest
  · next exact =>
    rw [if_neg exact]
    split at read
    · next positive =>
      obtain ⟨rfl, rfl⟩ := Prod.mk.inj (Except.ok.inj read)
      rw [if_pos positive]
    · next negative =>
      rw [if_neg negative]
      split at read
      · next large => rw [if_pos large]; exact finishReal_append read rest
      · next small =>
        obtain ⟨rfl, rfl⟩ := Prod.mk.inj (Except.ok.inj read)
        rw [if_neg small]

theorem readAfterWhole_point (point : text.dropWhile Char.isDigit = '.' :: rest) :
    readAfterWhole negative significand text =
      readFraction negative significand (text.takeWhile Char.isDigit).length rest := by
  simp only [readAfterWhole, point]

theorem readAfterWhole_letter {letter : Char} (mark : letter = 'e' ∨ letter = 'E')
    (power : text.dropWhile Char.isDigit = letter :: rest) :
    readAfterWhole negative significand text =
      readExponent negative significand (text.takeWhile Char.isDigit).length rest := by
  rcases mark with rfl | rfl <;> simp only [readAfterWhole, power]

/-- Behind whole digits stands a fraction, a power, or nothing of the number. -/
theorem point_or_letter (text : List Char) :
    (∃ rest, text = '.' :: rest) ∨
      (∃ letter rest, (letter = 'e' ∨ letter = 'E') ∧ text = letter :: rest) ∨
      ∀ c ∈ text.head?, c ≠ '.' ∧ c ≠ 'e' ∧ c ≠ 'E' := by
  cases text with
  | nil => exact .inr (.inr fun c member => by cases member)
  | cons d rest =>
      by_cases point : d = '.'
      · exact .inl ⟨rest, by rw [point]⟩
      · by_cases mark : d = 'e' ∨ d = 'E'
        · exact .inr (.inl ⟨d, rest, mark, rfl⟩)
        · rw [not_or] at mark
          refine .inr (.inr fun c member => ?_)
          obtain rfl := Option.some.inj member
          exact ⟨point, mark⟩

theorem readAfterWhole_append (ends : EndsNumber rest)
    (read : readAfterWhole negative significand text = .ok (found, behind)) :
    readAfterWhole negative significand (text ++ rest) = .ok (found, behind ++ rest) := by
  have longer {more : List Char} (left : text.dropWhile Char.isDigit = more) :
      (text ++ rest).dropWhile Char.isDigit = more ++ rest := by
    rw [dropWhile_digits_append ends, left]
  rcases point_or_letter (text.dropWhile Char.isDigit) with ⟨more, point⟩ | ⟨letter, more, mark, power⟩ | plain
  · rw [readAfterWhole_point point] at read
    rw [readAfterWhole_point (longer point), takeWhile_digits_append ends]
    exact readFraction_append ends read
  · rw [readAfterWhole_letter mark power] at read
    rw [readAfterWhole_letter mark (longer power), takeWhile_digits_append ends]
    exact readExponent_append ends read
  · rw [readAfterWhole_plain plain] at read
    have behind := head_append_plain (fun c member => (ends c member).2) plain
    rw [← longer rfl] at behind
    rw [readAfterWhole_plain behind, takeWhile_digits_append ends, longer rfl]
    exact finishWhole_append read rest

def readUnsigned (negative : Bool) (digits : List Char) : Except Failure (Number × List Char) :=
  match digits with
  | [] => fail .endInValue [] 0
  | '0' :: rest =>
    if beginsWithDigit rest then fail .invalidNumber rest 1
    else readAfterWhole negative 0 rest
  | _ =>
    if beginsWithDigit digits then
      let (significand, _, rest) := appendDigits greatestWord 0 digits
      readAfterWhole negative significand rest
    else fail .invalidNumber digits 1

theorem readNumber_unsigned {c : Char} (minus : c ≠ '-') (rest : List Char) :
    readNumber (c :: rest) = readUnsigned false (c :: rest) := by
  unfold readNumber
  split
  next negative digits signs =>
  split at signs
  · next same => exact absurd (List.cons.inj same).1 minus
  · obtain ⟨rfl, rfl⟩ := Prod.mk.inj signs
    rfl

theorem readUnsigned_leading {c : Char} (zero : c ≠ '0') (rest : List Char) :
    readUnsigned negative (c :: rest) =
      if beginsWithDigit (c :: rest) then
        readAfterWhole negative (appendDigits greatestWord 0 (c :: rest)).1
          (appendDigits greatestWord 0 (c :: rest)).2.2
      else fail .invalidNumber (c :: rest) 1 := by
  unfold readUnsigned
  split
  · next same => cases same
  · next same => exact absurd (List.cons.inj same).1 zero
  · rfl

theorem readUnsigned_append (text : List Char) (ends : EndsNumber rest)
    (read : readUnsigned negative text = .ok (found, behind)) :
    readUnsigned negative (text ++ rest) = .ok (found, behind ++ rest) := by
  cases text with
  | nil => cases read
  | cons c more =>
      by_cases zero : c = '0'
      · subst zero
        unfold readUnsigned at read ⊢
        simp only [List.cons_append, beginsWithDigit_append more ends] at read ⊢
        split at read
        · cases read
        · next single =>
          rw [if_neg single]
          exact readAfterWhole_append ends read
      · rw [List.cons_append, readUnsigned_leading zero, ← List.cons_append]
        rw [readUnsigned_leading zero] at read
        simp only [beginsWithDigit_append _ ends, appendDigits_append _ ends] at read ⊢
        split at read
        · next digit =>
          rw [if_pos digit]
          exact readAfterWhole_append ends read
        · cases read

/-- A number that is read from a text is read from the front of a longer one, when no
character of a number follows. -/
theorem readNumber_append (text : List Char) (ends : EndsNumber rest)
    (read : readNumber text = .ok (found, behind)) :
    readNumber (text ++ rest) = .ok (found, behind ++ rest) := by
  cases text with
  | nil => cases read
  | cons c more =>
      by_cases minus : c = '-'
      · subst minus
        exact readUnsigned_append more ends read
      · rw [List.cons_append, readNumber_unsigned minus]
        rw [readNumber_unsigned minus] at read
        exact readUnsigned_append (c :: more) ends read

theorem ofText?_eq_some (number : Number.ofText? text = some found) :
    readNumber text = .ok (found, []) ∧
      ∃ c rest, text = c :: rest ∧ (c = '-' ∨ c.isDigit = true) := by
  cases text with
  | nil => cases number
  | cons c rest =>
      simp only [Number.ofText?] at number
      split at number
      · next leading =>
        split at number
        · next same =>
          obtain rfl := Option.some.inj number
          exact ⟨same, c, rest, rfl, leading⟩
        · cases number
      · cases number

theorem le_digitsValue (value : Nat) (text : List Char) : value ≤ Text.digitsValue value text := by
  induction text generalizing value with
  | nil => unfold Text.digitsValue; exact Nat.le_refl value
  | cons c rest induction =>
      have more := induction (value * 10 + (c.toNat - '0'.toNat))
      rw [Text.digitsValue_cons]
      omega

theorem appendDigits_digits {bound value : Nat} (digits : ∀ c ∈ text, c.isDigit = true)
    (small : Text.digitsValue value text ≤ bound) :
    appendDigits bound value text = (Text.digitsValue value text, text.length, []) := by
  induction text generalizing value with
  | nil => rw [appendDigits]; unfold Text.digitsValue; rfl
  | cons c rest induction =>
      rw [Text.digitsValue_cons] at small ⊢
      have next := Nat.le_trans (le_digitsValue _ rest) small
      have behind := induction (fun d member => digits d (by simp [member])) small
      rw [appendDigits, if_pos (digits c (by simp))]
      simp only [if_pos next, behind, List.length_cons]

theorem readAfterWhole_nil (significand : Nat) :
    readAfterWhole false significand [] = .ok (.integer significand, []) :=
  rfl

/-- A whole number that fits in a word is read back from its digits. -/
theorem ofText?_toDigits {count : Nat} (small : count ≤ greatestWord) :
    Number.ofText? (Nat.toDigits 10 count) = some (.integer count) := by
  have value := Text.digitsValue_toDigits count
  have digits := Text.toDigits_all_isDigit count
  have zero := fun positive => @Text.toDigits_head count positive
  have read : readNumber (Nat.toDigits 10 count) = .ok (.integer count, []) := by
    cases shape : Nat.toDigits 10 count with
    | nil => exact absurd shape Nat.toDigits_ne_nil
    | cons c rest =>
        have digit : c.isDigit = true := digits c (by simp [shape])
        rw [readNumber_unsigned (by rintro rfl; exact absurd digit (by decide))]
        by_cases leading : c = '0'
        · subst leading
          have none : count = 0 := by
            by_contra some
            exact zero (by omega) '0' (by rw [shape]; rfl) rfl
          subst none
          obtain rfl := (List.cons.inj (shape.symm.trans (Nat.toDigits_zero 10))).2
          rfl
        · rw [readUnsigned_leading leading, if_pos (show beginsWithDigit (c :: rest) = true from digit)]
          rw [shape] at value digits
          rw [appendDigits_digits digits (by rw [value]; exact small), value]
          exact readAfterWhole_nil count
  cases shape : Nat.toDigits 10 count with
  | nil => exact absurd shape Nat.toDigits_ne_nil
  | cons c rest =>
      rw [shape] at read
      rw [Number.ofText?, if_pos (.inr (digits c (by simp [shape]))), read]

/-- A whole number below zero that fits in a word is read back from its digits and its sign. -/
theorem ofText?_minus {count : Nat} (positive : 0 < count) (small : count ≤ UInt64.size / 2) :
    Number.ofText? ('-' :: Nat.toDigits 10 count) = some (.integer (-(count : Int))) := by
  have value := Text.digitsValue_toDigits count
  have digits := Text.toDigits_all_isDigit count
  have zero := Text.toDigits_head positive
  have word : count ≤ greatestWord := small.trans (by decide)
  have finished : readAfterWhole true count [] = .ok (.integer (-(count : Int)), []) := by
    have fits : ¬ (count = 0 ∨ UInt64.size / 2 < count) := by omega
    exact if_neg fits
  have read : readNumber ('-' :: Nat.toDigits 10 count) = .ok (.integer (-(count : Int)), []) := by
    change readUnsigned true (Nat.toDigits 10 count) = _
    cases shape : Nat.toDigits 10 count with
    | nil => exact absurd shape Nat.toDigits_ne_nil
    | cons c rest =>
        have begins : beginsWithDigit (c :: rest) = true := digits c (by simp [shape])
        rw [readUnsigned_leading (zero c (by rw [shape]; rfl)), if_pos begins]
        rw [shape] at value digits
        rw [appendDigits_digits digits (by rw [value]; exact word), value]
        exact finished
  rw [Number.ofText?, if_pos (.inl rfl), read]

end QueryNotation.Json
