import QueryNotation.Chain.Literal
import QueryNotation.Proofs.Json.Number
import QueryNotation.Proofs.Text.Blank

namespace QueryNotation.Chain

/-! # Numbers of a chain

A literal number may have more forms than a JSON number, but of a JSON number it takes
the same characters.
-/

open Json (Failure Number EndsNumber beginsWithDigit appendDigits finishReal readExponentDigits
  readUnsigned finishWhole)

variable {text behind : List Char} {found : Number} {negative : Bool} {significand : Nat}
  {exponent : Int}

theorem takeWhile_of_beginsWithDigit (begins : beginsWithDigit text = true) :
    text.takeWhile Char.isDigit ≠ [] := by
  cases text with
  | nil => cases begins
  | cons c rest =>
      rw [List.takeWhile_cons, show c.isDigit = true from begins]
      exact List.cons_ne_nil c _

theorem dropWhile_of_not_beginsWithDigit (ends : beginsWithDigit text = false) :
    text.dropWhile Char.isDigit = text := by
  cases text with
  | nil => rfl
  | cons c rest => rw [List.dropWhile_cons, show c.isDigit = false from ends]; rfl

/-- What is left behind the digits that fit begins with the digits that do not. -/
theorem dropWhile_appendDigits (bound value : Nat) (text : List Char) :
    (appendDigits bound value text).2.2.dropWhile Char.isDigit = text.dropWhile Char.isDigit := by
  induction text generalizing value with
  | nil => rfl
  | cons c rest induction =>
      rw [appendDigits]
      split
      · next digit =>
        rw [List.dropWhile_cons, if_pos digit]
        dsimp only
        split
        · exact induction _
        · rw [List.dropWhile_cons, if_pos digit]
      · rfl

theorem appendDigits_none {bound value : Nat} (none : (appendDigits bound value text).2.1 = 0) :
    (appendDigits bound value text).2.2 = text := by
  cases text with
  | nil => rfl
  | cons c rest =>
      rw [appendDigits] at none ⊢
      split
      · next digit =>
        dsimp only at none ⊢
        split
        · next fits => rw [if_pos digit, if_pos fits] at none; cases none
        · rfl
      · rfl

theorem beginsWithDigit_of_appended {bound value : Nat}
    (some : (appendDigits bound value text).2.1 ≠ 0) : beginsWithDigit text = true := by
  cases text with
  | nil => exact absurd rfl some
  | cons c rest =>
      rw [appendDigits] at some
      split at some
      · next digit => exact digit
      · exact absurd rfl some

theorem behind_of_finishReal (read : finishReal negative significand exponent text = .ok (found, behind)) :
    behind = text := by
  unfold finishReal at read
  split at read
  · exact (Prod.mk.inj (Except.ok.inj read)).2.symm
  · cases read

theorem takeFraction_append (text : List Char) : (takeFraction text).1 ++ (takeFraction text).2 = text := by
  unfold takeFraction
  split
  · split
    · rfl
    · exact congrArg ('.' :: ·) List.takeWhile_append_dropWhile
  · rfl

def IsNumberChar (c : Char) : Prop :=
  c.isDigit = true ∨ c ∈ ['-', '+', '.', 'e', 'E']

theorem takeWhile_digits_chars (text : List Char) :
    ∀ c ∈ text.takeWhile Char.isDigit, IsNumberChar c :=
  fun _ member => .inl (List.mem_takeWhile_imp member)

theorem takeFraction_chars (text : List Char) : ∀ c ∈ (takeFraction text).1, IsNumberChar c := by
  unfold takeFraction
  split
  · next rest =>
    split
    · exact List.forall_mem_nil _
    · intro c member
      rcases List.mem_cons.mp member with rfl | digit
      · exact .inr (by simp)
      · exact takeWhile_digits_chars rest c digit
  · exact List.forall_mem_nil _

theorem takeFraction_plain (plain : ∀ c ∈ text.head?, c ≠ '.') : takeFraction text = ([], text) := by
  unfold takeFraction
  split
  · exact absurd rfl (plain '.' rfl)
  · rfl

theorem takeFraction_point (begins : beginsWithDigit text = true) :
    (takeFraction ('.' :: text)).2 = text.dropWhile Char.isDigit := by
  have some := takeWhile_of_beginsWithDigit begins
  unfold takeFraction
  split
  · next rest same =>
    obtain rfl := (List.cons.inj same).2
    split
    · next none => exact absurd none some
    · rfl
  · next other => exact absurd rfl (other text)

/-- The exponent in front of a text, and what is behind it. -/
def ExponentEnds (text behind : List Char) : Prop :=
  ∃ written, takeExponent text = (written, behind) ∧ text = written ++ behind ∧
    ∀ c ∈ written, IsNumberChar c

theorem exponentEnds_plain (plain : ∀ c ∈ text.head?, c ≠ 'e' ∧ c ≠ 'E') : ExponentEnds text text := by
  refine ⟨[], ?_, rfl, List.forall_mem_nil _⟩
  cases text with
  | nil => rfl
  | cons c rest =>
      obtain ⟨lower, upper⟩ := plain c rfl
      unfold takeExponent
      exact if_neg (by simp [lower, upper])

def takeExponentDigits (letter : Char) (rest sign digits : List Char) : List Char × List Char :=
  match digits.takeWhile Char.isDigit with
  | [] => ([], letter :: rest)
  | found => (letter :: sign ++ found, digits.dropWhile Char.isDigit)

theorem takeExponent_unsigned {letter c : Char} {rest : List Char} (mark : letter = 'e' ∨ letter = 'E')
    (plus : c ≠ '+') (minus : c ≠ '-') :
    takeExponent (letter :: c :: rest) = takeExponentDigits letter (c :: rest) [] (c :: rest) := by
  unfold takeExponent
  refine (if_pos mark).trans ?_
  split
  next sign digits signs =>
  split at signs
  · next same => exact absurd (List.cons.inj same).1 plus
  · next same => exact absurd (List.cons.inj same).1 minus
  · obtain ⟨rfl, rfl⟩ := Prod.mk.inj signs
    rfl

theorem takeExponentDigits_begins {letter : Char} {rest sign digits : List Char}
    (begins : beginsWithDigit digits = true) :
    takeExponentDigits letter rest sign digits =
      (letter :: sign ++ digits.takeWhile Char.isDigit, digits.dropWhile Char.isDigit) := by
  unfold takeExponentDigits
  split
  · next none => exact absurd none (takeWhile_of_beginsWithDigit begins)
  · rfl

theorem behind_of_readExponentDigits {positive : Bool}
    (read : readExponentDigits negative significand exponent positive text = .ok (found, behind)) :
    beginsWithDigit text = true ∧ behind = text.dropWhile Char.isDigit := by
  cases text with
  | nil => cases read
  | cons c rest =>
      have scanned := dropWhile_appendDigits Json.greatestExponent 0 (c :: rest)
      unfold readExponentDigits at read
      simp only at read
      split at read
      · next begins =>
        refine ⟨begins, ?_⟩
        rw [← scanned]
        split at read
        · split at read
          · cases read
          · exact (Prod.mk.inj (Except.ok.inj read)).2.symm
        · next done =>
          rw [behind_of_finishReal read, dropWhile_of_not_beginsWithDigit (by simpa using done)]
      · cases read

theorem exponentEnds_digits {letter : Char} {rest sign : List Char} {positive : Bool}
    (mark : letter = 'e' ∨ letter = 'E') (plain : ∀ c ∈ sign, IsNumberChar c) (signed : rest = sign ++ text)
    (taken : takeExponent (letter :: rest) = takeExponentDigits letter rest sign text)
    (read : readExponentDigits negative significand exponent positive text = .ok (found, behind)) :
    ExponentEnds (letter :: rest) behind := by
  obtain ⟨begins, rfl⟩ := behind_of_readExponentDigits read
  refine ⟨_, taken.trans (takeExponentDigits_begins begins), ?_, ?_⟩
  · rw [signed, List.append_assoc, List.takeWhile_append_dropWhile]
    rfl
  · intro c member
    rcases List.mem_append.mp member with front | digit
    · rcases List.mem_cons.mp front with rfl | inside
      · rcases mark with rfl | rfl <;> exact .inr (by simp)
      · exact plain c inside
    · exact takeWhile_digits_chars text c digit

theorem exponentEnds_letter {letter : Char} (mark : letter = 'e' ∨ letter = 'E')
    (read : Json.readExponent negative significand exponent text = .ok (found, behind)) :
    ExponentEnds (letter :: text) behind := by
  cases text with
  | nil => cases read
  | cons c rest =>
      by_cases plus : c = '+'
      · subst plus
        refine exponentEnds_digits mark (by simp [IsNumberChar]) (List.singleton_append).symm ?_ read
        rw [takeExponent, if_pos mark]
        rfl
      · by_cases minus : c = '-'
        · subst minus
          refine exponentEnds_digits mark (by simp [IsNumberChar]) (List.singleton_append).symm ?_ read
          rw [takeExponent, if_pos mark]
          rfl
        · rw [Json.readExponent_unsigned plus minus] at read
          have plain : ∀ c ∈ ([] : List Char), IsNumberChar c := by simp
          exact exponentEnds_digits mark plain (List.nil_append _).symm
            (takeExponent_unsigned mark plus minus) read

theorem exponentEnds_optional
    (read : Json.readOptionalExponent negative significand exponent text = .ok (found, behind)) :
    ExponentEnds text behind := by
  by_cases plain : ∀ c ∈ text.head?, c ≠ 'e' ∧ c ≠ 'E'
  · rw [Json.readOptionalExponent_plain plain] at read
    rw [behind_of_finishReal read]
    exact exponentEnds_plain plain
  · cases text with
    | nil => simp at plain
    | cons c rest =>
        by_cases lower : c = 'e'
        · subst lower
          exact exponentEnds_letter (.inl rfl) read
        · by_cases upper : c = 'E'
          · subst upper
            exact exponentEnds_letter (.inr rfl) read
          · refine absurd (fun d member => ?_) plain
            obtain rfl := Option.some.inj member
            exact ⟨lower, upper⟩

theorem behind_of_readFraction
    (read : Json.readFraction negative significand exponent text = .ok (found, behind)) :
    beginsWithDigit text = true ∧ ExponentEnds (text.dropWhile Char.isDigit) behind := by
  have scanned := dropWhile_appendDigits Json.greatestWord significand text
  unfold Json.readFraction at read
  simp only at read
  split at read
  · next more =>
    refine ⟨?_, by rw [← scanned]; exact exponentEnds_optional read⟩
    by_cases none : (appendDigits Json.greatestWord significand text).2.1 = 0
    · rwa [appendDigits_none none] at more
    · exact beginsWithDigit_of_appended none
  · next done =>
    split at read
    · split at read <;> cases read
    · next some =>
      refine ⟨beginsWithDigit_of_appended some, ?_⟩
      rw [← scanned, dropWhile_of_not_beginsWithDigit (by simpa using done)]
      exact exponentEnds_optional read

theorem behind_of_readAfterWhole
    (read : Json.readAfterWhole negative significand text = .ok (found, behind)) :
    ExponentEnds (takeFraction (text.dropWhile Char.isDigit)).2 behind := by
  rcases Json.point_or_letter (text.dropWhile Char.isDigit) with ⟨rest, point⟩ | ⟨letter, rest, mark, power⟩ | plain
  · rw [Json.readAfterWhole_point point] at read
    obtain ⟨begins, ends⟩ := behind_of_readFraction read
    rw [point, takeFraction_point begins]
    exact ends
  · rw [Json.readAfterWhole_letter mark power] at read
    have apart : letter ≠ '.' := by rcases mark with rfl | rfl <;> decide
    rw [power, takeFraction_plain (by simpa using apart)]
    exact exponentEnds_letter mark read
  · rw [Json.readAfterWhole_plain plain] at read
    have same : behind = text.dropWhile Char.isDigit := by
      unfold finishWhole at read
      split at read
      · exact behind_of_finishReal read
      · split at read
        · exact (Prod.mk.inj (Except.ok.inj read)).2.symm
        · split at read
          · exact behind_of_finishReal read
          · exact (Prod.mk.inj (Except.ok.inj read)).2.symm
    rw [takeFraction_plain fun c member => (plain c member).1, same]
    exact exponentEnds_plain fun c member => (plain c member).2

theorem behind_of_readUnsigned (read : readUnsigned negative text = .ok (found, behind)) :
    beginsWithDigit text = true ∧
      ExponentEnds (takeFraction (text.dropWhile Char.isDigit)).2 behind := by
  cases text with
  | nil => cases read
  | cons c rest =>
      by_cases zero : c = '0'
      · subst zero
        unfold readUnsigned at read
        simp only at read
        split at read
        · cases read
        · have ends := behind_of_readAfterWhole read
          have same : ('0' :: rest).dropWhile Char.isDigit = rest.dropWhile Char.isDigit := rfl
          rw [← same] at ends
          exact ⟨rfl, ends⟩
      · rw [Json.readUnsigned_leading zero] at read
        split at read
        · next begins =>
          have ends := behind_of_readAfterWhole read
          rw [dropWhile_appendDigits] at ends
          exact ⟨begins, ends⟩
        · cases read

/-- The number that some text denotes, or the text itself when JSON has no such number. -/
def numberValue (written : List Char) : Json :=
  match Number.ofText? written with
  | some value => .number value
  | none => .string (String.ofList written)

def readDigits (sign digits : List Char) : Except Stop (Json × List Char) :=
  match digits.takeWhile Char.isDigit with
  | [] => .error .absent
  | whole =>
    let (fraction, rest) := takeFraction (digits.dropWhile Char.isDigit)
    let (exponent, rest) := takeExponent rest
    .ok (numberValue (sign ++ whole ++ fraction ++ exponent), rest)

theorem readNumber_minus (digits : List Char) : readNumber ('-' :: digits) = readDigits ['-'] digits := by
  unfold readNumber readDigits numberValue
  split
  next sign behind signs =>
  obtain ⟨rfl, rfl⟩ : ['-'] = sign ∧ digits = behind := Prod.mk.inj signs
  cases digits.takeWhile Char.isDigit with
  | nil => rfl
  | cons first more =>
      dsimp only
      generalize Number.ofText? _ = value
      cases value <;> rfl

theorem readNumber_plain {c : Char} (minus : c ≠ '-') (rest : List Char) :
    readNumber (c :: rest) = readDigits [] (c :: rest) := by
  unfold readNumber readDigits numberValue
  split
  next sign digits signs =>
  split at signs
  · next same => exact absurd (List.cons.inj same).1 minus
  · obtain ⟨rfl, rfl⟩ := Prod.mk.inj signs
    cases (c :: rest).takeWhile Char.isDigit with
    | nil => rfl
    | cons first more =>
      dsimp only
      generalize Number.ofText? _ = value
      cases value <;> rfl

theorem readDigits_written {digits sign : List Char} (plain : ∀ c ∈ sign, IsNumberChar c)
    (begins : beginsWithDigit digits = true)
    (ends : ExponentEnds (takeFraction (digits.dropWhile Char.isDigit)).2 behind) :
    ∃ written, sign ++ digits = written ++ behind ∧
      readDigits sign digits = .ok (numberValue written, behind) ∧
        ∀ c ∈ written, IsNumberChar c := by
  obtain ⟨exponent, taken, whole, exponentPlain⟩ := ends
  have fraction := takeFraction_append (digits.dropWhile Char.isDigit)
  refine ⟨sign ++ digits.takeWhile Char.isDigit ++
    (takeFraction (digits.dropWhile Char.isDigit)).1 ++ exponent, ?_, ?_, ?_⟩
  · rw [List.append_assoc, ← whole, List.append_assoc, fraction, List.append_assoc,
      List.takeWhile_append_dropWhile]
  · unfold readDigits
    split
    · next none => exact absurd none (takeWhile_of_beginsWithDigit begins)
    · simp only [taken]
  · intro c member
    rcases List.mem_append.mp member with front | last
    · rcases List.mem_append.mp front with whole | fraction
      · rcases List.mem_append.mp whole with signed | digit
        · exact plain c signed
        · exact takeWhile_digits_chars digits c digit
      · exact takeFraction_chars _ c fraction
    · exact exponentPlain c last

/-- What a JSON number is read from is taken for a number. -/
theorem readNumber_written (read : Json.readNumber text = .ok (found, behind)) :
    ∃ written, text = written ++ behind ∧ readNumber text = .ok (numberValue written, behind) ∧
      ∀ c ∈ written, IsNumberChar c := by
  cases text with
  | nil => cases read
  | cons c rest =>
      by_cases minus : c = '-'
      · subst minus
        have unsigned : readUnsigned true rest = .ok (found, behind) := read
        obtain ⟨begins, ends⟩ := behind_of_readUnsigned unsigned
        have plain : ∀ c ∈ ['-'], IsNumberChar c := by simp [IsNumberChar]
        rw [readNumber_minus]
        exact readDigits_written plain begins ends
      · rw [Json.readNumber_unsigned minus] at read
        obtain ⟨begins, ends⟩ := behind_of_readUnsigned read
        have plain : ∀ c ∈ ([] : List Char), IsNumberChar c := by simp
        rw [readNumber_plain minus]
        exact readDigits_written plain begins ends

/-- The text of a JSON number is read as the number, when no character of a number follows. -/
theorem readNumber_chars {value : Number} (stable : Number.ofText? value.chars = some value)
    {rest : List Char} (ends : EndsNumber rest) :
    readNumber (value.chars ++ rest) = .ok (.number value, rest) := by
  obtain ⟨read, _⟩ := Json.ofText?_eq_some stable
  obtain ⟨written, same, found, _⟩ := readNumber_written (Json.readNumber_append _ ends read)
  rw [List.nil_append] at same found
  obtain rfl := List.append_cancel_right same
  rw [found, numberValue, stable]

theorem number_chars {value : Number} (stable : Number.ofText? value.chars = some value) :
    ∀ c ∈ value.chars, IsNumberChar c := by
  obtain ⟨read, _⟩ := Json.ofText?_eq_some stable
  obtain ⟨written, same, _, plain⟩ := readNumber_written read
  rw [List.append_nil] at same
  rw [same]
  exact plain

end QueryNotation.Chain
