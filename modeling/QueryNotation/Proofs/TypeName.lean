import QueryNotation.Proofs.Text.Blank
import QueryNotation.Proofs.Text.Cut
import QueryNotation.TypeName

namespace QueryNotation

/-! # The shape of type names

The name of a type is a base, an optional modifier in parentheses and any number of
`[]`.  All of it is ASCII letters and digits, underscores, points, commas, brackets and
blanks, so it may be written as it stands.
-/

namespace TypeName

open Text

/-- The characters of a type name in front of its modifier. -/
def isBaseChar (c : Char) : Bool :=
  c.isAlphanum || isBlank c || c == '_' || c == '.'

def isModifierChar (c : Char) : Bool :=
  c.isDigit || isBlank c || c == ','

def isTypeChar (c : Char) : Bool :=
  c.isAlphanum || isBlank c || ['_', '.', ',', '(', ')', '[', ']'].contains c

/-- Any number of `[]`, with blanks between them. -/
inductive IsArraySuffix : List Char → Prop where
  | nil : IsArraySuffix []
  | pair {rest : List Char} (behind : IsArraySuffix rest) : IsArraySuffix ('[' :: ']' :: rest)
  | blank {c : Char} {rest : List Char} (blank : isBlank c = true) (behind : IsArraySuffix rest) :
    IsArraySuffix (c :: rest)

/-- What may stand behind the base of a type name. -/
inductive IsTail : List Char → Prop where
  | bare {suffix : List Char} (array : IsArraySuffix suffix) : IsTail suffix
  | modified {modifier suffix : List Char} (plain : ∀ c ∈ modifier, isModifierChar c = true)
    (array : IsArraySuffix suffix) : IsTail ('(' :: (modifier ++ ')' :: suffix))

variable {c : Char} {text : List Char}

theorem isTypeChar_of_isBlank (blank : isBlank c = true) : isTypeChar c = true := by
  simp [isTypeChar, blank]

theorem isTypeChar_of_isBaseChar (plain : isBaseChar c = true) : isTypeChar c = true := by
  simp only [isBaseChar, Bool.or_eq_true, beq_iff_eq] at plain
  rcases plain with ((alphanum | blank) | rfl) | rfl
  · simp [isTypeChar, alphanum]
  · exact isTypeChar_of_isBlank blank
  · decide
  · decide

theorem isTypeChar_of_isModifierChar (plain : isModifierChar c = true) : isTypeChar c = true := by
  simp only [isModifierChar, Bool.or_eq_true, beq_iff_eq] at plain
  rcases plain with (digit | blank) | rfl
  · simp [isTypeChar, Char.isAlphanum, digit]
  · exact isTypeChar_of_isBlank blank
  · decide

theorem isBaseChar_of_isPart (part : isPart text = true) (member : c ∈ text) :
    isBaseChar c = true := by
  cases text with
  | nil => cases member
  | cons first rest =>
      simp only [isPart, Bool.and_eq_true, Bool.or_eq_true, beq_iff_eq, List.all_eq_true] at part
      obtain ⟨leading, following⟩ := part
      rcases List.mem_cons.mp member with rfl | inside
      · rcases leading with alpha | rfl
        · simp [isBaseChar, Char.isAlphanum, alpha]
        · decide
      · rcases following c inside with plain | rfl
        · simp [isBaseChar, plain]
        · decide

theorem isBaseChar_of_toLower {lower : Char} (same : c.toLower = lower)
    (plain : (lower.isAlphanum || lower == ' ') = true) : isBaseChar c = true := by
  by_cases upper : c.isUpper = true
  · simp [isBaseChar, isAlphanum_iff.mpr (.inl upper)]
  · rw [← same, toLower_of_not_isUpper upper] at plain
    rcases Bool.or_eq_true _ _ ▸ plain with plain | plain
    · simp [isBaseChar, plain]
    · rw [beq_iff_eq.mp plain]
      decide

theorem isBaseChar_of_phrase {found : List (List Char)}
    (phrase : phrases.contains (String.intercalate " " (found.map String.ofList)).toLower = true)
    {word : List Char} (listed : word ∈ found) (member : c ∈ word) : isBaseChar c = true := by
  have plain : ∀ known ∈ phrases, ∀ d ∈ known.toList, (d.isAlphanum || d == ' ') = true := by
    decide
  have inside : c.toLower ∈ (String.intercalate " " (found.map String.ofList)).toLower.toList := by
    rw [toList_toLower, String.toList_intercalate, List.map_map]
    refine List.mem_map_of_mem (mem_intercalate _ (List.mem_map_of_mem listed) ?_)
    rwa [Function.comp_apply, String.toList_ofList]
  exact isBaseChar_of_toLower rfl (plain _ (List.contains_iff_mem.mp phrase) _ inside)

theorem isBaseChar_of_isBase (base : isBase text = true) (member : c ∈ text) :
    isBaseChar c = true := by
  rcases mem_words isBlank member with blank | ⟨word, listed, found⟩
  · simp [isBaseChar, blank]
  · unfold isBase at base
    split at base
    · cases base
    · next only shape =>
      rw [shape, List.mem_singleton] at listed
      subst listed
      rcases mem_pieces (· == '.') found with point | ⟨part, partListed, inside⟩
      · rw [beq_iff_eq.mp point]
        decide
      · exact isBaseChar_of_isPart (List.all_eq_true.mp base part partListed) inside
    · exact isBaseChar_of_phrase base listed found

theorem isModifierChar_of_isModifierNumber (number : isModifierNumber text = true) (member : c ∈ text) :
    isModifierChar c = true := by
  simp only [isModifierNumber, Bool.and_eq_true, List.all_eq_true] at number
  rcases mem_trim member with blank | inside
  · simp [isModifierChar, blank]
  · simp [isModifierChar, number.2 c inside]

theorem isModifierChar_of_isModifier (modifier : isModifier text = true) (member : c ∈ text) :
    isModifierChar c = true := by
  rcases mem_pieces (· == ',') member with comma | ⟨piece, listed, found⟩
  · rw [beq_iff_eq.mp comma]
    decide
  · unfold isModifier at modifier
    split at modifier
    · next only shape =>
      rw [shape, List.mem_singleton] at listed
      exact isModifierChar_of_isModifierNumber modifier (listed ▸ found)
    · next one two shape =>
      rw [Bool.and_eq_true] at modifier
      simp only [shape, List.mem_cons, List.not_mem_nil, or_false] at listed
      rcases listed with rfl | rfl
      · exact isModifierChar_of_isModifierNumber modifier.1 found
      · exact isModifierChar_of_isModifierNumber modifier.2 found
    · cases modifier

theorem IsArraySuffix.mem_cases {suffix : List Char} (array : IsArraySuffix suffix)
    (member : c ∈ suffix) : isBlank c = true ∨ c = '[' ∨ c = ']' := by
  induction array with
  | nil => cases member
  | pair _ induction =>
      simp only [List.mem_cons] at member
      rcases member with opener | closer | inside
      · exact .inr (.inl opener)
      · exact .inr (.inr closer)
      · exact induction inside
  | blank blank _ induction =>
      rcases List.mem_cons.mp member with rfl | inside
      · exact .inl blank
      · exact induction inside

/-- What is dropped from the end of a name is brackets and blanks; `done` has been
dropped before. -/
theorem exists_suffix (passed : Bool) {done : List Char} (array : IsArraySuffix done) :
    ∃ suffix, text.reverse ++ done = (dropArraySuffixes passed text).reverse ++ suffix ∧
      IsArraySuffix suffix := by
  fun_induction dropArraySuffixes passed text generalizing done with
  | case1 passed rest induction =>
      obtain ⟨suffix, same, brackets⟩ := induction (.pair array)
      exact ⟨suffix, by rw [← same]; simp, brackets⟩
  | case2 passed d rest _ blank induction =>
      rw [Bool.and_eq_true] at blank
      obtain ⟨suffix, same, brackets⟩ := induction (.blank blank.2 array)
      exact ⟨suffix, by rw [← same]; simp, brackets⟩
  | case3 => exact ⟨done, rfl, array⟩
  | case4 => exact ⟨done, rfl, array⟩

theorem IsTail.isTypeChar {tail : List Char} (shape : IsTail tail) (member : c ∈ tail) :
    isTypeChar c = true := by
  have ofSuffix {suffix : List Char} (array : IsArraySuffix suffix) (inside : c ∈ suffix) :
      TypeName.isTypeChar c = true := by
    rcases array.mem_cases inside with blank | rfl | rfl
    · exact isTypeChar_of_isBlank blank
    · decide
    · decide
  cases shape with
  | bare array => exact ofSuffix array member
  | modified plain array =>
      simp only [List.mem_cons, List.mem_append] at member
      rcases member with rfl | inside | rfl | behind
      · decide
      · exact isTypeChar_of_isModifierChar (plain c inside)
      · decide
      · exact ofSuffix array behind

end TypeName

open Text QueryNotation.TypeName in
/-- The name of a type is a base with a tail behind it. -/
theorem exists_base_of_isTypeName {text : String} (typed : isTypeName text = true) :
    ∃ base tail, trim text.toList = base ++ tail ∧ (∀ c ∈ base, isBaseChar c = true) ∧ IsTail tail := by
  obtain ⟨suffix, same, array⟩ := @exists_suffix (trim text.toList).reverse false [] .nil
  rw [List.reverse_reverse, List.append_nil] at same
  simp only [isTypeName] at typed
  split at typed
  · exact ⟨_, suffix, same, fun c member => isBaseChar_of_isBase typed member, .bare array⟩
  · next base behind cut =>
    split at typed
    · cases typed
    · next modifier shape =>
      rw [Bool.and_eq_true] at typed
      refine ⟨base, '(' :: (modifier ++ ')' :: suffix), ?_, fun c member => ?_,
        .modified (fun c member => isModifierChar_of_isModifier typed.1 member) array⟩
      · rw [same, (cutFirst_eq_some cut).1, eq_of_dropTail? shape]
        simp
      · rcases mem_trimEnd member with blank | inside
        · simp [isBaseChar, blank]
        · exact isBaseChar_of_isBase typed.2 inside

open Text in
theorem isTypeChar_of_isTypeName {text : String} (typed : isTypeName text = true) {c : Char}
    (member : c ∈ text.toList) : TypeName.isTypeChar c = true := by
  obtain ⟨base, tail, same, plain, shape⟩ := exists_base_of_isTypeName typed
  rcases mem_trim member with blank | trimmed
  · exact TypeName.isTypeChar_of_isBlank blank
  · rw [same, List.mem_append] at trimmed
    rcases trimmed with front | behind
    · exact TypeName.isTypeChar_of_isBaseChar (plain c front)
    · exact shape.isTypeChar behind

end QueryNotation
