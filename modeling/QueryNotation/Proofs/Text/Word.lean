import QueryNotation.Proofs.Text.Bracket
import QueryNotation.Text.Letter

namespace QueryNotation.Text

/-! # Words and names

A word is made of ASCII letters, digits and underscores, a name of those of any script.
Nothing in either separates, opens or closes anything, so every scan passes over them.
-/

def isWordChar (c : Char) : Bool :=
  c.isAlphanum || c == '_'

/-- A text of at least one character of words. -/
structure IsWord (text : String) : Prop where
  full : text ≠ ""
  plain : ∀ c ∈ text.toList, isWordChar c = true

instance (text : String) : Decidable (IsWord text) :=
  decidable_of_iff (text ≠ "" ∧ ∀ c ∈ text.toList, isWordChar c = true)
    ⟨fun ⟨full, plain⟩ => ⟨full, plain⟩, fun word => ⟨word.full, word.plain⟩⟩

def isNameChar (c : Char) : Bool :=
  isLetterOrNumeral c || c == '_'

/-- A text of at least one character of names. -/
structure IsName (text : String) : Prop where
  full : text ≠ ""
  plain : ∀ c ∈ text.toList, isNameChar c = true

instance (text : String) : Decidable (IsName text) :=
  decidable_of_iff (text ≠ "" ∧ ∀ c ∈ text.toList, isNameChar c = true)
    ⟨fun ⟨full, plain⟩ => ⟨full, plain⟩, fun name => ⟨name.full, name.plain⟩⟩

theorem isNameChar_wordChar {c : Char} (plain : isWordChar c = true) : isNameChar c = true := by
  simp only [isWordChar, isNameChar, Bool.or_eq_true] at plain ⊢
  exact plain.imp_left isLetterOrNumeral_of_isAlphanum

/-- The first and last code of each run of blanks beyond ASCII. -/
def blankRanges : List (Nat × Nat) :=
  [(0x85, 0x85), (0xA0, 0xA0), (0x1680, 0x1680), (0x2000, 0x200A), (0x2028, 0x2029),
    (0x202F, 0x202F), (0x205F, 0x205F), (0x3000, 0x3000)]

theorem mem_blankRanges {c : Char} (blank : isBlank c = true) (large : ¬ c.toNat < 0x80) :
    ∃ range ∈ blankRanges, range.1 ≤ c.toNat ∧ c.toNat ≤ range.2 := by
  simp only [isBlank, Bool.or_eq_true, Bool.and_eq_true, decide_eq_true_eq, beq_iff_eq] at blank
  simp only [blankRanges, List.mem_cons, List.not_mem_nil, or_false, exists_eq_or_imp, exists_eq_left]
  omega

/-- No run of letters and numerals meets a run of blanks. -/
theorem letterRanges_apart :
    letterOrNumeralRanges.toList.all (fun letters => blankRanges.all fun blanks =>
      letters.2 < blanks.1 || blanks.2 < letters.1) = true := by
  decide +kernel

theorem isBlank_letter {c : Char} (letter : isLetterOrNumeral c = true) : isBlank c = false := by
  by_cases small : c.toNat < 0x80
  · rw [isLetterOrNumeral, if_pos small] at letter
    exact isBlank_alphanum letter
  · rw [isLetterOrNumeral, if_neg small, inRanges, ← Array.any_toList, List.any_eq_true] at letter
    obtain ⟨letters, listed, inside⟩ := letter
    by_contra blank
    obtain ⟨blanks, member, within⟩ := mem_blankRanges (by simpa using blank) small
    have apart := List.all_eq_true.mp (List.all_eq_true.mp letterRanges_apart letters listed) blanks member
    simp only [Bool.and_eq_true, Bool.or_eq_true, decide_eq_true_eq] at inside apart
    omega

theorem isBlank_nameChar {c : Char} (plain : isNameChar c = true) : isBlank c = false := by
  simp only [isNameChar, Bool.or_eq_true, beq_iff_eq] at plain
  rcases plain with letter | rfl
  · exact isBlank_letter letter
  · decide

theorem isFlat_nameChar {c : Char} (plain : isNameChar c = true) : IsFlat c :=
  isFlat_of_class (by decide) plain

theorem isBlank_wordChar {c : Char} (plain : isWordChar c = true) : isBlank c = false :=
  isBlank_nameChar (isNameChar_wordChar plain)

theorem isFlat_wordChar {c : Char} (plain : isWordChar c = true) : IsFlat c :=
  isFlat_nameChar (isNameChar_wordChar plain)

namespace IsName

variable {text : String}

theorem absent (name : IsName text) {c : Char} (other : isNameChar c = false) : c ∉ text.toList := by
  intro member
  rw [name.plain c member] at other
  cases other

theorem ne_nil (name : IsName text) : text.toList ≠ [] := by
  simpa using name.full

theorem trim_eq (name : IsName text) : trim text.toList = text.toList :=
  trim_of_solid fun c member => isBlank_nameChar (name.plain c member)

end IsName

namespace IsWord

variable {text : String}

theorem isName (word : IsWord text) : IsName text where
  full := word.full
  plain c member := isNameChar_wordChar (word.plain c member)

theorem absent (word : IsWord text) {c : Char} (other : isWordChar c = false) : c ∉ text.toList := by
  intro member
  rw [word.plain c member] at other
  cases other

theorem ne_nil (word : IsWord text) : text.toList ≠ [] :=
  word.isName.ne_nil

theorem trim_eq (word : IsWord text) : trim text.toList = text.toList :=
  word.isName.trim_eq

theorem flat (word : IsWord text) : ∀ c ∈ text.toList, IsFlat c :=
  fun c member => isFlat_nameChar (word.isName.plain c member)

end IsWord

end QueryNotation.Text
