namespace QueryNotation.Text

/-! # Characters

Letters and digits of ASCII as ranges of codes, and what is checked for all characters
of a text.
-/

/-- What is said of the characters of a text is checked for these, and not for every
character there is. -/
instance (priority := high) decidableForallMem (text : List Char) (p : Char → Prop)
    [DecidablePred p] : Decidable (∀ c ∈ text, p c) :=
  List.decidableBAll p text

variable {c : Char}

theorem isUpper_iff : c.isUpper = true ↔ 65 ≤ c.toNat ∧ c.toNat ≤ 90 :=
  decide_eq_true_iff.trans (and_congr UInt32.le_iff_toNat_le UInt32.le_iff_toNat_le)

theorem isLower_iff : c.isLower = true ↔ 97 ≤ c.toNat ∧ c.toNat ≤ 122 := by
  delta Char.isLower
  rw [Bool.and_eq_true, decide_eq_true_iff, decide_eq_true_iff]
  exact and_congr UInt32.le_iff_toNat_le UInt32.le_iff_toNat_le

theorem isDigit_iff : c.isDigit = true ↔ 48 ≤ c.toNat ∧ c.toNat ≤ 57 := by
  rw [Char.isDigit, Bool.and_eq_true, decide_eq_true_iff, decide_eq_true_iff]
  exact and_congr UInt32.le_iff_toNat_le UInt32.le_iff_toNat_le

theorem isAlpha_iff : c.isAlpha = true ↔ c.isUpper = true ∨ c.isLower = true :=
  Bool.or_eq_true _ _ ▸ Iff.rfl

theorem isAlphanum_iff :
    c.isAlphanum = true ↔ c.isUpper = true ∨ c.isLower = true ∨ c.isDigit = true := by
  rw [Char.isAlphanum, Bool.or_eq_true, ← or_assoc]
  exact or_congr_left isAlpha_iff

theorem toLower_of_not_isUpper (upper : ¬ c.isUpper = true) : c.toLower = c := by
  refine dif_neg fun range => upper (isUpper_iff.mpr ?_)
  exact ⟨UInt32.le_iff_toNat_le.mp range.1, UInt32.le_iff_toNat_le.mp range.2⟩

theorem toNat_toLower_of_isUpper (upper : c.isUpper = true) : c.toLower.toNat = c.toNat + 32 := by
  obtain ⟨least, most⟩ := isUpper_iff.mp upper
  have range : c.val ≥ 'A'.val ∧ c.val ≤ 'Z'.val :=
    ⟨UInt32.le_iff_toNat_le.mpr least, UInt32.le_iff_toNat_le.mpr most⟩
  have lowered : c.toLower.toNat = (c.val + ('a'.val - 'A'.val)).toNat := congrArg Char.toNat (dif_pos range)
  have same : c.toNat = c.val.toNat := rfl
  have distance : ('a'.val - 'A'.val).toNat = 32 := rfl
  rw [lowered, UInt32.toNat_add, distance]
  omega

theorem isLower_toLower_of_isUpper (upper : c.isUpper = true) : c.toLower.isLower = true := by
  have shifted := toNat_toLower_of_isUpper upper
  rw [isUpper_iff] at upper
  rw [isLower_iff]
  omega

theorem toUpper_of_not_isLower (lower : ¬ c.isLower = true) : c.toUpper = c := by
  refine dif_neg fun range => lower (isLower_iff.mpr ?_)
  exact ⟨UInt32.le_iff_toNat_le.mp range.1, UInt32.le_iff_toNat_le.mp range.2⟩

theorem toList_toLower (text : String) : text.toLower.toList = text.toList.map Char.toLower :=
  String.toList_map

end QueryNotation.Text
