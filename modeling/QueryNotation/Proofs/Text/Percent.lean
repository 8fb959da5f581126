import Mathlib.Tactic.Common
import QueryNotation.Proofs.Text.Blank
import QueryNotation.Text.Character
import QueryNotation.Text.Percent
import QueryNotation.Text.Utf8

namespace QueryNotation.Text

/-! # Undoing percent escapes

What is escaped are the bytes of UTF-8.  Decoding undoes escaping for every class of escaped
characters that holds `%` itself.

Whatever text is encoded, decoding its bytes gives the text again.  One lemma for
each number of bytes takes a character off the front.
-/

section Utf8

theorem toNat_byte {value : Nat} (small : value < 256) : (UInt8.ofNat value).toNat = value := by
  simp [Nat.mod_eq_of_lt small]

theorem isContinuation_byte {payload : Nat} (small : payload < 64) :
    isContinuation (UInt8.ofNat (payload + 0x80)) = true := by
  have value := toNat_byte (show payload + 0x80 < 256 by omega)
  simp only [isContinuation, Bool.and_eq_true, decide_eq_true_eq, UInt8.le_iff_toNat_le, value]
  exact ⟨Nat.le_add_left _ _, Nat.add_le_add_right (Nat.le_of_lt_succ small) 0x80⟩

variable {n : Nat} {rest : List UInt8}

theorem decodeUtf8_one (ascii : n ≤ 0x7f) :
    decodeUtf8 (UInt8.ofNat n :: rest) = Char.ofNat n :: decodeUtf8 rest := by
  have value := toNat_byte (show n < 256 by omega)
  have small : UInt8.ofNat n < 0x80 := by
    rw [UInt8.lt_iff_toNat_lt, value]
    exact Nat.lt_succ_of_le ascii
  rw [decodeUtf8.eq_def]
  simp only [if_pos small, value]

theorem decodeUtf8_two (lower : 0x7f < n) (upper : n ≤ 0x7ff) :
    decodeUtf8 (UInt8.ofNat (n / 64 % 0x20 + 0xc0) :: UInt8.ofNat (n % 0x40 + 0x80) :: rest) =
      Char.ofNat n :: decodeUtf8 rest := by
  have first : (UInt8.ofNat (n / 64 % 0x20 + 0xc0)).toNat = n / 64 + 0xc0 := by
    rw [toNat_byte (by omega)]
    omega
  have second : (UInt8.ofNat (n % 0x40 + 0x80)).toNat = n % 0x40 + 0x80 := toNat_byte (by omega)
  have payload : ofPayload ((n / 64 + 0xc0) % 32) [UInt8.ofNat (n % 0x40 + 0x80)] = Char.ofNat n := by
    simp only [ofPayload, List.foldl_cons, List.foldl_nil, second]
    congr 1
    omega
  rw [decodeUtf8.eq_def]
  simp only [UInt8.lt_iff_toNat_lt, UInt8.le_iff_toNat_le, first, UInt8.toNat_ofNat, Nat.reduceMod,
    Nat.reducePow, isContinuation_byte (show n % 0x40 < 64 by omega), if_true, payload]
  rw [if_neg (by omega), if_pos (by simp only [Bool.and_eq_true, decide_eq_true_eq]; omega)]

theorem decodeUtf8_three (lower : 0x7ff < n) (upper : n ≤ 0xffff)
    (valid : n < 0xD800 ∨ 0xDFFF < n) :
    decodeUtf8 (UInt8.ofNat (n / 4096 % 0x10 + 0xe0) :: UInt8.ofNat (n / 64 % 0x40 + 0x80) ::
      UInt8.ofNat (n % 0x40 + 0x80) :: rest) = Char.ofNat n :: decodeUtf8 rest := by
  have first : (UInt8.ofNat (n / 4096 % 0x10 + 0xe0)).toNat = n / 4096 + 0xe0 := by
    rw [toNat_byte (by omega)]
    omega
  have second : (UInt8.ofNat (n / 64 % 0x40 + 0x80)).toNat = n / 64 % 0x40 + 0x80 :=
    toNat_byte (by omega)
  have third : (UInt8.ofNat (n % 0x40 + 0x80)).toNat = n % 0x40 + 0x80 := toNat_byte (by omega)
  have payload : ofPayload ((n / 4096 + 0xe0) % 16)
      [UInt8.ofNat (n / 64 % 0x40 + 0x80), UInt8.ofNat (n % 0x40 + 0x80)] = Char.ofNat n := by
    simp only [ofPayload, List.foldl_cons, List.foldl_nil, second, third]
    congr 1
    omega
  have follows : isSecondOfThree (UInt8.ofNat (n / 4096 % 0x10 + 0xe0))
      (UInt8.ofNat (n / 64 % 0x40 + 0x80)) = true := by
    simp only [isSecondOfThree, isContinuation, ← UInt8.toNat_inj, UInt8.le_iff_toNat_le, first,
      second, UInt8.toNat_ofNat, Nat.reduceMod, Nat.reducePow]
    split
    · simp only [Bool.and_eq_true, decide_eq_true_eq]; omega
    · split <;> simp only [Bool.and_eq_true, decide_eq_true_eq] <;> omega
  rw [decodeUtf8.eq_def]
  simp only [UInt8.lt_iff_toNat_lt, UInt8.le_iff_toNat_le, first, UInt8.toNat_ofNat, Nat.reduceMod,
    Nat.reducePow, follows, isContinuation_byte (show n % 0x40 < 64 by omega), if_true, payload]
  rw [if_neg (by omega), if_neg (by simp only [Bool.and_eq_true, decide_eq_true_eq]; omega),
    if_pos (by simp only [Bool.and_eq_true, decide_eq_true_eq]; omega)]

theorem decodeUtf8_four (lower : 0xffff < n) (upper : n < 0x110000) :
    decodeUtf8 (UInt8.ofNat (n / 262144 % 0x08 + 0xf0) :: UInt8.ofNat (n / 4096 % 0x40 + 0x80) ::
      UInt8.ofNat (n / 64 % 0x40 + 0x80) :: UInt8.ofNat (n % 0x40 + 0x80) :: rest) =
      Char.ofNat n :: decodeUtf8 rest := by
  have first : (UInt8.ofNat (n / 262144 % 0x08 + 0xf0)).toNat = n / 262144 + 0xf0 := by
    rw [toNat_byte (by omega)]
    omega
  have second : (UInt8.ofNat (n / 4096 % 0x40 + 0x80)).toNat = n / 4096 % 0x40 + 0x80 :=
    toNat_byte (by omega)
  have third : (UInt8.ofNat (n / 64 % 0x40 + 0x80)).toNat = n / 64 % 0x40 + 0x80 :=
    toNat_byte (by omega)
  have fourth : (UInt8.ofNat (n % 0x40 + 0x80)).toNat = n % 0x40 + 0x80 := toNat_byte (by omega)
  have payload : ofPayload ((n / 262144 + 0xf0) % 8) [UInt8.ofNat (n / 4096 % 0x40 + 0x80),
      UInt8.ofNat (n / 64 % 0x40 + 0x80), UInt8.ofNat (n % 0x40 + 0x80)] = Char.ofNat n := by
    simp only [ofPayload, List.foldl_cons, List.foldl_nil, second, third, fourth]
    congr 1
    omega
  -- The bounds on the second byte keep out overlong forms and what lies beyond the last character.
  have follows : isSecondOfFour (UInt8.ofNat (n / 262144 % 0x08 + 0xf0))
      (UInt8.ofNat (n / 4096 % 0x40 + 0x80)) = true := by
    simp only [isSecondOfFour, isContinuation, ← UInt8.toNat_inj, UInt8.le_iff_toNat_le, first,
      second, UInt8.toNat_ofNat, Nat.reduceMod, Nat.reducePow]
    split
    · simp only [Bool.and_eq_true, decide_eq_true_eq]; omega
    · split <;> simp only [Bool.and_eq_true, decide_eq_true_eq] <;> omega
  rw [decodeUtf8.eq_def]
  simp only [UInt8.lt_iff_toNat_lt, UInt8.le_iff_toNat_le, first, UInt8.toNat_ofNat, Nat.reduceMod,
    Nat.reducePow, follows, isContinuation_byte (show n / 64 % 0x40 < 64 by omega),
    isContinuation_byte (show n % 0x40 < 64 by omega), if_true, payload]
  rw [if_neg (by omega), if_neg (by simp only [Bool.and_eq_true, decide_eq_true_eq]; omega),
    if_neg (by simp only [Bool.and_eq_true, decide_eq_true_eq]; omega),
    if_pos (by simp only [Bool.and_eq_true, decide_eq_true_eq]; omega)]

theorem decodeUtf8_encodeChar (c : Char) (rest : List UInt8) :
    decodeUtf8 (String.utf8EncodeChar c ++ rest) = c :: decodeUtf8 rest := by
  have valid : c.toNat < 0xD800 ∨ 0xDFFF < c.toNat ∧ c.toNat < 0x110000 := c.valid
  have same : Char.ofNat c.toNat = c := Char.ofNat_toNat c
  simp only [String.utf8EncodeChar, show c.val.toNat = c.toNat from rfl]
  split
  · next one => rw [List.cons_append, List.nil_append, decodeUtf8_one one, same]
  · split
    · next one two =>
      rw [List.cons_append, List.cons_append, List.nil_append, decodeUtf8_two (by omega) two, same]
    · split
      · next two three =>
        simp only [List.cons_append, List.nil_append]
        rw [decodeUtf8_three (by omega) three (by omega), same]
      · next three =>
        simp only [List.cons_append, List.nil_append]
        rw [decodeUtf8_four (by omega) (by omega), same]

/-- Decoding undoes encoding. -/
theorem decodeUtf8_encodeUtf8 (text : List Char) : decodeUtf8 (encodeUtf8 text) = text := by
  induction text with
  | nil => rfl
  | cons c rest induction =>
      rw [encodeUtf8, List.flatMap_cons, decodeUtf8_encodeChar]
      exact congrArg (c :: ·) induction

end Utf8

theorem hexDigit_lt {value : Nat} (small : value < 16) : (hexDigit value).toNat < 0x80 := by
  have all : ∀ value : Fin 16, (hexDigit value).toNat < 0x80 := by decide
  exact all ⟨value, small⟩

theorem hexValue?_hexDigit {value : Nat} (small : value < 16) :
    hexValue? (hexDigit value) = some value := by
  have all : ∀ value : Fin 16, hexValue? (hexDigit value) = some value.val := by decide
  exact all ⟨value, small⟩

theorem encodeChar_ascii {c : Char} (ascii : c.toNat < 0x80) :
    String.utf8EncodeChar c = [UInt8.ofNat c.toNat] := by
  have small : c.val.toNat ≤ 0x7f := Nat.le_of_lt_succ ascii
  rw [String.utf8EncodeChar, if_pos small]
  rfl

theorem byteChar_ascii {c : Char} (ascii : c.toNat < 0x80) :
    Char.ofNat (UInt8.ofNat c.toNat).toNat = c := by
  rw [toNat_byte (by omega)]
  exact Char.ofNat_toNat c

theorem encodeUtf8_append (front back : List Char) :
    encodeUtf8 (front ++ back) = encodeUtf8 front ++ encodeUtf8 back :=
  List.flatMap_append

theorem encodeUtf8_cons (c : Char) (rest : List Char) :
    encodeUtf8 (c :: rest) = String.utf8EncodeChar c ++ encodeUtf8 rest :=
  List.flatMap_cons

theorem percentDecode_escapeByte (byte : UInt8) (rest : List UInt8) :
    percentDecode (encodeUtf8 (escapeByte byte) ++ rest) = byte :: percentDecode rest := by
  have bound : byte.toNat < 256 := UInt8.toNat_lt_size byte
  have high : byte.toNat / 16 < 16 := by omega
  have low : byte.toNat % 16 < 16 := by omega
  have bytes : encodeUtf8 (escapeByte byte) =
      [0x25, UInt8.ofNat (hexDigit (byte.toNat / 16)).toNat,
        UInt8.ofNat (hexDigit (byte.toNat % 16)).toNat] := by
    simp only [escapeByte, encodeUtf8, List.flatMap_cons, List.flatMap_nil,
      encodeChar_ascii (hexDigit_lt high), encodeChar_ascii (hexDigit_lt low),
      encodeChar_ascii (show '%'.toNat < 0x80 by decide)]
    rfl
  have whole : byte.toNat / 16 * 16 + byte.toNat % 16 = byte.toNat := by omega
  rw [bytes, List.cons_append, List.cons_append, List.cons_append, List.nil_append, percentDecode]
  simp only [byteChar_ascii (hexDigit_lt high), byteChar_ascii (hexDigit_lt low),
    hexValue?_hexDigit high, hexValue?_hexDigit low, if_true, whole, UInt8.ofNat_toNat]

theorem percentDecode_escapedBytes (bytes rest : List UInt8) :
    percentDecode (encodeUtf8 (bytes.flatMap escapeByte) ++ rest) = bytes ++ percentDecode rest := by
  induction bytes with
  | nil => rfl
  | cons byte more induction =>
      rw [List.flatMap_cons, encodeUtf8_append, List.append_assoc, percentDecode_escapeByte,
        induction, List.cons_append]

theorem percentDecode_plain {byte : UInt8} (plain : byte ≠ 0x25) (rest : List UInt8) :
    percentDecode (byte :: rest) = byte :: percentDecode rest := by
  rw [percentDecode.eq_def]
  simp only [if_neg plain]

/-- A character that is not escaped is one byte, which is not that of `%`. -/
theorem percentDecode_unescaped {c : Char} (ascii : c.toNat < 0x80) (plain : c ≠ '%')
    (rest : List UInt8) :
    percentDecode (String.utf8EncodeChar c ++ rest) =
      String.utf8EncodeChar c ++ percentDecode rest := by
  have other : UInt8.ofNat c.toNat ≠ 0x25 := by
    intro same
    have code : c.toNat = 0x25 := by
      simpa [toNat_byte (show c.toNat < 256 by omega)] using congrArg UInt8.toNat same
    exact plain (by rw [← Char.ofNat_toNat c, code])
  rw [encodeChar_ascii ascii, List.cons_append, List.nil_append, percentDecode_plain other]
  rfl

theorem percentDecode_percentEncode {escaped : Char → Bool} (percent : escaped '%' = true)
    (text : List Char) (rest : List UInt8) :
    percentDecode (encodeUtf8 (percentEncode escaped text) ++ rest) =
      encodeUtf8 text ++ percentDecode rest := by
  induction text with
  | nil => rfl
  | cons c more induction =>
      rw [percentEncode, List.flatMap_cons, encodeUtf8_append, encodeUtf8_cons, List.append_assoc,
        List.append_assoc, ← induction, percentEncode]
      split
      · next kept =>
        simp only [Bool.and_eq_true, decide_eq_true_eq, Bool.not_eq_true'] at kept
        have plain : c ≠ '%' := by
          rintro rfl
          simp [percent] at kept
        rw [← percentDecode_unescaped kept.1 plain]
        simp [encodeUtf8]
      · rw [percentDecode_escapedBytes]

/-- Decoding undoes escaping. -/
theorem decode_percentEncode {escaped : Char → Bool} (percent : escaped '%' = true)
    (text : List Char) :
    decodeUtf8 (percentDecode (encodeUtf8 (percentEncode escaped text))) = text := by
  have decoded := percentDecode_percentEncode percent text []
  simp only [List.append_nil, percentDecode] at decoded
  rw [decoded, decodeUtf8_encodeUtf8]

theorem escapeByte_mem {c : Char} {byte : UInt8} (member : c ∈ escapeByte byte) :
    c = '%' ∨ c.isDigit = true ∨ c.isUpper = true := by
  have bound : byte.toNat < 256 := UInt8.toNat_lt_size byte
  have digits : ∀ value : Fin 16, (hexDigit value).isDigit = true ∨ (hexDigit value).isUpper = true := by
    decide
  simp only [escapeByte, List.mem_cons, List.not_mem_nil, or_false] at member
  rcases member with rfl | rfl | rfl
  · exact .inl rfl
  · exact .inr (digits ⟨byte.toNat / 16, by omega⟩)
  · exact .inr (digits ⟨byte.toNat % 16, by omega⟩)

/-- Escaped text holds the characters that may stand unescaped, `%` and hexadecimal digits. -/
theorem percentEncode_mem {escaped : Char → Bool} {c : Char} {text : List Char}
    (member : c ∈ percentEncode escaped text) :
    c.toNat < 0x80 ∧ escaped c = false ∨ c = '%' ∨ c.isDigit = true ∨ c.isUpper = true := by
  simp only [percentEncode, List.mem_flatMap] at member
  obtain ⟨d, _, found⟩ := member
  split at found
  · next kept =>
    simp only [List.mem_singleton] at found
    subst found
    simp only [Bool.and_eq_true, decide_eq_true_eq, Bool.not_eq_true'] at kept
    exact .inl kept
  · obtain ⟨byte, _, inside⟩ := List.mem_flatMap.mp found
    exact .inr (escapeByte_mem inside)

/-- Text in which every blank is escaped holds none. -/
theorem percentEncode_solid {escaped : Char → Bool} (blanks : ∀ code : Fin 128,
      escaped (Char.ofNat code) = false → isBlank (Char.ofNat code) = false) (text : List Char) :
    ∀ c ∈ percentEncode escaped text, isBlank c = false := by
  intro c member
  rcases percentEncode_mem member with ⟨small, kept⟩ | rfl | digit | upper
  · have found := blanks ⟨c.toNat, small⟩
    simp only [Char.ofNat_toNat] at found
    exact found kept
  · decide
  · exact isBlank_alphanum (isAlphanum_iff.mpr (.inr (.inr digit)))
  · exact isBlank_alphanum (isAlphanum_iff.mpr (.inl upper))

/-- An escaped character that no escape is made of does not stand in escaped text. -/
theorem not_mem_percentEncode {escaped : Char → Bool} {c : Char} (special : escaped c = true)
    (other : c ≠ '%' ∧ c.isDigit = false ∧ c.isUpper = false) (text : List Char) :
    c ∉ percentEncode escaped text := by
  intro member
  rcases percentEncode_mem member with ⟨_, kept⟩ | same | digit | upper
  · rw [special] at kept
    cases kept
  · exact other.1 same
  · rw [other.2.1] at digit
    cases digit
  · rw [other.2.2] at upper
    cases upper

end QueryNotation.Text
