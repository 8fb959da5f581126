import QueryNotation.Proofs.Json.Text
import QueryNotation.Proofs.Text.Fitting

namespace QueryNotation.Json

/-! # What a quoted string denotes

A character inside a string may stand as itself, behind a backslash as a letter that is agreed
on, or as the code units of UTF-16 in four hexadecimal digits each.  The reader gives back the
character whichever way it is written.

The reader of JSON takes a string to end where the scan does that knows of marks and
backslashes alone: behind a backslash both pass one character, and of the digits that the reader
takes along with it none is a mark or a backslash.
-/

/-- The letters that stand behind a backslash, with the characters that they denote. -/
def shortEscapes : List (Char × Char) :=
  [('"', '"'), ('\\', '\\'), ('/', '/'), ('b', '\x08'), ('f', '\x0c'), ('n', '\n'), ('r', '\r'),
    ('t', '\t')]

/-- A hexadecimal digit of either case and its value. -/
def IsHexDigit (c : Char) (value : Nat) : Prop :=
  value < 16 ∧ (c = Nat.digitChar value ∨ c = (Nat.digitChar value).toUpper)

instance (c : Char) (value : Nat) : Decidable (IsHexDigit c value) :=
  inferInstanceAs (Decidable (_ ∧ _))

/-- The four digits of a code unit. -/
def IsCodeUnit (unit : Nat) (digits : List Char) : Prop :=
  List.Forall₂ IsHexDigit digits [unit / 0x1000, unit / 0x100 % 0x10, unit / 0x10 % 0x10, unit % 0x10]

instance (unit : Nat) (digits : List Char) : Decidable (IsCodeUnit unit digits) :=
  inferInstanceAs (Decidable (List.Forall₂ _ _ _))

/-- The code units of a character in UTF-16. -/
def codeUnits (c : Char) : List Nat :=
  if c.toNat < 0x10000 then [c.toNat]
  else [0xD800 + (c.toNat - 0x10000) / 0x400, 0xDC00 + (c.toNat - 0x10000) % 0x400]

/-- What may stand for a character inside a string. -/
inductive StandsFor (c : Char) : List Char → Prop where
  | plain (printed : 0x20 ≤ c.toNat) (mark : c ≠ '"') (backslash : c ≠ '\\') : StandsFor c [c]
  | short {letter : Char} (listed : (letter, c) ∈ shortEscapes) : StandsFor c ['\\', letter]
  | unicode {units : List (List Char)} (each : List.Forall₂ IsCodeUnit (codeUnits c) units) :
    StandsFor c (units.flatMap fun digits => '\\' :: 'u' :: digits)

def quotedParts (parts : List (List Char)) : List Char :=
  '"' :: parts.flatten ++ ['"']

theorem hexValue?_append {front : List Char} {c : Char} {value digit : Nat}
    (before : hexValue? front = some value) (last : hexValue? [c] = some digit) :
    hexValue? (front ++ [c]) = some (value * 16 + digit) := by
  unfold hexValue? at *
  rw [List.foldl_append, before]
  rw [List.foldl_cons, List.foldl_nil] at last ⊢
  revert last
  generalize (if c.isDigit = true then some (c.toNat - 0x30) else _ : Option Nat) = digit?
  cases digit? with
  | none => exact fun last => nomatch last
  | some found => simp

theorem hexValue?_digit {c : Char} {value : Nat} (hex : IsHexDigit c value) : hexValue? [c] = some value := by
  have table : ∀ value < 16, hexValue? [Nat.digitChar value] = some value ∧
      hexValue? [(Nat.digitChar value).toUpper] = some value := by
    decide
  obtain ⟨small, rfl | rfl⟩ := hex
  · exact (table value small).1
  · exact (table value small).2

/-- The digits of a code unit are four, and the reader adds them up. -/
theorem IsCodeUnit.hexValue {unit : Nat} {digits : List Char} (code : IsCodeUnit unit digits) :
    ∃ a b c d, digits = [a, b, c, d] ∧ hexValue? [a, b, c, d] = some unit := by
  obtain ⟨_, _, first, three, rfl⟩ := List.forall₂_cons_right_iff.mp code
  obtain ⟨_, _, second, two, rfl⟩ := List.forall₂_cons_right_iff.mp three
  obtain ⟨_, _, third, one, rfl⟩ := List.forall₂_cons_right_iff.mp two
  obtain ⟨_, _, fourth, none, rfl⟩ := List.forall₂_cons_right_iff.mp one
  obtain rfl := List.forall₂_nil_right_iff.mp none
  have high := hexValue?_append (hexValue?_digit first) (hexValue?_digit second)
  have most := hexValue?_append high (hexValue?_digit third)
  have value := hexValue?_append most (hexValue?_digit fourth)
  have whole : ((unit / 0x1000 * 16 + unit / 0x100 % 0x10) * 16 + unit / 0x10 % 0x10) * 16 + unit % 0x10 =
      unit := by
    omega
  rw [whole] at value
  exact ⟨_, _, _, _, rfl, value⟩

/-- Two surrogates denote a character together. -/
theorem readEscape_pair {a b c d e f g h : Char} {high low : Nat} (first : hexValue? [a, b, c, d] = some high)
    (second : hexValue? [e, f, g, h] = some low) (leads : 0xD800 ≤ high ∧ high ≤ 0xDBFF)
    (trails : 0xDC00 ≤ low ∧ low ≤ 0xDFFF) (rest : List Char) :
    readEscape ('u' :: a :: b :: c :: d :: '\\' :: 'u' :: e :: f :: g :: h :: rest) =
      .ok (Char.ofNat (0x10000 + (high - 0xD800) * 0x400 + (low - 0xDC00)), 11) := by
  have alone : isTrailingSurrogate high = false := by
    simp only [isTrailingSurrogate, Bool.and_eq_false_iff, decide_eq_false_iff_not]
    omega
  have leading : isLeadingSurrogate high = true := by
    simp [isLeadingSurrogate, leads]
  have trailing : isTrailingSurrogate low = true := by
    simp [isTrailingSurrogate, trails]
  rw [readEscape, readUnicodeEscape, readCodeUnit_four first]
  simp [ok_bind, alone, leading, trailing, readCodeUnit_four second, Except.map]

theorem readString_escaped {c : Char} {text skipped rest : List Char}
    (denotes : readEscape text = .ok (c, skipped.length)) (split : text = skipped ++ rest) :
    readString 0 ('\\' :: text) = (readString 0 rest).map fun (found, rest') => (c :: found, rest') := by
  have passed : ∀ skipped : List Char, readString skipped.length (skipped ++ rest) = readString 0 rest := by
    intro skipped
    induction skipped with
    | nil => rfl
    | cons first more induction => exact induction
  rw [readString, if_neg (by decide), if_pos rfl, denotes]
  simp only [split, passed]

theorem toNat_scalar (c : Char) : c.toNat < 0xD800 ∨ 0xDFFF < c.toNat ∧ c.toNat < 0x110000 :=
  c.valid

/-- A character is read from whatever stands for it. -/
theorem readString_standsFor {c : Char} {part : List Char} (stands : StandsFor c part) (rest : List Char) :
    readString 0 (part ++ rest) = (readString 0 rest).map fun (text, rest') => (c :: text, rest') := by
  cases stands with
  | plain printed mark backslash =>
      rw [List.singleton_append, readString, if_neg mark, if_neg backslash, if_neg (Nat.not_lt.mpr printed)]
  | @short letter listed =>
      simp only [shortEscapes, List.mem_cons, List.not_mem_nil, or_false, Prod.mk.injEq] at listed
      rcases listed with ⟨rfl, rfl⟩ | ⟨rfl, rfl⟩ | ⟨rfl, rfl⟩ | ⟨rfl, rfl⟩ | ⟨rfl, rfl⟩ | ⟨rfl, rfl⟩ |
        ⟨rfl, rfl⟩ | ⟨rfl, rfl⟩ <;> rfl
  | unicode each =>
      unfold codeUnits at each
      split at each
      · next small =>
        obtain ⟨_, _, code, none, rfl⟩ := List.forall₂_cons_left_iff.mp each
        obtain rfl := List.forall₂_nil_left_iff.mp none
        obtain ⟨w, x, y, z, rfl, hex⟩ := code.hexValue
        have denotes := readEscape_unit hex ((toNat_scalar c).imp_right And.left) rest
        rw [Char.ofNat_toNat] at denotes
        exact @readString_escaped c _ ['u', w, x, y, z] rest denotes rfl
      · next large =>
        obtain ⟨_, _, high, more, rfl⟩ := List.forall₂_cons_left_iff.mp each
        obtain ⟨_, _, low, none, rfl⟩ := List.forall₂_cons_left_iff.mp more
        obtain rfl := List.forall₂_nil_left_iff.mp none
        obtain ⟨a, b, d, e, rfl, first⟩ := high.hexValue
        obtain ⟨f, g, h, i, rfl, second⟩ := low.hexValue
        have whole := toNat_scalar c
        have denotes := readEscape_pair first second (by omega) (by omega) rest
        have same : 0x10000 + (0xD800 + (c.toNat - 0x10000) / 0x400 - 0xD800) * 0x400 +
            (0xDC00 + (c.toNat - 0x10000) % 0x400 - 0xDC00) = c.toNat := by
          omega
        rw [same, Char.ofNat_toNat] at denotes
        exact @readString_escaped c _ ['u', a, b, d, e, '\\', 'u', f, g, h, i] rest denotes rfl

/-- A string is read from whatever stands for its characters. -/
theorem readString_parts {text : List Char} {parts : List (List Char)}
    (spelled : List.Forall₂ StandsFor text parts) (rest : List Char) :
    readString 0 (parts.flatten ++ '"' :: rest) = .ok (text, rest) := by
  induction spelled with
  | nil => rfl
  | @cons c part text parts here _ induction =>
      rw [List.flatten_cons, List.append_assoc, readString_standsFor here, induction]
      rfl

/-- A quoted string in brackets is read as an array that holds the string. -/
theorem read_bracketed {text : List Char} {parts : List (List Char)}
    (spelled : List.Forall₂ StandsFor text parts) :
    read ('[' :: quotedParts parts ++ [']']) = .ok (.array [.string (String.ofList text)]) := by
  have item : readValue 126 ('"' :: (parts.flatten ++ ['"', ']'])) =
      .ok (.string (String.ofList text), [']']) := by
    rw [readValue_scalar (by decide) (by decide) (by decide), readScalar, readString_parts spelled]
    rfl
  have whole : '[' :: quotedParts parts ++ [']'] = '[' :: '"' :: (parts.flatten ++ ['"', ']']) := by
    simp [quotedParts]
  have array : readValue greatestDepth ('[' :: '"' :: (parts.flatten ++ ['"', ']'])) =
      .ok (.array [.string (String.ofList text)], []) := by
    change readArray (readValue 126) ('"' :: (parts.flatten ++ ['"', ']'])) = _
    rw [readArray, readItems_first (by decide) (by decide), item]
    rfl
  rw [whole, read, array]
  rfl

open Text

variable {bound depth length : Nat} {c : Char} {text rest found : List Char}

theorem hexValue?_of_append {front : List Char} {value : Nat} (read : hexValue? (front ++ [c]) = some value) :
    (∃ before, hexValue? front = some before) ∧ ∃ digit, hexValue? [c] = some digit := by
  unfold hexValue? at *
  rw [List.foldl_append, List.foldl_cons, List.foldl_nil] at read
  rw [List.foldl_cons, List.foldl_nil]
  revert read
  generalize (if c.isDigit = true then some (c.toNat - 0x30) else _ : Option Nat) = digit?
  generalize front.foldl _ _ = before?
  cases before? <;> cases digit? <;> simp

/-- No hexadecimal digit ends a string or begins an escape. -/
theorem plain_of_hexValue? {value : Nat} (read : hexValue? text = some value) :
    ∀ c ∈ text, c ≠ '"' ∧ c ≠ '\\' := by
  induction text using List.reverseRecOn generalizing value with
  | nil => exact List.forall_mem_nil _
  | append_singleton front last induction =>
      obtain ⟨⟨before, front⟩, digit, hex⟩ := hexValue?_of_append read
      intro c member
      rcases List.mem_append.mp member with inside | here
      · exact induction front c inside
      · obtain rfl := List.mem_singleton.mp here
        constructor <;> rintro rfl <;> cases hex

theorem fits_of_readCodeUnit {unit : Nat} (read : readCodeUnit text = .ok unit)
    (fits : Fits bound (.inside '"') depth text) : Fits bound (.inside '"') depth (text.drop 4) := by
  unfold readCodeUnit at read
  split at read
  · cases read
  · split at read
    · next first second third fourth left _ =>
      split at read
      · next value hex =>
        have whole : Fits bound (.inside '"') depth ([first, second, third, fourth] ++ left) := fits
        exact whole.behind_plains (plain_of_hexValue? hex)
      · cases read
    · cases read

theorem fits_of_readUnicodeEscape (read : readUnicodeEscape text = .ok (c, length))
    (fits : Fits bound (.inside '"') depth text) : Fits bound (.inside '"') depth (text.drop length) := by
  obtain ⟨unit, first, read⟩ := ok_of_bind read
  have behind := fits_of_readCodeUnit first fits
  dsimp only at read
  split at read
  · cases read
  · split at read
    · obtain ⟨_, rfl⟩ := Prod.mk.inj (Except.ok.inj read)
      exact behind
    · split at read
      · cases read
      · cases read
      · next rest shape =>
        obtain ⟨second, last, read⟩ := ok_of_bind read
        split at read
        · obtain ⟨_, rfl⟩ := Prod.mk.inj (Except.ok.inj read)
          rw [shape] at behind
          have pair := fits_of_readCodeUnit last behind.behind_backslash.behind_escaped
          have whole : text.drop 10 = rest.drop 4 := by
            rw [show 10 = 4 + 6 from rfl, ← List.drop_drop, shape]
            rfl
          rwa [whole]
        · cases read
      · cases read
      · cases read

theorem fits_of_readEscape (read : readEscape text = .ok (c, length))
    (fits : Fits bound (.escaped '"') depth text) : Fits bound (.inside '"') depth (text.drop length) := by
  unfold readEscape at read
  split at read
  case h_1 | h_11 => cases read
  case h_10 rest =>
    obtain ⟨⟨denoted, taken⟩, unicode, same⟩ := ok_of_map read
    obtain ⟨_, rfl⟩ := Prod.mk.inj same
    rw [List.drop_succ_cons]
    exact fits_of_readUnicodeEscape unicode fits.behind_escaped
  all_goals
    obtain ⟨_, rfl⟩ := Prod.mk.inj (Except.ok.inj read)
    exact fits.behind_escaped

/-- Behind a string the text fits as in front of it. -/
theorem fits_of_readString (read : readString length text = .ok (found, rest))
    (fits : Fits bound (.inside '"') depth (text.drop length)) : Fits bound .outside depth rest := by
  induction text generalizing length found with
  | nil => cases read
  | cons c more induction =>
      cases length with
      | succ length => exact induction read fits
      | zero =>
          rw [readString] at read
          rw [List.drop_zero] at fits
          split at read
          · next mark =>
            subst mark
            obtain ⟨_, rfl⟩ := Prod.mk.inj (Except.ok.inj read)
            exact fits.behind_mark (by decide)
          · next other =>
            split at read
            · next backslash =>
              subst backslash
              split at read
              · cases read
              · next escaped taken escape =>
                obtain ⟨⟨inside, left⟩, behind, same⟩ := ok_of_map read
                obtain ⟨_, rfl⟩ := Prod.mk.inj same
                exact induction behind (fits_of_readEscape escape fits.behind_backslash)
            · next plain =>
              split at read
              · cases read
              · obtain ⟨⟨inside, left⟩, behind, same⟩ := ok_of_map read
                obtain ⟨_, rfl⟩ := Prod.mk.inj same
                exact induction behind (fits.behind_plain ⟨other, plain⟩)

theorem text_of_readWord {α : Type} {value result : α} {expected : List Char}
    (read : readWord value expected text = .ok (result, rest)) : result = value ∧ text = expected ++ rest := by
  induction expected generalizing text with
  | nil =>
      obtain ⟨rfl, rfl⟩ := Prod.mk.inj (Except.ok.inj read)
      exact ⟨rfl, rfl⟩
  | cons c more induction =>
      cases text with
      | nil => cases read
      | cons d left =>
          rw [readWord] at read
          split at read
          · next same =>
            obtain ⟨value, rfl⟩ := induction read
            exact ⟨value, by rw [same]; rfl⟩
          · cases read

theorem isFlat_space (space : isSpace c = true) : IsFlat c :=
  isFlat_of_class (by decide) space

end QueryNotation.Json
