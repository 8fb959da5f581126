import QueryNotation.Chain.Segment
import QueryNotation.Proofs.Chain.LiteralReader
import QueryNotation.Proofs.Json.Quoted

namespace QueryNotation.Chain

/-! # How deep arguments nest

The bound on brackets is that of the scan that finds the end of a call, and the call itself takes
one of them.  The readers of arguments have bounds of their own or none: what they read nests
no deeper because they pass strings and brackets as the scan does.
-/

open Text

variable {α : Type} {bound depth : Nat} {text rest : List Char} {value : Json}

@[simp]
theorem levels_null : levels .null = 0 := by
  simp [levels]

@[simp]
theorem levels_bool (truth : Bool) : levels (.bool truth) = 0 := by
  simp [levels]

@[simp]
theorem levels_number (number : Json.Number) : levels (.number number) = 0 := by
  simp [levels]

@[simp]
theorem levels_string (text : String) : levels (.string text) = 0 := by
  simp [levels]

theorem fieldLevels_insert (key : String) (value : Json) (row : Json.Row) :
    fieldLevels (Json.Row.insert key value row) ≤ max (levels value) (fieldLevels row) := by
  induction row with
  | nil => simp [Json.Row.insert, fieldLevels]
  | cons field more induction =>
      obtain ⟨other, held⟩ := field
      rw [Json.Row.insert]
      split
      · rw [fieldLevels, fieldLevels]
        omega
      · rw [fieldLevels, fieldLevels]
        omega

/-- A field that is set again nests no deeper than some value that it was given. -/
theorem fieldLevels_ofList (fields : List (String × Json)) :
    fieldLevels (Json.Row.ofList fields) ≤ fieldLevels fields := by
  have run (row : Json.Row) :
      fieldLevels (fields.foldl (fun row field => Json.Row.insert field.1 field.2 row) row) ≤
        max (fieldLevels row) (fieldLevels fields) := by
    induction fields generalizing row with
    | nil => exact Nat.le_max_left _ _
    | cons field more induction =>
        obtain ⟨key, value⟩ := field
        have first := fieldLevels_insert key value row
        refine (induction (Json.Row.insert key value row)).trans ?_
        rw [fieldLevels]
        omega
  have whole := run []
  rwa [fieldLevels, Nat.zero_max] at whole

theorem levels_array (items : List Json) : levels (.array items) = greatest levels items + 1 := by
  rw [levels, itemLevels_eq]
  rfl

theorem levels_object_le (fields : List (String × Json)) :
    levels (.object (Json.Row.ofList fields)) ≤ greatest (fun field => levels field.2) fields + 1 := by
  have low := fieldLevels_ofList fields
  rw [fieldLevels_eq fields] at low
  rw [levels]
  exact Nat.succ_le_succ low

theorem fits_skipSpaces (fits : Fits bound .outside depth text) :
    Fits bound .outside depth (skipSpaces text) :=
  fits.behind_dropWhile fun _ => Json.isFlat_space

section Strict

variable {readItem : List Char → Except Json.Failure (Json × List Char)} {count : Nat} {first : Bool}

theorem closesWithin_readItems (stays : StaysWithin levels readItem) :
    ClosesWithin (greatest levels) (Json.readItems readItem first count) := by
  induction count generalizing first with
  | zero =>
      intro bound depth text items rest fits read
      cases read
  | succ count induction =>
      intro bound depth text items rest fits read
      have spaced : Fits bound .outside (depth + 1) (Json.skipSpaces text) := fits_skipSpaces fits
      unfold Json.readItems at read
      dsimp only at read
      split at read
      · cases read
      · next left shape =>
        obtain ⟨rfl, rfl⟩ := Prod.mk.inj (Except.ok.inj read)
        rw [shape] at spaced
        exact ⟨greatest_nil_le levels, spaced.behind_closer rfl⟩
      · next left shape =>
        rw [shape] at spaced
        split at read
        · exact induction.behind_element (fun _ _ => stays spaced) read
        · have behind : Fits bound .outside (depth + 1) (Json.skipSpaces left) :=
            fits_skipSpaces (spaced.behind_flat ⟨rfl, rfl, rfl⟩)
          split at read
          · cases read
          · cases read
          · exact induction.behind_element (fun _ _ => stays behind) read
      · split at read
        · exact induction.behind_element (fun _ _ => stays spaced) read
        · cases read

theorem closesIn_readField (stays : StaysWithin levels readItem) {field : String × Json}
    (fits : Fits bound (.inside '"') depth text) (read : Json.readField readItem text = .ok (field, rest)) :
    levels field.2 ≤ bound - depth ∧ Fits bound .outside depth rest := by
  obtain ⟨⟨key, left⟩, named, read⟩ := ok_of_bind read
  have spaced : Fits bound .outside depth (Json.skipSpaces left) :=
    fits_skipSpaces (Json.fits_of_readString named fits)
  dsimp only at read
  split at read
  · cases read
  · next behind shape =>
    obtain ⟨⟨value, left⟩, held, read⟩ := ok_of_bind read
    obtain ⟨rfl, rfl⟩ := Prod.mk.inj (Except.ok.inj read)
    rw [shape] at spaced
    exact stays (spaced.behind_flat ⟨rfl, rfl, rfl⟩) held
  · cases read

theorem closesWithin_readFields (stays : StaysWithin levels readItem) :
    ClosesWithin (greatest fun field => levels field.2) (Json.readFields readItem first count) := by
  induction count generalizing first with
  | zero =>
      intro bound depth text fields rest fits read
      cases read
  | succ count induction =>
      intro bound depth text fields rest fits read
      have spaced : Fits bound .outside (depth + 1) (Json.skipSpaces text) := fits_skipSpaces fits
      unfold Json.readFields at read
      dsimp only at read
      split at read
      · cases read
      · next left shape =>
        obtain ⟨rfl, rfl⟩ := Prod.mk.inj (Except.ok.inj read)
        rw [shape] at spaced
        exact ⟨greatest_nil_le _, spaced.behind_closer rfl⟩
      · next left shape =>
        rw [shape] at spaced
        split at read
        · cases read
        · have behind : Fits bound .outside (depth + 1) (Json.skipSpaces left) :=
            fits_skipSpaces (spaced.behind_flat ⟨rfl, rfl, rfl⟩)
          split at read
          · cases read
          · cases read
          · next key shape =>
            rw [shape] at behind
            exact induction.behind_element (fun _ _ => closesIn_readField stays (behind.behind_quote rfl)) read
          · cases read
      · next key shape =>
        rw [shape] at spaced
        split at read
        · exact induction.behind_element (fun _ _ => closesIn_readField stays (spaced.behind_quote rfl)) read
        · cases read
      · split at read
        · cases read
        · cases read

theorem staysWithin_readScalar : StaysWithin levels Json.readScalar := by
  intro bound depth text value rest fits read
  have word {value result : Json} {letter : Char} {expected left : List Char}
      (fits : Fits bound .outside depth (letter :: left)) (flat : ∀ c ∈ letter :: expected, IsFlat c)
      (plain : levels value = 0) (read : Json.readWord value expected left = .ok (result, rest)) :
      levels result ≤ bound - depth ∧ Fits bound .outside depth rest := by
    obtain ⟨rfl, rfl⟩ := Json.text_of_readWord read
    exact ⟨by omega, fits.behind_append flat⟩
  unfold Json.readScalar at read
  split at read
  · cases read
  · exact word fits (by simp [IsFlat, isQuoteMark, isOpener, isCloser]) (by simp) read
  · exact word fits (by simp [IsFlat, isQuoteMark, isOpener, isCloser]) (by simp) read
  · exact word fits (by simp [IsFlat, isQuoteMark, isOpener, isCloser]) (by simp) read
  · obtain ⟨⟨inside, left⟩, string, same⟩ := ok_of_map read
    obtain ⟨rfl, rfl⟩ := Prod.mk.inj same
    rw [levels_string]
    exact ⟨Nat.zero_le _, Json.fits_of_readString string (fits.behind_quote rfl)⟩
  · split at read
    · obtain ⟨⟨found, left⟩, number, same⟩ := ok_of_map read
      obtain ⟨rfl, rfl⟩ := Prod.mk.inj same
      obtain ⟨written, shape, -, plain⟩ := readNumber_written number
      rw [shape] at fits
      rw [levels_number]
      exact ⟨Nat.zero_le _, fits.behind_append fun c member => isFlat_numberChar (plain c member)⟩
    · cases read

/-- A JSON value nests no deeper than the scan has room for at its place. -/
theorem staysWithin_readValue (count : Nat) : StaysWithin levels (Json.readValue count) := by
  induction count with
  | zero =>
      intro bound depth text value rest fits read
      have spaced : Fits bound .outside depth (Json.skipSpaces text) := fits_skipSpaces fits
      rw [Json.readValue] at read
      split at read
      · cases read
      · cases read
      · exact staysWithin_readScalar spaced read
  | succ count induction =>
      intro bound depth text value rest fits read
      have spaced : Fits bound .outside depth (Json.skipSpaces text) := fits_skipSpaces fits
      rw [Json.readValue] at read
      split at read
      · next left shape =>
        obtain ⟨⟨items, behind⟩, inside, same⟩ := ok_of_map read
        obtain ⟨rfl, rfl⟩ := Prod.mk.inj same
        rw [shape] at spaced
        rw [levels_array]
        exact (closesWithin_readItems induction).behind_opener spaced rfl inside
      · next left shape =>
        obtain ⟨⟨fields, behind⟩, inside, same⟩ := ok_of_map read
        obtain ⟨rfl, rfl⟩ := Prod.mk.inj same
        rw [shape] at spaced
        obtain ⟨low, fits⟩ := (closesWithin_readFields induction).behind_opener spaced rfl inside
        exact ⟨(levels_object_le fields).trans low, fits⟩
      · exact staysWithin_readScalar spaced read

end Strict

theorem levels_bracketedJson? (fits : Fits bound .outside 0 text) (read : bracketedJson? text = some value) :
    levels value ≤ bound := by
  have whole : Json.read text = .ok value := by
    unfold bracketedJson? at read
    split at read
    · exact ok_of_toOption read
    · exact ok_of_toOption read
    · cases read
  unfold Json.read at whole
  split at whole
  · cases whole
  · next found left here =>
    split at whole
    · obtain rfl := Except.ok.inj whole
      exact (staysWithin_readValue Json.greatestDepth fits here).1
    · cases whole

section Literals

variable {readElement : List Char → Except Stop (α × List Char)} {height : α → Nat}
  {readItem : List Char → Except Stop (Json × List Char)} {closer : Char}

theorem fits_readQuoted {mark : Char} {escaped : Bool} {found : List Char} (plain : mark ≠ '\\')
    (read : readQuoted mark escaped text = .ok (found, rest))
    (fits : Fits bound (if escaped then .escaped mark else .inside mark) depth text) :
    Fits bound .outside depth rest := by
  induction text generalizing escaped found with
  | nil => cases read
  | cons c more induction =>
      rw [readQuoted] at read
      cases escaped with
      | true =>
          obtain ⟨⟨inside, left⟩, behind, same⟩ := ok_of_map read
          obtain ⟨_, rfl⟩ := Prod.mk.inj same
          exact induction behind fits.behind_escaped
      | false =>
          have inside : Fits bound (.inside mark) depth (c :: more) := fits
          rw [if_neg Bool.false_ne_true] at read
          split at read
          · next backslash =>
            subst backslash
            exact induction read inside.behind_backslash
          · next other =>
            split at read
            · next same =>
              subst same
              obtain ⟨_, rfl⟩ := Prod.mk.inj (Except.ok.inj read)
              exact inside.behind_mark plain
            · next unmarked =>
              obtain ⟨⟨text, left⟩, behind, same⟩ := ok_of_map read
              obtain ⟨_, rfl⟩ := Prod.mk.inj same
              exact induction behind (inside.behind_plain ⟨unmarked, other⟩)

theorem ne_backslash_of_isQuoteMark {mark : Char} (quote : isQuoteMark mark = true) : mark ≠ '\\' := by
  rintro rfl
  cases quote

theorem isFlat_wordCharacter {c : Char} (plain : isWordCharacter c = true) : IsFlat c :=
  isFlat_of_class (by decide) plain

theorem fits_readWord {found : List Char} (fits : Fits bound .outside depth text)
    (read : readWord text = .ok (found, rest)) : Fits bound .outside depth rest := by
  unfold readWord at read
  split at read
  · cases read
  · obtain ⟨_, rfl⟩ := Prod.mk.inj (Except.ok.inj read)
    exact fits.behind_dropWhile fun _ => isFlat_wordCharacter

theorem levels_wordValue (word : String) : levels (wordValue word) = 0 := by
  unfold wordValue
  split <;> simp

theorem levels_numberValue (written : List Char) : levels (numberValue written) = 0 := by
  unfold numberValue
  split <;> simp

theorem fits_dropDigits (fits : Fits bound .outside depth text) :
    Fits bound .outside depth (text.dropWhile Char.isDigit) :=
  fits.behind_dropWhile fun _ digit => isFlat_numberChar (.inl digit)

theorem fits_takeFraction (fits : Fits bound .outside depth text) :
    Fits bound .outside depth (takeFraction text).2 := by
  rw [← takeFraction_append text] at fits
  exact fits.behind_append fun c member => isFlat_numberChar (takeFraction_chars text c member)

theorem fits_takeExponent (fits : Fits bound .outside depth text) :
    Fits bound .outside depth (takeExponent text).2 := by
  unfold takeExponent
  split
  · exact fits
  · split
    · next letter more exponent =>
      have flat : IsFlat letter := isFlat_numberChar (.inr (by simp [exponent]))
      have behind := fits.behind_flat flat
      dsimp only
      split
      · exact fits
      · split
        · exact fits_dropDigits (behind.behind_flat ⟨rfl, rfl, rfl⟩)
        · exact fits_dropDigits (behind.behind_flat ⟨rfl, rfl, rfl⟩)
        · exact fits_dropDigits behind
    · exact fits

theorem staysWithin_readDigits (sign : List Char) : StaysWithin levels (readDigits sign) := by
  intro bound depth text value rest fits read
  unfold readDigits at read
  split at read
  · cases read
  · obtain ⟨rfl, rfl⟩ := Prod.mk.inj (Except.ok.inj read)
    rw [levels_numberValue]
    exact ⟨Nat.zero_le _, fits_takeExponent (fits_takeFraction (fits_dropDigits fits))⟩

theorem staysWithin_readNumber : StaysWithin levels readNumber := by
  intro bound depth text value rest fits read
  cases text with
  | nil => cases read
  | cons c more =>
      by_cases minus : c = '-'
      · subst minus
        rw [readNumber_minus] at read
        exact staysWithin_readDigits ['-'] (fits.behind_flat ⟨rfl, rfl, rfl⟩) read
      · rw [readNumber_plain minus] at read
        exact staysWithin_readDigits [] fits read

theorem staysWithin_scalar : StaysWithin levels readScalar := by
  intro bound depth text value rest fits read
  unfold readScalar at read
  split at read
  · cases read
  · split at read
    · next quote =>
      obtain ⟨⟨inside, left⟩, string, same⟩ := ok_of_map read
      obtain ⟨rfl, rfl⟩ := Prod.mk.inj same
      rw [levels_string]
      exact ⟨Nat.zero_le _, fits_readQuoted (ne_backslash_of_isQuoteMark quote) string (fits.behind_quote quote)⟩
    · split at read
      · next found number =>
        obtain rfl := Except.ok.inj read
        exact staysWithin_readNumber fits number
      · obtain ⟨⟨word, left⟩, bare, same⟩ := ok_of_map read
        obtain ⟨rfl, rfl⟩ := Prod.mk.inj same
        rw [levels_wordValue]
        exact ⟨Nat.zero_le _, fits_readWord fits bare⟩

theorem fits_readKey {found : List Char} (fits : Fits bound .outside depth text)
    (read : readKey text = .ok (found, rest)) : Fits bound .outside depth rest := by
  unfold readKey at read
  split at read
  · cases read
  · split at read
    · next quote => exact fits_readQuoted (ne_backslash_of_isQuoteMark quote) read (fits.behind_quote quote)
    · exact fits_readWord fits read

theorem staysWithin_readField (stays : StaysWithin levels readItem) :
    StaysWithin (fun field => levels field.2) (readField readItem) := by
  intro bound depth text field rest fits read
  obtain ⟨⟨key, left⟩, named, read⟩ := ok_of_bind read
  have spaced := fits_skipSpaces (fits_readKey fits named)
  dsimp only at read
  split at read
  · next behind shape =>
    obtain ⟨⟨value, left⟩, held, read⟩ := ok_of_bind read
    obtain ⟨rfl, rfl⟩ := Prod.mk.inj (Except.ok.inj read)
    rw [shape] at spaced
    exact stays (fits_skipSpaces (spaced.behind_flat ⟨rfl, rfl, rfl⟩)) held
  · cases read

theorem staysWithin_readMore (stays : StaysWithin height readElement) (count : Nat) :
    StaysWithin (greatest height) (readMore readElement count) := by
  intro bound depth text elements rest fits read
  induction count generalizing text elements with
  | zero =>
      obtain ⟨rfl, rfl⟩ := Prod.mk.inj (Except.ok.inj read)
      exact ⟨greatest_nil_le height, fits⟩
  | succ count induction =>
      have spaced := fits_skipSpaces fits
      rw [readMore] at read
      split at read
      · next left shape =>
        rw [shape] at spaced
        have next := fits_skipSpaces (spaced.behind_flat ⟨rfl, rfl, rfl⟩)
        split at read
        · obtain ⟨rfl, rfl⟩ := Prod.mk.inj (Except.ok.inj read)
          exact ⟨greatest_nil_le height, fits⟩
        · cases read
        · next here =>
          obtain ⟨⟨others, behind⟩, further, same⟩ := ok_of_map read
          obtain ⟨rfl, rfl⟩ := Prod.mk.inj same
          obtain ⟨low, left⟩ := stays next here
          obtain ⟨lows, behind⟩ := induction left further
          exact ⟨greatest_cons_le low lows, behind⟩
      · obtain ⟨rfl, rfl⟩ := Prod.mk.inj (Except.ok.inj read)
        exact ⟨greatest_nil_le height, fits⟩

/-- Behind the elements of a list stand a comma or none and the closer. -/
theorem fits_closing {elements found : List α} (fits : Fits bound .outside (depth + 1) text)
    (closes : isCloser closer = true)
    (read : (match (match skipSpaces text with
        | ',' :: rest' => skipSpaces rest'
        | rest => rest) with
      | c :: rest' => if c = closer then pure (elements, rest') else throw Stop.absent
      | [] => throw Stop.absent) = (.ok (found, rest) : Except Stop (List α × List Char))) :
    elements = found ∧ Fits bound .outside depth rest := by
  have passed : Fits bound .outside (depth + 1) (match skipSpaces text with
      | ',' :: rest' => skipSpaces rest'
      | rest => rest) := by
    have spaced := fits_skipSpaces fits
    split
    · next shape =>
      rw [shape] at spaced
      exact fits_skipSpaces (spaced.behind_flat ⟨rfl, rfl, rfl⟩)
    · exact spaced
  split at read
  · next shape =>
    split at read
    · next same =>
      obtain ⟨rfl, rfl⟩ := Prod.mk.inj (Except.ok.inj read)
      rw [shape, same] at passed
      exact ⟨rfl, passed.behind_closer closes⟩
    · cases read
  · cases read

theorem closesWithin_readElements (stays : StaysWithin height readElement) (closes : isCloser closer = true) :
    ClosesWithin (greatest height) (readElements readElement closer) := by
  intro bound depth text elements rest fits read
  have spaced := fits_skipSpaces fits
  unfold readElements at read
  dsimp only at read
  split at read
  · obtain ⟨rfl, behind⟩ := fits_closing spaced closes read
    exact ⟨greatest_nil_le height, behind⟩
  · cases read
  · next here =>
    obtain ⟨⟨found, behind⟩, listed, read⟩ := ok_of_bind read
    obtain ⟨⟨others, left⟩, further, same⟩ := ok_of_map listed
    obtain ⟨rfl, rfl⟩ := Prod.mk.inj same
    obtain ⟨low, behind⟩ := stays spaced here
    obtain ⟨lows, left⟩ := staysWithin_readMore stays _ behind further
    obtain ⟨rfl, behind⟩ := fits_closing left closes read
    exact ⟨greatest_cons_le low lows, behind⟩

/-- A literal nests no deeper than the scan has room for at its place, whatever its own bound. -/
theorem staysWithin_readLiteral (count : Nat) : StaysWithin levels (readLiteral count) := by
  induction count with
  | zero =>
      intro bound depth text value rest fits read
      rw [readLiteral.eq_def] at read
      dsimp only at read
      split at read
      · cases read
      · cases read
      · exact staysWithin_scalar fits read
  | succ count induction =>
      intro bound depth text value rest fits read
      rw [readLiteral.eq_def] at read
      dsimp only at read
      split at read
      · obtain ⟨⟨items, behind⟩, inside, same⟩ := ok_of_map read
        obtain ⟨rfl, rfl⟩ := Prod.mk.inj same
        rw [levels_array]
        exact (closesWithin_readElements induction rfl).behind_opener fits rfl inside
      · obtain ⟨⟨fields, behind⟩, inside, same⟩ := ok_of_map read
        obtain ⟨rfl, rfl⟩ := Prod.mk.inj same
        have fieldStays := staysWithin_readField induction
        obtain ⟨low, behind⟩ := (closesWithin_readElements fieldStays rfl).behind_opener fits rfl inside
        exact ⟨(levels_object_le fields).trans low, behind⟩
      · exact staysWithin_scalar fits read

end Literals

theorem levels_literal? {count : Nat} (fits : Fits bound .outside 0 text)
    (read : literal? count text = some value) : levels value ≤ bound := by
  unfold literal? at read
  split at read
  · next found left here =>
    split at read
    · obtain rfl := Option.some.inj read
      exact (staysWithin_readLiteral count (fits_skipSpaces fits) here).1
    · cases read
  · cases read

theorem levels_argument_le (count : Nat) (fits : Fits bound .outside 0 text) :
    levels (argument count text) ≤ bound := by
  unfold argument
  dsimp only
  split
  · next strict => exact levels_bracketedJson? fits.trim strict
  · cases found : literal? count (trim text) with
    | none => simp
    | some value => exact levels_literal? fits.trim found

theorem levels_readArguments {whole : List Char} {values : List Json}
    (read : readArguments bound whole text = .ok (some values, rest)) :
    ∀ value ∈ values, levels value + 1 ≤ bound := by
  unfold readArguments at read
  split at read
  · obtain ⟨⟨bracket, behind⟩, closed, read⟩ := ok_of_bind read
    obtain ⟨found, cut, read⟩ := ok_of_bind read
    obtain ⟨same, -⟩ := Prod.mk.inj (Except.ok.inj read)
    obtain rfl := Option.some.inj same
    obtain ⟨lower, rfl, inside⟩ := fits_of_upToClose rfl (ok_of_mapError closed)
    have pieces := inside.splitTopLevel ⟨rfl, rfl, rfl⟩ (ok_of_mapError cut)
    intro value member
    obtain ⟨piece, listed, rfl⟩ := List.mem_map.mp member
    exact Nat.succ_le_succ (levels_argument_le _ (pieces piece listed))
  · cases read

/-- Every argument leaves room for the bracket of its call. -/
def Segment.IsWithin (bound : Nat) : Segment → Prop
  | .property _ => True
  | .call _ arguments => ∀ value ∈ arguments, levels value + 1 ≤ bound

theorem isWithin_readSegment {whole : List Char} {segment : Segment}
    (read : readSegment bound whole text = .ok (segment, rest)) : segment.IsWithin bound := by
  unfold readSegment at read
  dsimp only at read
  split at read
  · cases read
  · obtain ⟨left, _, read⟩ := ok_of_bind read
    obtain ⟨⟨arguments, behind⟩, given, read⟩ := ok_of_bind read
    obtain ⟨rfl, rfl⟩ := Prod.mk.inj (Except.ok.inj read)
    cases arguments with
    | none => trivial
    | some values => exact levels_readArguments given

theorem isWithin_readSegments {whole : List Char} {count : Nat} {found : List Segment}
    (read : readSegments bound whole count text = .ok found) : ∀ segment ∈ found, segment.IsWithin bound := by
  induction count generalizing text found with
  | zero => cases read
  | succ count induction =>
      obtain ⟨⟨segment, left⟩, here, read⟩ := ok_of_bind read
      have first := isWithin_readSegment here
      have behind {rest : List Char} (read : (readSegments bound whole count rest >>= fun more =>
          pure (segment :: more)) = .ok found) : ∀ segment ∈ found, segment.IsWithin bound := by
        obtain ⟨more, further, read⟩ := ok_of_bind read
        obtain rfl := Except.ok.inj read
        exact List.forall_mem_cons.mpr ⟨first, induction further⟩
      dsimp only at read
      split at read
      · obtain rfl := Except.ok.inj read
        exact List.forall_mem_singleton.mpr first
      · exact behind read
      · exact behind read
      · cases read

end QueryNotation.Chain
