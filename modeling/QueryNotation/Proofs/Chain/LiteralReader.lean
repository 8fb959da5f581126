import Mathlib.Data.List.MinMax
import QueryNotation.Proofs.Chain.Literal
import QueryNotation.Proofs.Text.Cut

namespace QueryNotation.Chain

/-! # Reading back literals

The reader of literals gives back the value that a literal was written for, from the front
of any text that ends the literal.
-/

open Text

variable {α : Type} {bound : Nat} {value : Json} {text rest : List Char}

/-- No character of a bare word stands in front. -/
def EndsWord (text : List Char) : Prop :=
  ∀ c ∈ text.head?, isWordCharacter c = false

/-- The end of a text or a character that stands behind literals. -/
def EndsLiteral (text : List Char) : Prop :=
  ∀ c ∈ text.head?, c ∈ [',', ' ', ']', '}']

theorem EndsLiteral.nil : EndsLiteral [] := by
  intro c first
  cases first

theorem EndsLiteral.cons {c : Char} (closing : c ∈ [',', ' ', ']', '}']) :
    EndsLiteral (c :: rest) := by
  intro d member
  obtain rfl := Option.some.inj member
  exact closing

theorem EndsLiteral.endsWord (ends : EndsLiteral rest) : EndsWord rest := by
  intro c member
  have closing := ends c member
  simp only [List.mem_cons, List.not_mem_nil, or_false] at closing
  rcases closing with rfl | rfl | rfl | rfl <;> decide

theorem EndsLiteral.endsNumber (ends : EndsLiteral rest) : Json.EndsNumber rest := by
  intro c member
  have closing := ends c member
  simp only [List.mem_cons, List.not_mem_nil, or_false] at closing
  rcases closing with rfl | rfl | rfl | rfl <;> decide

theorem isWordCharacter_name {c : Char} (name : isNameCharacter c = true) :
    isWordCharacter c = true := by
  simp only [isNameCharacter, Bool.or_eq_true] at name
  simp only [isWordCharacter, Bool.or_eq_true]
  exact name.imp_left (.imp_left isLetterOrNumeral_of_isAlphanum)

theorem readWord_append {word : List Char} (full : word ≠ [])
    (plain : ∀ c ∈ word, isWordCharacter c = true) (ends : EndsWord rest) :
    readWord (word ++ rest) = .ok (word, rest) := by
  rw [readWord, takeWhile_append_stop plain ends, dropWhile_append_stop plain ends]
  cases word with
  | nil => exact absurd rfl full
  | cons c more => rfl

theorem readWord_absent (ends : EndsWord text) : readWord text = .error .absent := by
  have none : ([] ++ text).takeWhile isWordCharacter = [] := takeWhile_append_stop (List.forall_mem_nil _) ends
  rw [List.nil_append] at none
  rw [readWord, none]

theorem readNumber_absent {c : Char} (letter : c.isDigit = false) (unsigned : c ≠ '-') :
    readNumber (c :: rest) = .error .absent := by
  unfold readNumber
  split
  next sign digits signs =>
  split at signs
  · next same => exact absurd (List.cons.inj same).1 unsigned
  · obtain ⟨rfl, rfl⟩ := Prod.mk.inj signs
    rw [List.takeWhile_cons, letter]
    rfl

theorem readScalar_other {c : Char} (unquoted : isQuoteMark c = false) (letter : c.isDigit = false)
    (unsigned : c ≠ '-') :
    readScalar (c :: rest) =
      (readWord (c :: rest)).map fun (word, rest') => (wordValue (String.ofList word), rest') := by
  rw [readScalar, if_neg (by simp [unquoted]), readNumber_absent letter unsigned]

theorem readScalar_word {c : Char} {word : List Char} (unquoted : isQuoteMark c = false)
    (letter : c.isDigit = false) (unsigned : c ≠ '-')
    (plain : ∀ d ∈ c :: word, isWordCharacter d = true) (ends : EndsWord rest) :
    readScalar (c :: word ++ rest) = .ok (wordValue (String.ofList (c :: word)), rest) := by
  have found := readWord_append (List.cons_ne_nil c word) plain ends
  rw [List.cons_append] at found ⊢
  rw [readScalar_other unquoted letter unsigned, found]
  rfl

theorem readScalar_string (text : String) (rest : List Char) :
    readScalar ((stringLiteral text).toList ++ rest) = .ok (.string text, rest) := by
  rw [toList_stringLiteral, List.cons_append, List.append_assoc, List.singleton_append, readScalar,
    if_pos (by decide), readQuoted_body]
  simp [Except.map]

theorem readScalar_number {value : Json.Number} (stable : Json.Number.ofText? value.chars = some value)
    (ends : EndsLiteral rest) : readScalar (value.chars ++ rest) = .ok (.number value, rest) := by
  have found := readNumber_chars stable ends.endsNumber
  have plain := number_chars stable
  obtain ⟨_, c, more, shape, _⟩ := Json.ofText?_eq_some stable
  rw [shape] at found plain ⊢
  rw [List.cons_append] at found ⊢
  rw [readScalar, if_neg (by simp [(isFlat_numberChar (plain c (by simp))).1]), found]

theorem readLiteral_scalar {c : Char} (array : c ≠ '[') (object : c ≠ '{') :
    readLiteral bound (c :: rest) = readScalar (c :: rest) := by
  cases bound with
  | zero =>
      rw [readLiteral]
      · exact fun _ same => array (List.cons.inj same).1
      · exact fun _ same => object (List.cons.inj same).1
  | succ bound =>
      rw [readLiteral]
      · exact fun _ same => array (List.cons.inj same).1
      · exact fun _ same => object (List.cons.inj same).1

/-- No literal begins with the closing bracket of a list. -/
theorem readLiteral_closer {c : Char} (closing : c ∈ [']', '}']) :
    readLiteral bound (c :: rest) = .error .absent := by
  have ends : EndsWord (c :: rest) := by
    refine (EndsLiteral.cons ?_).endsWord
    simp only [List.mem_cons, List.not_mem_nil, or_false] at closing ⊢
    exact .inr (.inr closing)
  simp only [List.mem_cons, List.not_mem_nil, or_false] at closing
  rcases closing with rfl | rfl
  · rw [readLiteral_scalar (by decide) (by decide), readScalar_other (by decide) (by decide) (by decide),
      readWord_absent ends]
    rfl
  · rw [readLiteral_scalar (by decide) (by decide), readScalar_other (by decide) (by decide) (by decide),
      readWord_absent ends]
    rfl

section Elements

variable {readElement : List Char → Except Stop (α × List Char)} {chars : α → List Char}
  {element : α} {elements : List α} {pad : List Char} {closer : Char}

/-- A reader gives back an element from the front of a text that ends it. -/
def ReadsElement (readElement : List Char → Except Stop (α × List Char)) (chars : α → List Char)
    (element : α) : Prop :=
  ∀ rest, EndsLiteral rest → readElement (chars element ++ rest) = .ok (element, rest)

/-- Further parts of a list, each behind a comma and a space. -/
def behind (parts : List (List Char)) : List Char :=
  parts.flatMap fun part => ',' :: ' ' :: part

theorem listed_cons (part : List Char) (more : List (List Char)) :
    listed (part :: more) = part ++ behind more := by
  induction more generalizing part with
  | nil => rw [listed, List.intercalate_singleton, behind, List.flatMap_nil, List.append_nil]
  | cons next rest induction =>
      rw [listed_cons_cons, induction, behind, behind, List.flatMap_cons]
      rfl

theorem isSpace_solid {c : Char} (solid : isBlank c = false) : Json.isSpace c = false := by
  cases space : Json.isSpace c with
  | false => rfl
  | true =>
      simp only [Json.isSpace, Bool.or_eq_true, beq_iff_eq] at space
      rcases space with ((rfl | rfl) | rfl) | rfl <;> exact absurd solid (by decide)

theorem skipSpaces_solid {c : Char} (solid : isBlank c = false) :
    skipSpaces (c :: rest) = c :: rest := by
  rw [skipSpaces, List.dropWhile_cons, if_neg (by simp [isSpace_solid solid])]

theorem skipSpaces_begins (begins : Begins text) : skipSpaces text = text := by
  obtain ⟨c, more, rfl, solid, _⟩ := begins
  exact skipSpaces_solid solid

theorem skipSpaces_pad (padded : pad = [] ∨ pad = [' ']) {c : Char} (solid : isBlank c = false) :
    skipSpaces (pad ++ c :: rest) = c :: rest := by
  rcases padded with rfl | rfl
  · exact skipSpaces_solid solid
  · exact skipSpaces_solid solid

theorem endsLiteral_behind (parts : List (List Char)) (ends : EndsLiteral rest) :
    EndsLiteral (behind parts ++ rest) := by
  cases parts with
  | nil => exact ends
  | cons part more => exact .cons (by simp)

theorem endsLiteral_pad (padded : pad = [] ∨ pad = [' ']) (closing : closer ∈ [']', '}'])
    (rest : List Char) :
    EndsLiteral (pad ++ closer :: rest) := by
  rcases padded with rfl | rfl
  · refine .cons ?_
    simp only [List.mem_cons, List.not_mem_nil, or_false] at closing ⊢
    exact .inr (.inr closing)
  · exact .cons (by simp)

theorem solid_closer (closing : closer ∈ [']', '}']) : isBlank closer = false ∧ closer ≠ ',' := by
  simp only [List.mem_cons, List.not_mem_nil, or_false] at closing
  rcases closing with rfl | rfl <;> decide

theorem readMore_behind (reads : ∀ element ∈ elements, ReadsElement readElement chars element)
    (begins : ∀ element ∈ elements, Begins (chars element)) (room : elements.length ≤ bound)
    (padded : pad = [] ∨ pad = [' ']) (closing : closer ∈ [']', '}']) (rest : List Char) :
    readMore readElement bound (behind (elements.map chars) ++ (pad ++ closer :: rest)) =
      .ok (elements, pad ++ closer :: rest) := by
  obtain ⟨solid, other⟩ := solid_closer closing
  induction elements generalizing bound with
  | nil =>
      cases bound with
      | zero => rfl
      | succ bound =>
          unfold readMore
          rw [List.map_nil, behind, List.flatMap_nil, List.nil_append, skipSpaces_pad padded solid]
          split
          · next same => exact absurd (List.cons.inj same).1 other
          · rfl
  | cons element more induction =>
      cases bound with
      | zero => exact absurd room (by simp)
      | succ bound =>
          have ends := endsLiteral_behind (more.map chars) (endsLiteral_pad padded closing rest)
          have found := reads element (by simp) _ ends
          have first := (begins element (by simp)).append
            (behind (more.map chars) ++ (pad ++ closer :: rest))
          have others := induction (fun other member => reads other (by simp [member]))
            (fun other member => begins other (by simp [member])) (Nat.le_of_succ_le_succ room)
          -- In front of the next element stand a comma and a space, which is skipped.
          have shape : behind ((element :: more).map chars) ++ (pad ++ closer :: rest) =
              ',' :: ' ' :: (chars element ++ (behind (more.map chars) ++ (pad ++ closer :: rest))) := by
            simp [behind]
          have skipped : skipSpaces (' ' :: (chars element ++ (behind (more.map chars) ++ (pad ++ closer :: rest)))) =
              chars element ++ (behind (more.map chars) ++ (pad ++ closer :: rest)) :=
            skipSpaces_begins first
          rw [shape, readMore, skipSpaces_solid (by decide)]
          simp only [skipped, found, others]
          rfl

theorem length_le_behind (parts : List (List Char)) : parts.length ≤ (behind parts).length := by
  induction parts with
  | nil => exact Nat.le_refl 0
  | cons part more induction =>
      rw [behind, List.flatMap_cons, ← behind, List.length_append, List.length_cons, List.length_cons,
        List.length_cons]
      omega

/-- The closing bracket stands behind the elements, and no comma in front of it. -/
theorem closed_elements (closing : closer ∈ [']', '}']) :
    (match (match closer :: rest with
        | ',' :: rest' => skipSpaces rest'
        | rest => rest) with
      | c :: rest' => if c = closer then pure (elements, rest') else throw Stop.absent
      | [] => throw Stop.absent) = (.ok (elements, rest) : Except Stop (List α × List Char)) := by
  have other := (solid_closer closing).2
  split
  · next c rest' same =>
    split at same
    · next comma => exact absurd (List.cons.inj comma).1 other
    · obtain ⟨rfl, rfl⟩ := List.cons.inj same
      rw [if_pos rfl]
      rfl
  · next same =>
    split at same
    · next comma => exact absurd (List.cons.inj comma).1 other
    · cases same

/-- A list ends where its closing bracket stands behind its elements. -/
theorem readElements_closed (padded : pad = [] ∨ pad = [' ']) (closing : closer ∈ [']', '}'])
    (found : readElement (skipSpaces text) = .error .absent ∧ elements = [] ∧
        skipSpaces text = pad ++ closer :: rest ∨
      ∃ first more behind, readElement (skipSpaces text) = .ok (first, behind) ∧
        readMore readElement behind.length behind = .ok (more, pad ++ closer :: rest) ∧
        elements = first :: more) :
    readElements readElement closer text = .ok (elements, rest) := by
  have solid := (solid_closer closing).1
  unfold readElements
  rcases found with ⟨absent, rfl, stays⟩ | ⟨first, more, behind, here, others, rfl⟩
  · rw [stays] at absent
    simp only [stays, absent, pure_bind, skipSpaces_pad padded solid]
    exact closed_elements closing
  · simp only [here, others, Except.map, ok_bind, skipSpaces_pad padded solid]
    exact closed_elements closing

/-- The elements of a list are read back up to its closing bracket. -/
theorem readElements_listed (pad : List Char)
    (reads : ∀ other ∈ element :: elements, ReadsElement readElement chars other)
    (begins : ∀ other ∈ element :: elements, Begins (chars other))
    (padded : pad = [] ∨ pad = [' ']) (closing : closer ∈ [']', '}']) (rest : List Char) :
    readElements readElement closer
        (pad ++ (listed ((element :: elements).map chars) ++ (pad ++ closer :: rest))) =
      .ok (element :: elements, rest) := by
  have room : elements.length ≤ (behind (elements.map chars) ++ (pad ++ closer :: rest)).length := by
    have short := length_le_behind (elements.map chars)
    rw [List.length_map] at short
    rw [List.length_append]
    omega
  have more := readMore_behind (fun other member => reads other (by simp [member]))
    (fun other member => begins other (by simp [member])) room padded closing rest
  have ends := endsLiteral_behind (elements.map chars) (endsLiteral_pad padded closing rest)
  have first := (begins element (by simp)).append
    (behind (elements.map chars) ++ (pad ++ closer :: rest))
  have skipped : skipSpaces (pad ++ (chars element ++ (behind (elements.map chars) ++ (pad ++ closer :: rest)))) =
      chars element ++ (behind (elements.map chars) ++ (pad ++ closer :: rest)) := by
    rcases padded with rfl | rfl <;> exact skipSpaces_begins first
  rw [List.map_cons, listed_cons, List.append_assoc]
  refine readElements_closed padded closing (.inr ⟨element, elements, _, ?_, more, rfl⟩)
  rw [skipped]
  exact reads element (by simp) _ ends

theorem readElements_empty (absent : readElement (closer :: rest) = .error .absent)
    (closing : closer ∈ [']', '}']) :
    readElements readElement closer (closer :: rest) = .ok ([], rest) := by
  have stays : skipSpaces (closer :: rest) = closer :: rest := skipSpaces_solid (solid_closer closing).1
  refine readElements_closed (.inl rfl) closing (.inl ⟨?_, rfl, stays⟩)
  rw [stays]
  exact absent

end Elements

theorem endsWord_colon (rest : List Char) : EndsWord (':' :: rest) := by
  intro c member
  obtain rfl := Option.some.inj member
  decide

theorem readKey_keyLiteral (key : String) (rest : List Char) :
    readKey ((keyLiteral key).toList ++ ':' :: rest) = .ok (key.toList, ':' :: rest) := by
  rcases keyLiteral_cases key with same | ⟨plain, same⟩
  · rw [same, toList_stringLiteral, List.cons_append, List.append_assoc, List.singleton_append, readKey,
      if_pos (by decide), readQuoted_body]
  · obtain ⟨first, more, shape, _, name⟩ := name_of_isPlainKey plain
    have unquoted := (isFlat_nameCharacter (name first (by simp [shape]))).1.1
    have found := readWord_append (by simp [shape]) (fun c member => isWordCharacter_name (name c member))
      (endsWord_colon rest)
    rw [same]
    rw [shape] at found ⊢
    rw [List.cons_append] at found ⊢
    rw [readKey, if_neg (by simp [unquoted]), found]

theorem readField_chars {readItem : List Char → Except Stop (Json × List Char)}
    (reads : ReadsElement readItem literalChars value) (begins : Begins (literalChars value))
    (key : String) : ReadsElement (readField readItem) fieldChars (key, value) := by
  intro rest ends
  have skipped : skipSpaces (' ' :: (literalChars value ++ rest)) = literalChars value ++ rest :=
    skipSpaces_begins (begins.append rest)
  rw [fieldChars, List.append_assoc, List.cons_append, List.cons_append, readField, readKey_keyLiteral, ok_bind]
  simp only [skipSpaces_solid (show isBlank ':' = false by decide), skipped]
  rw [reads rest ends, ok_bind]
  simp only [String.ofList_toList]
  rfl

theorem le_itemLevels {items : List Json} {item : Json} (member : item ∈ items) :
    levels item ≤ itemLevels items := by
  rw [itemLevels_eq]
  exact List.le_max_of_le' 0 (List.mem_map_of_mem member) (Nat.le_refl _)

theorem le_fieldLevels {fields : List (String × Json)} {field : String × Json}
    (member : field ∈ fields) : levels field.2 ≤ fieldLevels fields := by
  rw [fieldLevels_eq]
  exact List.le_max_of_le' 0 (List.mem_map.mpr ⟨field, member, rfl⟩) (Nat.le_refl _)

theorem readLiteral_word {c : Char} (word : List Char) (array : c ≠ '[') (object : c ≠ '{')
    (unquoted : isQuoteMark c = false) (letter : c.isDigit = false) (unsigned : c ≠ '-')
    (plain : ∀ d ∈ c :: word, isWordCharacter d = true) (ends : EndsLiteral rest) :
    readLiteral bound (c :: word ++ rest) = .ok (wordValue (String.ofList (c :: word)), rest) := by
  have found := readScalar_word unquoted letter unsigned plain ends.endsWord
  rw [List.cons_append] at found ⊢
  rw [readLiteral_scalar array object, found]

theorem readLiteral_bool (value : Bool) : ReadsElement (readLiteral bound) literalChars (.bool value) := by
  intro rest ends
  cases value with
  | true =>
      rw [literalChars, literal]
      exact readLiteral_word "rue".toList (by decide) (by decide) (by decide) (by decide) (by decide)
        (by decide) ends
  | false =>
      rw [literalChars, literal]
      exact readLiteral_word "alse".toList (by decide) (by decide) (by decide) (by decide) (by decide)
        (by decide) ends

theorem readLiteral_number {value : Json.Number} (stable : Json.Number.ofText? value.chars = some value) :
    ReadsElement (readLiteral bound) literalChars (.number value) := by
  intro rest ends
  have found := readScalar_number stable ends
  have plain := number_chars stable
  obtain ⟨_, c, more, shape, _⟩ := Json.ofText?_eq_some stable
  rw [literalChars, literal, Json.Number.text, String.toList_ofList]
  rw [shape] at found plain ⊢
  have flat := isFlat_numberChar (plain c (by simp))
  rw [List.cons_append] at found ⊢
  rw [readLiteral_scalar ?_ ?_, found]
  · rintro rfl
    exact absurd flat.2.1 (by decide)
  · rintro rfl
    exact absurd flat.2.1 (by decide)

theorem readLiteral_string (text : String) : ReadsElement (readLiteral bound) literalChars (.string text) := by
  intro rest _
  have found := readScalar_string text rest
  rw [literalChars, literal]
  rw [toList_stringLiteral, List.cons_append] at found ⊢
  rw [readLiteral_scalar (by decide) (by decide), found]

theorem readLiteral_array {items : List Json}
    (reads : ∀ item ∈ items, ReadsElement (readLiteral bound) literalChars item)
    (begins : ∀ item ∈ items, Begins (literalChars item)) :
    ReadsElement (readLiteral (bound + 1)) literalChars (.array items) := by
  intro rest _
  have found : readElements (readLiteral bound) ']' (listed (items.map literalChars) ++ ']' :: rest) =
      .ok (items, rest) := by
    cases items with
    | nil => exact readElements_empty (readLiteral_closer (by decide)) (by decide)
    | cons item more => exact readElements_listed [] reads begins (.inl rfl) (by decide) rest
  rw [literalChars_array, List.cons_append, List.append_assoc, List.singleton_append]
  exact congrArg (Except.map _) found

theorem readLiteral_object {fields : List (String × Json)} (distinct : (Json.Row.keys fields).Nodup)
    (reads : ∀ field ∈ fields, ReadsElement (readLiteral bound) literalChars field.2)
    (begins : ∀ field ∈ fields, Begins (literalChars field.2)) :
    ReadsElement (readLiteral (bound + 1)) literalChars (.object fields) := by
  intro rest _
  cases fields with
  | nil =>
      have absent : readField (readLiteral bound) ('}' :: rest) = .error .absent := by
        have ends : EndsWord ('}' :: rest) := (EndsLiteral.cons (by decide)).endsWord
        rw [readField, readKey, if_neg (by decide), readWord_absent ends]
        rfl
      have found : readElements (readField (readLiteral bound)) '}' ('}' :: rest) = .ok ([], rest) :=
        readElements_empty absent (by decide)
      rw [literalChars_empty, List.cons_append, List.singleton_append, readLiteral, found]
      rfl
  | cons field more =>
      have found : readElements (readField (readLiteral bound)) '}'
          (' ' :: (listed ((field :: more).map fieldChars) ++ ' ' :: '}' :: rest)) = .ok (field :: more, rest) :=
        readElements_listed [' ']
          (fun other member => readField_chars (reads other member) (begins other member) other.1)
          (fun other _ => begins_field other) (.inr rfl) (by decide) rest
      rw [literalChars_object, List.cons_append, List.cons_append, List.append_assoc, List.cons_append,
        List.singleton_append]
      refine (congrArg (Except.map _) found).trans ?_
      simp only [Except.map, Json.rowOfList_of_distinct distinct]

/-- A literal is read back by a reader that goes as deep as its brackets do. -/
theorem readLiteral_literal {depth : Nat} (stable : Json.ReadsBack depth value)
    (room : levels value ≤ bound) : ReadsElement (readLiteral bound) literalChars value := by
  induction stable generalizing bound with
  | null =>
      intro rest ends
      rw [literalChars, literal]
      exact readLiteral_word "ull".toList (by decide) (by decide) (by decide) (by decide)
        (by decide) (by decide) ends
  | bool value => exact readLiteral_bool value
  | number stable => exact readLiteral_number stable
  | string text => exact readLiteral_string text
  | @array depth items all induction =>
      rw [levels] at room
      obtain ⟨bound, rfl⟩ := Nat.exists_eq_succ_of_ne_zero (Nat.ne_of_gt (Nat.zero_lt_of_lt room))
      have deep : ∀ item ∈ items, levels item ≤ bound := fun item member =>
        (le_itemLevels member).trans (Nat.le_of_succ_le_succ room)
      exact readLiteral_array (fun item member => induction item member (deep item member))
        fun item member => begins_literal (all item member)
  | @object depth fields distinct all induction =>
      rw [levels] at room
      obtain ⟨bound, rfl⟩ := Nat.exists_eq_succ_of_ne_zero (Nat.ne_of_gt (Nat.zero_lt_of_lt room))
      have deep : ∀ field ∈ fields, levels field.2 ≤ bound := fun field member =>
        (le_fieldLevels member).trans (Nat.le_of_succ_le_succ room)
      exact readLiteral_object distinct (fun field member => induction field member (deep field member))
        fun field member => begins_literal (all field member)

end QueryNotation.Chain
