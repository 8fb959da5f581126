import QueryNotation.Json.Printer
import QueryNotation.Json.Reader
import QueryNotation.Proofs.Json.Number
import QueryNotation.Proofs.Outcome

namespace QueryNotation.Json

/-! # Reading back compact text

A value is read back from its compact text when its numbers are read back from theirs,
its objects hold every key once, and its brackets nest no deeper than the reader goes.
-/

/-- Values that come back from their text to a reader that passes `depth` levels. -/
inductive ReadsBack : Nat → Json → Prop where
  | null {depth : Nat} : ReadsBack depth .null
  | bool {depth : Nat} (value : Bool) : ReadsBack depth (.bool value)
  | number {depth : Nat} {value : Number} (stable : Number.ofText? value.chars = some value) :
    ReadsBack depth (.number value)
  | string {depth : Nat} (text : String) : ReadsBack depth (.string text)
  | array {depth : Nat} {items : List Json} (all : ∀ item ∈ items, ReadsBack depth item) :
    ReadsBack (depth + 1) (.array items)
  | object {depth : Nat} {fields : List (String × Json)} (distinct : (Row.keys fields).Nodup)
    (all : ∀ field ∈ fields, ReadsBack depth field.2) : ReadsBack (depth + 1) (.object fields)

namespace ReadsBack

variable {depth other : Nat} {value : Json}

theorem mono (low : depth ≤ other) (stable : ReadsBack depth value) : ReadsBack other value := by
  induction stable generalizing other with
  | null => exact .null
  | bool value => exact .bool value
  | number stable => exact .number stable
  | string text => exact .string text
  | array _ induction =>
      obtain ⟨other, rfl⟩ := Nat.exists_eq_add_of_lt (Nat.lt_of_succ_le low)
      exact .array fun item member => induction item member (Nat.le_add_right _ _)
  | object distinct _ induction =>
      obtain ⟨other, rfl⟩ := Nat.exists_eq_add_of_lt (Nat.lt_of_succ_le low)
      exact .object distinct fun field member => induction field member (Nat.le_add_right _ _)

/-- Some values come back to one reader when each comes back to one of its own. -/
theorem common {items : List Json} (each : ∀ item ∈ items, ∃ depth, ReadsBack depth item) :
    ∃ depth, ∀ item ∈ items, ReadsBack depth item := by
  induction items with
  | nil => exact ⟨0, List.forall_mem_nil _⟩
  | cons item rest induction =>
      obtain ⟨first, here⟩ := each item (by simp)
      obtain ⟨others, behind⟩ := induction fun other member => each other (by simp [member])
      refine ⟨max first others, fun other member => ?_⟩
      rcases List.mem_cons.mp member with rfl | later
      · exact here.mono (Nat.le_max_left _ _)
      · exact (behind other later).mono (Nat.le_max_right _ _)

end ReadsBack

theorem readCodeUnit_four {a b c d : Char} {value : Nat} (hex : hexValue? [a, b, c, d] = some value)
    (rest : List Char) : readCodeUnit (a :: b :: c :: d :: rest) = .ok value := by
  have long : ¬ byteCount (a :: b :: c :: d :: rest) < 4 := by
    simp only [byteCount, List.foldr_cons]
    have := a.utf8Size_pos
    have := b.utf8Size_pos
    have := c.utf8Size_pos
    have := d.utf8Size_pos
    omega
  unfold readCodeUnit
  rw [if_neg long]
  simp only [hex]

/-- The control characters that have no short escape are escaped by their code. -/
theorem escape_control {c : Char} (control : c.toNat < 0x20)
    (long : c ∉ ['\n', '\r', '\t', '\x08', '\x0c']) :
    ∃ w x y z, escape c = ['\\', 'u', w, x, y, z] ∧ hexValue? [w, x, y, z] = some c.toNat := by
  have table : ∀ code < 0x20, Char.ofNat code ∉ ['\n', '\r', '\t', '\x08', '\x0c'] →
      (escape (Char.ofNat code)).length = 6 ∧ (escape (Char.ofNat code)).take 2 = ['\\', 'u'] ∧
        hexValue? ((escape (Char.ofNat code)).drop 2) = some code := by
    decide
  have entry := table c.toNat control
  rw [Char.ofNat_toNat] at entry
  obtain ⟨length, front, hex⟩ := entry long
  match shape : escape c, length with
  | [_, _, w, x, y, z], _ =>
    rw [shape] at front hex
    obtain ⟨rfl, same⟩ := List.cons.inj front
    obtain ⟨rfl, _⟩ := List.cons.inj same
    exact ⟨w, x, y, z, rfl, hex⟩

/-- A code unit that is no surrogate denotes a character of its own. -/
theorem readEscape_unit {w x y z : Char} {unit : Nat} (hex : hexValue? [w, x, y, z] = some unit)
    (alone : unit < 0xD800 ∨ 0xDFFF < unit) (rest : List Char) :
    readEscape ('u' :: w :: x :: y :: z :: rest) = .ok (Char.ofNat unit, 5) := by
  have trailing : isTrailingSurrogate unit = false := by
    simp only [isTrailingSurrogate, Bool.and_eq_false_iff, decide_eq_false_iff_not]
    omega
  have leading : isLeadingSurrogate unit = false := by
    simp only [isLeadingSurrogate, Bool.and_eq_false_iff, decide_eq_false_iff_not]
    omega
  rw [readEscape, readUnicodeEscape, readCodeUnit_four hex]
  simp [ok_bind, trailing, leading, Except.map]

/-- A character is read back from how it stands inside a string. -/
theorem readString_escape (c : Char) (rest : List Char) :
    readString 0 (escape c ++ rest) =
      (readString 0 rest).map fun (text, rest') => (c :: text, rest') := by
  by_cases short : c ∈ ['"', '\\', '\n', '\r', '\t', '\x08', '\x0c']
  · simp only [List.mem_cons, List.not_mem_nil, or_false] at short
    rcases short with rfl | rfl | rfl | rfl | rfl | rfl | rfl <;> rfl
  · simp only [List.mem_cons, List.not_mem_nil, or_false, not_or] at short
    obtain ⟨quote, backslash, line, feed, tab, back, form⟩ := short
    by_cases control : c.toNat < 0x20
    · obtain ⟨w, x, y, z, shape, hex⟩ := escape_control control
        (by simp [line, feed, tab, back, form])
      have found := readEscape_unit hex (.inl (control.trans (by decide))) rest
      rw [Char.ofNat_toNat] at found
      rw [shape]
      simp only [List.cons_append, List.nil_append]
      rw [readString, if_neg (by decide), if_pos rfl, found]
      rfl
    · have plain : escape c = [c] := by
        simp [escape, quote, backslash, line, feed, tab, back, form, control]
      rw [plain, List.singleton_append, readString, if_neg quote, if_neg backslash, if_neg control]

theorem readString_text (text rest : List Char) :
    readString 0 (text.flatMap escape ++ '"' :: rest) = .ok (text, rest) := by
  induction text with
  | nil => rfl
  | cons c more induction =>
      rw [List.flatMap_cons, List.append_assoc, readString_escape, induction]
      rfl

theorem skipSpaces_cons {c : Char} (solid : isSpace c = false) (rest : List Char) :
    skipSpaces (c :: rest) = c :: rest := by
  rw [skipSpaces, List.dropWhile_cons, if_neg (by simp [solid])]

/-- The first character of a text is none of those between values. -/
theorem chars_eq_cons {depth : Nat} {value : Json} (stable : ReadsBack depth value) :
    ∃ c rest, value.chars = c :: rest ∧ isSpace c = false ∧ c ∉ [',', ']', '}', ':'] := by
  cases stable with
  | null => exact ⟨'n', "ull".toList, by rw [chars]; rfl, by decide, by decide⟩
  | bool value =>
      cases value with
      | true => exact ⟨'t', "rue".toList, by rw [chars]; rfl, by decide, by decide⟩
      | false => exact ⟨'f', "alse".toList, by rw [chars]; rfl, by decide, by decide⟩
  | @number _ value stable =>
      obtain ⟨_, c, rest, shape, leading⟩ := ofText?_eq_some stable
      refine ⟨c, rest, by rw [chars, shape], ?_⟩
      rcases leading with rfl | digit
      · decide
      · refine ⟨?_, ?_⟩
        · simp only [isSpace, Bool.or_eq_false_iff, beq_eq_false_iff_ne]
          refine ⟨⟨⟨?_, ?_⟩, ?_⟩, ?_⟩ <;> rintro rfl <;> exact absurd digit (by decide)
        · intro member
          simp only [List.mem_cons, List.not_mem_nil, or_false] at member
          rcases member with rfl | rfl | rfl | rfl <;> exact absurd digit (by decide)
  | string text => exact ⟨'"', _, by rw [chars, quoted]; rfl, by decide, by decide⟩
  | @array _ items _ =>
      cases items with
      | nil => exact ⟨'[', "]".toList, by rw [chars]; rfl, by decide, by decide⟩
      | cons item rest => exact ⟨'[', _, by rw [chars]; rfl, by decide, by decide⟩
  | @object _ fields _ _ =>
      cases fields with
      | nil => exact ⟨'{', ['}'], by rw [chars], by decide, by decide⟩
      | cons field rest => exact ⟨'{', _, by rw [chars]; rfl, by decide, by decide⟩

/-- A reader gives back an item from the front of a text behind which no number goes on. -/
def ReadsItem (readItem : List Char → Except Failure (Json × List Char)) (item : Json) : Prop :=
  ∀ rest, EndsNumber rest → readItem (item.chars ++ rest) = .ok (item, rest)

variable {readItem : List Char → Except Failure (Json × List Char)}

theorem endsNumber_moreItems (items : List Json) (rest : List Char) :
    EndsNumber (moreItems items ++ rest) := by
  cases items with
  | nil => exact .cons (by decide)
  | cons item more => exact .cons (by decide)

theorem readItems_comma {c : Char} (solid : isSpace c = false) (other : c ≠ ']') (bound : Nat)
    (rest : List Char) :
    readItems readItem false (bound + 1) (',' :: c :: rest) = (do
      let (item, rest) ← readItem (c :: rest)
      let (items, rest) ← readItems readItem false bound rest
      .ok (item :: items, rest)) := by
  rw [readItems]
  simp only [skipSpaces_cons solid, skipSpaces_cons (show isSpace ',' = false by decide)]
  split
  · next impossible => cases impossible
  · split
    · next same => cases same
    · next same => exact absurd (List.cons.inj same).1 other
    · rfl

theorem readItems_first {c : Char} (solid : isSpace c = false) (other : c ≠ ']') (bound : Nat)
    (rest : List Char) :
    readItems readItem true (bound + 1) (c :: rest) = (do
      let (item, rest) ← readItem (c :: rest)
      let (items, rest) ← readItems readItem false bound rest
      .ok (item :: items, rest)) := by
  rw [readItems]
  simp only [skipSpaces_cons solid]
  split
  · next same => cases same
  · next same => exact absurd (List.cons.inj same).1 other
  · next same => rw [if_pos trivial, same]
  · rfl

theorem readItems_moreItems {items : List Json} {depth bound : Nat}
    (stable : ∀ item ∈ items, ReadsBack depth item) (reads : ∀ item ∈ items, ReadsItem readItem item)
    (room : items.length < bound) (rest : List Char) :
    readItems readItem false bound (moreItems items ++ rest) = .ok (items, rest) := by
  induction items generalizing bound with
  | nil =>
      obtain ⟨bound, rfl⟩ := Nat.exists_eq_succ_of_ne_zero (Nat.ne_of_gt room)
      rw [moreItems, readItems]
      rfl
  | cons item more induction =>
      obtain ⟨bound, rfl⟩ := Nat.exists_eq_succ_of_ne_zero (Nat.ne_of_gt (Nat.zero_lt_of_lt room))
      obtain ⟨c, tail, shape, solid, other⟩ := chars_eq_cons (stable item (by simp))
      have first := reads item (by simp) (moreItems more ++ rest) (endsNumber_moreItems more rest)
      have others : readItems readItem false bound (moreItems more ++ rest) = .ok (more, rest) :=
        induction (fun item member => stable item (by simp [member]))
          (fun item member => reads item (by simp [member])) (by simpa using room)
      rw [shape, List.cons_append] at first
      simp only [moreItems, shape, List.cons_append, List.append_assoc]
      rw [readItems_comma solid (by rintro rfl; exact other (by decide)), first, ok_bind]
      simp only [others, ok_bind]

theorem readItems_chars {item : Json} {items : List Json} {depth bound : Nat}
    (stable : ∀ other ∈ item :: items, ReadsBack depth other)
    (reads : ∀ other ∈ item :: items, ReadsItem readItem other) (room : items.length + 1 < bound)
    (rest : List Char) :
    readItems readItem true bound (item.chars ++ moreItems items ++ rest) =
      .ok (item :: items, rest) := by
  obtain ⟨bound, rfl⟩ := Nat.exists_eq_succ_of_ne_zero (Nat.ne_of_gt (Nat.zero_lt_of_lt room))
  obtain ⟨c, tail, shape, solid, other⟩ := chars_eq_cons (stable item (by simp))
  have first := reads item (by simp) (moreItems items ++ rest) (endsNumber_moreItems items rest)
  have others : readItems readItem false bound (moreItems items ++ rest) = .ok (items, rest) :=
    readItems_moreItems (fun item member => stable item (by simp [member]))
      (fun item member => reads item (by simp [member])) (by omega) rest
  rw [shape, List.cons_append] at first
  rw [List.append_assoc, shape, List.cons_append,
    readItems_first solid (by rintro rfl; exact other (by decide)), first, ok_bind]
  simp only [others, ok_bind]

theorem readField_chars (key : String) {value : Json} {rest : List Char}
    (reads : ReadsItem readItem value) (ends : EndsNumber rest) :
    readField readItem (key.toList.flatMap escape ++ '"' :: ':' :: (value.chars ++ rest)) =
      .ok ((key, value), rest) := by
  rw [readField, readString_text, ok_bind]
  simp only [skipSpaces_cons (show isSpace ':' = false by decide)]
  rw [reads rest ends, ok_bind, String.ofList_toList]

theorem endsNumber_moreFields (fields : List (String × Json)) (rest : List Char) :
    EndsNumber (moreFields fields ++ rest) := by
  cases fields with
  | nil => exact .cons (by decide)
  | cons field more => exact .cons (by decide)

theorem readFields_moreFields {fields : List (String × Json)} {bound : Nat}
    (reads : ∀ field ∈ fields, ReadsItem readItem field.2) (room : fields.length < bound)
    (rest : List Char) :
    readFields readItem false bound (moreFields fields ++ rest) = .ok (fields, rest) := by
  induction fields generalizing bound with
  | nil =>
      obtain ⟨bound, rfl⟩ := Nat.exists_eq_succ_of_ne_zero (Nat.ne_of_gt room)
      rw [moreFields, readFields]
      rfl
  | cons field more induction =>
      obtain ⟨bound, rfl⟩ := Nat.exists_eq_succ_of_ne_zero (Nat.ne_of_gt (Nat.zero_lt_of_lt room))
      obtain ⟨key, value⟩ := field
      have first := readField_chars key (reads (key, value) (by simp))
        (endsNumber_moreFields more rest)
      have others : readFields readItem false bound (moreFields more ++ rest) = .ok (more, rest) :=
        induction (fun field member => reads field (by simp [member])) (by simpa using room)
      simp only [moreFields, quoted, List.cons_append, List.append_assoc, List.nil_append]
      rw [readFields]
      simp only [skipSpaces_cons (show isSpace ',' = false by decide),
        skipSpaces_cons (show isSpace '"' = false by decide), first, others, ok_bind,
        Bool.false_eq_true, if_false]

theorem readFields_chars {key : String} {value : Json} {fields : List (String × Json)} {bound : Nat}
    (reads : ∀ field ∈ (key, value) :: fields, ReadsItem readItem field.2)
    (room : fields.length + 1 < bound) (rest : List Char) :
    readFields readItem true bound
        (quoted key ++ ':' :: value.chars ++ moreFields fields ++ rest) =
      .ok ((key, value) :: fields, rest) := by
  obtain ⟨bound, rfl⟩ := Nat.exists_eq_succ_of_ne_zero (Nat.ne_of_gt (Nat.zero_lt_of_lt room))
  have first := readField_chars key (reads (key, value) (by simp))
    (endsNumber_moreFields fields rest)
  have others : readFields readItem false bound (moreFields fields ++ rest) = .ok (fields, rest) :=
    readFields_moreFields (fun field member => reads field (by simp [member])) (by omega) rest
  simp only [quoted, List.cons_append, List.append_assoc, List.nil_append]
  rw [readFields]
  simp only [skipSpaces_cons (show isSpace '"' = false by decide), if_true, first, others, ok_bind]

theorem insert_of_absent {row : Row} {key : String} (absent : key ∉ Row.keys row) (value : Json) :
    Row.insert key value row = row ++ [(key, value)] := by
  induction row with
  | nil => rfl
  | cons field rest induction =>
      obtain ⟨other, held⟩ := field
      simp only [Row.keys, List.map_cons, List.mem_cons, not_or] at absent
      rw [Row.insert, if_neg (Ne.symm absent.1), induction absent.2]
      rfl

/-- Fields with different keys make the row that lists them. -/
theorem foldl_insert_of_distinct {fields : List (String × Json)} (row : Row)
    (distinct : (Row.keys (row ++ fields)).Nodup) :
    fields.foldl (fun row (key, value) => Row.insert key value row) row = row ++ fields := by
  induction fields generalizing row with
  | nil => simp
  | cons field rest induction =>
      obtain ⟨key, value⟩ := field
      have absent : key ∉ Row.keys row := by
        simp only [Row.keys, List.map_append, List.map_cons, List.nodup_append] at distinct
        exact fun member => distinct.2.2 _ member _ (by simp) rfl
      have moved : row ++ (key, value) :: rest = row ++ [(key, value)] ++ rest := by simp
      rw [List.foldl_cons]
      simp only [insert_of_absent absent]
      rw [induction (row ++ [(key, value)]) (moved ▸ distinct), moved]

theorem rowOfList_of_distinct {fields : List (String × Json)} (distinct : (Row.keys fields).Nodup) :
    Row.ofList fields = fields :=
  foldl_insert_of_distinct [] distinct

theorem length_le_moreItems (items : List Json) : items.length < (moreItems items).length := by
  induction items with
  | nil => simp [moreItems]
  | cons item rest induction =>
      simp only [moreItems, List.length_cons, List.length_append]
      omega

theorem length_le_moreFields (fields : List (String × Json)) :
    fields.length < (moreFields fields).length := by
  induction fields with
  | nil => simp [moreFields]
  | cons field rest induction =>
      obtain ⟨key, value⟩ := field
      simp only [moreFields, List.length_cons, List.length_append]
      omega

theorem readValue_scalar {c : Char} (solid : isSpace c = false) (open1 : c ≠ '[') (open2 : c ≠ '{')
    (depth : Nat) (rest : List Char) : readValue depth (c :: rest) = readScalar (c :: rest) := by
  cases depth with
  | zero =>
      rw [readValue, skipSpaces_cons solid]
      split
      · next same => exact absurd (List.cons.inj same).1 open1
      · next same => exact absurd (List.cons.inj same).1 open2
      · rfl
  | succ depth =>
      rw [readValue, skipSpaces_cons solid]
      split
      · next same => exact absurd (List.cons.inj same).1 open1
      · next same => exact absurd (List.cons.inj same).1 open2
      · rfl

theorem readScalar_number {c : Char} (leading : c = '-' ∨ c.isDigit = true) (rest : List Char) :
    readScalar (c :: rest) =
      (readNumber (c :: rest)).map fun (found, rest) => (.number found, rest) := by
  have other : ∀ letter ∈ ['n', 't', 'f', '"'], c ≠ letter := by
    rintro letter member rfl
    rcases leading with rfl | digit
    · exact absurd member (by decide)
    · simp only [List.mem_cons, List.not_mem_nil, or_false] at member
      rcases member with rfl | rfl | rfl | rfl <;> exact absurd digit (by decide)
  unfold readScalar
  split
  · next same => cases same
  · next same => exact absurd (List.cons.inj same).1 (other _ (by decide))
  · next same => exact absurd (List.cons.inj same).1 (other _ (by decide))
  · next same => exact absurd (List.cons.inj same).1 (other _ (by decide))
  · next same => exact absurd (List.cons.inj same).1 (other _ (by decide))
  · next same =>
    obtain ⟨rfl, rfl⟩ := List.cons.inj same
    rw [if_pos leading]

theorem readValue_number {depth : Nat} {value : Number} (stable : Number.ofText? value.chars = some value) :
    ReadsItem (readValue depth) (.number value) := by
  intro rest ends
  obtain ⟨read, c, tail, shape, leading⟩ := ofText?_eq_some stable
  obtain ⟨_, _, same, solid, _⟩ := chars_eq_cons (show ReadsBack depth (.number value) from .number stable)
  have longer := readNumber_append _ ends read
  rw [chars] at same ⊢
  rw [shape] at same longer ⊢
  obtain ⟨rfl, rfl⟩ := List.cons.inj same
  rw [List.cons_append] at longer ⊢
  rw [readValue_scalar solid ?_ ?_, readScalar_number leading, longer]
  · rfl
  · rintro rfl; exact absurd leading (by decide)
  · rintro rfl; exact absurd leading (by decide)

theorem readValue_string (depth : Nat) (text : String) : ReadsItem (readValue depth) (.string text) := by
  intro rest _
  simp only [chars, quoted, List.cons_append, List.append_assoc, List.nil_append]
  rw [readValue_scalar (by decide) (by decide) (by decide), readScalar, readString_text]
  simp [Except.map]

theorem readValue_array {depth : Nat} {items : List Json} (stable : ∀ item ∈ items, ReadsBack depth item)
    (reads : ∀ item ∈ items, ReadsItem (readValue depth) item) :
    ReadsItem (readValue (depth + 1)) (.array items) := by
  intro rest _
  rw [chars.eq_def]
  cases items with
  | nil => rfl
  | cons item more =>
      have room : more.length + 1 < (item.chars ++ moreItems more ++ rest).length + 1 := by
        have := length_le_moreItems more
        simp only [List.length_append]
        omega
      change readArray (readValue depth) (item.chars ++ moreItems more ++ rest) = _
      rw [readArray, readItems_chars stable reads room]
      rfl

theorem readValue_object {depth : Nat} {fields : List (String × Json)} (distinct : (Row.keys fields).Nodup)
    (reads : ∀ field ∈ fields, ReadsItem (readValue depth) field.2) :
    ReadsItem (readValue (depth + 1)) (.object fields) := by
  intro rest _
  rw [chars.eq_def]
  cases fields with
  | nil => rfl
  | cons field more =>
      obtain ⟨key, value⟩ := field
      have room : more.length + 1 < (quoted key ++ ':' :: value.chars ++ moreFields more ++ rest).length + 1 := by
        have := length_le_moreFields more
        simp only [List.length_append]
        omega
      change readObject (readValue depth) (quoted key ++ ':' :: value.chars ++ moreFields more ++ rest) = _
      rw [readObject, readFields_chars reads room]
      simp only [Except.map, rowOfList_of_distinct distinct]

/-- A value is read back from the front of a text behind which no number goes on. -/
theorem readValue_chars {depth : Nat} {value : Json} (stable : ReadsBack depth value) :
    ReadsItem (readValue depth) value := by
  induction stable with
  | null =>
      intro rest _
      rw [chars]
      exact readValue_scalar (by decide) (by decide) (by decide) _ _
  | bool value =>
      intro rest _
      cases value with
      | true => rw [chars]; exact readValue_scalar (by decide) (by decide) (by decide) _ _
      | false => rw [chars]; exact readValue_scalar (by decide) (by decide) (by decide) _ _
  | number stable => exact readValue_number stable
  | string text => exact readValue_string _ text
  | array all induction => exact readValue_array all induction
  | object distinct all induction => exact readValue_object distinct induction

/-- A value that reads back is the whole of its text. -/
theorem read_chars {value : Json} (stable : ReadsBack greatestDepth value) :
    read value.chars = .ok value := by
  have found := readValue_chars stable [] .nil
  rw [List.append_nil] at found
  rw [read, found]
  rfl

end QueryNotation.Json
