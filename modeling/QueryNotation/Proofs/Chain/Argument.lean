import QueryNotation.Proofs.Chain.LiteralReader

namespace QueryNotation.Chain

/-! # Reading back arguments

An argument is tried as JSON first.  A literal that happens to be JSON denotes the same
value there, so that a literal is always read back as the value it was written for.
-/

open Text

variable {bound : Nat} {value : Json} {rest : List Char}
  {readItem : List Char → Except Json.Failure (Json × List Char)}

/-- What a reader finds in place of an item is the item. -/
def AgreesItem (readItem : List Char → Except Json.Failure (Json × List Char)) (item : Json) : Prop :=
  ∀ rest, EndsLiteral rest → ∀ found, readItem (literalChars item ++ rest) = .ok found →
    found = (item, rest)

theorem readItems_space (bound : Nat) (rest : List Char) :
    Json.readItems readItem false (bound + 1) (',' :: ' ' :: rest) =
      Json.readItems readItem false (bound + 1) (',' :: rest) :=
  rfl

/-- An item is found where it stands, and with it the items behind it. -/
theorem agrees_first {item : Json} {more : List Json} (agrees : AgreesItem readItem item)
    (later : ∀ found, Json.readItems readItem false bound (behind (more.map literalChars) ++ ']' :: rest) = .ok found →
      found = (more, rest)) {found : List Json × List Char}
    (read : (do
      let (first, left) ← readItem (literalChars item ++ (behind (more.map literalChars) ++ ']' :: rest))
      let (others, left) ← Json.readItems readItem false bound left
      .ok (first :: others, left)) = .ok found) : found = (item :: more, rest) := by
  have ends : EndsLiteral (behind (more.map literalChars) ++ ']' :: rest) := endsLiteral_behind _ (.cons (by decide))
  obtain ⟨first, here, read⟩ := ok_of_bind read
  obtain rfl := agrees _ ends first here
  obtain ⟨others, next, read⟩ := ok_of_bind read
  obtain rfl := later others next
  exact (Except.ok.inj read).symm

theorem agrees_behind {items : List Json} (agrees : ∀ item ∈ items, AgreesItem readItem item)
    (begins : ∀ item ∈ items, Begins (literalChars item)) {found : List Json × List Char}
    (read : Json.readItems readItem false bound (behind (items.map literalChars) ++ ']' :: rest) =
      .ok found) : found = (items, rest) := by
  induction items generalizing bound found with
  | nil =>
      cases bound with
      | zero => cases read
      | succ bound => exact (Except.ok.inj read).symm
  | cons item more induction =>
      cases bound with
      | zero => cases read
      | succ bound =>
          obtain ⟨c, tail, shape, solid, other⟩ := begins item (by simp)
          have whole : behind ((item :: more).map literalChars) ++ ']' :: rest =
              ',' :: ' ' :: c :: (tail ++ (behind (more.map literalChars) ++ ']' :: rest)) := by
            simp [behind, shape]
          rw [whole, readItems_space, Json.readItems_comma (isSpace_solid solid)
            (by rintro rfl; exact other (by decide)), ← List.cons_append, ← shape] at read
          exact agrees_first (agrees item (by simp)) (fun _ later =>
            induction (fun other member => agrees other (by simp [member]))
              (fun other member => begins other (by simp [member])) later) read

theorem agrees_listed {items : List Json} (agrees : ∀ item ∈ items, AgreesItem readItem item)
    (begins : ∀ item ∈ items, Begins (literalChars item)) {found : List Json × List Char}
    (read : Json.readItems readItem true bound (listed (items.map literalChars) ++ ']' :: rest) =
      .ok found) : found = (items, rest) := by
  cases bound with
  | zero => cases read
  | succ bound =>
      cases items with
      | nil => exact (Except.ok.inj read).symm
      | cons item more =>
          obtain ⟨c, tail, shape, solid, other⟩ := begins item (by simp)
          rw [List.map_cons, listed_cons, List.append_assoc, shape, List.cons_append,
            Json.readItems_first (isSpace_solid solid) (by rintro rfl; exact other (by decide)),
            ← List.cons_append, ← shape] at read
          exact agrees_first (agrees item (by simp)) (fun _ later =>
            agrees_behind (fun other member => agrees other (by simp [member]))
              (fun other member => begins other (by simp [member])) later) read

/-- JSON wants a quotation mark in front of a key, which no field of a literal has. -/
theorem readFields_listed (field : String × Json) (more : List (String × Json)) (bound : Nat)
    (rest : List Char) (found : List (String × Json) × List Char) :
    Json.readFields readItem true bound (' ' :: (listed ((field :: more).map fieldChars) ++ rest)) ≠
      .ok found := by
  obtain ⟨c, tail, shape, solid, other⟩ := begins_listed (begins_field field) more
  cases bound with
  | zero =>
      intro read
      cases read
  | succ bound =>
      have skipped : Json.skipSpaces (' ' :: c :: (tail ++ rest)) = c :: (tail ++ rest) :=
        Json.skipSpaces_cons (isSpace_solid solid) _
      rw [shape, List.cons_append]
      intro read
      unfold Json.readFields at read
      simp only [skipped] at read
      split at read
      · next same => cases same
      · next same => exact other (by rw [(List.cons.inj same).1]; decide)
      · next same => exact other (by rw [(List.cons.inj same).1]; decide)
      · next same => exact other (by rw [(List.cons.inj same).1]; decide)
      · cases read

theorem agrees_same (stable : Json.ReadsBack bound value) (same : literalChars value = value.chars) :
    AgreesItem (Json.readValue bound) value := by
  intro rest ends found read
  rw [same, Json.readValue_chars stable rest ends.endsNumber] at read
  exact (Except.ok.inj read).symm

/-- A literal that JSON takes denotes the value that it was written for. -/
theorem agrees_literal {depth : Nat} (stable : Json.ReadsBack depth value) (bound : Nat) :
    AgreesItem (Json.readValue bound) value := by
  induction stable generalizing bound with
  | null => exact agrees_same .null (by rw [literalChars, literal, Json.chars])
  | bool value =>
      cases value with
      | true => exact agrees_same (.bool true) (by rw [literalChars, literal, Json.chars])
      | false => exact agrees_same (.bool false) (by rw [literalChars, literal, Json.chars])
  | @number _ value stable =>
      refine agrees_same (.number stable) ?_
      rw [literalChars, literal, Json.chars, Json.Number.text, String.toList_ofList]
  | string text =>
      intro rest _ found read
      -- An apostrophe begins no JSON.
      rw [literalChars, literal, toList_stringLiteral, List.cons_append,
        Json.readValue_scalar (by decide) (by decide) (by decide)] at read
      cases read
  | @array depth items all induction =>
      intro rest _ found read
      rw [literalChars_array, List.cons_append, List.append_assoc, List.singleton_append] at read
      cases bound with
      | zero => cases read
      | succ bound =>
          change Json.readArray (Json.readValue bound) _ = _ at read
          obtain ⟨result, items, rfl⟩ := ok_of_map read
          obtain rfl := agrees_listed (fun item member => induction item member bound)
            (fun item member => begins_literal (all item member)) items
          rfl
  | @object depth fields distinct all induction =>
      intro rest _ found read
      cases bound with
      | zero =>
          cases fields with
          | nil => rw [literalChars_empty] at read; cases read
          | cons field more => rw [literalChars_object] at read; cases read
      | succ bound =>
          cases fields with
          | nil =>
              rw [literalChars_empty] at read
              exact (Except.ok.inj read).symm
          | cons field more =>
              rw [literalChars_object, List.cons_append, List.cons_append, List.append_assoc] at read
              change Json.readObject (Json.readValue bound) _ = _ at read
              obtain ⟨result, read, _⟩ := ok_of_map read
              -- Names stand without marks in a literal, which JSON does not take.
              exact absurd read (readFields_listed field more _ _ result)

theorem trim_literalChars {depth : Nat} (stable : Json.ReadsBack depth value) :
    trim (literalChars value) = literalChars value := by
  cases stable with
  | null => rw [literalChars, literal]; decide
  | bool value =>
      cases value with
      | true => rw [literalChars, literal]; decide
      | false => rw [literalChars, literal]; decide
  | @number _ value stable =>
      rw [literalChars, literal, Json.Number.text, String.toList_ofList]
      exact trim_of_solid fun c member => isBlank_numberChar (number_chars stable c member)
  | string text =>
      rw [literalChars, literal, toList_stringLiteral]
      exact trim_between (by decide) (by decide) _
  | array all =>
      rw [literalChars_array]
      exact trim_between (by decide) (by decide) _
  | @object _ fields _ _ =>
      cases fields with
      | nil => rw [literalChars_empty]; decide
      | cons field more =>
          rw [literalChars_object, ← List.singleton_append (l := ['}']), ← List.append_assoc,
            ← List.cons_append]
          exact trim_between (by decide) (by decide) _

theorem bracketedJson?_literal {depth : Nat} (stable : Json.ReadsBack depth value) :
    bracketedJson? (literalChars value) = none ∨ bracketedJson? (literalChars value) = some value := by
  have whole : (Json.read (literalChars value)).toOption = none ∨
      (Json.read (literalChars value)).toOption = some value := by
    cases read : Json.readValue Json.greatestDepth (literalChars value) with
    | error failure => rw [Json.read, read]; exact .inl rfl
    | ok found =>
        have agree := agrees_literal stable Json.greatestDepth [] .nil found
        rw [List.append_nil] at agree
        obtain rfl := agree read
        rw [Json.read, read]
        exact .inr rfl
  unfold bracketedJson?
  split
  · next same => exact same ▸ whole
  · next same => exact same ▸ whole
  · exact .inl rfl

/-- An argument that is a literal denotes the value that the literal was written for. -/
theorem argument_literal {depth : Nat} (stable : Json.ReadsBack depth value)
    (room : levels value ≤ bound) : argument bound (literalChars value) = value := by
  have found := readLiteral_literal stable room [] .nil
  rw [List.append_nil] at found
  rw [argument, trim_literalChars stable]
  rcases bracketedJson?_literal stable with other | same
  · simp only [other]
    rw [literal?, skipSpaces_begins (begins_literal stable), found]
    rfl
  · simp only [same]

mutual

def valuesIn : Json → List Json
  | .array items => .array items :: itemValues items
  | .object fields => .object fields :: fieldValues fields
  | value => [value]

def itemValues : List Json → List Json
  | [] => []
  | item :: rest => valuesIn item ++ itemValues rest

def fieldValues : List (String × Json) → List Json
  | [] => []
  | (_, value) :: rest => valuesIn value ++ fieldValues rest

end

/-- A number that is read back from its text, an object that has every key once, or any
other value. -/
def IsSound : Json → Prop
  | .number value => Json.Number.ofText? value.text.toList = some value
  | .object fields => (Json.Row.keys fields).Nodup
  | _ => True

instance : DecidablePred IsSound
  | .null | .bool _ | .string _ | .array _ => isTrue trivial
  | .number value => inferInstanceAs (Decidable (Json.Number.ofText? value.text.toList = some value))
  | .object fields => inferInstanceAs (Decidable (Json.Row.keys fields).Nodup)

mutual

theorem readsBack_valuesIn : (value : Json) → (∀ inner ∈ valuesIn value, IsSound inner) →
    Json.ReadsBack (levels value) value
  | .null, _ => .null
  | .bool value, _ => .bool value
  | .number value, sound => by
      have stable : IsSound (.number value) := sound _ (by simp [valuesIn])
      rw [IsSound, Json.Number.text, String.toList_ofList] at stable
      exact .number stable
  | .string text, _ => .string text
  | .array items, sound => by
      rw [levels]
      exact .array (readsBack_itemValues items fun inner member => sound inner (by simp [valuesIn, member]))
  | .object fields, sound => by
      have distinct : IsSound (.object fields) := sound _ (by simp [valuesIn])
      rw [levels]
      exact .object distinct
        (readsBack_fieldValues fields fun inner member => sound inner (by simp [valuesIn, member]))

theorem readsBack_itemValues : (items : List Json) → (∀ inner ∈ itemValues items, IsSound inner) →
    ∀ item ∈ items, Json.ReadsBack (itemLevels items) item
  | [], _ => List.forall_mem_nil _
  | item :: rest, sound => by
      have first := readsBack_valuesIn item fun inner member => sound inner (by simp [itemValues, member])
      have others := readsBack_itemValues rest fun inner member => sound inner (by simp [itemValues, member])
      rw [itemLevels]
      refine List.forall_mem_cons.mpr ⟨first.mono (Nat.le_max_left _ _), fun other member => ?_⟩
      exact (others other member).mono (Nat.le_max_right _ _)

theorem readsBack_fieldValues : (fields : List (String × Json)) →
    (∀ inner ∈ fieldValues fields, IsSound inner) →
    ∀ field ∈ fields, Json.ReadsBack (fieldLevels fields) field.2
  | [], _ => List.forall_mem_nil _
  | (_, value) :: rest, sound => by
      have first := readsBack_valuesIn value fun inner member => sound inner (by simp [fieldValues, member])
      have others := readsBack_fieldValues rest fun inner member => sound inner (by simp [fieldValues, member])
      rw [fieldLevels]
      refine List.forall_mem_cons.mpr ⟨first.mono (Nat.le_max_left _ _), fun other member => ?_⟩
      exact (others other member).mono (Nat.le_max_right _ _)

end

/-- The literal of a value is read back as the value, keys in their order, by a reader that goes
as deep as its brackets do. -/
theorem argument_of_literal (sound : ∀ inner ∈ valuesIn value, IsSound inner)
    (room : levels value ≤ bound) : argument bound (literal value).toList = value :=
  argument_literal (readsBack_valuesIn value sound) room

/-- Strings with everything that a literal escapes, keys that may not stand bare, numbers and
empty containers. -/
def sampleRow : Json := .object [
  ("it's", .string "a\\b'c\n\t\r\x60\"\x7b,\x7d"),
  ("null", .array [.null, .bool false, .number (.integer (-7)), .array []]),
  ("", .object []),
  ("$_9", .array [.object [("b", .string ""), ("a", .string "undefined")]])]

theorem argument_of_literal_sample : (∀ inner ∈ valuesIn sampleRow, IsSound inner) ∧
    levels sampleRow = 3 ∧ argument 3 (literal sampleRow).toList = sampleRow := by
  have sound : ∀ inner ∈ valuesIn sampleRow, IsSound inner := by decide +kernel
  have room : levels sampleRow = 3 := by decide +kernel
  exact ⟨sound, room, argument_of_literal sound (Nat.le_of_eq room)⟩

end QueryNotation.Chain
