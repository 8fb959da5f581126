import QueryNotation.Proofs.Chain.Number
import QueryNotation.Proofs.Json.Text
import QueryNotation.Proofs.Text.Layout
import QueryNotation.Proofs.Text.Word

namespace QueryNotation.Chain

/-! # The text of literals

A literal is laid out: its strings are closed, its brackets match, and the brackets nest
as deep as those of the value it is written for.
-/

open Text

variable {bound : Nat} {value : Json} {rest : List Char}

theorem toList_stringLiteral (text : String) :
    (stringLiteral text).toList = '\'' :: (text.toList.flatMap escape ++ ['\'']) :=
  String.toList_ofList

theorem inString_escape (c : Char) (inside : InString (.inside '\'') rest) :
    InString (.inside '\'') (escape c ++ rest) := by
  have pair (d : Char) : InString (.inside '\'') ('\\' :: d :: rest) :=
    .more rfl (.more rfl inside)
  unfold escape
  split
  · exact pair '\\'
  · next notSlash =>
    split
    · exact pair '\''
    · next notMark =>
      split
      · exact pair 'n'
      · split
        · exact pair 'r'
        · split
          · exact pair 't'
          · refine .more rfl ?_
            rw [Quoting.step, if_neg notSlash, if_neg notMark]
            exact inside

theorem inString_body (text : List Char) :
    InString (.inside '\'') (text.flatMap escape ++ ['\'']) := by
  induction text with
  | nil => exact .last (by decide)
  | cons c more induction =>
      rw [List.flatMap_cons, List.append_assoc]
      exact inString_escape c induction

theorem readQuoted_escape (c : Char) (rest : List Char) :
    readQuoted '\'' false (escape c ++ rest) =
      (readQuoted '\'' false rest).map fun (text, rest') => (c :: text, rest') := by
  unfold escape
  split
  · next same => subst same; rfl
  · next notSlash =>
    split
    · next same => subst same; rfl
    · next notMark =>
      split
      · next same => subst same; rfl
      · split
        · next same => subst same; rfl
        · split
          · next same => subst same; rfl
          · rw [List.singleton_append, readQuoted, if_neg (by simp), if_neg notSlash, if_neg notMark]

/-- A string is read back from between its apostrophes. -/
theorem readQuoted_body (text rest : List Char) :
    readQuoted '\'' false (text.flatMap escape ++ '\'' :: rest) = .ok (text, rest) := by
  induction text with
  | nil => rfl
  | cons c more induction =>
      rw [List.flatMap_cons, List.append_assoc, readQuoted_escape, induction]
      rfl

mutual

def levels : Json → Nat
  | .array items => itemLevels items + 1
  | .object fields => fieldLevels fields + 1
  | _ => 0

def itemLevels : List Json → Nat
  | [] => 0
  | item :: rest => max (levels item) (itemLevels rest)

/-- How deep the brackets of some fields nest. -/
def fieldLevels : List (String × Json) → Nat
  | [] => 0
  | (_, value) :: rest => max (levels value) (fieldLevels rest)

end

def literalChars (value : Json) : List Char :=
  (literal value).toList

def fieldChars (field : String × Json) : List Char :=
  (keyLiteral field.1).toList ++ ':' :: ' ' :: literalChars field.2

def listed (parts : List (List Char)) : List Char :=
  [',', ' '].intercalate parts

theorem listed_cons_cons (part next : List Char) (more : List (List Char)) :
    listed (part :: next :: more) = part ++ ',' :: ' ' :: listed (next :: more) := by
  rw [listed, List.intercalate_cons_cons, List.append_assoc]
  rfl

theorem literals_eq_map (items : List Json) : literals items = items.map literal := by
  induction items with
  | nil => rw [literals]; rfl
  | cons item rest induction => rw [literals, induction]; rfl

theorem fieldLiterals_eq_map (fields : List (String × Json)) :
    (fieldLiterals fields).map String.toList = fields.map fieldChars := by
  induction fields with
  | nil => rw [fieldLiterals]; rfl
  | cons field rest induction =>
      obtain ⟨key, value⟩ := field
      rw [fieldLiterals, List.map_cons, induction, List.map_cons]
      simp [fieldChars, literalChars]

theorem literalChars_array (items : List Json) :
    literalChars (.array items) = '[' :: (listed (items.map literalChars) ++ [']']) := by
  have texts : items.map literalChars = (items.map literal).map String.toList := by
    rw [List.map_map]
    rfl
  rw [literalChars, literal, literals_eq_map, texts, listed]
  simp

theorem literalChars_empty : literalChars (.object []) = ['{', '}'] := by
  rw [literalChars, literal]
  rfl

theorem literalChars_object (field : String × Json) (fields : List (String × Json)) :
    literalChars (.object (field :: fields)) =
      '{' :: ' ' :: (listed ((field :: fields).map fieldChars) ++ [' ', '}']) := by
  rw [literalChars, literal, braced, ← fieldLiterals_eq_map, listed]
  simp

theorem isBlank_numberChar {c : Char} (plain : IsNumberChar c) : isBlank c = false := by
  rcases plain with digit | mark
  · exact isBlank_alphanum (by simp [Char.isAlphanum, digit])
  · simp only [List.mem_cons, List.not_mem_nil, or_false] at mark
    rcases mark with rfl | rfl | rfl | rfl | rfl <;> decide

theorem isFlat_numberChar {c : Char} (plain : IsNumberChar c) : IsFlat c := by
  rcases plain with digit | mark
  · exact isFlat_wordChar (by simp [isWordChar, Char.isAlphanum, digit])
  · simp only [List.mem_cons, List.not_mem_nil, or_false] at mark
    rcases mark with rfl | rfl | rfl | rfl | rfl <;> exact ⟨rfl, rfl, rfl⟩

theorem comma_numberChar {c : Char} (plain : IsNumberChar c) : c ≠ ',' := by
  rintro rfl
  rcases plain with digit | mark
  · exact absurd digit (by decide)
  · exact absurd mark (by decide)

theorem isFlat_nameCharacter {c : Char} (plain : isNameCharacter c = true) :
    IsFlat c ∧ isBlank c = false := by
  have parts : isWordChar c = true ∨ c = '$' := by
    simpa [isNameCharacter, isWordChar] using plain
  rcases parts with word | rfl
  · exact ⟨isFlat_wordChar word, isBlank_wordChar word⟩
  · exact ⟨⟨rfl, rfl, rfl⟩, by decide⟩

theorem laid_stringLiteral {apart : Char → Prop} (text : String) :
    Laid apart 0 (stringLiteral text).toList := by
  rw [toList_stringLiteral]
  have laid : Laid apart 0 ('\'' :: ((text.toList.flatMap escape ++ ['\'']) ++ [])) :=
    .string rfl (inString_body _) .nil
  rwa [List.append_nil] at laid

/-- A text that a character begins which is no blank, no quotation mark and ends nothing. -/
def Begins (text : List Char) : Prop :=
  ∃ c rest, text = c :: rest ∧ isBlank c = false ∧ c ∉ [',', ']', '}', '"']

theorem Begins.append {text : List Char} (begins : Begins text) (rest : List Char) :
    Begins (text ++ rest) := by
  obtain ⟨c, more, rfl, solid, other⟩ := begins
  exact ⟨c, more ++ rest, rfl, solid, other⟩

theorem begins_numberChars {c : Char} {rest : List Char} (plain : IsNumberChar c) :
    Begins (c :: rest) := by
  refine ⟨c, rest, rfl, isBlank_numberChar plain, ?_⟩
  rintro member
  have flat := isFlat_numberChar plain
  simp only [List.mem_cons, List.not_mem_nil, or_false] at member
  rcases member with rfl | rfl | rfl | rfl
  · exact comma_numberChar plain rfl
  · exact absurd flat.2.2 (by decide)
  · exact absurd flat.2.2 (by decide)
  · exact absurd flat.1 (by decide)

theorem begins_literal {depth : Nat} (stable : Json.ReadsBack depth value) :
    Begins (literalChars value) := by
  cases stable with
  | null => exact ⟨'n', "ull".toList, by rw [literalChars, literal]; rfl, by decide, by decide⟩
  | bool value =>
      cases value with
      | true => exact ⟨'t', "rue".toList, by rw [literalChars, literal]; rfl, by decide, by decide⟩
      | false => exact ⟨'f', "alse".toList, by rw [literalChars, literal]; rfl, by decide, by decide⟩
  | @number _ value stable =>
      have plain := number_chars stable
      obtain ⟨_, c, rest, shape, _⟩ := Json.ofText?_eq_some stable
      rw [shape] at plain
      rw [literalChars, literal, Json.Number.text, String.toList_ofList, shape]
      exact begins_numberChars (plain c (by simp))
  | string text =>
      exact ⟨'\'', _, by rw [literalChars, literal, toList_stringLiteral], by decide, by decide⟩
  | array all => exact ⟨'[', _, literalChars_array _, by decide, by decide⟩
  | @object _ fields _ _ =>
      cases fields with
      | nil => exact ⟨'{', _, literalChars_empty, by decide, by decide⟩
      | cons field rest => exact ⟨'{', _, literalChars_object field rest, by decide, by decide⟩

theorem keyLiteral_cases (key : String) :
    (keyLiteral key).toList = (stringLiteral key).toList ∨
      (isPlainKey key = true ∧ (keyLiteral key).toList = key.toList) := by
  rw [keyLiteral]
  split
  · next plain => exact .inr ⟨plain, rfl⟩
  · exact .inl rfl

/-- A plain key is a name that no digit begins. -/
theorem name_of_isPlainKey {key : String} (plain : isPlainKey key = true) :
    ∃ first rest, key.toList = first :: rest ∧ first.isDigit = false ∧
      ∀ c ∈ key.toList, isNameCharacter c = true := by
  rw [isPlainKey] at plain
  split at plain
  · cases plain
  · next first rest shape =>
    simp only [Bool.and_eq_true, Bool.not_eq_true', List.all_eq_true] at plain
    obtain ⟨⟨name, letter⟩, more⟩ := plain
    refine ⟨first, rest, shape, letter, fun c member => ?_⟩
    rw [shape] at member
    rcases List.mem_cons.mp member with rfl | later
    · exact name
    · exact more c later

theorem laid_keyLiteral (key : String) : Laid (fun _ => False) 0 (keyLiteral key).toList := by
  rcases keyLiteral_cases key with same | ⟨plain, same⟩
  · rw [same]
    exact laid_stringLiteral key
  · obtain ⟨_, _, _, _, name⟩ := name_of_isPlainKey plain
    rw [same]
    exact .of_solid fun c member => ⟨(isFlat_nameCharacter (name c member)).1,
      (isFlat_nameCharacter (name c member)).2, id⟩

theorem begins_field (field : String × Json) : Begins (fieldChars field) := by
  refine Begins.append ?_ _
  rcases keyLiteral_cases field.1 with same | ⟨plain, same⟩
  · rw [same, toList_stringLiteral]
    exact ⟨'\'', _, rfl, by decide, by decide⟩
  · obtain ⟨first, rest, shape, _, name⟩ := name_of_isPlainKey plain
    have flat := isFlat_nameCharacter (name first (by simp [shape]))
    rw [same, shape]
    refine ⟨first, rest, rfl, flat.2, fun member => ?_⟩
    simp only [List.mem_cons, List.not_mem_nil, or_false] at member
    rcases member with rfl | rfl | rfl | rfl
    · exact absurd (name ',' (by simp [shape])) (by decide)
    · exact absurd flat.1.2.2 (by decide)
    · exact absurd flat.1.2.2 (by decide)
    · exact absurd flat.1.1 (by decide)

section Listed

variable {α : Type} {chars : α → List Char} {items : List α}

theorem begins_listed {item : α} (begins : Begins (chars item)) (more : List α) :
    Begins (listed ((item :: more).map chars)) := by
  cases more with
  | nil =>
      rw [List.map_singleton, listed, List.intercalate_singleton]
      exact begins
  | cons next rest =>
      rw [List.map_cons, List.map_cons, listed_cons_cons]
      exact begins.append _

theorem laid_listed {depth : α → Nat}
    (laid : ∀ item ∈ items, Laid (fun _ => False) (depth item) (chars item))
    (begins : ∀ item ∈ items, Begins (chars item)) :
    Laid (fun _ => False) ((items.map depth).foldr max 0) (listed (items.map chars)) := by
  induction items with
  | nil => exact .nil
  | cons item more induction =>
      have first := laid item (by simp)
      have others := induction (fun other member => laid other (by simp [member]))
        (fun other member => begins other (by simp [member]))
      cases more with
      | nil =>
          rw [List.map_singleton, List.map_singleton, List.foldr_cons, List.foldr_nil, Nat.max_zero,
            listed, List.intercalate_singleton]
          exact first
      | cons next rest =>
          obtain ⟨c, tail, shape, plain, _⟩ := begins_listed (begins next (by simp)) rest
          have split : listed ((item :: next :: rest).map chars) =
              chars item ++ ',' :: ' ' :: listed ((next :: rest).map chars) :=
            listed_cons_cons _ _ _
          rw [split, List.map_cons, List.foldr_cons]
          refine first.append (.solid ⟨rfl, rfl, rfl⟩ (by decide) id ?_)
          rw [shape] at others ⊢
          exact .space id plain others

end Listed

theorem itemLevels_eq (items : List Json) : itemLevels items = (items.map levels).foldr max 0 := by
  induction items with
  | nil => rw [itemLevels]; rfl
  | cons item rest induction => rw [itemLevels, induction]; rfl

theorem fieldLevels_eq (fields : List (String × Json)) :
    fieldLevels fields = (fields.map fun field => levels field.2).foldr max 0 := by
  induction fields with
  | nil => rw [fieldLevels]; rfl
  | cons field rest induction => rw [fieldLevels, induction]; rfl

theorem laid_word {text : List Char} (plain : text.all fun c => isWordChar c = true ∧ c ≠ ',') :
    Laid (· = ',') 0 text := by
  refine .of_solid fun c member => ?_
  have entry := List.all_eq_true.mp plain c member
  simp only [decide_eq_true_eq] at entry
  exact ⟨isFlat_wordChar entry.1, isBlank_wordChar entry.1, entry.2⟩

theorem laid_fieldChars {field : String × Json} (begins : Begins (literalChars field.2))
    (laid : Laid (· = ',') (levels field.2) (literalChars field.2)) :
    Laid (fun _ => False) (levels field.2) (fieldChars field) := by
  obtain ⟨c, rest, shape, solid, _⟩ := begins
  have held : Laid (fun _ => False) (levels field.2) (literalChars field.2) := laid.weaken fun c => False.elim
  have front := laid_keyLiteral field.1
  rw [← Nat.zero_max (levels field.2), fieldChars]
  rw [shape] at held ⊢
  exact front.append (.solid ⟨rfl, rfl, rfl⟩ (by decide) id (.space id solid held))

/-- A literal is laid out, and its brackets are as deep as those of its value. -/
theorem laid_literal {depth : Nat} (stable : Json.ReadsBack depth value) :
    Laid (· = ',') (levels value) (literalChars value) := by
  induction stable with
  | null =>
      simp only [levels, literalChars, literal]
      exact laid_word (by decide)
  | bool value =>
      cases value with
      | true => simp only [levels, literalChars, literal]; exact laid_word (by decide)
      | false => simp only [levels, literalChars, literal]; exact laid_word (by decide)
  | @number _ value stable =>
      simp only [levels, literalChars, literal, Json.Number.text, String.toList_ofList]
      refine .of_solid fun c member => ?_
      have plain := number_chars stable c member
      exact ⟨isFlat_numberChar plain, isBlank_numberChar plain, comma_numberChar plain⟩
  | string text =>
      simp only [levels, literalChars, literal]
      exact laid_stringLiteral text
  | @array _ items all induction =>
      have inside := laid_listed (fun item member => (induction item member).weaken fun c => False.elim)
        fun item member => begins_literal (all item member)
      rw [levels, itemLevels_eq, literalChars_array, ← Nat.max_zero (_ + 1)]
      exact .bracket rfl rfl (.inl rfl) inside .nil
  | @object _ fields distinct all induction =>
      cases fields with
      | nil =>
          rw [levels, fieldLevels, literalChars_empty]
          exact .bracket rfl rfl (.inl rfl) .nil .nil
      | cons field more =>
          have inside := laid_listed
            (fun other member => laid_fieldChars (begins_literal (all other member)) (induction other member))
            fun other _ => begins_field other
          obtain ⟨c, rest, shape, solid, _⟩ := begins_listed (begins_field field) more
          rw [levels, fieldLevels_eq, literalChars_object, ← Nat.max_zero (_ + 1)]
          rw [shape] at inside ⊢
          exact .bracket rfl rfl (.inr rfl) (.space id solid inside) .nil

end QueryNotation.Chain
