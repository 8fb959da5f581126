import Mathlib.Data.List.Forall2
import QueryNotation.Proofs.Text.Blank
import QueryNotation.Proofs.Text.Cut
import QueryNotation.Value.Wire

namespace QueryNotation.Value

/-! # Reading back wire values

A token is read without knowing the type of what was written, so not every value
comes back.  `FitsWire` says which do, operator by operator; `ofWire_wireToken` that
they do.
-/

open Text

/-- A scalar that its bare text denotes. -/
def IsToken : Value → Prop
  | .null | .bool _ => True
  | .number text => isNumeric text = true
  | .string text => ofToken text = .string text
  | .list _ => False

theorem numeric_ne_keyword {text : String} (numeric : isNumeric text = true) :
    text ≠ "null" ∧ text ≠ "true" ∧ text ≠ "false" := by
  refine ⟨?_, ?_, ?_⟩ <;> rintro rfl <;> exact absurd numeric (by decide)

theorem ofToken_number {text : String} (numeric : isNumeric text = true) :
    ofToken text = .number text := by
  obtain ⟨null, true, false⟩ := numeric_ne_keyword numeric
  rw [ofToken, if_neg null, if_neg true, if_neg false, if_pos numeric]

theorem ofToken_bareText {value : Value} (token : value.IsToken) :
    ofToken (bareText value) = value := by
  cases value with
  | null => rfl
  | bool value => cases value <;> rfl
  | number text => exact ofToken_number token
  | string text => exact token
  | list items => exact token.elim

theorem numeric_mem {text : String} (numeric : isNumeric text = true) {c : Char}
    (member : c ∈ text.toList) : c = '-' ∨ c.isDigit = true ∨ c = '.' := by
  simp only [isNumeric, Bool.and_eq_true] at numeric
  have plain := List.all_eq_true.mp numeric.1.2
  split at plain
  · next rest shape =>
    rw [shape, List.mem_cons] at member
    rcases member with rfl | inside
    · exact .inl rfl
    · exact .inr (by simpa using plain c inside)
  · exact .inr (by simpa using plain c member)

theorem numeric_ne_nil {text : String} (numeric : isNumeric text = true) : text.toList ≠ [] := by
  intro empty
  simp [isNumeric, empty] at numeric

/-- How an item may be written so that `value` is read: without quotation marks and
commas, or between quotation marks. -/
inductive ItemText : Value → List Char → Prop where
  | bare {value : Value} {text : List Char} (some : text ≠ []) (trimmed : trim text = text)
    (plain : ∀ c ∈ text, c ≠ '"' ∧ c ≠ ',') (denotes : ofToken (String.ofList text) = value) :
    ItemText value text
  | quoted (text : String) : ItemText (.string text) (doubleQuoted text).toList

def quotedBody (text : List Char) : List Char :=
  text.flatMap fun c => if c = '\\' ∨ c = '"' then ['\\', c] else [c]

theorem toList_doubleQuoted (text : String) :
    (doubleQuoted text).toList = '"' :: (quotedBody text.toList ++ ['"']) :=
  String.toList_ofList

theorem scanItems_plain {text : List Char} (plain : ∀ c ∈ text, c ≠ '"' ∧ c ≠ ',') (quoted : Bool)
    (held rest : List Char) :
    scanItems .bare quoted held (text ++ rest) =
      scanItems .bare quoted (text.reverse ++ held) rest := by
  induction text generalizing held with
  | nil => rfl
  | cons c more induction =>
      obtain ⟨noMark, noComma⟩ := plain c (by simp)
      rw [List.cons_append, scanItems, if_neg noMark, if_neg noComma,
        induction fun d member => plain d (by simp [member])]
      simp

theorem scanItems_quoted (text held rest : List Char) :
    scanItems .quoted true held (quotedBody text ++ '"' :: rest) =
      scanItems .bare true (text.reverse ++ held) rest := by
  induction text generalizing held with
  | nil => simp [quotedBody, scanItems]
  | cons c more induction =>
      have body : quotedBody (c :: more) =
          (if c = '\\' ∨ c = '"' then ['\\', c] else [c]) ++ quotedBody more := rfl
      rw [body, List.reverse_cons, List.append_assoc, List.append_assoc, ← List.singleton_append,
        ← induction]
      split
      · simp [scanItems]
      · next plain =>
        rw [not_or] at plain
        simp [scanItems, plain.1, plain.2]

/-- A text that is read as one item, alone and in front of a comma. -/
def ScansAs (value : Value) (text : List Char) : Prop :=
  scanItems .bare false [] text = [value] ∧
    ∀ rest, scanItems .bare false [] (text ++ ',' :: rest) = value :: scanItems .bare false [] rest

theorem scansAs_plain {text : List Char} (plain : ∀ c ∈ text, c ≠ '"' ∧ c ≠ ',') :
    ScansAs (ofToken (String.ofList (trim text))) text := by
  have finished : finishItem false (text.reverse ++ []) = ofToken (String.ofList (trim text)) := by
    simp [finishItem]
  constructor
  · have scanned := scanItems_plain plain false [] []
    rw [List.append_nil] at scanned
    rw [scanned, scanItems, finished]
  · intro rest
    rw [scanItems_plain plain, scanItems, if_neg (by decide), if_pos rfl, finished]

theorem scansAs_item {value : Value} {text : List Char} (item : ItemText value text) :
    ScansAs value text := by
  cases item with
  | bare some trimmed plain denotes =>
      have scans := scansAs_plain plain
      rwa [trimmed, denotes] at scans
  | quoted content =>
      have finished : finishItem true (content.toList.reverse ++ []) = .string content := by
        simp [finishItem]
      rw [toList_doubleQuoted]
      constructor
      · rw [scanItems, if_pos rfl, scanItems_quoted, scanItems, finished]
      · intro rest
        rw [List.cons_append, List.append_assoc, scanItems, if_pos rfl, List.singleton_append,
          scanItems_quoted, scanItems, if_neg (by decide), if_pos rfl, finished]

theorem itemText_solid {value : Value} {text : List Char} (item : ItemText value text) :
    ∃ c ∈ text, isBlank c = false := by
  cases item with
  | bare some trimmed plain denotes =>
      by_contra absent
      push Not at absent
      have blank : ∀ c ∈ text, isBlank c = true := by simpa using absent
      rw [trim_blank blank] at trimmed
      exact some trimmed.symm
  | quoted content => exact ⟨'"', by simp [toList_doubleQuoted], by decide⟩

theorem scanItems_join {items : List Value} {texts : List (List Char)}
    (written : List.Forall₂ ScansAs items texts) (some : texts ≠ []) :
    scanItems .bare false [] ([','].intercalate texts) = items := by
  induction written with
  | nil => exact absurd rfl some
  | @cons value text items texts item _ induction =>
      cases texts with
      | nil =>
          cases items with
          | nil => rw [List.intercalate_singleton, item.1]
          | cons other more => contradiction
      | cons next others =>
          rw [List.intercalate_cons_cons, List.append_assoc, List.singleton_append, item.2,
            induction (by simp)]

theorem readItems_join {items : List Value} {texts : List (List Char)}
    (written : List.Forall₂ ItemText items texts) :
    readItems ([','].intercalate texts) = items := by
  have scans := written.imp fun _ _ item => scansAs_item item
  cases written with
  | nil => rfl
  | @cons value text items texts item rest =>
      obtain ⟨c, member, solid⟩ := itemText_solid item
      have inside : c ∈ [','].intercalate (text :: texts) := by
        cases texts with
        | nil => simpa using member
        | cons next others => simp [List.intercalate_cons_cons, member]
      rw [readItems, if_neg (by simp [allBlank_false inside solid]), scanItems_join scans (by simp)]

/-- A value that is no list, and decimal text if it is a number. -/
def IsScalar : Value → Prop
  | .number text => isNumeric text = true
  | .list _ => False
  | _ => True

/-- What an item of a list is read as: a string that stands bare is typed by its text. -/
def retyped : Value → Value
  | .string text =>
    if needsQuotes listReserved text || trim text.toList != text.toList then .string text
    else ofToken text
  | value => value

theorem IsToken.isScalar {value : Value} (token : value.IsToken) : value.IsScalar := by
  cases value with
  | list items => exact token.elim
  | number text => exact token
  | _ => trivial

theorem IsToken.retyped_eq {value : Value} (token : value.IsToken) : value.retyped = value := by
  cases value with
  | string text =>
      rw [retyped]
      split
      · rfl
      · exact token
  | _ => rfl

theorem itemText_listItem {value : Value} (scalar : value.IsScalar) :
    ItemText value.retyped (listItem value).toList := by
  cases value with
  | null => exact .bare (by decide) (by decide) (by decide) rfl
  | bool value => cases value <;> exact .bare (by decide) (by decide) (by decide) rfl
  | number text =>
      refine .bare (numeric_ne_nil scalar) (trim_of_solid fun c member => ?_)
        (fun c member => ?_) ?_
      · rcases numeric_mem scalar member with rfl | digit | rfl
        · decide
        · exact isBlank_alphanum (by simp [Char.isAlphanum, digit])
        · decide
      · rcases numeric_mem scalar member with rfl | digit | rfl
        · decide
        · constructor <;> rintro rfl <;> exact absurd digit (by decide)
        · decide
      · exact (congrArg ofToken String.ofList_toList).trans (ofToken_number scalar)
  | string text =>
      -- Text that could be mistaken for something else is quoted.
      by_cases quotes : (needsQuotes listReserved text || trim text.toList != text.toList) = true
      · rw [listItem, retyped, if_pos quotes, if_pos quotes]
        exact .quoted text
      · rw [listItem, retyped, if_neg quotes, if_neg quotes]
        simp only [needsQuotes, Bool.or_eq_true, not_or, Bool.not_eq_true, bne_eq_false_iff_eq,
          List.any_eq_false, List.contains_iff_mem] at quotes
        obtain ⟨⟨full, plain⟩, trimmed⟩ := quotes
        refine .bare (by simpa using full) trimmed (fun c member => ?_) ?_
        · have free := plain c member
          constructor <;> rintro rfl <;> exact free (by decide)
        · exact congrArg ofToken String.ofList_toList
  | list items => exact scalar.elim

theorem forall₂_texts {relation : Value → List Char → Prop} {items : List Value}
    {read : Value → Value} {write : Value → String}
    (each : ∀ item ∈ items, relation (read item) (write item).toList) :
    List.Forall₂ relation (items.map read) ((items.map write).map String.toList) := by
  rw [List.forall₂_map_left_iff, List.forall₂_map_right_iff, List.forall₂_map_right_iff,
    List.forall₂_same]
  exact each

/-- A list in parentheses is read back item by item. -/
theorem readList_join {items : List Value} (scalars : ∀ item ∈ items, item.IsScalar) :
    readList ("(" ++ String.intercalate "," (items.map listItem) ++ ")") = items.map retyped := by
  have written := forall₂_texts fun item member => itemText_listItem (scalars item member)
  have text : ("(" ++ String.intercalate "," (items.map listItem) ++ ")").toList =
      '(' :: [','].intercalate ((items.map listItem).map String.toList) ++ [')'] := by
    rw [String.toList_append, String.toList_append, String.toList_intercalate]
    rfl
  rw [readList, text, trim_between (by decide) (by decide), List.cons_append, between?, if_pos rfl,
    dropTail?_append, Option.getD_some, readItems_join written]

/-- An item that comes back from an array.  A null would come back as text, and the
blanks around a bare item are dropped. -/
def IsArrayItem : Value → Prop
  | .null | .list _ => False
  | .bool _ => True
  | .number text => isNumeric text = true
  | .string text => ofToken text = .string text ∧
      (needsQuotes arrayReserved text = true ∨ trim text.toList = text.toList)

def arrayItem : Value → String
  | .null => "NULL"
  | .string text => if needsQuotes arrayReserved text then doubleQuoted text else text
  | item => bareText item

theorem arrayItems_eq_map (items : List Value) : arrayItems items = items.map arrayItem := by
  induction items with
  | nil => rw [arrayItems]; rfl
  | cons item rest induction => cases item <;> simp [arrayItems, arrayItem, induction]

/-- The items of an array as they stand between the braces. -/
def innerText (items : List Value) : List Char :=
  [','].intercalate ((items.map arrayItem).map String.toList)

theorem toList_arrayText (items : List Value) :
    (arrayText items).toList = '{' :: innerText items ++ ['}'] := by
  rw [arrayText, bareText, arrayItems_eq_map, String.toList_append, String.toList_append,
    String.toList_intercalate]
  rfl

theorem between?_arrayText (items : List Value) :
    between? '{' '}' (arrayText items).toList = some (innerText items) := by
  rw [toList_arrayText, List.cons_append, between?, if_pos rfl, dropTail?_append]

/-- An item whose text comes back from an array: no null, no word that means null, no
blanks at the ends of a bare item, and no list with items of its own. -/
def KeepsText : Value → Prop
  | .null => False
  | .bool _ => True
  | .number text => isNumeric text = true
  | .string text =>
    needsQuotes arrayReserved text = true ∨ trim text.toList = text.toList ∧ text ≠ "null"
  | .list items => items = []

/-- What an item of an array is read as, if its items are read as items: a string that
stands bare is typed by its text. -/
def returnedItem : Value → Value
  | .null => .string "NULL"
  | .string text =>
    if needsQuotes arrayReserved text then .string text
    else ofToken (String.ofList (trim text.toList))
  | .list items => .string (arrayText items)
  | item => item

theorem IsArrayItem.keepsText {value : Value} (item : value.IsArrayItem) : value.KeepsText := by
  cases value with
  | string text =>
      obtain ⟨token, quotes | trimmed⟩ := item
      · exact .inl quotes
      · refine .inr ⟨trimmed, ?_⟩
        rintro rfl
        exact absurd token (by decide)
  | null | list => exact item.elim
  | bool | number => exact item

theorem IsArrayItem.returnedItem_eq {value : Value} (item : value.IsArrayItem) :
    value.returnedItem = value := by
  cases value with
  | string text =>
      obtain ⟨token, kept⟩ := item
      rw [returnedItem]
      split
      · rfl
      · next bare => rw [kept.resolve_left bare, String.ofList_toList, token]
  | null | list => exact item.elim
  | bool | number => rfl

theorem plain_of_bare {text : String} (bare : ¬ needsQuotes arrayReserved text = true) :
    text.toList ≠ [] ∧ ∀ c ∈ text.toList, c ≠ '"' ∧ c ≠ ',' ∧ c ≠ '}' := by
  simp only [needsQuotes, Bool.or_eq_true, not_or, Bool.not_eq_true, List.any_eq_false,
    List.contains_iff_mem] at bare
  obtain ⟨full, plain⟩ := bare
  refine ⟨by simpa using full, fun c member => ?_⟩
  have free := plain c member
  refine ⟨?_, ?_, ?_⟩ <;> rintro rfl <;> exact free (by decide)

theorem itemText_arrayItem {value : Value} (keeps : value.KeepsText) :
    ItemText value.returnedItem (arrayItem value).toList := by
  cases value with
  | null => exact keeps.elim
  | bool value => exact @itemText_listItem (.bool value) trivial
  | number text => exact @itemText_listItem (.number text) keeps
  | string text =>
      by_cases quotes : needsQuotes arrayReserved text = true
      · rw [arrayItem, returnedItem, if_pos quotes, if_pos quotes]
        exact .quoted text
      · obtain ⟨trimmed, -⟩ := keeps.resolve_left quotes
        obtain ⟨full, plain⟩ := plain_of_bare quotes
        rw [arrayItem, returnedItem, if_neg quotes, if_neg quotes, trimmed]
        exact .bare full trimmed (fun c member => ⟨(plain c member).1, (plain c member).2.1⟩) rfl
  | list items =>
      obtain rfl : items = [] := keeps
      exact .bare (by decide) (by decide) (by decide) (by decide)

/-- A text between quotation marks, read as a JSON string: what comes out is the text,
unless a control character stops the reading. -/
theorem readString_quoted (text rest : List Char) :
    Json.readString 0 (quotedBody text ++ '"' :: rest) = .ok (text, rest) ∨
      ∃ failure, Json.readString 0 (quotedBody text ++ '"' :: rest) = .error failure := by
  induction text with
  | nil => exact .inl (by simp [quotedBody, Json.readString])
  | cons c more induction =>
      have body : quotedBody (c :: more) =
          (if c = '\\' ∨ c = '"' then ['\\', c] else [c]) ++ quotedBody more := rfl
      rw [body, List.append_assoc]
      by_cases escaped : c = '\\' ∨ c = '"'
      · have step : Json.readString 0 ('\\' :: c :: (quotedBody more ++ '"' :: rest)) =
            (Json.readString 0 (quotedBody more ++ '"' :: rest)).map (Prod.map (c :: ·) id) := by
          rcases escaped with rfl | rfl <;> simp [Json.readString, Json.readEscape] <;> rfl
        rw [if_pos escaped, List.cons_append, List.cons_append, List.nil_append, step]
        rcases induction with found | ⟨failure, found⟩
        · exact .inl (by rw [found]; rfl)
        · exact .inr ⟨failure, by rw [found]; rfl⟩
      · rw [if_neg escaped, List.cons_append, List.nil_append]
        rw [not_or] at escaped
        -- Only the marks are escaped, and JSON refuses a bare control character.
        by_cases control : c.toNat < 0x20
        · exact .inr ⟨_, by rw [Json.readString, if_neg escaped.2, if_neg escaped.1,
            if_pos control]; rfl⟩
        · have step : Json.readString 0 (c :: (quotedBody more ++ '"' :: rest)) =
              (Json.readString 0 (quotedBody more ++ '"' :: rest)).map (Prod.map (c :: ·) id) := by
            rw [Json.readString, if_neg escaped.2, if_neg escaped.1, if_neg control]
            rfl
          rw [step]
          rcases induction with found | ⟨failure, found⟩
          · exact .inl (by rw [found]; rfl)
          · exact .inr ⟨failure, by rw [found]; rfl⟩

theorem arrayItem_unbraced {value : Value} (keeps : value.KeepsText) :
    ∀ c ∈ (arrayItem value).toList.head?, c ≠ '}' := by
  intro c first
  have member := List.mem_of_mem_head? first
  cases value with
  | null => exact keeps.elim
  | bool value =>
      cases value with
      | true =>
          obtain rfl : 't' = c := Option.some.inj first
          decide
      | false =>
          obtain rfl : 'f' = c := Option.some.inj first
          decide
  | number text =>
      rcases numeric_mem keeps member with rfl | digit | rfl
      · decide
      · rintro rfl
        exact absurd digit (by decide)
      · decide
  | string text =>
      by_cases quotes : needsQuotes arrayReserved text = true
      · rw [arrayItem, if_pos quotes, toList_doubleQuoted, List.head?_cons] at first
        obtain rfl := Option.some.inj first
        decide
      · rw [arrayItem, if_neg quotes] at member
        exact ((plain_of_bare quotes).2 c member).2.2
  | list items =>
      obtain rfl : items = [] := keeps
      obtain rfl : '{' = c := Option.some.inj first
      decide

theorem skipSpaces_solid {c : Char} (solid : isBlank c = false) (rest : List Char) :
    Json.skipSpaces (c :: rest) = c :: rest := by
  have space : Json.isSpace c = false := by
    by_contra blank
    simp only [Json.isSpace, Bool.not_eq_false, Bool.or_eq_true, beq_iff_eq] at blank
    rcases blank with ((rfl | rfl) | rfl) | rfl <;> exact absurd solid (by decide)
  simp [Json.skipSpaces, space]

/-- What an array begins with is no field of an object: it is no string, or a comma or
the end of the array stands behind it in place of a colon. -/
theorem readFields_arrayItem {value : Value} {text rest : List Char} (item : ItemText value text)
    (unbraced : ∀ c ∈ text.head?, c ≠ '}') (behind : ∃ c more, rest = c :: more ∧ c ∈ [',', '}'])
    (readItem : List Char → Except Json.Failure (Json × List Char)) (bound : Nat) :
    ∃ failure, Json.readFields readItem true (bound + 1) (text ++ rest) = .error failure := by
  cases item with
  | bare some trimmed plain denotes =>
      cases text with
      | nil => exact absurd rfl some
      | cons c more =>
          have noMark := (plain c (by simp)).1
          have noComma := (plain c (by simp)).2
          have noBrace : c ≠ '}' := unbraced c rfl
          rw [List.cons_append, Json.readFields, skipSpaces_solid (head_of_trimmed trimmed)]
          simp only [if_true]
          split <;> simp_all [Json.fail]
  | quoted content =>
      obtain ⟨c, more, rfl, mark⟩ := behind
      have field : ∃ failure, Json.readField readItem
          (quotedBody content.toList ++ '"' :: c :: more) = .error failure := by
        rcases readString_quoted content.toList (c :: more) with found | ⟨failure, found⟩
        · simp only [List.mem_cons, List.not_mem_nil, or_false] at mark
          rcases mark with rfl | rfl <;>
            exact ⟨_, by simp only [Json.readField, found, bind, Except.bind]; rfl⟩
        · exact ⟨failure, by simp only [Json.readField, found, bind, Except.bind]⟩
      obtain ⟨failure, failed⟩ := field
      refine ⟨failure, ?_⟩
      rw [toList_doubleQuoted, List.cons_append, List.append_assoc, List.singleton_append,
        Json.readFields, skipSpaces_solid (by decide)]
      simp only [if_true, failed, bind, Except.bind]

/-- An array with an item is no JSON object. -/
theorem isJsonObject_arrayText {items : List Value} (some : items ≠ [])
    (each : ∀ item ∈ items, item.KeepsText) : isJsonObject (arrayText items) = false := by
  obtain ⟨first, more, rfl⟩ := List.exists_cons_of_ne_nil some
  have item := itemText_arrayItem (each first (by simp))
  obtain ⟨rest, text, behind⟩ : ∃ rest, (arrayText (first :: more)).toList =
      '{' :: ((arrayItem first).toList ++ rest) ∧ ∃ c more, rest = c :: more ∧ c ∈ [',', '}'] := by
    rw [toList_arrayText]
    cases more with
    | nil => exact ⟨['}'], by simp [innerText], '}', [], rfl, by simp⟩
    | cons next others =>
        exact ⟨',' :: innerText (next :: others) ++ ['}'],
          by simp [innerText, List.intercalate_cons_cons], ',', _, rfl, by simp⟩
  obtain ⟨failure, failed⟩ := readFields_arrayItem item (arrayItem_unbraced (each first (by simp)))
    behind (Json.readValue 126) ((arrayItem first).toList ++ rest).length
  have unread : Json.readValue 127 ('{' :: ((arrayItem first).toList ++ rest)) = .error failure := by
    rw [Json.readValue, skipSpaces_solid (by decide)]
    simp only [Json.readObject, failed]
    rfl
  rw [isJsonObject, Json.ofText?, Json.read, Json.greatestDepth, text, unread]
  rfl

/-- An array is read back item by item. -/
theorem readArray_arrayText {items : List Value} (some : items ≠ [])
    (each : ∀ item ∈ items, item.KeepsText) :
    readArray (arrayText items) = .list (items.map returnedItem) := by
  have written := forall₂_texts fun item member => itemText_arrayItem (each item member)
  have read : readItems (innerText items) = items.map returnedItem := readItems_join written
  rw [readArray, between?_arrayText]
  simp only [isJsonObject_arrayText some each, Bool.false_eq_true, if_false, read]

/-- The values that come back from the token behind an operator's tag. -/
def FitsWire (op : Operator) (value : Value) : Prop :=
  if op.searchesText then ∃ text, value = .string text
  else
    match op with
    | .oneOf => ∃ items, value = .list items ∧ ∀ item ∈ items, item.IsToken
    | .is => value.IsToken ∧ ∀ text, value = .string text → text.toLower = text
    | .like | .ilike => ∃ text, value = .string text ∧ '%' ∉ text.toList
    | .matches | .imatches => ∃ text, value = .string text
    | .contains | .containedBy | .overlaps =>
      (∃ text, value = .string text ∧ readArray text = .string text) ∨
        ∃ items, value = .list items ∧ items ≠ [] ∧ ∀ item ∈ items, item.IsArrayItem
    | _ => value.IsToken

theorem toLower_eq_self {text : String} (lower : ∀ c ∈ text.toList, c.toLower = c) :
    text.toLower = text := by
  rw [← String.toList_inj, toList_toLower]
  exact (List.map_congr_left lower).trans (List.map_id _)

theorem toLower_bareText {value : Value} (token : value.IsToken)
    (lower : ∀ text, value = .string text → text.toLower = text) :
    (bareText value).toLower = bareText value := by
  cases value with
  | null => exact toLower_eq_self (by decide)
  | bool value => cases value <;> exact toLower_eq_self (by decide)
  | number text =>
      refine toLower_eq_self fun c member => ?_
      rcases numeric_mem token member with rfl | digit | rfl
      · decide
      · refine toLower_of_not_isUpper fun upper => ?_
        have above := isUpper_iff.mp upper
        have below := isDigit_iff.mp digit
        omega
      · decide
  | string text => exact lower text rfl
  | list items => exact token.elim

theorem replaceChar_of_absent {old new : Char} {text : String} (absent : old ∉ text.toList) :
    replaceChar old new text = text := by
  have same : text.toList.map (fun c => if c = old then new else c) = text.toList := by
    refine (List.map_congr_left fun c member => ?_).trans (List.map_id _)
    exact if_neg fun (equal : c = old) => absent (equal ▸ member)
  rw [replaceChar, same, String.ofList_toList]

/-- A value that fits is read back from its token. -/
theorem ofWire_wireToken {op : Operator} {value : Value} (fits : value.FitsWire op) :
    ofWire op (wireToken op value) = value := by
  unfold FitsWire at fits
  by_cases search : op.searchesText = true
  · rw [if_pos search] at fits
    obtain ⟨text, rfl⟩ := fits
    unfold wireToken ofWire
    rw [if_pos search, if_pos search, bareText]
  · rw [if_neg search] at fits
    unfold wireToken ofWire
    rw [if_neg search, if_neg search]
    cases op
    case oneOf =>
      obtain ⟨items, rfl, tokens⟩ := fits
      have read := readList_join fun item member => (tokens item member).isScalar
      have same : items.map retyped = items.map id :=
        List.map_congr_left fun item member => (tokens item member).retyped_eq
      exact congrArg Value.list (read.trans (same.trans (List.map_id items)))
    case is =>
      obtain ⟨token, lower⟩ := fits
      cases value with
      | string text =>
          have unchanged := lower text rfl
          simp only [unchanged]
          exact token
      | _ =>
          simp only [toLower_bareText token lower]
          exact ofToken_bareText token
    case like | ilike =>
      obtain ⟨text, rfl, absent⟩ := fits
      exact congrArg Value.string (replaceChar_of_absent absent)
    case «matches» | imatches =>
      obtain ⟨text, rfl⟩ := fits
      rfl
    case contains | containedBy | overlaps =>
      rcases fits with ⟨text, rfl, kept⟩ | ⟨items, rfl, some, each⟩
      · exact kept
      · have read := readArray_arrayText some fun item member => (each item member).keepsText
        have same : items.map returnedItem = items.map id :=
          List.map_congr_left fun item member => (each item member).returnedItem_eq
        exact read.trans (congrArg Value.list (same.trans (List.map_id items)))
    all_goals exact ofToken_bareText fits

end QueryNotation.Value
