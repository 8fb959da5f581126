import Mathlib.Data.List.Forall2
import QueryNotation.Proofs.Value.Number
import QueryNotation.Proofs.Value.Wire

namespace QueryNotation.Value

/-! # Arrays on the wire

Which elements of an array come back from its token.  Writing is recursive, reading
cuts the text at its commas and types the pieces one by one, so nothing that is read
is a list, and the word for null in an array is no word to the reader.
-/

open Text

variable {value other : Value} {items others : List Value}

/-- An element of an array: neither null nor an array itself. -/
def IsElement : Value → Prop
  | .null | .list _ => False
  | _ => True

/-- The same array: the same nesting and length at every level, null where there was
null, and the same text where there was an element.  An empty array may stand as text. -/
inductive SameArray : Value → Value → Prop where
  | null : SameArray .null .null
  | element {value other : Value} (left : value.IsElement) (right : other.IsElement)
    (text : bareText value = bareText other) : SameArray value other
  | empty : SameArray (.list []) (.string "\x7b\x7d")
  | list {items others : List Value} (each : List.Forall₂ SameArray items others) :
    SameArray (.list items) (.list others)

theorem bareText_ofToken (token : String) : bareText (ofToken token) = token := by
  unfold ofToken
  split
  · next null => rw [null, bareText]
  · split
    · next yes => rw [yes]; rfl
    · split
      · next no => rw [no]; rfl
      · split
        · rw [bareText]
        · rw [bareText]

theorem isElement_ofToken {token : String} (other : token ≠ "null") : (ofToken token).IsElement := by
  rw [ofToken, if_neg other]
  split
  · trivial
  · split
    · trivial
    · split <;> trivial

theorem ofToken_ne_list (token : String) (items : List Value) : ofToken token ≠ .list items := by
  unfold ofToken
  split_ifs <;> exact Value.noConfusion

theorem finishItem_ne_list (quoted : Bool) (held : List Char) (items : List Value) :
    finishItem quoted held ≠ .list items := by
  cases quoted with
  | true => exact Value.noConfusion
  | false => exact ofToken_ne_list _ items

theorem scanItems_ne_list {state : ItemState} {quoted : Bool} {held text : List Char} :
    ∀ item ∈ scanItems state quoted held text, ∀ items, item ≠ .list items := by
  fun_induction scanItems state quoted held text with
  | case1 =>
      intro item member
      rw [List.mem_singleton.mp member]
      exact finishItem_ne_list _ _
  | case7 _ _ _ _ induction =>
      intro item member
      rcases List.mem_cons.mp member with here | behind
      · rw [here]
        exact finishItem_ne_list _ _
      · exact induction item behind
  | _ => assumption

theorem readItems_ne_list {text : List Char} {item : Value} (member : item ∈ readItems text)
    (items : List Value) : item ≠ .list items := by
  unfold readItems at member
  split at member
  · cases member
  · exact scanItems_ne_list item member items

/-- An item without a list in it is read as one item, whatever becomes of its text. -/
theorem scansAs_arrayItem (numeric : Sql.HasNumeric value)
    (flat : ∀ inner, value = .list inner → inner = []) :
    ScansAs value.returnedItem (arrayItem value).toList := by
  cases numeric with
  | null => exact @scansAs_plain "NULL".toList (by decide)
  | bool value => exact scansAs_item (@itemText_arrayItem (.bool value) trivial)
  | number numeric => exact scansAs_item (@itemText_arrayItem (.number _) numeric)
  | list all => exact scansAs_item (@itemText_arrayItem (.list _) (flat _ rfl))
  | string text =>
      by_cases quotes : needsQuotes arrayReserved text = true
      · exact scansAs_item (@itemText_arrayItem (.string text) (.inl quotes))
      · have plain := (plain_of_bare quotes).2
        rw [arrayItem, returnedItem, if_neg quotes, if_neg quotes]
        exact scansAs_plain fun c member => ⟨(plain c member).1, (plain c member).2.1⟩

/-- An item stands for the same element after it was read exactly if its text is kept. -/
theorem sameArray_returnedItem (numeric : Sql.HasNumeric value)
    (flat : ∀ inner, value = .list inner → inner = []) :
    SameArray value value.returnedItem ↔ value.KeepsText := by
  cases numeric with
  | null =>
      constructor
      · intro same
        cases same with
        | element left right text => exact left
      · exact fun keeps => keeps.elim
  | bool value => exact iff_of_true (.element trivial trivial rfl) trivial
  | number numeric => exact iff_of_true (.element trivial trivial rfl) numeric
  | list all =>
      obtain rfl := flat _ rfl
      exact iff_of_true .empty rfl
  | string text =>
      by_cases quotes : needsQuotes arrayReserved text = true
      · rw [returnedItem, if_pos quotes]
        exact iff_of_true (.element trivial trivial rfl) (.inl quotes)
      · rw [returnedItem, if_neg quotes, KeepsText, or_iff_right quotes]
        constructor
        · intro same
          -- An element that is read without its marks may have become a number or a keyword.
          generalize shape : ofToken (String.ofList (trim text.toList)) = other at same
          cases same with
          | element left right kept =>
              rw [bareText, ← shape, bareText_ofToken] at kept
              refine ⟨?_, ?_⟩
              · exact (String.toList_ofList.symm.trans (congrArg String.toList kept.symm))
              rintro rfl
              rw [← shape] at right
              exact right
        · rintro ⟨trimmed, other⟩
          rw [trimmed, String.ofList_toList]
          exact .element trivial (isElement_ofToken other) (bareText_ofToken text).symm

theorem ofWire_array {op : Operator} (array : op ∈ [.contains, .containedBy, .overlaps]) :
    ofWire op (wireToken op (.list items)) = readArray (arrayText items) := by
  simp only [List.mem_cons, List.not_mem_nil, or_false] at array
  rcases array with rfl | rfl | rfl <;> rfl

theorem readArray_cases (items : List Value) :
    readArray (arrayText items) = .string (arrayText items) ∨
      readArray (arrayText items) = .list (readItems (innerText items)) := by
  rw [readArray, between?_arrayText]
  cases isJsonObject (arrayText items) with
  | true => exact .inl rfl
  | false => exact .inr rfl

/-- An item that stands for something other than a list had no items of its own. -/
theorem flat_of_sameArray (same : List.Forall₂ SameArray items others)
    (plain : ∀ other ∈ others, ∀ inner, other ≠ .list inner) :
    ∀ item ∈ items, ∀ inner, item = .list inner → inner = [] := by
  induction same with
  | nil => exact List.forall_mem_nil _
  | @cons item other items others here _ induction =>
      refine List.forall_mem_cons.mpr ⟨?_, induction fun next member =>
        plain next (List.mem_cons_of_mem other member)⟩
      intro inner list
      cases here with
      | null => cases list
      | element left right text =>
          rw [list] at left
          exact left.elim
      | empty => exact (Value.list.inj list).symm
      | list each => exact absurd rfl (plain _ List.mem_cons_self _)

/-- If as many items come back as there were, each is what its own text is read as. -/
theorem readItems_innerText (numeric : ∀ item ∈ items, Sql.HasNumeric item)
    (flat : ∀ item ∈ items, ∀ inner, item = .list inner → inner = [])
    (counted : items.length = (readItems (innerText items)).length) :
    readItems (innerText items) = items.map returnedItem := by
  rw [readItems] at counted ⊢
  split
  · next blank =>
    rw [if_pos blank, List.length_nil, List.length_eq_zero_iff] at counted
    rw [counted]
    rfl
  · next solid =>
    apply scanItems_join
    · exact forall₂_texts fun item member => scansAs_arrayItem (numeric item member) (flat item member)
    · intro empty
      rw [innerText, empty] at solid
      exact solid rfl

/-- An array whose numbers are decimal denotes the same array after it was written and
read exactly if each of its items keeps its text: no item is null, the word for null, a
bare text with blanks at its ends or an array with items of its own. -/
theorem sameArray_ofWire_iff {op : Operator} (array : op ∈ [.contains, .containedBy, .overlaps])
    (numeric : Sql.HasNumeric (.list items)) :
    SameArray (.list items) (ofWire op (wireToken op (.list items))) ↔
      ∀ item ∈ items, item.KeepsText := by
  cases numeric with | list numeric =>
  rw [ofWire_array array]
  constructor
  · intro same
    rcases readArray_cases items with text | list
    · rw [text] at same
      cases same with
      | element left right text => exact left.elim
      | empty => exact List.forall_mem_nil _
    · rw [list] at same
      cases same with
      | element left right text => exact left.elim
      | list each =>
          have flat := flat_of_sameArray each fun _ => readItems_ne_list
          rw [readItems_innerText numeric flat each.length_eq, List.forall₂_map_right_iff,
            List.forall₂_same] at each
          intro item member
          exact (sameArray_returnedItem (numeric item member) (flat item member)).mp (each item member)
  · intro keeps
    by_cases empty : items = []
    · rw [empty]
      exact .empty
    · rw [readArray_arrayText empty keeps]
      apply SameArray.list
      rw [List.forall₂_map_right_iff, List.forall₂_same]
      intro item member
      refine (sameArray_returnedItem (numeric item member) ?_).mpr (keeps item member)
      rintro inner rfl
      exact keeps _ member

/-- A null in an array comes back as text. -/
theorem array_null_unkept :
    ¬ SameArray (.list [.null]) (ofWire .contains (wireToken .contains (.list [.null]))) := by
  have read : ofWire .contains (wireToken .contains (.list [.null])) = .list [.string "NULL"] := by
    decide
  rw [read]
  intro same
  cases same with
  | element left right text => exact left
  | list each =>
      cases each with
      | cons first rest =>
          cases first with
          | element left right text => exact left

/-- Marks, blanks and words in quotation marks come back; an array in an array does not. -/
theorem sameArray_ofWire_marks :
    SameArray (.list [.bool true, .number "-2.5", .string "", .string "a \"b\\,\x7bc\x7d", .list []])
      (ofWire .overlaps (wireToken .overlaps
        (.list [.bool true, .number "-2.5", .string "", .string "a \"b\\,\x7bc\x7d", .list []]))) ∧
    ¬ SameArray (.list [.list [.string "a"]])
      (ofWire .containedBy (wireToken .containedBy (.list [.list [.string "a"]]))) := by
  constructor
  · refine (sameArray_ofWire_iff (by decide) (.list ?_)).mpr ?_
    · simp only [List.forall_mem_cons]
      exact ⟨.bool true, .number (by decide), .string _, .string _, .list (List.forall_mem_nil _),
        List.forall_mem_nil _⟩
    · simp only [List.forall_mem_cons]
      exact ⟨trivial, (by decide : isNumeric "-2.5" = true), .inl (by decide), .inl (by decide), rfl, List.forall_mem_nil _⟩
  · refine mt (sameArray_ofWire_iff (by decide) (.list ?_)).mp ?_
    · exact List.forall_mem_singleton.mpr (.list (List.forall_mem_singleton.mpr (.string _)))
    · exact fun keeps => absurd (keeps _ List.mem_cons_self) (List.cons_ne_nil _ _)

end QueryNotation.Value
