import QueryNotation.Proofs.SelectList
import QueryNotation.Proofs.Text.Balanced

namespace QueryNotation

/-! # Brackets in select lists

An embed is found at the first parenthesis of an item, its list ends at the closer of that, and the list
is split again with one bracket less.  Each of the three scans begins anew, the last two inside the text
that the first has passed.  They stand there as the first did, so what could be split once can be read to
its depths, and nothing in it but a cast is refused.
-/

open Text

namespace Text

/-- The index of the byte at which a text goes on behind its first part. -/
def byteIndex (front : List Char) : Nat :=
  (String.ofList front).utf8ByteSize

/-- A byte of a text, or its end, at which a character begins. -/
def IsBoundary (text : List Char) (index : Nat) : Prop :=
  String.Pos.Raw.IsValid (String.ofList text) ⟨index⟩

theorem isBoundary_append (front rest : List Char) : IsBoundary (front ++ rest) (byteIndex front) := by
  refine String.Pos.Raw.isValid_iff_exists_append.mpr ⟨String.ofList front, String.ofList rest, ?_, rfl⟩
  rw [String.ofList_append]

theorem byteIndex_lt (front : List Char) (c : Char) (rest : List Char) :
    byteIndex front < byteIndex (front ++ c :: rest) := by
  have some : (String.ofList (c :: rest)).utf8ByteSize ≠ 0 := by
    rw [Ne, String.utf8ByteSize_eq_zero_iff, ← String.toList_inj, String.toList_ofList]
    exact List.cons_ne_nil c rest
  rw [byteIndex, byteIndex, String.ofList_append, String.utf8ByteSize_append]
  omega

end Text

namespace Selection

variable {bound : Nat} {text item : List Char} {readInner : List Char → Outcome Selection}
  {selection : Selection} {fault : Fault}

/-- The parenthesis of an embed has a closer in the item, and between them stands a list that can be
split with one bracket less. -/
theorem opened_item (balanced : Balanced bound .outside 0 item) :
    findTopLevel '(' bound item = .ok none ∨
      ∃ lower before inside closer behind, bound = lower + 1 ∧
        findTopLevel '(' bound item = .ok (some (before, '(' :: (inside ++ closer :: behind))) ∧
        item = before ++ '(' :: (inside ++ closer :: behind) ∧
        upToClose bound ('(' :: (inside ++ closer :: behind)) = .ok ('(' :: inside, behind) ∧
        isCloser closer = true ∧ Balanced lower .outside 0 inside := by
  rcases balanced.scanFor '(' with absent | ⟨before, after, found, rfl, opened⟩
  · exact .inl absent
  · obtain ⟨lower, inside, closer, behind, rfl, closed, rfl, closes, even⟩ := opened.upToClose rfl
    exact .inr ⟨lower, before, inside, closer, behind, rfl, found, rfl, closed, closes, even⟩

/-- An item that can be split is refused only for its cast or for its list. -/
theorem readItem_error (balanced : Balanced bound .outside 0 item)
    (failed : readItem bound readInner selection item = .error fault) :
    (∃ cast column, fault = .brokenCast cast column) ∨
      ∃ lower inside, bound = lower + 1 ∧ Balanced lower .outside 0 inside ∧ readInner inside = .error fault := by
  rcases opened_item balanced with absent | ⟨lower, before, inside, closer, behind, rfl, found, _, closed, _, even⟩
  · rw [readItem, absent] at failed
    simp only [Except.mapError, ok_bind] at failed
    split at failed
    · next cast _ => exact .inl ⟨cast, _, (Except.error.inj failed).symm⟩
    · cases failed
  · rw [readItem, found] at failed
    simp only [Except.mapError, ok_bind, readEmbed, closed, List.drop_succ_cons, List.drop_zero] at failed
    rcases error_of_bind failed with embedded | ⟨_, _, failed⟩
    · rcases error_of_bind embedded with inner | ⟨_, _, embedded⟩
      · exact .inr ⟨lower, inside, rfl, even, inner⟩
      · cases embedded
    · cases failed

/-- A list that can be split is refused only for a cast in it. -/
theorem ofChars_error (balanced : Balanced bound .outside 0 text) (failed : ofChars bound text = .error fault) :
    ∃ cast column, fault = .brokenCast cast column := by
  induction bound using Nat.strong_induction_on generalizing text with
  | _ bound induction =>
      obtain ⟨items, split⟩ := (balanced_iff_splits isFlat_comma).mp balanced
      rw [ofChars_eq, readWith] at failed
      simp only [splitTopLevel_trim (show isBlank ',' = false from rfl) rfl, split, Except.mapError,
        ok_bind] at failed
      rcases error_of_bind failed with folded | ⟨_, _, failed⟩
      · obtain ⟨item, member, before, refused⟩ := error_of_foldlM folded
        have alone := (splitTopLevel_each isFlat_comma rfl split item member).2.2
        rcases readItem_error ((balanced_iff_splits isFlat_comma).mpr ⟨_, alone⟩) refused with
          cast | ⟨lower, inside, rfl, even, inner⟩
        · exact cast
        · exact induction lower (Nat.lt_succ_self lower) even inner
      · cases failed

/-- Where an item is split into itself alone, the parenthesis that is found in it has a closer behind it,
both at the beginnings of characters, and the text between them can be split with one bracket less.  So a
list that could be split is never refused for its brackets or strings: only a cast in it can be. -/
theorem brackets_agree (bound : Nat) :
    (∀ item, splitTopLevel ',' bound item = .ok [item] →
      findTopLevel '(' bound item = .ok none ∨
      ∃ before inside closer behind,
        findTopLevel '(' bound item = .ok (some (before, '(' :: (inside ++ closer :: behind))) ∧
        item = before ++ '(' :: (inside ++ closer :: behind) ∧
        upToClose bound ('(' :: (inside ++ closer :: behind)) = .ok ('(' :: inside, behind) ∧
        isCloser closer = true ∧ byteIndex before < byteIndex (before ++ '(' :: inside) ∧
        IsBoundary item (byteIndex before) ∧ IsBoundary item (byteIndex (before ++ '(' :: inside)) ∧
        ∃ items, splitTopLevel ',' (bound - 1) inside = .ok items) ∧
    ∀ text items fault, splitTopLevel ',' bound (trim text) = .ok items → ofChars bound text = .error fault →
      (∃ cast column, fault = .brokenCast cast column) ∧
        fault.code ≠ "NESTING_TOO_DEEP" ∧ fault.code ≠ "UNBALANCED_INPUT" := by
  refine ⟨fun item alone => ?embeds, fun text items fault split failed => ?lists⟩
  case embeds =>
    refine (opened_item ((balanced_iff_splits isFlat_comma).mpr ⟨_, alone⟩)).imp_right ?_
    rintro ⟨lower, before, inside, closer, behind, rfl, found, rfl, closed, closes, even⟩
    refine ⟨before, inside, closer, behind, found, rfl, closed, closes, byteIndex_lt before '(' inside,
      isBoundary_append before _, ?_, (balanced_iff_splits isFlat_comma).mp even⟩
    have whole : before ++ '(' :: (inside ++ closer :: behind) =
        (before ++ '(' :: inside) ++ closer :: behind := by simp
    rw [whole]
    exact isBoundary_append _ _
  case lists =>
    rw [splitTopLevel_trim (show isBlank ',' = false from rfl) rfl] at split
    obtain ⟨cast, column, rfl⟩ := ofChars_error ((balanced_iff_splits isFlat_comma).mpr ⟨items, split⟩) failed
    exact ⟨⟨cast, column, rfl⟩, show "INVALID_COLUMN" ≠ "NESTING_TOO_DEEP" by decide,
      show "INVALID_COLUMN" ≠ "UNBALANCED_INPUT" by decide⟩

/-- Characters of several bytes, a parenthesis in a string and a bracket of another kind make no difference. -/
theorem brackets_agree_nested :
    (splitTopLevel ',' 2 "é:posts(ü,'a)',[x])".toList = .ok ["é:posts(ü,'a)',[x])".toList] ∧
      ∃ before inside closer behind,
        findTopLevel '(' 2 "é:posts(ü,'a)',[x])".toList =
          .ok (some (before, '(' :: (inside ++ closer :: behind))) ∧
        upToClose 2 ('(' :: (inside ++ closer :: behind)) = .ok ('(' :: inside, behind) ∧
        byteIndex before < byteIndex (before ++ '(' :: inside) ∧
        IsBoundary "é:posts(ü,'a)',[x])".toList (byteIndex (before ++ '(' :: inside)) ∧
        ∃ items, splitTopLevel ',' (2 - 1) inside = .ok items) ∧
    ∃ fault, ofChars 2 "posts(title::int; x)".toList = .error fault ∧ fault.code ≠ "UNBALANCED_INPUT" := by
  obtain ⟨embeds, lists⟩ := brackets_agree 2
  have alone : splitTopLevel ',' 2 "é:posts(ü,'a)',[x])".toList = .ok ["é:posts(ü,'a)',[x])".toList] := by
    decide +kernel
  have opened : findTopLevel '(' 2 "é:posts(ü,'a)',[x])".toList ≠ .ok none := by decide +kernel
  obtain ⟨before, inside, closer, behind, found, _, closed, _, later, _, boundary, split⟩ :=
    (embeds _ alone).resolve_left opened
  have listed : splitTopLevel ',' 2 (trim "posts(title::int; x)".toList) =
      .ok ["posts(title::int; x)".toList] := by decide +kernel
  have fails : (ofChars 2 "posts(title::int; x)".toList).isOk = false := by decide +kernel
  refine ⟨⟨alone, before, inside, closer, behind, found, closed, later, boundary, split⟩, ?_⟩
  cases refused : ofChars 2 "posts(title::int; x)".toList with
  | error fault => exact ⟨fault, rfl, (lists _ _ _ listed refused).2.2⟩
  | ok selection =>
      rw [refused] at fails
      cases fails

end Selection

end QueryNotation
