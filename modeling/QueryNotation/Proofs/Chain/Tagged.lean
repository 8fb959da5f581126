import QueryNotation.Proofs.Chain.Call
import QueryNotation.Proofs.Operator
import QueryNotation.Rest.Filter

namespace QueryNotation.Chain

/-! # Operator tokens in a chain and on the wire

The method `filter` of a chain is given the token of an operator that stands in front of the
point of a filter on the wire: a tag, with the mark of a negation in front of it or without, and
with a configuration behind it or without.  What the wire reads, the chain reads as the same
filter; the chain also takes configurations that the wire refuses.
-/

open Text Operator

def markedToken (negated : Bool) (tag : String) : String :=
  if negated then "not." ++ tag else tag

/-- A configuration behind the tag of an operator is closed, and the operator searches text. -/
def FitsConfig (tag : String) : Prop :=
  ∀ (op : Operator) (config : List Char), tag.toList = op.tag.toList ++ '(' :: config →
    op.searchesText = true ∧ ∃ inner, config = inner ++ [')']

variable {column value tag : String} {negated : Bool} {op : Operator} {front config : List Char}
  {found : Option (List Char)} {filter : Filter} {call : Call}

theorem tag_of_ofTag? (found : ofTag? tag = some op) : op.tag = tag := by
  simpa using List.find?_some found

theorem fitsConfig_of_bare (bare : cutFirst '(' tag.toList = none) : FitsConfig tag := by
  intro op config shape
  refine absurd (cutFirst_eq_none_iff.mp bare) (not_not.mpr ?_)
  rw [shape]
  simp

/-- A tag is cut off its configuration where the parenthesis opens, so there is one way to take it. -/
theorem fitsConfig_iff (cut : cutFirst '(' tag.toList = some (front, config))
    (known : ofTag? (String.ofList front) = some op) :
    FitsConfig tag ↔ op.searchesText = true ∧ ∃ inner, config = inner ++ [')'] := by
  have named : op.tag.toList = front := by rw [tag_of_ofTag? known, String.toList_ofList]
  constructor
  · intro fits
    exact fits op config (by rw [named, (cutFirst_eq_some cut).1])
  · rintro closed other config' shape
    have absent : '(' ∉ other.tag.toList := fun member => (tag_plain other _ member).2 rfl
    rw [shape, cutFirst_append absent] at cut
    obtain ⟨same, rfl⟩ := Prod.mk.inj (Option.some.inj cut)
    have again : ofTag? other.tag = some op := by
      rw [← known, ← same, String.ofList_toList]
    rw [ofTag?_tag] at again
    exact Option.some.inj again ▸ closed

def tokenFilter (column value : String) (negated : Bool) (op : Operator) (config : Option (List Char)) : Filter where
  column := column
  op := op
  value := Value.ofWire op value
  negated := negated
  config := config.map String.ofList

theorem dropLead?_token (plain : '.' ∉ tag.toList) :
    dropLead? "not.".toList (markedToken negated tag).toList = if negated then some tag.toList else none := by
  cases negated with
  | true => rw [markedToken, if_pos rfl, String.toList_append, dropLead?_append, if_pos rfl]
  | false =>
      refine dropLead?_eq_none ?_
      rintro ⟨rest, same⟩
      have point : '.' ∈ tag.toList := same ▸ List.mem_append_left _ (by decide)
      exact plain point

theorem toList_tokenText (negated : Bool) (tag value : String) :
    (markedToken negated tag ++ "." ++ value).toList =
      (if negated then "not.".toList else []) ++ (tag.toList ++ '.' :: value.toList) := by
  cases negated <;> simp [markedToken]

/-- In front of the point and a value, a token is marked as it is alone, but for the bare `not`. -/
theorem dropLead?_tokenText (plain : '.' ∉ tag.toList) (word : markedToken negated tag ≠ "not") :
    dropLead? "not.".toList (markedToken negated tag ++ "." ++ value).toList =
      if negated then some (tag.toList ++ '.' :: value.toList) else none := by
  rw [toList_tokenText]
  cases negated with
  | true => exact dropLead?_append _ _
  | false =>
      refine dropLead?_eq_none ?_
      rintro ⟨rest, same⟩
      have cut := cutFirst_append plain value.toList
      have front : cutFirst '.' ("not.".toList ++ rest) = some ("not".toList, rest) := rfl
      rw [same, if_neg (by decide), List.nil_append, cut] at front
      exact word (String.toList_injective (Prod.mk.inj (Option.some.inj front)).1)

/-- The chain reads every token whose tag names an operator. -/
theorem classify_token (column value : String) (negated : Bool) (plain : '.' ∉ tag.toList)
    (split : Call.splitConfig tag.toList = (front, found)) :
    Call.classify "filter" [.string column, .string (markedToken negated tag), .string value] = .ok call ↔
      ∃ op, ofTag? (String.ofList front) = some op ∧
        call = .filter (tokenFilter column value negated op found) := by
  let arguments : Arguments :=
    { method := "filter", values := [.string column, .string (markedToken negated tag), .string value] }
  have tagged : Call.taggedFilter arguments = (ofTag? (String.ofList front)).elim
      (.error (.unknownOperator (String.ofList front) (String.ofList front)))
      fun op => .ok (tokenFilter column value negated op found) := by
    have first : arguments.string 0 = .ok column := rfl
    have second : arguments.string 1 = .ok (markedToken negated tag) := rfl
    have third : arguments.value 2 = .ok (.string value) := rfl
    have bare : Call.splitConfig (markedToken false tag).toList = (front, found) := split
    rw [Call.taggedFilter]
    simp only [first, second, third, ok_bind, dropLead?_token plain]
    cases negated with
    | true =>
        simp only [if_true, split]
        cases ofTag? (String.ofList front) <;> rfl
    | false =>
        simp only [Bool.false_eq_true, if_false, bare]
        cases ofTag? (String.ofList front) <;> rfl
  rw [classify_method (by decide)]
  change (Call.taggedFilter arguments >>= fun filter => Except.ok (Call.filter filter)) = _ ↔ _
  rw [tagged]
  cases ofTag? (String.ofList front) with
  | none => simp [error_bind]
  | some op => simp [ok_bind, eq_comm]

theorem readFilter_tokenText (column value : String) (plain : '.' ∉ tag.toList)
    (word : markedToken negated tag ≠ "not") :
    Rest.readFilter column (markedToken negated tag ++ "." ++ value) =
      match Rest.splitConfig tag.toList with
      | none => .error (.openConfig column (markedToken negated tag ++ "." ++ value))
      | some (front, found) =>
        match ofTag? (String.ofList front) with
        | none => .error (.unknownOperator (String.ofList front)
            (column ++ "=" ++ (markedToken negated tag ++ "." ++ value)))
        | some op =>
          if found.isSome && !op.searchesText then
            .error (.needlessConfig (String.ofList front) column (markedToken negated tag ++ "." ++ value))
          else .ok (tokenFilter column value negated op found) := by
  have cut := cutFirst_append plain value.toList
  unfold Rest.readFilter
  rw [dropLead?_tokenText plain word]
  cases negated with
  | true =>
      simp only [if_true, cut, String.ofList_toList]
      rfl
  | false =>
      simp only [Bool.false_eq_true, if_false, toList_tokenText, List.nil_append, cut, String.ofList_toList]
      rfl

/-- The wire reads a token whose tag names an operator and whose configuration, if there is one, is
closed and belongs to an operator that searches text. -/
theorem readFilter_token (column value : String) (plain : '.' ∉ tag.toList)
    (word : markedToken negated tag ≠ "not") :
    Rest.readFilter column (markedToken negated tag ++ "." ++ value) = .ok filter ↔
      ∃ front found op, Rest.splitConfig tag.toList = some (front, found) ∧
        ofTag? (String.ofList front) = some op ∧ (found.isSome = true → op.searchesText = true) ∧
        filter = tokenFilter column value negated op found := by
  rw [readFilter_tokenText column value plain word]
  cases Rest.splitConfig tag.toList with
  | none => exact iff_of_false nofun fun ⟨_, _, _, split, _⟩ => nomatch split
  | some parts =>
      obtain ⟨front, found⟩ := parts
      cases known : ofTag? (String.ofList front) with
      | none =>
          refine iff_of_false (by simp [known]) ?_
          rintro ⟨_, _, _, ⟨⟩, some, _⟩
          exact nomatch known.symm.trans some
      | some op =>
          simp only [known]
          constructor
          · intro finished
            split at finished
            · cases finished
            · next needed =>
              refine ⟨front, found, op, rfl, known, fun configured => ?_, (Except.ok.inj finished).symm⟩
              simpa [configured] using needed
          · rintro ⟨_, _, other, ⟨⟩, same, searches, rfl⟩
            obtain rfl := Option.some.inj (known.symm.trans same)
            have needed : ¬ (found.isSome && !op.searchesText) = true := by
              cases configured : found.isSome with
              | false => simp
              | true => simp [searches configured]
            rw [if_neg needed]

/-- What stands behind the parenthesis of a tag makes a configuration of the chain if it is closed
and none otherwise; the wire has no reading of one that is open. -/
theorem splitConfig_cases (tag : List Char) :
    cutFirst '(' tag = none ∧ Call.splitConfig tag = (tag, none) ∧ Rest.splitConfig tag = some (tag, none) ∨
      ∃ front config, cutFirst '(' tag = some (front, config) ∧
        Call.splitConfig tag = (front, dropTail? [')'] config) ∧
        Rest.splitConfig tag = (dropTail? [')'] config).map fun inner => (front, some inner) := by
  unfold Call.splitConfig Rest.splitConfig
  cases cutFirst '(' tag with
  | none => exact .inl ⟨rfl, rfl, rfl⟩
  | some parts =>
      obtain ⟨front, config⟩ := parts
      refine .inr ⟨front, config, rfl, rfl, ?_⟩
      cases closed : dropTail? [')'] config <;> simp [closed]

/-- What the wire reads for a token and a value, the chain reads as the same filter; and what the
chain reads, the wire reads exactly if the configuration of the token, if it has one, is closed and
belongs to an operator that searches text.  The word `not` alone is no operator to the chain, and on
the wire it is the mark of a negation. -/
theorem readFilter_iff_classify (column value : String) (negated : Bool) (plain : '.' ∉ tag.toList) :
    (∀ call, Call.classify "filter" [.string column, .string (markedToken negated tag), .string value] = .ok call →
      ∃ filter, call = .filter filter) ∧
    (markedToken negated tag ≠ "not" → ∀ filter,
      (Rest.readFilter column (markedToken negated tag ++ "." ++ value) = .ok filter ↔
        Call.classify "filter" [.string column, .string (markedToken negated tag), .string value] =
            .ok (.filter filter) ∧ FitsConfig tag)) ∧
    (markedToken negated tag = "not" → ∀ call,
      Call.classify "filter" [.string column, .string (markedToken negated tag), .string value] ≠ .ok call) := by
  refine ⟨fun call read => ?_, fun word filter => ?_, fun word call read => ?_⟩
  · obtain ⟨op, -, rfl⟩ := (classify_token column value negated plain Prod.mk.eta.symm).mp read
    exact ⟨_, rfl⟩
  · rw [readFilter_token column value plain word]
    -- A chain takes a configuration that is not closed, or that its operator has no use for.
    rcases splitConfig_cases tag.toList with ⟨bare, taken, read⟩ | ⟨front, config, cut, taken, read⟩
    · rw [classify_token column value negated plain taken, read]
      constructor
      · rintro ⟨_, _, op, ⟨⟩, known, -, rfl⟩
        exact ⟨⟨op, known, rfl⟩, fitsConfig_of_bare bare⟩
      · rintro ⟨⟨op, known, same⟩, -⟩
        exact ⟨_, _, op, rfl, known, nofun, Call.filter.inj same⟩
    · rw [classify_token column value negated plain taken, read]
      constructor
      · rintro ⟨_, _, op, split, known, searches, rfl⟩
        obtain ⟨inner, closed, same⟩ := Option.map_eq_some_iff.mp split
        obtain ⟨rfl, rfl⟩ := Prod.mk.inj same
        exact ⟨⟨op, known, by rw [closed]⟩,
          (fitsConfig_iff cut known).mpr ⟨searches rfl, inner, eq_of_dropTail? closed⟩⟩
      · rintro ⟨⟨op, known, same⟩, fits⟩
        obtain ⟨searches, inner, rfl⟩ := (fitsConfig_iff cut known).mp fits
        rw [dropTail?_append] at same ⊢
        exact ⟨front, some inner, op, rfl, known, fun _ => searches, Call.filter.inj same⟩
  · cases negated with
    | true =>
        have point : '.' ∈ (markedToken true tag).toList := by simp [markedToken]
        rw [word] at point
        exact absurd point (by decide)
    | false =>
        obtain rfl : tag = "not" := word
        obtain ⟨op, known, -⟩ := (classify_token column value false plain rfl).mp read
        exact absurd known (by decide +revert)

/-- An open configuration, and one of an operator that searches no text, is taken by the chain and
refused on the wire. -/
theorem openConfig_taken :
    Call.classify "filter" [.string "a", .string "fts(english", .string "cat"] =
        .ok (.filter { column := "a", op := .fullText, value := .string "cat" }) ∧
      Rest.readFilter "a" "fts(english.cat" = .error (.openConfig "a" "fts(english.cat") ∧
      Call.classify "filter" [.string "a", .string "eq(english)", .string "cat"] =
        .ok (.filter { column := "a", op := .eq, value := .string "cat", config := some "english" }) ∧
      Rest.readFilter "a" "eq(english).cat" = .error (.needlessConfig "eq" "a" "eq(english).cat") :=
  ⟨rfl, rfl, rfl, rfl⟩

/-- A negation with a configuration that fits is the same filter in both. -/
theorem readFilter_iff_classify_german :
    '.' ∉ "wfts(german)".toList ∧ markedToken true "wfts(german)" = "not.wfts(german)" ∧
      FitsConfig "wfts(german)" ∧
      Rest.readFilter "body" "not.wfts(german).die katze" = .ok {
        column := "body", op := .webText, value := .string "die katze", negated := true
        config := some "german" } ∧
      Call.classify "filter" [.string "body", .string "not.wfts(german)", .string "die katze"] = .ok (.filter {
        column := "body", op := .webText, value := .string "die katze", negated := true
        config := some "german" }) := by
  have plain : '.' ∉ "wfts(german)".toList := by decide
  have token : markedToken true "wfts(german)" ≠ "not" := by decide
  have read : Rest.readFilter "body" "not.wfts(german).die katze" = .ok {
      column := "body", op := .webText, value := .string "die katze", negated := true
      config := some "german" } := rfl
  obtain ⟨taken, fits⟩ := ((readFilter_iff_classify "body" "die katze" true plain).2.1 token _).mp read
  exact ⟨plain, rfl, fits, read, taken⟩

end QueryNotation.Chain
