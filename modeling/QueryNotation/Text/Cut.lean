namespace QueryNotation.Text

/-! # Cutting text

Text is cut at the first or last mark, or at every mark.  The cuts lose nothing
but the marks: putting the mark back between the parts gives the text again.
-/

def cutFirst (mark : Char) : List Char → Option (List Char × List Char)
  | [] => none
  | c :: rest =>
    if c = mark then some ([], rest)
    else (cutFirst mark rest).map fun (before, after) => (c :: before, after)

/-- The parts before and after the last `mark`. -/
def cutLast (mark : Char) : List Char → Option (List Char × List Char)
  | [] => none
  | c :: rest =>
    match cutLast mark rest with
    | some (before, after) => some (c :: before, after)
    | none => if c = mark then some ([], rest) else none

/-- The parts before and after the first place where `mark` stands. -/
def cutAtText (mark : List Char) : List Char → Option (List Char × List Char)
  | [] => if mark.isEmpty then some ([], []) else none
  | c :: rest =>
    match mark.isPrefixOf? (c :: rest) with
    | some after => some ([], after)
    | none => (cutAtText mark rest).map fun (before, after) => (c :: before, after)

/-- The pieces between the marks; one piece when there is no mark. -/
def pieces (isMark : Char → Bool) : List Char → List (List Char)
  | [] => [[]]
  | c :: rest =>
    if isMark c then [] :: pieces isMark rest
    else
      match pieces isMark rest with
      | [] => [[c]]
      | piece :: more => (c :: piece) :: more

/-- The pieces between the marks that are not empty. -/
def words (isMark : Char → Bool) (text : List Char) : List (List Char) :=
  (pieces isMark text).filter (!·.isEmpty)

/-- The text with every `old` replaced by `new`. -/
def substitute (old : Char) (new : List Char) (text : List Char) : List Char :=
  text.flatMap fun c => if c = old then new else [c]

/-- The text with `new` in every place where `old` stands, from the left and
without overlap.  `skip` counts the characters of a place still to be passed. -/
def substituteText (old new : List Char) (text : List Char) : List Char :=
  go 0 text
where
  go (skip : Nat) : List Char → List Char
    | [] => []
    | c :: rest =>
      match skip with
      | skip + 1 => go skip rest
      | 0 =>
        if !old.isEmpty && old.isPrefixOf (c :: rest) then new ++ go (old.length - 1) rest
        else c :: go 0 rest

/-- The text after `lead`, if it begins so. -/
def dropLead? (lead text : List Char) : Option (List Char) :=
  lead.isPrefixOf? text

/-- The text before `tail`, if it ends so. -/
def dropTail? (tail text : List Char) : Option (List Char) :=
  tail.isSuffixOf? text

theorem cutFirst_eq_some {mark : Char} {text before after : List Char}
    (cut : cutFirst mark text = some (before, after)) :
    text = before ++ mark :: after ∧ mark ∉ before := by
  induction text generalizing before with
  | nil => simp [cutFirst] at cut
  | cons c rest induction =>
    by_cases here : c = mark
    · simp only [cutFirst, here, if_true, Option.some.injEq, Prod.mk.injEq] at cut
      obtain ⟨rfl, rfl⟩ := cut
      simp [here]
    · simp only [cutFirst, here, if_false, Option.map_eq_some_iff] at cut
      obtain ⟨⟨front, back⟩, found, same⟩ := cut
      simp only [Prod.mk.injEq] at same
      obtain ⟨rfl, rfl⟩ := same
      have inner := induction found
      exact ⟨by rw [inner.1]; rfl, by simp [inner.2, Ne.symm here]⟩

theorem cutFirst_eq_none_iff {mark : Char} {text : List Char} :
    cutFirst mark text = none ↔ mark ∉ text := by
  induction text with
  | nil => simp [cutFirst]
  | cons c rest induction =>
    by_cases here : c = mark
    · simp [cutFirst, here]
    · simp [cutFirst, here, induction, Ne.symm here]

theorem cutFirst_append {mark : Char} {before : List Char} (absent : mark ∉ before)
    (after : List Char) :
    cutFirst mark (before ++ mark :: after) = some (before, after) := by
  induction before with
  | nil => simp [cutFirst]
  | cons c rest induction =>
    simp only [List.mem_cons, not_or] at absent
    simp [cutFirst, Ne.symm absent.1, induction absent.2]

theorem pieces_ne_nil (isMark : Char → Bool) (text : List Char) : pieces isMark text ≠ [] := by
  cases text with
  | nil => simp [pieces]
  | cons c rest =>
    simp only [pieces]
    split
    · simp
    · split <;> simp

end QueryNotation.Text
