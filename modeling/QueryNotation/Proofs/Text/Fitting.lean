import QueryNotation.Proofs.Text.Separated

namespace QueryNotation.Text

/-! # Texts with room for their brackets

`Fits bound quoting depth text` is about a scan that comes to a text with `depth` brackets
open: none closes that none opened, and at no place are more than `bound` of them open.
Nothing is said about the end, so a text that fits does so up to each of its places, and what
is left of it behind a part fits from the state that the part leads to.
-/

inductive Fits (bound : Nat) : Quoting → Nat → List Char → Prop where
  | nil {quoting : Quoting} {depth : Nat} : Fits bound quoting depth []
  | covered {quoting : Quoting} {depth : Nat} {c : Char} {rest : List Char}
    (covers : quoting.covers c = true) (behind : Fits bound (quoting.step c) depth rest) :
    Fits bound quoting depth (c :: rest)
  | bare {quoting : Quoting} {depth lower : Nat} {c : Char} {rest : List Char}
    (bare : quoting.covers c = false) (stepped : stepDepth bound depth c = .ok lower)
    (behind : Fits bound quoting lower rest) : Fits bound quoting depth (c :: rest)

variable {separator opener mark c : Char} {bound other depth lower further : Nat} {quoting : Quoting}
  {text front rest inner behind : List Char} {pieces : List (List Char)}

/-- Which brackets are open does not depend on how many may be. -/
theorem stepDepth_agree (stepped : stepDepth bound depth c = .ok lower)
    (again : stepDepth other depth c = .ok further) : lower = further := by
  have moved := stepDepth_ok_iff.mp again
  rcases stepDepth_ok_iff.mp stepped with ⟨opens, _, rfl⟩ | ⟨closes, rfl⟩ | ⟨bare, flat, rfl⟩
  · simp [opens, not_isCloser_of_isOpener opens] at moved
    exact moved.2.symm
  · simp [closes, not_isOpener_of_isCloser closes] at moved
    exact moved
  · simp [bare, flat] at moved
    exact moved.symm

/-- Inside a bracket there is room for one bracket less. -/
theorem stepDepth_inner (stepped : stepDepth (bound + 1) (depth + 1) c = .ok (lower + 1)) :
    stepDepth bound depth c = .ok lower := by
  rw [stepDepth_ok_iff] at stepped ⊢
  rcases stepped with ⟨opens, room, same⟩ | ⟨closes, same⟩ | ⟨bare, flat, same⟩
  · exact .inl ⟨opens, by omega, by omega⟩
  · exact .inr (.inl ⟨closes, by omega⟩)
  · exact .inr (.inr ⟨bare, flat, by omega⟩)

theorem isCloser_of_stepDepth (stepped : stepDepth bound (depth + 1) c = .ok 0) : isCloser c = true := by
  rcases stepDepth_ok_iff.mp stepped with ⟨_, _, same⟩ | ⟨closes, _⟩ | ⟨_, _, same⟩
  · cases same
  · exact closes
  · cases same

namespace Fits

theorem of_append (fits : Fits bound quoting depth (front ++ rest)) : Fits bound quoting depth front := by
  induction front generalizing quoting depth with
  | nil => exact .nil
  | cons c more induction =>
      cases fits with
      | covered covers behind => exact .covered covers (induction behind)
      | bare bare stepped behind => exact .bare bare stepped (induction behind)

theorem behind_covered (fits : Fits bound quoting depth (c :: rest)) (covers : quoting.covers c = true) :
    Fits bound (quoting.step c) depth rest := by
  cases fits with
  | covered _ behind => exact behind
  | bare bare _ _ =>
      rw [covers] at bare
      cases bare

theorem behind_bare (fits : Fits bound quoting depth (c :: rest)) (bare : quoting.covers c = false) :
    ∃ lower, stepDepth bound depth c = .ok lower ∧ Fits bound quoting lower rest := by
  cases fits with
  | covered covers _ =>
      rw [bare] at covers
      cases covers
  | bare _ stepped behind => exact ⟨_, stepped, behind⟩

theorem behind_quote (fits : Fits bound .outside depth (c :: rest)) (quote : isQuoteMark c = true) :
    Fits bound (.inside c) depth rest := by
  rw [← step_outside_quote quote]
  exact fits.behind_covered quote

theorem behind_flat (fits : Fits bound .outside depth (c :: rest)) (flat : IsFlat c) :
    Fits bound .outside depth rest := by
  obtain ⟨lower, stepped, behind⟩ := fits.behind_bare flat.1
  rw [stepDepth_flat flat] at stepped
  obtain rfl := Except.ok.inj stepped
  exact behind

theorem behind_opener (fits : Fits bound .outside depth (c :: rest)) (opens : isOpener c = true) :
    depth < bound ∧ Fits bound .outside (depth + 1) rest := by
  obtain ⟨lower, stepped, behind⟩ := fits.behind_bare (not_isQuoteMark_of_isOpener opens)
  rcases stepDepth_ok_iff.mp stepped with ⟨_, room, rfl⟩ | ⟨closes, _⟩ | ⟨closed, _⟩
  · exact ⟨room, behind⟩
  · simp [not_isOpener_of_isCloser closes] at opens
  · simp [closed] at opens

theorem behind_closer (fits : Fits bound .outside (depth + 1) (c :: rest)) (closes : isCloser c = true) :
    Fits bound .outside depth rest := by
  obtain ⟨lower, stepped, behind⟩ := fits.behind_bare (not_isQuoteMark_of_isCloser closes)
  rw [stepDepth_closer closes] at stepped
  obtain rfl := Except.ok.inj stepped
  exact behind

theorem behind_append (fits : Fits bound .outside depth (front ++ rest)) (flat : ∀ c ∈ front, IsFlat c) :
    Fits bound .outside depth rest := by
  induction front with
  | nil => exact fits
  | cons c more induction =>
      exact induction (fits.behind_flat (flat c List.mem_cons_self)) fun d member =>
        flat d (List.mem_cons_of_mem c member)

theorem behind_dropWhile {drops : Char → Bool} (fits : Fits bound .outside depth text)
    (flat : ∀ c, drops c = true → IsFlat c) : Fits bound .outside depth (text.dropWhile drops) := by
  rw [← List.takeWhile_append_dropWhile (p := drops) (l := text)] at fits
  exact fits.behind_append fun c member => flat c (List.mem_takeWhile_imp member)

theorem behind_backslash (fits : Fits bound (.inside mark) depth ('\\' :: rest)) :
    Fits bound (.escaped mark) depth rest := by
  have left := fits.behind_covered rfl
  rwa [Quoting.step, if_pos rfl] at left

theorem behind_escaped (fits : Fits bound (.escaped mark) depth (c :: rest)) :
    Fits bound (.inside mark) depth rest :=
  fits.behind_covered rfl

theorem behind_mark (fits : Fits bound (.inside mark) depth (mark :: rest)) (plain : mark ≠ '\\') :
    Fits bound .outside depth rest := by
  rw [← step_last plain]
  exact fits.behind_covered rfl

theorem behind_plain (fits : Fits bound (.inside mark) depth (c :: rest)) (plain : c ≠ mark ∧ c ≠ '\\') :
    Fits bound (.inside mark) depth rest := by
  have left := fits.behind_covered rfl
  rwa [Quoting.step, if_neg plain.2, if_neg plain.1] at left

theorem behind_plains (fits : Fits bound (.inside mark) depth (front ++ rest))
    (plain : ∀ c ∈ front, c ≠ mark ∧ c ≠ '\\') : Fits bound (.inside mark) depth rest := by
  induction front with
  | nil => exact fits
  | cons c more induction =>
      exact induction (fits.behind_plain (plain c List.mem_cons_self)) fun d member =>
        plain d (List.mem_cons_of_mem c member)

theorem trim (fits : Fits bound .outside depth text) : Fits bound .outside depth (trim text) := by
  have started : Fits bound .outside depth (trimStart text) := fits.behind_dropWhile fun _ => isFlat_blank
  obtain ⟨tail, same⟩ := trimEnd_isPrefix (trimStart text)
  rw [← same] at started
  exact started.of_append

/-- The first piece fits where the text does, and each further one on its own. -/
theorem topLevelPieces (fits : Fits bound quoting depth text) (flat : IsFlat separator)
    (found : topLevelPieces separator other quoting depth text = .ok pieces) :
    ∃ first more, pieces = first :: more ∧ Fits bound quoting depth first ∧
      ∀ piece ∈ more, Fits bound .outside 0 piece := by
  induction text generalizing quoting depth pieces with
  | nil =>
      rw [Text.topLevelPieces] at found
      split at found
      · cases found
      · obtain rfl := Except.ok.inj found
        exact ⟨[], [], rfl, .nil, List.forall_mem_nil _⟩
  -- The piece in front starts as the text does, every later one outside everything.
  | cons c rest induction =>
      rw [Text.topLevelPieces] at found
      split at found
      · next covers =>
        obtain ⟨behind, scanned, rfl⟩ := ok_of_map found
        obtain ⟨first, more, rfl, here, others⟩ := induction (fits.behind_covered covers) scanned
        exact ⟨c :: first, more, rfl, .covered covers here, others⟩
      · next uncovered =>
        have bare : quoting.covers c = false := by simpa using uncovered
        obtain ⟨lower, stepped, left⟩ := fits.behind_bare bare
        split at found
        · next cut =>
          obtain ⟨rfl, rfl⟩ := cut
          obtain ⟨behind, scanned, rfl⟩ := ok_of_map found
          obtain rfl := outside_of_bare bare
          obtain ⟨first, more, rfl, here, others⟩ := induction (fits.behind_flat flat) scanned
          exact ⟨[], first :: more, rfl, .nil, List.forall_mem_cons.mpr ⟨here, others⟩⟩
        · split at found
          · cases found
          · next next again =>
            obtain rfl := stepDepth_agree stepped again
            obtain ⟨behind, scanned, rfl⟩ := ok_of_map found
            obtain ⟨first, more, rfl, here, others⟩ := induction left scanned
            exact ⟨c :: first, more, rfl, .bare bare stepped here, others⟩

theorem splitTopLevel (fits : Fits bound .outside 0 text) (flat : IsFlat separator)
    (found : splitTopLevel separator other text = .ok pieces) :
    ∀ piece ∈ pieces, Fits bound .outside 0 piece := by
  obtain ⟨cut, scanned, rfl⟩ := ok_of_map found
  obtain ⟨first, more, rfl, here, others⟩ := fits.topLevelPieces flat scanned
  intro piece member
  obtain ⟨whole, listed, rfl⟩ := List.mem_map.mp (List.mem_of_mem_filter member)
  exact (List.forall_mem_cons.mpr ⟨here, others⟩ whole listed).trim

end Fits

theorem fits_of_scanToClose (found : scanToClose (bound + 1) quoting (depth + 1) text = .ok (inner, behind)) :
    Fits bound quoting depth inner := by
  induction text generalizing quoting depth inner with
  | nil => cases found
  | cons c rest induction =>
      rw [scanToClose] at found
      split at found
      · next covers =>
        obtain ⟨⟨before, after⟩, scanned, same⟩ := ok_of_map found
        obtain ⟨rfl, rfl⟩ := Prod.mk.inj same
        exact .covered covers (induction scanned)
      · next uncovered =>
        have bare : quoting.covers c = false := by simpa using uncovered
        split at found
        · cases found
        · next lower stepped =>
          split at found
          · obtain ⟨rfl, rfl⟩ := Prod.mk.inj (Except.ok.inj found)
            exact .nil
          · next unclosed =>
            obtain ⟨⟨before, after⟩, scanned, same⟩ := ok_of_map found
            obtain ⟨rfl, rfl⟩ := Prod.mk.inj same
            cases lower with
            | zero => exact absurd ⟨rfl, isCloser_of_stepDepth stepped⟩ unclosed
            | succ lower => exact .bare bare (stepDepth_inner stepped) (induction scanned)

/-- Where a bracket has a closer, one bracket less may be open inside it. -/
theorem fits_of_upToClose (opens : isOpener opener = true)
    (found : upToClose bound (opener :: rest) = .ok (inner, behind)) :
    ∃ lower, bound = lower + 1 ∧ Fits lower .outside 0 (inner.drop 1) := by
  rw [upToClose, scanToClose, if_neg (by simp [Quoting.covers, not_isQuoteMark_of_isOpener opens])] at found
  cases bound with
  | zero =>
      unfold stepDepth at found
      rw [if_pos opens, if_neg (Nat.lt_irrefl 0)] at found
      cases found
  | succ lower =>
      rw [stepDepth_opener opens (Nat.succ_pos lower)] at found
      simp only [Nat.succ_ne_zero, false_and, if_false] at found
      obtain ⟨⟨before, after⟩, scanned, same⟩ := ok_of_map found
      obtain ⟨rfl, rfl⟩ := Prod.mk.inj same
      exact ⟨lower, rfl, fits_of_scanToClose scanned⟩

variable {ε α : Type} {height : α → Nat} {reader : List Char → Except ε (α × List Char)} {found : α}

/-- What is read of a text that fits is no higher than the text has room for, and what is left fits
as the whole did. -/
def StaysWithin (height : α → Nat) (reader : List Char → Except ε (α × List Char)) : Prop :=
  ∀ ⦃bound depth text found rest⦄, Fits bound .outside depth text → reader text = .ok (found, rest) →
    height found ≤ bound - depth ∧ Fits bound .outside depth rest

/-- What is read of the inside of a bracket is no higher than there is room for, and it is read with
the closer. -/
def ClosesWithin (height : α → Nat) (reader : List Char → Except ε (α × List Char)) : Prop :=
  ∀ ⦃bound depth text found rest⦄, Fits bound .outside (depth + 1) text →
    reader text = .ok (found, rest) → height found ≤ bound - (depth + 1) ∧ Fits bound .outside depth rest

theorem ClosesWithin.behind_opener (closes : ClosesWithin height reader)
    (fits : Fits bound .outside depth (opener :: text)) (opens : isOpener opener = true)
    (read : reader text = .ok (found, rest)) :
    height found + 1 ≤ bound - depth ∧ Fits bound .outside depth rest := by
  obtain ⟨room, inside⟩ := fits.behind_opener opens
  obtain ⟨low, behind⟩ := closes inside read
  exact ⟨by omega, behind⟩

def greatest (height : α → Nat) (elements : List α) : Nat :=
  (elements.map height).foldr max 0

theorem greatest_nil_le (height : α → Nat) : greatest height [] ≤ bound :=
  Nat.zero_le bound

theorem greatest_cons_le {element : α} {elements : List α} (here : height element ≤ bound)
    (behind : greatest height elements ≤ bound) : greatest height (element :: elements) ≤ bound :=
  Nat.max_le.mpr ⟨here, behind⟩

/-- An element stands in front of those that are read with the closer. -/
theorem ClosesWithin.behind_element {readRest : List Char → Except ε (List α × List Char)} {elements : List α}
    (closes : ClosesWithin (greatest height) readRest)
    (first : ∀ ⦃element left⦄, reader text = .ok (element, left) →
      height element ≤ bound - (depth + 1) ∧ Fits bound .outside (depth + 1) left)
    (read : (reader text >>= fun here =>
      readRest here.2 >>= fun further => .ok (here.1 :: further.1, further.2)) = .ok (elements, rest)) :
    greatest height elements ≤ bound - (depth + 1) ∧ Fits bound .outside depth rest := by
  obtain ⟨⟨element, left⟩, here, read⟩ := ok_of_bind read
  obtain ⟨⟨others, behind⟩, further, read⟩ := ok_of_bind read
  obtain ⟨rfl, rfl⟩ := Prod.mk.inj (Except.ok.inj read)
  obtain ⟨low, left⟩ := first here
  obtain ⟨lows, behind⟩ := closes left further
  exact ⟨greatest_cons_le low lows, behind⟩

end QueryNotation.Text
