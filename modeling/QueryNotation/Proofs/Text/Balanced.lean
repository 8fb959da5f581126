import QueryNotation.Proofs.Text.Fitting

namespace QueryNotation.Text

/-! # Balanced text

`Balanced bound quoting depth text` is about a scan that comes to a text in a string or outside with
`depth` brackets open: it goes through to the end, where every string and bracket is closed, and on the
way never more than `bound` brackets are open.  Every scan of the text passes through the same states, so
what one of them cuts off at a place outside everything is balanced again.

Splitting is exact in this sense.  It succeeds on the balanced texts and no others, each of its pieces is
split into itself alone, and pieces that are put together are found again.
-/

inductive Balanced (bound : Nat) : Quoting → Nat → List Char → Prop where
  | nil : Balanced bound .outside 0 []
  | covered {quoting : Quoting} {depth : Nat} {c : Char} {rest : List Char}
    (covers : quoting.covers c = true) (behind : Balanced bound (quoting.step c) depth rest) :
    Balanced bound quoting depth (c :: rest)
  | bare {quoting : Quoting} {depth lower : Nat} {c : Char} {rest : List Char}
    (bare : quoting.covers c = false) (stepped : stepDepth bound depth c = .ok lower)
    (behind : Balanced bound quoting lower rest) : Balanced bound quoting depth (c :: rest)

variable {separator target opener c : Char} {bound depth lower : Nat} {quoting : Quoting}
  {text front rest inside behind : List Char} {pieces items : List (List Char)}

theorem step_of_bare (bare : quoting.covers c = false) : quoting.step c = quoting := by
  obtain rfl := outside_of_bare bare
  rw [Quoting.step, if_neg (by simpa [Quoting.covers] using bare)]

theorem stepDepth_le (low : depth ≤ bound) (stepped : stepDepth bound depth c = .ok lower) : lower ≤ bound := by
  rcases stepDepth_ok_iff.mp stepped with ⟨_, room, rfl⟩ | ⟨_, rfl⟩ | ⟨_, _, rfl⟩ <;> omega

namespace Balanced

theorem nil_iff : Balanced bound quoting depth [] ↔ depth = 0 ∧ quoting.isOpen = false := by
  constructor
  · rintro ⟨⟩
    exact ⟨rfl, rfl⟩
  · rintro ⟨rfl, shut⟩
    cases quoting with
    | outside => exact .nil
    | inside mark | escaped mark => cases shut

theorem covered_iff (covers : quoting.covers c = true) :
    Balanced bound quoting depth (c :: rest) ↔ Balanced bound (quoting.step c) depth rest := by
  constructor
  · intro balanced
    cases balanced with
    | covered _ behind => exact behind
    | bare bare _ _ =>
        rw [covers] at bare
        cases bare
  · exact .covered covers

theorem bare_iff (bare : quoting.covers c = false) :
    Balanced bound quoting depth (c :: rest) ↔
      ∃ lower, stepDepth bound depth c = .ok lower ∧ Balanced bound quoting lower rest := by
  constructor
  · intro balanced
    cases balanced with
    | covered covers _ =>
        rw [bare] at covers
        cases covers
    | bare _ stepped behind => exact ⟨_, stepped, behind⟩
  · rintro ⟨lower, stepped, behind⟩
    exact .bare bare stepped behind

end Balanced

/-- The balanced texts are those that can be split, at whatever separator. -/
theorem balanced_iff (flat : IsFlat separator) : Balanced bound quoting depth text ↔
    ∃ pieces, topLevelPieces separator bound quoting depth text = .ok pieces := by
  constructor
  · intro balanced
    -- Each rule of the grammar is one step of the scan, whether the character cuts or not.
    induction balanced with
    | nil => exact ⟨[[]], rfl⟩
    | covered covers _ induction =>
        obtain ⟨pieces, scanned⟩ := induction
        exact ⟨_, by rw [topLevelPieces, if_pos covers, scanned]; rfl⟩
    | @bare quoting depth lower c rest bare stepped _ induction =>
        obtain ⟨pieces, scanned⟩ := induction
        rw [topLevelPieces, if_neg (by simp [bare])]
        by_cases cut : c = separator ∧ depth = 0
        · obtain ⟨rfl, rfl⟩ := cut
          rw [stepDepth_flat flat] at stepped
          obtain rfl := Except.ok.inj stepped
          exact ⟨_, by rw [if_pos ⟨rfl, rfl⟩, scanned]; rfl⟩
        · exact ⟨_, by rw [if_neg cut, stepped]; simp only [scanned]; rfl⟩
  · rintro ⟨pieces, found⟩
    induction text generalizing quoting depth pieces with
    | nil =>
        rw [topLevelPieces] at found
        split at found
        · cases found
        · next closed => exact Balanced.nil_iff.mpr (by simpa using closed)
    | cons c rest induction =>
        rw [topLevelPieces] at found
        split at found
        · next covers =>
          obtain ⟨behind, scanned, _⟩ := ok_of_map found
          exact .covered covers (induction _ scanned)
        · next uncovered =>
          have bare : quoting.covers c = false := by simpa using uncovered
          split at found
          · next cut =>
            obtain ⟨rfl, rfl⟩ := cut
            obtain ⟨behind, scanned, _⟩ := ok_of_map found
            exact .bare bare (stepDepth_flat flat) (induction _ scanned)
          · split at found
            · cases found
            · next lower stepped =>
              obtain ⟨behind, scanned, _⟩ := ok_of_map found
              exact .bare bare stepped (induction _ scanned)

theorem balanced_iff_splits (flat : IsFlat separator) :
    Balanced bound .outside 0 text ↔ ∃ items, splitTopLevel separator bound text = .ok items := by
  rw [balanced_iff flat]
  constructor
  · rintro ⟨pieces, scanned⟩
    exact ⟨_, by rw [splitTopLevel, scanned]; rfl⟩
  · rintro ⟨items, split⟩
    obtain ⟨pieces, scanned, _⟩ := ok_of_map split
    exact ⟨pieces, scanned⟩

/-- Every piece is scanned as a whole: the first from where the text is, the others from outside. -/
theorem topLevelPieces_each (found : topLevelPieces separator bound quoting depth text = .ok pieces) :
    ∃ first more, pieces = first :: more ∧
      topLevelPieces separator bound quoting depth first = .ok [first] ∧
      ∀ piece ∈ more, topLevelPieces separator bound .outside 0 piece = .ok [piece] := by
  induction text generalizing quoting depth pieces with
  | nil =>
      have closed := found
      rw [topLevelPieces] at closed
      split at closed
      · cases closed
      · obtain rfl := Except.ok.inj closed
        exact ⟨[], [], rfl, found, List.forall_mem_nil _⟩
  | cons c rest induction =>
      rw [topLevelPieces] at found
      split at found
      · next covers =>
        obtain ⟨behind, scanned, rfl⟩ := ok_of_map found
        obtain ⟨first, more, rfl, here, others⟩ := induction scanned
        exact ⟨c :: first, more, rfl, by rw [topLevelPieces, if_pos covers, here]; rfl, others⟩
      · next uncovered =>
        split at found
        · next cut =>
          obtain ⟨rfl, rfl⟩ := cut
          obtain rfl := outside_of_bare (by simpa using uncovered)
          obtain ⟨behind, scanned, rfl⟩ := ok_of_map found
          obtain ⟨first, more, rfl, here, others⟩ := induction scanned
          exact ⟨[], first :: more, rfl, rfl, List.forall_mem_cons.mpr ⟨here, others⟩⟩
        · next uncut =>
          split at found
          · cases found
          · next lower stepped =>
            obtain ⟨behind, scanned, rfl⟩ := ok_of_map found
            obtain ⟨first, more, rfl, here, others⟩ := induction scanned
            refine ⟨c :: first, more, rfl, ?_, others⟩
            rw [topLevelPieces, if_neg uncovered, if_neg uncut, stepped]
            simp only [here]
            rfl

/-- An item of a list is not empty, has no blanks around it and is split into itself alone. -/
theorem splitTopLevel_each (flat : IsFlat separator) (solid : isBlank separator = false)
    (found : splitTopLevel separator bound text = .ok items) :
    ∀ item ∈ items, item ≠ [] ∧ trim item = item ∧ splitTopLevel separator bound item = .ok [item] := by
  obtain ⟨pieces, scanned, rfl⟩ := ok_of_map found
  obtain ⟨first, more, rfl, here, others⟩ := topLevelPieces_each scanned
  intro item member
  obtain ⟨trimmed, full⟩ := List.mem_filter.mp member
  obtain ⟨piece, listed, rfl⟩ := List.mem_map.mp trimmed
  have alone : topLevelPieces separator bound .outside 0 piece = .ok [piece] := by
    rcases List.mem_cons.mp listed with rfl | later
    · exact here
    · exact others piece later
  refine ⟨by simpa using full, trim_trim piece, ?_⟩
  rw [splitTopLevel_trim solid flat.2.1, splitTopLevel, alone, Except.map, List.map_singleton, List.filter_cons,
    if_pos full]
  rfl

/-- Items that are split into themselves alone are found again when separators stand between them. -/
theorem splitTopLevel_joined (flat : IsFlat separator)
    (alone : ∀ item ∈ items, splitTopLevel separator bound item = .ok [item]) :
    splitTopLevel separator bound ([separator].intercalate items) = .ok items := by
  induction items with
  | nil => rfl
  | cons item more induction =>
      have here := alone item List.mem_cons_self
      cases more with
      | nil => rwa [List.intercalate_singleton]
      | cons next others =>
          rw [List.intercalate_cons_cons, List.append_assoc]
          exact splitTopLevel_append flat.1 here (induction fun other member =>
            alone other (List.mem_cons_of_mem item member))

def unquotedText : Quoting → List Char → List Char
  | _, [] => []
  | quoting, c :: rest =>
    if quoting.covers c then unquotedText (quoting.step c) rest else c :: unquotedText (quoting.step c) rest

/-- In front of each place of a text stand no more closers than openers, and at most `bound` openers
more, when `depth` openers stand in front of the text. -/
def StaysIn (bound depth : Nat) (text : List Char) : Prop :=
  ∀ front, front <+: text → front.countP isCloser ≤ depth + front.countP isOpener ∧
    depth + front.countP isOpener ≤ bound + front.countP isCloser

theorem StaysIn.low (stays : StaysIn bound depth text) : depth ≤ bound := by
  simpa using (stays [] List.nil_prefix).2

/-- What a step adds to the open brackets it takes from those of the text. -/
theorem count_step (stepped : stepDepth bound depth c = .ok lower) (text : List Char) :
    depth + (c :: text).countP isOpener + text.countP isCloser =
      lower + text.countP isOpener + (c :: text).countP isCloser := by
  rcases stepDepth_ok_iff.mp stepped with ⟨opens, _, rfl⟩ | ⟨closes, rfl⟩ | ⟨bare, flat, rfl⟩
  · rw [List.countP_cons_of_pos opens, List.countP_cons_of_neg (by simp [not_isCloser_of_isOpener opens])]
    omega
  · rw [List.countP_cons_of_pos closes, List.countP_cons_of_neg (by simp [not_isOpener_of_isCloser closes])]
    omega
  · rw [List.countP_cons_of_neg (by simp [bare]), List.countP_cons_of_neg (by simp [flat])]

theorem stepDepth_of_staysIn (stays : StaysIn bound depth (c :: rest)) :
    ∃ lower, stepDepth bound depth c = .ok lower := by
  obtain ⟨closers, openers⟩ := stays [c] (List.cons_prefix_cons.mpr ⟨rfl, List.nil_prefix⟩)
  cases opens : isOpener c with
  | true =>
      rw [List.countP_singleton, List.countP_singleton, if_pos opens, not_isCloser_of_isOpener opens] at openers
      exact ⟨depth + 1, stepDepth_opener opens (show depth + 1 ≤ bound by simpa using openers)⟩
  | false =>
      cases closes : isCloser c with
      | true =>
          rw [List.countP_singleton, List.countP_singleton, if_pos closes, opens] at closers
          obtain ⟨lower, rfl⟩ := Nat.exists_eq_add_of_le' (by simpa using closers)
          exact ⟨lower, stepDepth_closer closes⟩
      | false => exact ⟨depth, stepDepth_ok_iff.mpr (.inr (.inr ⟨opens, closes, rfl⟩))⟩

theorem staysIn_cons : StaysIn bound depth (c :: rest) ↔
    depth ≤ bound ∧ ∃ lower, stepDepth bound depth c = .ok lower ∧ StaysIn bound lower rest := by
  constructor
  · intro stays
    obtain ⟨lower, stepped⟩ := stepDepth_of_staysIn stays
    refine ⟨stays.low, lower, stepped, fun front lead => ?_⟩
    have here := stays (c :: front) (List.cons_prefix_cons.mpr ⟨rfl, lead⟩)
    have moved := count_step stepped front
    omega
  · rintro ⟨low, lower, stepped, stays⟩ front lead
    rcases List.prefix_cons_iff.mp lead with rfl | ⟨more, rfl, further⟩
    · simpa using low
    · have there := stays more further
      have moved := count_step stepped more
      omega

/-- A text is balanced if its brackets outside strings come out even without leaving the bound, and
its strings are closed. -/
theorem balanced_iff_counts (low : depth ≤ bound) : Balanced bound quoting depth text ↔
    StaysIn bound depth (unquotedText quoting text) ∧
      depth + (unquotedText quoting text).countP isOpener = (unquotedText quoting text).countP isCloser ∧
      (text.foldl Quoting.step quoting).isOpen = false := by
  induction text generalizing quoting depth with
  | nil =>
      rw [Balanced.nil_iff, unquotedText]
      simp [StaysIn, low]
  | cons c rest induction =>
      rw [unquotedText, List.foldl_cons]
      cases covers : quoting.covers c with
      | true => rw [Balanced.covered_iff covers, if_pos rfl, induction low]
      | false =>
          rw [Balanced.bare_iff covers, if_neg Bool.false_ne_true, step_of_bare covers]
          constructor
          · rintro ⟨lower, stepped, behind⟩
            obtain ⟨stays, even, shut⟩ := (induction (stepDepth_le low stepped)).mp behind
            have moved := count_step stepped (unquotedText quoting rest)
            exact ⟨staysIn_cons.mpr ⟨low, lower, stepped, stays⟩, by omega, shut⟩
          · rintro ⟨stays, even, shut⟩
            obtain ⟨_, lower, stepped, further⟩ := staysIn_cons.mp stays
            have moved := count_step stepped (unquotedText quoting rest)
            exact ⟨lower, stepped, (induction further.low).mpr ⟨further, by omega, shut⟩⟩

/-- A text cannot be split exactly if a bracket closes that none opened, too many are open at once, or
one or a string is open at the end. -/
theorem splitTopLevel_error_iff (flat : IsFlat separator) :
    (∃ fault, splitTopLevel separator bound text = .error fault) ↔
      (∃ front, front <+: unquotedText .outside text ∧ front.countP isOpener < front.countP isCloser) ∨
      (∃ front, front <+: unquotedText .outside text ∧ bound + front.countP isCloser < front.countP isOpener) ∨
      (unquotedText .outside text).countP isCloser < (unquotedText .outside text).countP isOpener ∨
      (text.foldl Quoting.step .outside).isOpen = true := by
  have fails : (∃ fault, splitTopLevel separator bound text = .error fault) ↔
      ¬ Balanced bound .outside 0 text := by
    rw [balanced_iff_splits flat]
    cases splitTopLevel separator bound text with
    | error fault => simp
    | ok items => simp
  have counts : Balanced bound .outside 0 text ↔
      (∀ front, front <+: unquotedText .outside text → front.countP isCloser ≤ front.countP isOpener) ∧
      (∀ front, front <+: unquotedText .outside text → front.countP isOpener ≤ bound + front.countP isCloser) ∧
      (unquotedText .outside text).countP isOpener ≤ (unquotedText .outside text).countP isCloser ∧
      (text.foldl Quoting.step .outside).isOpen = false := by
    rw [balanced_iff_counts (Nat.zero_le bound), StaysIn]
    simp only [Nat.zero_add]
    constructor
    · rintro ⟨stays, even, shut⟩
      exact ⟨fun front lead => (stays front lead).1, fun front lead => (stays front lead).2, even.le, shut⟩
    · rintro ⟨closed, low, last, shut⟩
      exact ⟨fun front lead => ⟨closed front lead, low front lead⟩,
        last.antisymm (closed _ (List.prefix_refl _)), shut⟩
  rw [fails, counts]
  simp only [not_and_or, not_forall, Nat.not_le, Bool.not_eq_false, exists_prop]

theorem isFlat_comma : IsFlat ',' :=
  ⟨rfl, rfl, rfl⟩

/-- Splitting at commas is exact.  Each item is not empty, has no blanks around it and is split into itself
alone; items of which each is split into itself alone are found again between commas; and a text that
cannot be split has, outside its strings, a closer without an opener, more brackets open at once than
there may be or a bracket open at the end, or it ends in a string. -/
theorem splitTopLevel_exact (bound : Nat) :
    (∀ text items, splitTopLevel ',' bound text = .ok items →
      ∀ item ∈ items, item ≠ [] ∧ trim item = item ∧ splitTopLevel ',' bound item = .ok [item]) ∧
    (∀ items, (∀ item ∈ items, splitTopLevel ',' bound item = .ok [item]) →
      splitTopLevel ',' bound ([','].intercalate items) = .ok items) ∧
    (∀ text, (∃ fault, splitTopLevel ',' bound text = .error fault) ↔
      (∃ front, front <+: unquotedText .outside text ∧ front.countP isOpener < front.countP isCloser) ∨
      (∃ front, front <+: unquotedText .outside text ∧ bound + front.countP isCloser < front.countP isOpener) ∨
      (unquotedText .outside text).countP isCloser < (unquotedText .outside text).countP isOpener ∨
      (text.foldl Quoting.step .outside).isOpen = true) :=
  ⟨fun _ _ => splitTopLevel_each isFlat_comma rfl, fun _ => splitTopLevel_joined isFlat_comma,
    fun _ => splitTopLevel_error_iff isFlat_comma⟩

/-- Commas in strings and brackets cut nothing, and an escaped mark closes no string. -/
theorem splitTopLevel_exact_quoted :
    (∃ items, splitTopLevel ',' 8 "'a,\\',b' , \x7bx: [1, 2]\x7d,f(3, 4),".toList = .ok items ∧
      items = ["'a,\\',b'".toList, "\x7bx: [1, 2]\x7d".toList, "f(3, 4)".toList] ∧
      (∀ item ∈ items, item ≠ [] ∧ trim item = item ∧ splitTopLevel ',' 8 item = .ok [item]) ∧
      splitTopLevel ',' 8 ([','].intercalate items) = .ok items) ∧
    ∃ fault, splitTopLevel ',' 3 "((((x))))".toList = .error fault := by
  obtain ⟨each, joined, _⟩ := splitTopLevel_exact 8
  obtain ⟨_, _, fails⟩ := splitTopLevel_exact 3
  have split : splitTopLevel ',' 8 "'a,\\',b' , \x7bx: [1, 2]\x7d,f(3, 4),".toList =
      .ok ["'a,\\',b'".toList, "\x7bx: [1, 2]\x7d".toList, "f(3, 4)".toList] := by decide +kernel
  have alone := each _ _ split
  refine ⟨⟨_, split, rfl, alone, joined _ fun item member => (alone item member).2.2⟩,
    (fails _).mpr (.inr (.inl ⟨"((((".toList, ?_, ?_⟩))⟩
  · decide +kernel
  · decide +kernel

namespace Balanced

/-- A character that is found outside everything has a balanced text behind it. -/
theorem scanFor (balanced : Balanced bound quoting depth text) (target : Char) :
    scanFor target bound quoting depth text = .ok none ∨
      ∃ before after, scanFor target bound quoting depth text = .ok (some (before, target :: after)) ∧
        text = before ++ target :: after ∧ Balanced bound .outside 0 (target :: after) := by
  induction balanced with
  | nil => exact .inl rfl
  | @covered quoting depth c rest covers behind induction =>
      rw [Text.scanFor, if_pos covers]
      rcases induction with absent | ⟨before, after, found, rfl, left⟩
      · rw [absent]
        exact .inl rfl
      · rw [found]
        exact .inr ⟨c :: before, after, rfl, rfl, left⟩
  | @bare quoting depth lower c rest bare stepped behind induction =>
      rw [Text.scanFor, if_neg (by simp [bare])]
      by_cases here : c = target ∧ depth = 0
      · obtain ⟨rfl, rfl⟩ := here
        obtain rfl := outside_of_bare bare
        rw [if_pos ⟨rfl, rfl⟩]
        exact .inr ⟨[], rest, rfl, rfl, .bare bare stepped behind⟩
      · rw [if_neg here, stepped]
        rcases induction with absent | ⟨before, after, found, rfl, left⟩
        · simp only [absent]
          exact .inl rfl
        · simp only [found]
          exact .inr ⟨c :: before, after, rfl, rfl, left⟩

/-- A bracket that is open has a closer, and what stands in front of that is balanced with one bracket
less. -/
theorem scanToClose (balanced : Balanced (bound + 1) quoting (depth + 1) text) :
    ∃ inside closer behind, scanToClose (bound + 1) quoting (depth + 1) text = .ok (inside, behind) ∧
      text = inside ++ closer :: behind ∧ isCloser closer = true ∧ Balanced bound quoting depth inside := by
  induction text generalizing quoting depth with
  | nil => exact absurd (nil_iff.mp balanced).1 (Nat.succ_ne_zero depth)
  | cons c rest induction =>
      rw [Text.scanToClose]
      cases covers : quoting.covers c with
      | true =>
          obtain ⟨inside, closer, behind, found, rfl, closes, even⟩ := induction ((covered_iff covers).mp balanced)
          rw [if_pos rfl, found]
          exact ⟨c :: inside, closer, behind, rfl, rfl, closes, .covered covers even⟩
      | false =>
          obtain ⟨lower, stepped, left⟩ := (bare_iff covers).mp balanced
          rw [if_neg Bool.false_ne_true, stepped]
          cases lower with
          | zero =>
              have closes := isCloser_of_stepDepth stepped
              obtain rfl := outside_of_bare covers
              obtain rfl : depth = 0 := by
                rcases stepDepth_ok_iff.mp stepped with ⟨_, _, same⟩ | ⟨_, same⟩ | ⟨_, _, same⟩ <;> omega
              exact ⟨[], c, rest, by simp [closes], rfl, closes, .nil⟩
          | succ lower =>
              obtain ⟨inside, closer, behind, found, rfl, closes, even⟩ := induction left
              simp only [Nat.succ_ne_zero, false_and, if_false, found]
              exact ⟨c :: inside, closer, behind, rfl, rfl, closes, .bare covers (stepDepth_inner stepped) even⟩

/-- A bracket that begins a balanced text ends in it. -/
theorem upToClose (balanced : Balanced bound .outside 0 (opener :: rest)) (opens : isOpener opener = true) :
    ∃ lower inside closer behind, bound = lower + 1 ∧
      upToClose bound (opener :: rest) = .ok (opener :: inside, behind) ∧
      rest = inside ++ closer :: behind ∧ isCloser closer = true ∧ Balanced lower .outside 0 inside := by
  have bare : Quoting.outside.covers opener = false := not_isQuoteMark_of_isOpener opens
  obtain ⟨_, stepped, left⟩ := (bare_iff bare).mp balanced
  rcases stepDepth_ok_iff.mp stepped with ⟨_, room, rfl⟩ | ⟨closes, _⟩ | ⟨closed, _⟩
  · obtain ⟨lower, rfl⟩ := Nat.exists_eq_add_of_le' room
    obtain ⟨inside, closer, behind, found, rfl, closes, even⟩ := left.scanToClose
    refine ⟨lower, inside, closer, behind, rfl, ?_, rfl, closes, even⟩
    rw [Text.upToClose, Text.scanToClose, if_neg (by simp [bare]), stepped]
    simp only [Nat.succ_ne_zero, false_and, if_false, found]
    rfl
  · simp [not_isOpener_of_isCloser closes] at opens
  · simp [closed] at opens

end Balanced

end QueryNotation.Text
