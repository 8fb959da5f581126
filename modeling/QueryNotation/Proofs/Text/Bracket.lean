import QueryNotation.Proofs.Text.Blank
import QueryNotation.Text.Bracket

namespace QueryNotation.Text

/-! # Scanning well-formed text

`Nested apart height text` says that the strings in a text are closed, that its
brackets match and nest at most `height` deep, and that no character of the class
`apart` stands outside all of them.  Every scan passes over such a text and goes on
behind it as it would have in front of it.
-/

/-- A text that goes on inside a string and ends with the mark that closes it. -/
inductive InString : Quoting → List Char → Prop where
  | last {mark : Char} (plain : mark ≠ '\\') : InString (.inside mark) [mark]
  | more {quoting : Quoting} {c : Char} {rest : List Char} (isOpen : quoting.isOpen = true)
    (inside : InString (quoting.step c) rest) : InString quoting (c :: rest)

/-- A character that is part of no string and of no bracket. -/
def IsFlat (c : Char) : Prop :=
  isQuoteMark c = false ∧ isOpener c = false ∧ isCloser c = false

/-- A class of characters without marks of strings and brackets. -/
theorem isFlat_of_class {holds : Char → Bool}
    (apart : ∀ mark ∈ ['\'', '"', '\x60', '(', '[', '{', ')', ']', '}'], holds mark = false)
    {c : Char} (plain : holds c = true) : IsFlat c := by
  have other : ∀ mark ∈ ['\'', '"', '\x60', '(', '[', '{', ')', ']', '}'], c ≠ mark := by
    rintro mark member rfl
    rw [apart c member] at plain
    cases plain
  simp only [List.mem_cons, List.not_mem_nil, or_false, forall_eq_or_imp, forall_eq] at other
  simp [IsFlat, isQuoteMark, isOpener, isCloser, other]

inductive Nested : (apart : Char → Prop) → (height : Nat) → List Char → Prop where
  | nil {apart : Char → Prop} {height : Nat} : Nested apart height []
  | flat {apart : Char → Prop} {height : Nat} {c : Char} {rest : List Char} (flat : IsFlat c)
    (allowed : ¬ apart c) (behind : Nested apart height rest) : Nested apart height (c :: rest)
  | string {apart : Char → Prop} {height : Nat} {mark : Char} {body rest : List Char}
    (quote : isQuoteMark mark = true) (inside : InString (.inside mark) body)
    (behind : Nested apart height rest) : Nested apart height (mark :: (body ++ rest))
  | bracket {apart : Char → Prop} {height : Nat} {opener closer : Char} {inner rest : List Char}
    (opens : isOpener opener = true) (closes : isCloser closer = true)
    (inside : Nested (fun _ => False) height inner) (behind : Nested apart (height + 1) rest) :
    Nested apart (height + 1) (opener :: (inner ++ closer :: rest))

variable {apart : Char → Prop} {height bound depth : Nat} {separator target c : Char}
  {text rest : List Char}

namespace Nested

theorem append (front : Nested apart height text) (back : Nested apart height rest) :
    Nested apart height (text ++ rest) := by
  induction front with
  | nil => exact back
  | flat flat allowed _ induction => exact .flat flat allowed (induction back)
  | string quote inside _ induction =>
      rw [List.cons_append, List.append_assoc]
      exact .string quote inside (induction back)
  | bracket opens closes inside _ _ induction =>
      rw [List.cons_append, List.append_assoc, List.cons_append]
      exact .bracket opens closes inside (induction back)

theorem of_flat (plain : ∀ c ∈ text, IsFlat c ∧ ¬ apart c) : Nested apart height text := by
  induction text with
  | nil => exact .nil
  | cons c rest induction =>
      obtain ⟨flat, allowed⟩ := plain c (by simp)
      exact .flat flat allowed (induction fun d member => plain d (by simp [member]))

theorem mono {other : Nat} (low : height ≤ other) (nested : Nested apart height text) :
    Nested apart other text := by
  induction nested generalizing other with
  | nil => exact .nil
  | flat flat allowed _ induction => exact .flat flat allowed (induction low)
  | string quote inside _ induction => exact .string quote inside (induction low)
  | bracket opens closes _ _ inside behind =>
      cases other with
      | zero => exact absurd low (by omega)
      | succ other => exact .bracket opens closes (inside (by omega)) (behind low)

theorem weaken {other : Char → Prop} (less : ∀ c, other c → apart c)
    (nested : Nested apart height text) : Nested other height text := by
  induction nested with
  | nil => exact .nil
  | flat flat allowed _ induction =>
      exact .flat flat (fun found => allowed (less _ found)) (induction less)
  | string quote inside _ induction => exact .string quote inside (induction less)
  | bracket opens closes inside _ _ induction => exact .bracket opens closes inside (induction less)

end Nested

theorem step_outside_quote {mark : Char} (quote : isQuoteMark mark = true) :
    Quoting.step .outside mark = .inside mark := by
  rw [Quoting.step, if_pos quote]

theorem covers_of_isOpen {quoting : Quoting} (isOpen : quoting.isOpen = true) (c : Char) :
    quoting.covers c = true := by
  cases quoting with
  | outside => exact absurd isOpen (by decide)
  | inside mark => rfl
  | escaped mark => rfl

theorem outside_of_bare {quoting : Quoting} (bare : quoting.covers c = false) :
    quoting = .outside := by
  cases quoting with
  | outside => rfl
  | inside mark | escaped mark => cases bare

theorem step_last {mark : Char} (plain : mark ≠ '\\') :
    Quoting.step (.inside mark) mark = .outside := by
  rw [Quoting.step, if_neg plain, if_pos rfl]

theorem stepDepth_opener (opens : isOpener c = true) (room : depth < bound) :
    stepDepth bound depth c = .ok (depth + 1) := by
  unfold stepDepth
  rw [if_pos opens, if_pos room]

theorem not_isOpener_of_isCloser (closes : isCloser c = true) : isOpener c = false := by
  simp only [isCloser, Bool.or_eq_true, beq_iff_eq] at closes
  rcases closes with (rfl | rfl) | rfl <;> decide

theorem stepDepth_closer (closes : isCloser c = true) :
    stepDepth bound (depth + 1) c = .ok depth := by
  unfold stepDepth
  rw [if_neg (by simp [not_isOpener_of_isCloser closes]), if_pos closes]

theorem stepDepth_flat (flat : IsFlat c) : stepDepth bound depth c = .ok depth := by
  unfold stepDepth
  rw [if_neg (by simp [flat.2.1]), if_neg (by simp [flat.2.2])]

theorem not_isCloser_of_isOpener (opens : isOpener c = true) : isCloser c = false := by
  cases closes : isCloser c with
  | true => exact opens.symm.trans (not_isOpener_of_isCloser closes)
  | false => rfl

/-- A character outside strings opens a bracket, closes one or does neither. -/
theorem stepDepth_ok_iff {lower : Nat} : stepDepth bound depth c = .ok lower ↔
    isOpener c = true ∧ depth < bound ∧ lower = depth + 1 ∨
      isCloser c = true ∧ depth = lower + 1 ∨
      isOpener c = false ∧ isCloser c = false ∧ lower = depth := by
  unfold stepDepth
  cases opens : isOpener c with
  | true =>
      have closes := not_isCloser_of_isOpener opens
      by_cases room : depth < bound
      · simp [room, closes, eq_comm]
      · simp [room, closes]
  | false =>
      cases closes : isCloser c with
      | true => cases depth <;> simp [eq_comm]
      | false => simp [eq_comm]

theorem not_isQuoteMark_of_isOpener (opens : isOpener c = true) : isQuoteMark c = false := by
  simp only [isOpener, Bool.or_eq_true, beq_iff_eq] at opens
  rcases opens with (rfl | rfl) | rfl <;> decide

theorem not_isQuoteMark_of_isCloser (closes : isCloser c = true) : isQuoteMark c = false := by
  simp only [isCloser, Bool.or_eq_true, beq_iff_eq] at closes
  rcases closes with (rfl | rfl) | rfl <;> decide

def prependFirst (text : List Char) (found : List (List Char)) : List (List Char) :=
  text.foldr consFirst found

theorem prependFirst_cons (text piece : List Char) (more : List (List Char)) :
    prependFirst text (piece :: more) = (text ++ piece) :: more := by
  induction text with
  | nil => rfl
  | cons c rest induction =>
      rw [prependFirst, List.foldr_cons, ← prependFirst, induction]
      rfl

theorem map_prependFirst_cons (c : Char) (found : Except NestingFault (List (List Char))) :
    (found.map (prependFirst text)).map (consFirst c) = found.map (prependFirst (c :: text)) := by
  cases found <;> rfl

theorem map_prependFirst_append (front back : List Char)
    (found : Except NestingFault (List (List Char))) :
    (found.map (prependFirst back)).map (prependFirst front) =
      found.map (prependFirst (front ++ back)) := by
  cases found with
  | error fault => rfl
  | ok pieces => simp [Except.map, prependFirst]

theorem topLevelPieces_inString {quoting : Quoting} (inside : InString quoting text) :
    topLevelPieces separator bound quoting depth (text ++ rest) =
      (topLevelPieces separator bound .outside depth rest).map (prependFirst text) := by
  induction inside with
  | last plain =>
      rw [List.singleton_append, topLevelPieces, if_pos (covers_of_isOpen rfl _), step_last plain]
      rfl
  | more isOpen _ induction =>
      rw [List.cons_append, topLevelPieces, if_pos (covers_of_isOpen isOpen _), induction,
        map_prependFirst_cons]

/-- Splitting passes over well-formed text without a separator. -/
theorem topLevelPieces_nested (nested : Nested apart height text) (room : depth + height ≤ bound)
    (unbracketed : isOpener separator = false) (free : depth = 0 → apart separator) :
    topLevelPieces separator bound .outside depth (text ++ rest) =
      (topLevelPieces separator bound .outside depth rest).map (prependFirst text) := by
  induction nested generalizing depth rest with
  | nil =>
      rw [List.nil_append]
      cases topLevelPieces separator bound .outside depth rest <;> rfl
  | @flat apart height c text flat allowed _ induction =>
      have other : ¬ (c = separator ∧ depth = 0) := fun both => allowed (both.1 ▸ free both.2)
      rw [List.cons_append, topLevelPieces, if_neg (by simp [Quoting.covers, flat.1]),
        if_neg other, stepDepth_flat flat]
      simp only [induction room free, map_prependFirst_cons]
  | @string apart height mark body text quote inside _ induction =>
      rw [List.cons_append, List.append_assoc, topLevelPieces, if_pos (by exact quote),
        step_outside_quote quote, topLevelPieces_inString inside, induction room free,
        map_prependFirst_append, map_prependFirst_cons]
  | @bracket apart height opener closer inner text opens closes _ _ insideInduction induction =>
      -- Inside the bracket nothing separates, since the depth is no longer zero.
      have openerApart : ¬ (opener = separator ∧ depth = 0) := by
        rintro ⟨rfl, _⟩
        simp [unbracketed] at opens
      have closerApart : ¬ (closer = separator ∧ depth + 1 = 0) := by simp
      rw [List.cons_append, List.append_assoc, List.cons_append, topLevelPieces,
        if_neg (by simp [Quoting.covers, not_isQuoteMark_of_isOpener opens]), if_neg openerApart,
        stepDepth_opener opens (by omega)]
      simp only
      rw [insideInduction (by omega) (by simp), topLevelPieces,
        if_neg (by simp [Quoting.covers, not_isQuoteMark_of_isCloser closes]), if_neg closerApart,
        stepDepth_closer closes]
      simp only [induction room free]
      rw [map_prependFirst_cons, map_prependFirst_cons, map_prependFirst_append]
      rfl

/-- The pieces of well-formed parts that were joined by separators are the parts. -/
theorem topLevelPieces_join {parts : List (List Char)} (some : parts ≠ [])
    (unquoted : isQuoteMark separator = false) (unbracketed : isOpener separator = false)
    (nested : ∀ part ∈ parts, Nested (· = separator) bound part) :
    topLevelPieces separator bound .outside 0 ([separator].intercalate parts) = .ok parts := by
  induction parts with
  | nil => exact absurd rfl some
  | cons part more induction =>
      have first := nested part (by simp)
      cases more with
      | nil =>
          rw [List.intercalate_singleton, ← List.append_nil part,
            topLevelPieces_nested first (Nat.zero_add bound).le unbracketed fun _ => rfl]
          simp [topLevelPieces, Quoting.isOpen, Except.map, prependFirst_cons]
      | cons next others =>
          rw [List.intercalate_cons_cons, List.append_assoc, List.singleton_append,
            topLevelPieces_nested first (Nat.zero_add bound).le unbracketed fun _ => rfl,
            topLevelPieces, if_neg (by simp [Quoting.covers, unquoted]), if_pos ⟨rfl, rfl⟩,
            induction (by simp) fun other member => nested other (by simp [member])]
          simp [Except.map, prependFirst_cons]

/-- Well-formed parts that are not empty and need no trimming are found again. -/
theorem splitTopLevel_join {parts : List (List Char)}
    (nested : ∀ part ∈ parts, Nested (· = ',') bound part)
    (trimmed : ∀ part ∈ parts, trim part = part) (full : ∀ part ∈ parts, part ≠ []) :
    splitTopLevel ',' bound ([','].intercalate parts) = .ok parts := by
  cases parts with
  | nil => rfl
  | cons part more =>
      rw [splitTopLevel, topLevelPieces_join (by simp) (by decide) (by decide) nested]
      have kept : (part :: more).map trim = part :: more :=
        (List.map_congr_left trimmed).trans (List.map_id _)
      simp only [Except.map, kept, Except.ok.injEq, List.filter_eq_self]
      intro other member
      simpa using full other member

theorem scanToClose_inString {quoting : Quoting} (inside : InString quoting text) :
    scanToClose bound quoting depth (text ++ rest) =
      (scanToClose bound .outside depth rest).map fun found => (text ++ found.1, found.2) := by
  induction inside with
  | last plain =>
      rw [List.singleton_append, scanToClose, if_pos (covers_of_isOpen rfl _), step_last plain]
      rfl
  | more isOpen _ induction =>
      rw [List.cons_append, scanToClose, if_pos (covers_of_isOpen isOpen _), induction]
      cases scanToClose bound .outside depth rest <;> rfl

theorem scanToClose_nested (nested : Nested apart height text) (room : depth + 1 + height ≤ bound) :
    scanToClose bound .outside (depth + 1) (text ++ rest) =
      (scanToClose bound .outside (depth + 1) rest).map fun found => (text ++ found.1, found.2) := by
  induction nested generalizing depth rest with
  | nil =>
      rw [List.nil_append]
      cases scanToClose bound .outside (depth + 1) rest <;> rfl
  | @flat apart height c text flat allowed _ induction =>
      rw [List.cons_append, scanToClose, if_neg (by simp [Quoting.covers, flat.1]),
        stepDepth_flat flat]
      simp only [Nat.succ_ne_zero, false_and, if_false, induction room]
      cases scanToClose bound .outside (depth + 1) rest <;> rfl
  | @string apart height mark body text quote inside _ induction =>
      rw [List.cons_append, List.append_assoc, scanToClose, if_pos (by exact quote),
        step_outside_quote quote, scanToClose_inString inside, induction room]
      cases scanToClose bound .outside (depth + 1) rest <;> simp [Except.map]
  | @bracket apart height opener closer inner text opens closes _ _ insideInduction induction =>
      rw [List.cons_append, List.append_assoc, List.cons_append, scanToClose,
        if_neg (by simp [Quoting.covers, not_isQuoteMark_of_isOpener opens]),
        stepDepth_opener opens (by omega)]
      simp only [Nat.succ_ne_zero, false_and, if_false]
      rw [insideInduction (by omega), scanToClose,
        if_neg (by simp [Quoting.covers, not_isQuoteMark_of_isCloser closes]),
        stepDepth_closer closes]
      simp only [Nat.succ_ne_zero, false_and, if_false, induction room]
      cases scanToClose bound .outside (depth + 1) rest <;> simp [Except.map]

/-- The closer behind well-formed text is that of the bracket in front of it. -/
theorem upToClose_bracket {opener closer : Char} (opens : isOpener opener = true)
    (closes : isCloser closer = true) (nested : Nested apart height text)
    (room : height + 1 ≤ bound) :
    upToClose bound (opener :: (text ++ closer :: rest)) = .ok (opener :: text, rest) := by
  have closed : isCloser opener = false := by
    simp only [isOpener, Bool.or_eq_true, beq_iff_eq] at opens
    rcases opens with (rfl | rfl) | rfl <;> decide
  rw [upToClose, scanToClose,
    if_neg (by simp [Quoting.covers, not_isQuoteMark_of_isOpener opens]),
    stepDepth_opener opens (by omega)]
  simp only [Nat.succ_ne_zero, false_and, if_false]
  rw [scanToClose_nested nested (by omega), scanToClose,
    if_neg (by simp [Quoting.covers, not_isQuoteMark_of_isCloser closes]), stepDepth_closer closes]
  simp [closes, Except.map]

theorem findTopLevel_flat {front : List Char} (flat : ∀ c ∈ front, IsFlat c ∧ c ≠ target)
    (unquoted : isQuoteMark target = false) :
    findTopLevel target bound (front ++ target :: rest) = .ok (some (front, target :: rest)) := by
  rw [findTopLevel]
  induction front with
  | nil => rw [List.nil_append, scanFor, if_neg (by simp [Quoting.covers, unquoted]), if_pos ⟨rfl, rfl⟩]
  | cons c more induction =>
      obtain ⟨plain, other⟩ := flat c (by simp)
      rw [List.cons_append, scanFor, if_neg (by simp [Quoting.covers, plain.1]),
        if_neg fun found => other found.1, stepDepth_flat plain]
      simp only [induction fun d member => flat d (by simp [member])]
      rfl

theorem scanFor_inString {quoting : Quoting} (inside : InString quoting text) :
    scanFor target bound quoting depth (text ++ rest) =
      (scanFor target bound .outside depth rest).map
        (Option.map fun found => (text ++ found.1, found.2)) := by
  induction inside with
  | last plain =>
      rw [List.singleton_append, scanFor, if_pos (covers_of_isOpen rfl _), step_last plain]
      rfl
  | more isOpen _ induction =>
      rw [List.cons_append, scanFor, if_pos (covers_of_isOpen isOpen _), induction]
      rcases scanFor target bound .outside depth rest with fault | found
      · rfl
      · cases found <;> rfl

theorem scanFor_nested (nested : Nested apart height text) (room : depth + height ≤ bound)
    (absent : target ∉ text) :
    scanFor target bound .outside depth (text ++ rest) =
      (scanFor target bound .outside depth rest).map
        (Option.map fun found => (text ++ found.1, found.2)) := by
  induction nested generalizing depth rest with
  | nil =>
      rw [List.nil_append]
      rcases scanFor target bound .outside depth rest with fault | found
      · rfl
      · cases found <;> rfl
  | @flat apart height c text flat allowed _ induction =>
      obtain ⟨other, behind⟩ := not_or.mp (mt List.mem_cons.mpr absent)
      rw [List.cons_append, scanFor, if_neg (by simp [Quoting.covers, flat.1]),
        if_neg fun found => other found.1.symm, stepDepth_flat flat]
      simp only [induction room behind]
      rcases scanFor target bound .outside depth rest with fault | found
      · rfl
      · cases found <;> rfl
  | @string apart height mark body text quote inside _ induction =>
      simp only [List.mem_cons, List.mem_append, not_or] at absent
      rw [List.cons_append, List.append_assoc, scanFor, if_pos (by exact quote),
        step_outside_quote quote, scanFor_inString inside, induction room absent.2.2]
      rcases scanFor target bound .outside depth rest with fault | found
      · rfl
      · cases found <;> simp [Except.map]
  | @bracket apart height opener closer inner text opens closes _ _ insideInduction induction =>
      simp only [List.mem_cons, List.mem_append, not_or] at absent
      rw [List.cons_append, List.append_assoc, List.cons_append, scanFor,
        if_neg (by simp [Quoting.covers, not_isQuoteMark_of_isOpener opens]),
        if_neg fun found => absent.1 found.1.symm, stepDepth_opener opens (by omega)]
      simp only
      rw [insideInduction (by omega) absent.2.1, scanFor,
        if_neg (by simp [Quoting.covers, not_isQuoteMark_of_isCloser closes]),
        if_neg fun found => absent.2.2.1 found.1.symm, stepDepth_closer closes]
      simp only [induction room absent.2.2.2]
      rcases scanFor target bound .outside depth rest with fault | found
      · rfl
      · cases found <;> simp [Except.map]

/-- In well-formed text a character is not found where it does not stand. -/
theorem findTopLevel_nested (nested : Nested apart height text) (room : height ≤ bound)
    (absent : target ∉ text) : findTopLevel target bound text = .ok none := by
  rw [findTopLevel, ← List.append_nil text, scanFor_nested nested ((Nat.zero_add height).trans_le room) absent]
  rfl

theorem findTopLevel_absent (flat : ∀ c ∈ text, IsFlat c ∧ c ≠ target) :
    findTopLevel target bound text = .ok none := by
  have nested : Nested (· = target) 0 text := .of_flat flat
  exact findTopLevel_nested nested (Nat.zero_le bound) fun member => (flat target member).2 rfl

end QueryNotation.Text
