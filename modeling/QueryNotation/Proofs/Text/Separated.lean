import Mathlib.Data.List.DropRight
import QueryNotation.Proofs.Outcome
import QueryNotation.Proofs.Text.Bracket

namespace QueryNotation.Text

/-! # Joining separated texts

Texts that are split on their own are split the same way when they stand one behind
another with a separator between them, and the blanks around them make no difference.
The scan ends a text outside every string and bracket, so what follows it is scanned as
at the beginning.
-/

variable {separator c : Char} {bound depth : Nat} {quoting : Quoting}
  {text front rest tail : List Char} {pieces : List (List Char)}

theorem topLevelPieces_ne_nil (found : topLevelPieces separator bound quoting depth text = .ok pieces) :
    pieces ≠ [] := by
  cases text with
  | nil =>
      rw [topLevelPieces] at found
      split at found
      · cases found
      · cases found
        exact List.cons_ne_nil _ _
  | cons c rest =>
      rw [topLevelPieces] at found
      split at found
      · obtain ⟨behind, _, rfl⟩ := ok_of_map found
        cases behind <;> exact List.cons_ne_nil _ _
      · split at found
        · obtain ⟨behind, _, rfl⟩ := ok_of_map found
          exact List.cons_ne_nil _ _
        · split at found
          · cases found
          · obtain ⟨behind, _, rfl⟩ := ok_of_map found
            cases behind <;> exact List.cons_ne_nil _ _

theorem consFirst_append (c : Char) (full : pieces ≠ []) (more : List (List Char)) :
    consFirst c (pieces ++ more) = consFirst c pieces ++ more := by
  cases pieces with
  | nil => exact absurd rfl full
  | cons piece others => rfl

/-- A text that can be split ends outside everything: the separator behind it cuts. -/
theorem topLevelPieces_append (unquoted : isQuoteMark separator = false)
    (found : topLevelPieces separator bound quoting depth front = .ok pieces) (rest : List Char) :
    topLevelPieces separator bound quoting depth (front ++ separator :: rest) =
      (topLevelPieces separator bound .outside 0 rest).map (pieces ++ ·) := by
  have passes {c : Char} {behind : List (List Char)} (full : behind ≠ []) :
      ((topLevelPieces separator bound .outside 0 rest).map (behind ++ ·)).map (consFirst c) =
        (topLevelPieces separator bound .outside 0 rest).map (consFirst c behind ++ ·) := by
    cases topLevelPieces separator bound .outside 0 rest with
    | error fault => rfl
    | ok others => exact congrArg Except.ok (consFirst_append c full others)
  induction front generalizing quoting depth pieces with
  -- The scan of the front text has ended outside everything, so the separator cuts here.
  | nil =>
      rw [topLevelPieces] at found
      split at found
      · cases found
      · next closed =>
        simp only [Bool.or_eq_true, decide_eq_true_eq, not_or, not_not] at closed
        obtain ⟨rfl, shut⟩ := closed
        obtain rfl := Except.ok.inj found
        cases quoting with
        | outside =>
            rw [List.nil_append, topLevelPieces, if_neg (by simp [Quoting.covers, unquoted]),
              if_pos ⟨rfl, rfl⟩]
            rfl
        | inside mark => exact absurd rfl shut
        | escaped mark => exact absurd rfl shut
  | cons c more induction =>
      rw [topLevelPieces] at found
      rw [List.cons_append, topLevelPieces]
      split at found
      · next covered =>
        obtain ⟨behind, scanned, rfl⟩ := ok_of_map found
        rw [if_pos covered, induction scanned, passes (topLevelPieces_ne_nil scanned)]
      · next bare =>
        rw [if_neg bare]
        split at found
        · next cut =>
          obtain ⟨behind, scanned, rfl⟩ := ok_of_map found
          rw [if_pos cut, induction scanned]
          cases topLevelPieces separator bound .outside 0 rest <;> rfl
        · next uncut =>
          rw [if_neg uncut]
          split at found
          · cases found
          · next lower stepped =>
            obtain ⟨behind, scanned, rfl⟩ := ok_of_map found
            simp only [induction scanned, passes (topLevelPieces_ne_nil scanned)]

/-- Every character stands in a piece or separates two. -/
theorem mem_topLevelPieces (found : topLevelPieces separator bound quoting depth text = .ok pieces)
    (member : c ∈ text) : c = separator ∨ ∃ piece ∈ pieces, c ∈ piece := by
  have first {d : Char} {behind : List (List Char)} (inside : c = d ∨ ∃ piece ∈ behind, c ∈ piece) :
      ∃ piece ∈ consFirst d behind, c ∈ piece := by
    cases behind with
    | nil => simpa [consFirst] using inside
    | cons piece more =>
        rcases inside with rfl | ⟨other, listed, inside⟩
        · exact ⟨c :: piece, List.mem_cons_self, List.mem_cons_self⟩
        · rcases List.mem_cons.mp listed with rfl | later
          · exact ⟨d :: other, List.mem_cons_self, List.mem_cons_of_mem d inside⟩
          · exact ⟨other, List.mem_cons_of_mem _ later, inside⟩
  induction text generalizing quoting depth pieces with
  | nil => cases member
  | cons d rest induction =>
      have later {q : Quoting} {n : Nat} {behind : List (List Char)}
          (scanned : topLevelPieces separator bound q n rest = .ok behind) :
          c = separator ∨ ∃ piece ∈ consFirst d behind, c ∈ piece := by
        rcases List.mem_cons.mp member with here | inside
        · exact .inr (first (.inl here))
        · exact (induction scanned inside).imp_right fun found => first (.inr found)
      rw [topLevelPieces] at found
      split at found
      · obtain ⟨behind, scanned, rfl⟩ := ok_of_map found
        exact later scanned
      · split at found
        · next cut =>
          obtain ⟨behind, scanned, rfl⟩ := ok_of_map found
          rcases List.mem_cons.mp member with here | inside
          · exact .inl (here.trans cut.1)
          · rcases induction scanned inside with same | ⟨piece, listed, found⟩
            · exact .inl same
            · exact .inr ⟨piece, List.mem_cons_of_mem _ listed, found⟩
        · split at found
          · cases found
          · obtain ⟨behind, scanned, rfl⟩ := ok_of_map found
            exact later scanned

/-- Without a separator there is one piece. -/
theorem topLevelPieces_whole (found : topLevelPieces separator bound quoting depth text = .ok pieces)
    (absent : separator ∉ text) : pieces = [text] := by
  induction text generalizing quoting depth pieces with
  | nil =>
      rw [topLevelPieces] at found
      split at found
      · cases found
      · exact (Except.ok.inj found).symm
  | cons c rest induction =>
      obtain ⟨other, behind⟩ := not_or.mp (mt List.mem_cons.mpr absent)
      rw [topLevelPieces] at found
      split at found
      · obtain ⟨more, scanned, rfl⟩ := ok_of_map found
        rw [induction scanned behind]
        rfl
      · rw [if_neg fun cut => other cut.1.symm] at found
        split at found
        · cases found
        · obtain ⟨more, scanned, rfl⟩ := ok_of_map found
          rw [induction scanned behind]
          rfl

theorem isFlat_blank (blank : isBlank c = true) : IsFlat c :=
  isFlat_of_class (by decide) blank

/-- The mark of the string in which a scan stands is a mark of strings. -/
def Quoting.IsMarked : Quoting → Prop
  | .outside => True
  | .inside mark | .escaped mark => isQuoteMark mark = true

theorem isMarked_step (marked : quoting.IsMarked) (c : Char) : (quoting.step c).IsMarked := by
  cases quoting with
  | outside =>
      rw [Quoting.step]
      split
      · next quote => exact quote
      · trivial
  | inside mark =>
      rw [Quoting.step]
      split
      · exact marked
      · split
        · trivial
        · exact marked
  | escaped mark => exact marked

/-- A blank closes no string. -/
theorem isOpen_step_blank (marked : quoting.IsMarked) (blank : isBlank c = true) :
    (quoting.step c).isOpen = quoting.isOpen := by
  have flat := (isFlat_blank blank).1
  cases quoting with
  | outside => rw [Quoting.step, if_neg (by simp [flat])]
  | inside mark =>
      have other : c ≠ mark := by
        rintro rfl
        rw [marked] at flat
        cases flat
      rw [Quoting.step, if_neg other]
      split <;> rfl
  | escaped mark => rfl

def appendLast (tail : List Char) : List (List Char) → List (List Char)
  | [] => [tail]
  | [piece] => [piece ++ tail]
  | piece :: next :: more => piece :: appendLast tail (next :: more)

theorem appendLast_cons (tail piece : List Char) (full : pieces ≠ []) :
    appendLast tail (piece :: pieces) = piece :: appendLast tail pieces := by
  cases pieces with
  | nil => exact absurd rfl full
  | cons next more => rfl

theorem consFirst_appendLast (c : Char) (full : pieces ≠ []) :
    consFirst c (appendLast tail pieces) = appendLast tail (consFirst c pieces) := by
  cases pieces with
  | nil => exact absurd rfl full
  | cons piece more => cases more <;> rfl

theorem topLevelPieces_blank (solid : isBlank separator = false) (marked : quoting.IsMarked)
    (blank : ∀ c ∈ tail, isBlank c = true) :
    topLevelPieces separator bound quoting depth tail =
      if depth ≠ 0 || quoting.isOpen then .error .unbalanced else .ok [tail] := by
  induction tail generalizing quoting with
  | nil => rw [topLevelPieces]
  | cons c more induction =>
      have here := blank c List.mem_cons_self
      have flat := isFlat_blank here
      have behind := induction (isMarked_step marked c) fun d member => blank d (by simp [member])
      rw [isOpen_step_blank marked here] at behind
      rw [topLevelPieces]
      split
      · rw [behind]
        split <;> rfl
      · next bare =>
        have uncut : ¬ (c = separator ∧ depth = 0) := by
          rintro ⟨rfl, -⟩
          rw [here] at solid
          cases solid
        have outside : quoting.step c = quoting := by
          cases quoting with
          | outside => rw [Quoting.step, if_neg (by simp [flat.1])]
          | inside mark => exact absurd rfl bare
          | escaped mark => exact absurd rfl bare
        rw [outside] at behind
        rw [if_neg uncut, stepDepth_flat flat]
        simp only [behind]
        split <;> rfl

theorem topLevelPieces_append_blank (solid : isBlank separator = false) (marked : quoting.IsMarked)
    (blank : ∀ c ∈ tail, isBlank c = true) :
    topLevelPieces separator bound quoting depth (text ++ tail) =
      (topLevelPieces separator bound quoting depth text).map (appendLast tail) := by
  induction text generalizing quoting depth with
  | nil =>
      rw [List.nil_append, topLevelPieces_blank solid marked blank, topLevelPieces]
      split <;> rfl
  | cons c more induction =>
      have passes {q : Quoting} {n : Nat} :
          ((topLevelPieces separator bound q n more).map (appendLast tail)).map (consFirst c) =
            ((topLevelPieces separator bound q n more).map (consFirst c)).map (appendLast tail) := by
        cases found : topLevelPieces separator bound q n more with
        | error fault => rfl
        | ok behind => exact congrArg Except.ok (consFirst_appendLast c (topLevelPieces_ne_nil found))
      rw [List.cons_append, topLevelPieces, topLevelPieces]
      split
      · rw [induction (isMarked_step marked c), passes]
      · split
        · rw [induction marked]
          cases found : topLevelPieces separator bound quoting depth more with
          | error fault => rfl
          | ok behind =>
              exact congrArg Except.ok (appendLast_cons tail [] (topLevelPieces_ne_nil found)).symm
        · split
          · rfl
          · rw [induction marked, passes]

theorem trim_blank_append (blank : ∀ c ∈ front, isBlank c = true) (text : List Char) :
    trim (front ++ text) = trim text := by
  rw [trim, trimStart, List.dropWhile_append_of_pos blank]
  rfl

theorem trim_append_blank (blank : ∀ c ∈ tail, isBlank c = true) (text : List Char) :
    trim (text ++ tail) = trim text := by
  have dropped : tail.rdropWhile isBlank = [] := by
    rw [List.rdropWhile_eq_nil_iff]
    exact blank
  rw [trim, trim, trimEnd_eq_rdropWhile, trimEnd_eq_rdropWhile, trimStart, trimStart,
    List.dropWhile_append]
  split
  · next empty =>
    rw [List.isEmpty_iff] at empty
    rw [empty, List.dropWhile_eq_nil_iff.mpr blank]
  · rw [rdropWhile_append, if_pos dropped]

theorem map_trim_appendLast (blank : ∀ c ∈ tail, isBlank c = true) (full : pieces ≠ []) :
    (appendLast tail pieces).map trim = pieces.map trim := by
  induction pieces with
  | nil => exact absurd rfl full
  | cons piece more induction =>
      cases more with
      | nil => simp [appendLast, trim_append_blank blank]
      | cons next others =>
          rw [appendLast_cons tail piece (List.cons_ne_nil next others), List.map_cons, List.map_cons,
            induction (List.cons_ne_nil next others)]

theorem splitTopLevel_append_blank (solid : isBlank separator = false)
    (blank : ∀ c ∈ tail, isBlank c = true) (text : List Char) :
    splitTopLevel separator bound (text ++ tail) = splitTopLevel separator bound text := by
  have outside : Quoting.outside.IsMarked := trivial
  rw [splitTopLevel, splitTopLevel, topLevelPieces_append_blank solid outside blank]
  cases found : topLevelPieces separator bound .outside 0 text with
  | error fault => rfl
  | ok pieces =>
      simp only [Except.map, map_trim_appendLast blank (topLevelPieces_ne_nil found)]

theorem splitTopLevel_blank_append (solid : isBlank separator = false)
    (unbracketed : isOpener separator = false) (blank : ∀ c ∈ front, isBlank c = true)
    (text : List Char) :
    splitTopLevel separator bound (front ++ text) = splitTopLevel separator bound text := by
  have nested : Nested (· = separator) 0 front := .of_flat fun c member =>
    ⟨isFlat_blank (blank c member), fun same => by
      rw [← same, blank c member] at solid
      cases solid⟩
  rw [splitTopLevel, splitTopLevel,
    topLevelPieces_nested nested (Nat.zero_le bound) unbracketed fun _ => rfl]
  cases found : topLevelPieces separator bound .outside 0 text with
  | error fault => rfl
  | ok pieces =>
      cases pieces with
      | nil => exact absurd rfl (topLevelPieces_ne_nil found)
      | cons piece more => simp only [Except.map, prependFirst_cons, List.map_cons, trim_blank_append blank]

/-- Trimming a text makes no difference to its pieces. -/
theorem splitTopLevel_trim (solid : isBlank separator = false)
    (unbracketed : isOpener separator = false) (text : List Char) :
    splitTopLevel separator bound (trim text) = splitTopLevel separator bound text := by
  obtain ⟨tail, same⟩ := trimEnd_isPrefix (trimStart text)
  have blank : ∀ c ∈ tail, isBlank c = true := by
    intro c member
    rw [trimEnd_eq_rdropWhile] at same
    have taken : tail = (trimStart text).rtakeWhile isBlank := by
      have whole := List.rdropWhile_append_rtakeWhile (p := isBlank) (l := trimStart text)
      exact List.append_cancel_left (same.trans whole.symm)
    rw [taken] at member
    exact List.mem_rtakeWhile_imp member
  have front := List.takeWhile_append_dropWhile (p := isBlank) (l := text)
  rw [trim, ← splitTopLevel_append_blank solid blank, same, trimStart]
  conv_rhs => rw [← front]
  exact (splitTopLevel_blank_append solid unbracketed (fun c member => List.mem_takeWhile_imp member) _).symm

theorem splitTopLevel_append {items others : List (List Char)} (unquoted : isQuoteMark separator = false)
    (found : splitTopLevel separator bound front = .ok items)
    (behind : splitTopLevel separator bound rest = .ok others) :
    splitTopLevel separator bound (front ++ separator :: rest) = .ok (items ++ others) := by
  obtain ⟨pieces, scanned, rfl⟩ := ok_of_map found
  obtain ⟨more, further, rfl⟩ := ok_of_map behind
  rw [splitTopLevel, topLevelPieces_append unquoted scanned, further]
  simp [Except.map]

theorem splitTopLevel_single (nested : Nested (· = ',') bound text) (trimmed : trim text = text)
    (full : text ≠ []) : splitTopLevel ',' bound text = .ok [text] := by
  have split := splitTopLevel_join (List.forall_mem_singleton.mpr nested)
    (List.forall_mem_singleton.mpr trimmed) (List.forall_mem_singleton.mpr full)
  rwa [List.intercalate_singleton] at split

/-- Where no bracket may be open, the first that opens ends the scan. -/
theorem splitTopLevel_tooDeep {opener : Char} (flat : ∀ c ∈ front, IsFlat c ∧ c ≠ separator)
    (unbracketed : isOpener separator = false) (opens : isOpener opener = true) (rest : List Char) :
    splitTopLevel separator 0 (front ++ opener :: rest) = .error .tooDeep := by
  have uncut : ¬ (opener = separator ∧ 0 = 0) := by
    rintro ⟨rfl, -⟩
    rw [opens] at unbracketed
    cases unbracketed
  have nested : Nested (· = separator) 0 front := .of_flat flat
  rw [splitTopLevel, topLevelPieces_nested nested (Nat.le_refl 0) unbracketed fun _ => rfl,
    topLevelPieces, if_neg (by simp [Quoting.covers, not_isQuoteMark_of_isOpener opens]), if_neg uncut,
    stepDepth, if_pos opens, if_neg (Nat.lt_irrefl 0)]
  rfl

/-- Where a character stands that is neither blank nor a separator, there is an item. -/
theorem splitTopLevel_ne_nil {items : List (List Char)}
    (found : splitTopLevel separator bound text = .ok items) (member : c ∈ text)
    (solid : isBlank c = false) (other : c ≠ separator) : items ≠ [] := by
  obtain ⟨pieces, scanned, rfl⟩ := ok_of_map found
  obtain ⟨piece, listed, inside⟩ := (mem_topLevelPieces scanned member).resolve_left other
  have kept : c ∈ trim piece := (mem_trim inside).resolve_left (by simp [solid])
  refine List.ne_nil_of_mem (a := trim piece) (List.mem_filter.mpr ⟨List.mem_map_of_mem listed, ?_⟩)
  simpa using List.ne_nil_of_mem kept

end QueryNotation.Text
