import QueryNotation.Text.Character
import QueryNotation.Text.Cut

namespace QueryNotation.Sql

/-! # Quoted regions of statements

A scan from left to right cuts a statement into quoted regions and what stands
outside them.  `Sealed` texts close every region that they open, and nothing in them
that stands outside can end a statement, begin a comment or escape a mark.  They may
be joined in any order.
-/

open Text

/-- Where a scan stands. -/
inductive Region where
  | outside
  | inside (mark : Char)
deriving DecidableEq, Repr

/-- The marks around strings and names. -/
def isMark (c : Char) : Bool :=
  c == '\'' || c == '"'

/-- A text with its quoted regions emptied; nothing for a text that ends inside one.
Inside a region, two of its marks stand for one character. -/
def outsideText : Region → List Char → Option (List Char)
  | .outside, [] => some []
  | .inside _, [] => none
  | .outside, c :: rest =>
    (outsideText (if isMark c then .inside c else .outside) rest).map (c :: ·)
  | .inside mark, [c] => if c = mark then some [c] else none
  | .inside mark, c :: d :: rest =>
    if c = mark then
      if d = mark then outsideText (.inside mark) rest
      else (outsideText .outside (d :: rest)).map (c :: ·)
    else outsideText (.inside mark) (d :: rest)

/-- Outside quoted regions, nothing ends the statement, begins a comment or escapes
what follows. -/
structure Harmless (outside : List Char) : Prop where
  noSemicolon : ';' ∉ outside
  noBackslash : '\\' ∉ outside
  noDollar : '$' ∉ outside
  noLineComment : ¬ ['-', '-'] <:+: outside
  noBlockComment : ¬ ['/', '*'] <:+: outside

/-- A statement ends outside every quoted region, and is harmless there. -/
def Contained (text : String) : Prop :=
  ∃ outside, outsideText .outside text.toList = some outside ∧ Harmless outside

/-- A character that may stand anywhere outside quoted regions. -/
def isPlain (c : Char) : Bool :=
  !(['\'', '"', ';', '\\', '$', '/', '-'].contains c)

/-- A text that closes its quoted regions, with plain characters outside them and a
plain character behind each dash. -/
inductive Sealed : List Char → Prop where
  | nil : Sealed []
  | plain {c : Char} {rest : List Char} (allowed : isPlain c = true) (behind : Sealed rest) :
    Sealed (c :: rest)
  | dash {c : Char} {rest : List Char} (allowed : isPlain c = true) (behind : Sealed rest) :
    Sealed ('-' :: c :: rest)
  | region {mark : Char} (text : List Char) {rest : List Char} (quotes : isMark mark = true)
    (behind : Sealed rest) :
    Sealed (mark :: (substitute mark [mark, mark] text ++ mark :: rest))

variable {mark c : Char} {text rest outside : List Char}

namespace Harmless

theorem nil : Harmless [] := by
  constructor <;> simp

theorem cons (allowed : c ∉ [';', '\\', '$', '/', '-']) (harmless : Harmless outside) :
    Harmless (c :: outside) := by
  simp only [List.mem_cons, List.not_mem_nil, or_false, not_or] at allowed
  obtain ⟨semicolon, backslash, dollar, slash, dash⟩ := allowed
  constructor
  · simp [Ne.symm semicolon, harmless.noSemicolon]
  · simp [Ne.symm backslash, harmless.noBackslash]
  · simp [Ne.symm dollar, harmless.noDollar]
  · simp [List.infix_cons_iff, Ne.symm dash, harmless.noLineComment]
  · simp [List.infix_cons_iff, Ne.symm slash, harmless.noBlockComment]

theorem dash (other : c ≠ '-') (harmless : Harmless (c :: outside)) :
    Harmless ('-' :: c :: outside) := by
  constructor
  · simpa using harmless.noSemicolon
  · simpa using harmless.noBackslash
  · simpa using harmless.noDollar
  · rw [List.infix_cons_iff, not_or]
    exact ⟨by simp [Ne.symm other], harmless.noLineComment⟩
  · rw [List.infix_cons_iff, not_or]
    exact ⟨by simp, harmless.noBlockComment⟩

end Harmless

theorem not_isMark_of_isPlain (allowed : isPlain c = true) : isMark c = false := by
  simp [isPlain, isMark] at allowed ⊢
  exact ⟨allowed.1, allowed.2.1⟩

theorem ne_mark_of_isPlain (quotes : isMark mark = true) (allowed : isPlain c = true) :
    c ≠ mark := by
  rintro rfl
  exact Bool.false_ne_true ((not_isMark_of_isPlain allowed).symm.trans quotes)

theorem harmless_of_isPlain (allowed : isPlain c = true) (harmless : Harmless outside) :
    Harmless (c :: outside) := by
  simp [isPlain] at allowed
  exact harmless.cons (by simp [allowed])

theorem harmless_of_isMark (quotes : isMark mark = true) (harmless : Harmless outside) :
    Harmless (mark :: outside) := by
  simp only [isMark, Bool.or_eq_true, beq_iff_eq] at quotes
  rcases quotes with rfl | rfl <;> exact harmless.cons (by decide)

theorem outsideText_plain (unmarked : isMark c = false) :
    outsideText .outside (c :: rest) = (outsideText .outside rest).map (c :: ·) := by
  rw [outsideText, if_neg (by simp [unmarked])]

/-- The end of a region when another character than its mark follows. -/
theorem outsideText_close (other : c ≠ mark) :
    outsideText (.inside mark) (mark :: c :: rest) =
      (outsideText .outside (c :: rest)).map (mark :: ·) := by
  conv => lhs; rw [outsideText, if_pos rfl, if_neg other]

/-- The scan of a region goes on to its last mark. -/
theorem outsideText_doubled (text : List Char) :
    outsideText (.inside mark) (substitute mark [mark, mark] text ++ mark :: rest) =
      outsideText (.inside mark) (mark :: rest) := by
  induction text with
  | nil => rfl
  | cons c text induction =>
      rw [substitute, List.flatMap_cons, ← substitute, List.append_assoc]
      by_cases same : c = mark
      · rw [if_pos same, List.cons_append, List.singleton_append, outsideText, if_pos rfl,
          if_pos rfl, induction]
      · rw [if_neg same, List.singleton_append]
        cases found : substitute mark [mark, mark] text ++ mark :: rest with
        | nil => simp at found
        | cons d more => rw [outsideText, if_neg same, ← found, induction]

namespace Sealed

theorem append (front : Sealed text) (back : Sealed rest) : Sealed (text ++ rest) := by
  induction front with
  | nil => exact back
  | plain allowed _ induction => exact .plain allowed induction
  | dash allowed _ induction => exact .dash allowed induction
  | region text quotes _ induction =>
      rw [List.cons_append, List.append_assoc, List.cons_append]
      exact .region text quotes induction

theorem of_plain (plain : ∀ c ∈ text, isPlain c = true) : Sealed text := by
  induction text with
  | nil => exact .nil
  | cons c rest induction =>
      exact .plain (plain c (by simp)) (induction fun d member => plain d (by simp [member]))

theorem behind (allowed : isPlain c = true) (closed : Sealed (c :: rest)) : Sealed rest := by
  cases closed with
  | plain _ behind => exact behind
  | dash => exact absurd allowed (by decide)
  | region _ quotes _ => exact absurd rfl (ne_mark_of_isPlain quotes allowed)

/-- The scan of a sealed text, and its scan behind the mark of a region that this text
may be part of: two marks that meet do not close the region. -/
theorem scan (closed : Sealed text) :
    (∃ outside, outsideText .outside text = some outside ∧ Harmless outside) ∧
    ∀ mark, isMark mark = true →
      ∃ outside, outsideText (.inside mark) (mark :: text) = some outside ∧ Harmless outside := by
  induction closed with
  | nil =>
      refine ⟨⟨[], rfl, .nil⟩, fun mark quotes => ⟨[mark], ?_, harmless_of_isMark quotes .nil⟩⟩
      rw [outsideText, if_pos rfl]
  | @plain c rest allowed _ induction =>
      obtain ⟨⟨outside, found, harmless⟩, _⟩ := induction
      have scanned : outsideText .outside (c :: rest) = some (c :: outside) := by
        rw [outsideText_plain (not_isMark_of_isPlain allowed), found]
        rfl
      have kept := harmless_of_isPlain allowed harmless
      refine ⟨⟨_, scanned, kept⟩, fun mark quotes => ⟨_, ?_, harmless_of_isMark quotes kept⟩⟩
      rw [outsideText_close (ne_mark_of_isPlain quotes allowed), scanned]
      rfl
  | @dash c rest allowed _ induction =>
      obtain ⟨⟨outside, found, harmless⟩, _⟩ := induction
      have scanned : outsideText .outside ('-' :: c :: rest) = some ('-' :: c :: outside) := by
        rw [outsideText_plain (by decide), outsideText_plain (not_isMark_of_isPlain allowed), found]
        rfl
      have other : c ≠ '-' := by
        rintro rfl
        exact absurd allowed (by decide)
      have kept := (harmless_of_isPlain allowed harmless).dash other
      refine ⟨⟨_, scanned, kept⟩, fun mark quotes => ⟨_, ?_, harmless_of_isMark quotes kept⟩⟩
      have apart : '-' ≠ mark := by
        rintro rfl
        exact absurd quotes (by decide)
      rw [outsideText_close apart, scanned]
      rfl
  | @region mark text rest quotes _ induction =>
      obtain ⟨_, reopened⟩ := induction
      obtain ⟨outside, found, harmless⟩ := reopened mark quotes
      have scanned : outsideText .outside
          (mark :: (substitute mark [mark, mark] text ++ mark :: rest)) = some (mark :: outside) := by
        rw [outsideText, if_pos quotes, outsideText_doubled, found]
        rfl
      have kept := harmless_of_isMark quotes harmless
      refine ⟨⟨_, scanned, kept⟩, fun other otherQuotes => ?_⟩
      -- Behind a mark of its own kind the region doubles that mark, and what was open stays open.
      by_cases same : mark = other
      · subst same
        refine ⟨outside, ?_, harmless⟩
        rw [outsideText, if_pos rfl, if_pos rfl, outsideText_doubled, found]
      · refine ⟨_, ?_, harmless_of_isMark otherQuotes kept⟩
        rw [outsideText_close same, scanned]
        rfl

theorem contained {text : String} (closed : Sealed text.toList) : Contained text :=
  closed.scan.1

end Sealed

end QueryNotation.Sql
