import Mathlib.Data.List.DropRight
import Mathlib.Data.List.TakeWhile
import QueryNotation.Text.Character
import QueryNotation.Text.Blank

namespace QueryNotation.Text

/-! # Texts that trimming keeps

Trimming keeps a text that neither begins nor ends with a blank, so it keeps every
text without blanks.
-/

theorem trimEnd_append_cons {c : Char} (solid : isBlank c = false) (front rest : List Char) :
    trimEnd (front ++ c :: rest) = front ++ c :: trimEnd rest := by
  induction front with
  | nil =>
      rw [List.nil_append, trimEnd, solid]
      cases trimEnd rest <;> rfl
  | cons d more induction =>
      rw [List.cons_append, trimEnd, induction]
      cases more <;> rfl

theorem trimEnd_append {c : Char} (solid : isBlank c = false) (front : List Char) :
    trimEnd (front ++ [c]) = front ++ [c] :=
  trimEnd_append_cons solid front []

theorem trimStart_cons {c : Char} (solid : isBlank c = false) (rest : List Char) :
    trimStart (c :: rest) = c :: rest := by
  simp [trimStart, solid]

theorem trim_blank {text : List Char} (blank : ∀ c ∈ text, isBlank c = true) : trim text = [] := by
  rw [trim, trimStart, List.dropWhile_eq_nil_iff.mpr blank]
  rfl

theorem trim_singleton {c : Char} (solid : isBlank c = false) : trim [c] = [c] := by
  rw [trim, trimStart_cons solid]
  exact trimEnd_append solid []

/-- A text between two characters that are no blanks is kept. -/
theorem trim_between {first last : Char} (firstSolid : isBlank first = false)
    (lastSolid : isBlank last = false) (middle : List Char) :
    trim (first :: middle ++ [last]) = first :: middle ++ [last] := by
  rw [trim, List.cons_append, trimStart_cons firstSolid]
  exact trimEnd_append lastSolid (first :: middle)

theorem trim_eq_self {text : List Char} (first : ∀ c ∈ text.head?, isBlank c = false)
    (last : ∀ c ∈ text.getLast?, isBlank c = false) : trim text = text := by
  rcases List.eq_nil_or_concat text with rfl | ⟨front, c, rfl⟩
  · rfl
  · rw [List.concat_eq_append] at *
    have lastSolid : isBlank c = false := last c (by simp)
    cases front with
    | nil => exact trim_singleton lastSolid
    | cons d rest => exact trim_between (first d (by simp)) lastSolid rest

theorem rdropWhile_append (drops : Char → Bool) (front rest : List Char) :
    (front ++ rest).rdropWhile drops =
      if rest.rdropWhile drops = [] then front.rdropWhile drops else front ++ rest.rdropWhile drops := by
  unfold List.rdropWhile
  rw [List.reverse_append, List.dropWhile_append]
  by_cases empty : rest.reverse.dropWhile drops = []
  · simp [empty]
  · simp [empty]

theorem rdropWhile_cons (drops : Char → Bool) (c : Char) (rest : List Char) :
    (c :: rest).rdropWhile drops =
      if rest.rdropWhile drops = [] then if drops c then [] else [c] else c :: rest.rdropWhile drops := by
  rw [← List.rdropWhile_singleton]
  exact rdropWhile_append drops [c] rest

theorem trimEnd_eq_rdropWhile (text : List Char) : trimEnd text = text.rdropWhile isBlank := by
  induction text with
  | nil => rfl
  | cons c rest induction =>
      rw [rdropWhile_cons, trimEnd, induction]
      cases rest.rdropWhile isBlank <;> simp

theorem trimEnd_isPrefix (text : List Char) : trimEnd text <+: text := by
  rw [trimEnd_eq_rdropWhile]
  exact List.rdropWhile_prefix isBlank text

theorem trim_sublist (text : List Char) : (trim text).Sublist text :=
  (trimEnd_isPrefix _).sublist.trans (List.dropWhile_sublist _)

theorem mem_trimEnd {c : Char} {text : List Char} (member : c ∈ text) :
    isBlank c = true ∨ c ∈ trimEnd text := by
  induction text with
  | nil => cases member
  | cons d rest induction =>
      rw [trimEnd]
      cases kept : trimEnd rest with
      | nil =>
          have blanks := List.all_eq_true.mp ((trimEnd_eq_nil_iff rest).mp kept)
          rcases List.mem_cons.mp member with rfl | inside
          · cases blank : isBlank c with
            | true => exact .inl rfl
            | false => exact .inr (by simp)
          · exact .inl (blanks c inside)
      | cons e more =>
          rcases List.mem_cons.mp member with rfl | inside
          · exact .inr (by simp)
          · exact (induction inside).imp_right fun found => List.mem_cons_of_mem d (kept ▸ found)

/-- Trimming drops nothing but blanks. -/
theorem mem_trim {c : Char} {text : List Char} (member : c ∈ text) :
    isBlank c = true ∨ c ∈ trim text := by
  rw [← List.takeWhile_append_dropWhile (p := isBlank) (l := text), List.mem_append] at member
  rcases member with front | inside
  · exact .inl (List.mem_takeWhile_imp front)
  · exact mem_trimEnd inside

/-- A text that is trimmed has nothing to trim. -/
theorem trim_trim (text : List Char) : trim (trim text) = trim text := by
  have front : trimStart (trim text) = trim text := by
    obtain ⟨tail, same⟩ := trimEnd_isPrefix (trimStart text)
    cases kept : trim text with
    | nil => rfl
    | cons c rest =>
        have solid := List.head?_dropWhile_not isBlank text
        rw [← trimStart, ← same, ← trim, kept] at solid
        exact trimStart_cons (by simpa using solid) rest
  rw [trim, front, trim, trimEnd_eq_rdropWhile, trimEnd_eq_rdropWhile, List.rdropWhile_idempotent]

theorem head_of_trimmed {c : Char} {rest : List Char} (trimmed : trim (c :: rest) = c :: rest) :
    isBlank c = false := by
  by_contra blank
  have dropped : trim (c :: rest) = trim rest := by
    simp only [Bool.not_eq_false] at blank
    simp [trim, trimStart, blank]
  have short := (trim_sublist rest).length_le
  rw [← dropped, trimmed, List.length_cons] at short
  exact Nat.not_succ_le_self _ short

theorem last_of_trimmed {text : List Char} (trimmed : trim text = text) :
    ∀ c ∈ text.getLast?, isBlank c = false := by
  intro c last
  rw [← trimmed, trim, trimEnd_eq_rdropWhile] at last
  obtain ⟨full, rfl⟩ := List.mem_getLast?_eq_getLast last
  simpa using List.rdropWhile_last_not isBlank (trimStart text) full

theorem trim_of_solid {text : List Char} (solid : ∀ c ∈ text, isBlank c = false) :
    trim text = text :=
  trim_eq_self (fun c found => solid c (List.mem_of_mem_head? found))
    (fun c found => solid c (List.mem_of_getLast? found))

theorem allBlank_false {c : Char} {text : List Char} (member : c ∈ text)
    (solid : isBlank c = false) : allBlank text = false := by
  rw [allBlank, List.all_eq_false]
  exact ⟨c, member, by simp [solid]⟩

/-- Letters and digits of ASCII are no blanks. -/
theorem isBlank_alphanum {c : Char} (plain : c.isAlphanum = true) : isBlank c = false := by
  have code : 48 ≤ c.toNat ∧ c.toNat ≤ 122 := by
    rw [isAlphanum_iff, isUpper_iff, isLower_iff, isDigit_iff] at plain
    omega
  simp only [isBlank, Bool.or_eq_false_iff, Bool.and_eq_false_iff, decide_eq_false_iff_not,
    beq_eq_false_iff_ne]
  omega

end QueryNotation.Text
