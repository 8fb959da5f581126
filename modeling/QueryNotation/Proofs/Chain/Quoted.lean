import QueryNotation.Proofs.Chain.LiteralReader
import QueryNotation.Proofs.Json.Quoted

namespace QueryNotation.Chain

/-! # Quoted strings in and out of brackets

Among the arguments of a call a string in quotation marks may stand alone or in an array.  In
brackets it is read as JSON; alone it is read as a literal, where a backslash takes the next
letter along as it stands, but for the ends of lines and the tab.
-/

open Text Json

variable {c : Char} {part other found more text rest : List Char} {parts : List (List Char)} {depth : Nat}

/-- The part of a string is no escape of a backspace, a form feed or a code unit. -/
def IsShared (part : List Char) : Prop :=
  ∀ letter ∈ ['b', 'f', 'u'], ¬ ['\\', letter] <+: part

instance : DecidablePred IsShared := fun part =>
  inferInstanceAs (Decidable (∀ letter ∈ ['b', 'f', 'u'], ¬ ['\\', letter] <+: part))

/-- What a part of a string is heard as where the string stands alone. -/
def HeardAs (part found : List Char) : Prop :=
  ∀ rest, readQuoted '"' false (part ++ rest) =
    (readQuoted '"' false rest).map fun (text, rest') => (found ++ text, rest')

namespace HeardAs

theorem nil : HeardAs [] [] := by
  intro rest
  rw [List.nil_append]
  cases readQuoted '"' false rest <;> rfl

theorem append (first : HeardAs part found) (second : HeardAs other more) :
    HeardAs (part ++ other) (found ++ more) := by
  intro rest
  rw [List.append_assoc, first, second]
  cases readQuoted '"' false rest with
  | error stop => rfl
  | ok read => simp only [Except.map, List.append_assoc]

theorem plain (mark : c ≠ '"') (backslash : c ≠ '\\') : HeardAs [c] [c] := by
  intro rest
  rw [List.singleton_append, readQuoted, if_neg (by decide), if_neg backslash, if_neg mark]
  rfl

theorem digit {value : Nat} (hex : IsHexDigit c value) : HeardAs [c] [c] := by
  have table : ∀ value < 16, ∀ mark ∈ ['"', '\\'], Nat.digitChar value ≠ mark ∧
      (Nat.digitChar value).toUpper ≠ mark := by
    decide
  have other : ∀ mark ∈ ['"', '\\'], c ≠ mark := by
    intro mark member
    obtain ⟨small, rfl | rfl⟩ := hex
    · exact (table value small mark member).1
    · exact (table value small mark member).2
  exact plain (other '"' (by decide)) (other '\\' (by decide))

/-- The backslash of a code unit is lost. -/
theorem codeUnit {unit : Nat} {digits : List Char} (code : IsCodeUnit unit digits) :
    HeardAs ('\\' :: 'u' :: digits) ('u' :: digits) := by
  have letter : HeardAs ['\\', 'u'] ['u'] := fun rest => rfl
  have kept : ∀ {digits values}, List.Forall₂ IsHexDigit digits values → HeardAs digits digits := by
    intro digits values each
    induction each with
    | nil => exact nil
    | cons hex _ induction => exact (digit hex).append induction
  exact letter.append (kept code)

theorem codeUnits {codes : List Nat} {units : List (List Char)} (each : List.Forall₂ IsCodeUnit codes units) :
    HeardAs (units.flatMap fun digits => '\\' :: 'u' :: digits) (units.flatMap fun digits => 'u' :: digits) := by
  induction each with
  | nil => exact nil
  | cons code _ induction => exact (codeUnit code).append induction

end HeardAs

/-- Whatever stands for a character is heard as some text, and as the character exactly if it is
an escape that both readers know. -/
theorem heard_standsFor (stands : StandsFor c part) :
    ∃ found, HeardAs part found ∧ found ≠ [] ∧ (found = [c] ↔ IsShared part) := by
  cases stands with
  | plain printed mark backslash =>
      refine ⟨[c], .plain mark backslash, List.cons_ne_nil _ _, iff_of_true rfl ?_⟩
      rintro letter - front
      exact backslash (List.cons_prefix_cons.mp front).1.symm
  | @short letter listed =>
      -- The short escapes are few enough to look through.
      have table : ∀ escape ∈ shortEscapes,
          (escape.2 = (if escape.1 = 'n' then '\n' else if escape.1 = 't' then '\t'
            else if escape.1 = 'r' then '\r' else escape.1) ↔ IsShared ['\\', escape.1]) := by
        decide
      refine ⟨[_], fun rest => rfl, List.cons_ne_nil _ _, ?_⟩
      rw [← table _ listed, List.singleton_inj]
      exact eq_comm
  | @unicode units each =>
      have some : ∃ first more, codeUnits c = first :: more := by
        unfold codeUnits
        split
        · exact ⟨_, _, rfl⟩
        · exact ⟨_, _, rfl⟩
      obtain ⟨first, more, shape⟩ := some
      have heard := HeardAs.codeUnits each
      rw [shape] at each
      obtain ⟨digits, units, code, -, rfl⟩ := List.forall₂_cons_left_iff.mp each
      refine ⟨_, heard, List.cons_ne_nil _ _, iff_of_false ?_ ?_⟩
      · obtain ⟨_, _, _, _, rfl, -⟩ := code.hexValue
        simp
      · exact fun shared => shared 'u' (by decide) ⟨_, rfl⟩

/-- A string is heard as some text that is no shorter, and as itself exactly if each of its parts
is one that both readers know. -/
theorem readQuoted_parts (spelled : List.Forall₂ StandsFor text parts) :
    ∃ found, readQuoted '"' false (parts.flatten ++ ['"']) = .ok (found, []) ∧
      text.length ≤ found.length ∧ (found = text ↔ ∀ part ∈ parts, IsShared part) := by
  induction spelled with
  | nil => exact ⟨[], rfl, Nat.le_refl 0, iff_of_true rfl (List.forall_mem_nil _)⟩
  | @cons c part text parts here _ induction =>
      obtain ⟨first, heard, some, same⟩ := heard_standsFor here
      obtain ⟨more, read, long, rest⟩ := induction
      have full : 0 < first.length := List.length_pos_iff.mpr some
      refine ⟨first ++ more, ?_, ?_, ?_⟩
      · rw [List.flatten_cons, List.append_assoc, heard, read]
        rfl
      · rw [List.length_append, List.length_cons]
        omega
      · rw [List.forall_mem_cons, ← same, ← rest]
        constructor
        · intro whole
          have lengths := congrArg List.length whole
          rw [List.length_append, List.length_cons] at lengths
          obtain ⟨d, single⟩ := List.length_eq_one_iff.mp (show first.length = 1 by omega)
          rw [single, List.singleton_append] at whole
          obtain ⟨rfl, behind⟩ := List.cons.inj whole
          exact ⟨single, behind⟩
        · rintro ⟨rfl, rfl⟩
          rfl

/-- In brackets a quoted string is read as the string that it denotes, however it is spelled.
Alone it is read as some string, and as the same one exactly if it escapes no backspace, no form
feed and no code unit. -/
theorem argument_quoted (spelled : List.Forall₂ StandsFor text parts) (depth : Nat) :
    argument depth ('[' :: quotedParts parts ++ [']']) = .array [.string (String.ofList text)] ∧
      ∃ found, argument depth (quotedParts parts) = .string found ∧
        (found = String.ofList text ↔ ∀ part ∈ parts, IsShared part) := by
  constructor
  · have whole := read_bracketed spelled
    rw [argument, trim_between (by decide) (by decide), List.cons_append, bracketedJson?, ← List.cons_append, whole]
    rfl
  · obtain ⟨found, read, -, same⟩ := readQuoted_parts spelled
    have scalar : readScalar (quotedParts parts) = .ok (.string (String.ofList found), []) := by
      rw [quotedParts, List.cons_append, readScalar, if_pos (by decide), read]
      rfl
    have literal : literal? depth (quotedParts parts) = some (.string (String.ofList found)) := by
      rw [quotedParts, List.cons_append] at scalar ⊢
      rw [literal?, skipSpaces_solid (by decide), readLiteral_scalar (by decide) (by decide), scalar]
      rfl
    refine ⟨String.ofList found, ?_, by rw [String.ofList_inj, same]⟩
    rw [argument, quotedParts, trim_between (by decide) (by decide), ← quotedParts, literal]
    rfl

/-- Alone, the escape of a code unit is the letter behind its backslash, with its digits. -/
theorem codeUnit_misread :
    StandsFor 'A' "\\u0041".toList ∧ argument 8 "[\"\\u0041\"]".toList = .array [.string "A"] ∧
      argument 8 "\"\\u0041\"".toList = .string "u0041" := by
  have digits : List.Forall₂ IsCodeUnit (codeUnits 'A') ["0041".toList] := by decide
  exact ⟨.unicode digits, rfl, rfl⟩

/-- Marks, an end of line and a slash are read alike.  A pair of surrogates, in digits of either
case, is read in brackets alone. -/
theorem argument_quoted_both :
    argument 1 "[\"\\\"b\\n\\/\"]".toList = .array [.string "\"b\n/"] ∧
      argument 1 "\"\\\"b\\n\\/\"".toList = .string "\"b\n/" ∧
      argument 0 "[\"\\ud83D\\uDe00\"]".toList = .array [.string "😀"] ∧
      argument 0 "\"\\ud83D\\uDe00\"".toList ≠ .string "😀" := by
  have marks : List.Forall₂ StandsFor ['"', 'b', '\n', '/'] [['\\', '"'], ['b'], ['\\', 'n'], ['\\', '/']] :=
    .cons (.short (by decide)) (.cons (.plain (by decide) (by decide) (by decide))
      (.cons (.short (by decide)) (.cons (.short (by decide)) .nil)))
  have units : List.Forall₂ IsCodeUnit (codeUnits '😀') ["d83D".toList, "De00".toList] := by decide
  obtain ⟨listed, found, alone, same⟩ := argument_quoted marks 1
  obtain ⟨pair, other, misread, differs⟩ := argument_quoted (.cons (.unicode units) .nil) 0
  refine ⟨listed, ?_, pair, ?_⟩
  · exact alone.trans (congrArg Json.string (same.mpr (by decide)))
  · intro read
    have shared := differs.mp (Json.string.inj (misread.symm.trans read))
    exact absurd shared (by decide)

end QueryNotation.Chain
