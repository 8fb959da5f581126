import QueryNotation.Proofs.Text.Cut
import QueryNotation.Proofs.Text.Word
import QueryNotation.Sql.Identifier
import QueryNotation.Sql.Reader.Scope

namespace QueryNotation.Sql

/-! # Names in statements

A name that may stand bare in a statement is a name for every scan, and no reserved word.
Different names are written differently, whether they stand bare or not.
-/

open Text

theorem unquoted_of_absent {name : String} (absent : '"' ∉ name.toList) : unquoted name = name := by
  have kept : name.toList.filter (· != '"') = name.toList := by
    rw [List.filter_eq_self]
    intro c member
    rw [bne_iff_ne]
    rintro rfl
    exact absent member
  rw [unquoted, kept, String.ofList_toList]

theorem repeatMark_of_absent {mark previous : Char} {text : List Char} (absent : mark ∉ text) :
    repeatMark mark previous text = text := by
  induction text generalizing previous with
  | nil => rfl
  | cons c rest induction =>
      obtain ⟨other, behind⟩ := not_or.mp (mt List.mem_cons.mpr absent)
      unfold repeatMark
      rw [if_neg (Ne.symm other), induction behind]

theorem unquoted_text {name : Name} (mark : name.mark ∈ [none, some '"']) (plain : '"' ∉ name.value.toList) :
    unquoted name.text = name.value := by
  unfold Name.text
  rcases List.mem_cons.mp mark with bare | quoted
  · rw [bare]
    exact unquoted_of_absent plain
  · rw [List.mem_singleton.mp quoted]
    have inside := unquoted_of_absent plain
    rw [unquoted] at inside
    simp [unquoted, quoteWith, repeatMark_of_absent plain, inside]

/-- A name that stands bare. -/
def IsBare (name : String) : Prop :=
  isBareName name.toList = true

instance (name : String) : Decidable (IsBare name) :=
  inferInstanceAs (Decidable (_ = true))

namespace IsBare

variable {name : String}

theorem isName (bare : IsBare name) : IsName name := by
  unfold IsBare isBareName at bare
  simp only [Bool.and_eq_true] at bare
  obtain ⟨⟨_, plain⟩, first⟩ := bare
  refine ⟨?_, List.all_eq_true.mp plain⟩
  rintro rfl
  cases first

theorem absent (bare : IsBare name) {c : Char} (other : isNameChar c = false) : c ∉ name.toList :=
  bare.isName.absent other

/-- A bare name is none of some words that cannot stand bare. -/
theorem not_mem (bare : IsBare name) {words : List String}
    (others : ∀ word ∈ words, isBareName word.toList = false) : name ∉ words := by
  intro member
  have other := others name member
  rw [IsBare, other] at bare
  cases bare

theorem unquoted_eq (bare : IsBare name) : unquoted name = name :=
  unquoted_of_absent (bare.absent (by decide))

theorem splitTableName_eq (bare : IsBare name) :
    splitTableName (Name.path [{ value := name }]) = (name, none) := by
  have path : Name.path [{ value := name }] = name := by
    simp [Name.path, Name.text]
  unfold splitTableName
  simp only [path, bare.unquoted_eq, cutLast_of_absent (bare.absent (show isNameChar '.' = false by decide))]

end IsBare

theorem substitute_doubled_cons (mark c : Char) (rest : List Char) :
    substitute mark [mark, mark] (c :: rest) =
      c :: ((if c = mark then [mark] else []) ++ substitute mark [mark, mark] rest) := by
  rw [substitute, List.flatMap_cons]
  split
  · next same => rw [same]; rfl
  · rfl

theorem substitute_doubled_injective (mark : Char) : Function.Injective (substitute mark [mark, mark]) := by
  intro left
  induction left with
  | nil =>
      intro right same
      cases right with
      | nil => rfl
      | cons d more =>
          rw [substitute_doubled_cons] at same
          cases same
  | cons c rest induction =>
      intro right same
      cases right with
      | nil =>
          rw [substitute_doubled_cons] at same
          cases same
      | cons d more =>
          rw [substitute_doubled_cons, substitute_doubled_cons] at same
          obtain ⟨rfl, behind⟩ := List.cons.inj same
          rw [induction (List.append_cancel_left behind)]

/-- A name stands as it is and holds no mark, or it stands between marks. -/
theorem escapeName_cases (name : String) :
    escapeName name = name ∧ '"' ∉ name.toList ∨
      escapeName name = String.ofList ('"' :: substitute '"' ['"', '"'] name.toList ++ ['"']) := by
  unfold escapeName
  split
  · next star => exact .inl ⟨rfl, by rw [star]; decide⟩
  · split
    · next bare => exact .inl ⟨rfl, IsBare.absent bare (by decide)⟩
    · exact .inr rfl

theorem escapeName_injective : Function.Injective escapeName := by
  intro left right same
  have marked {name : String} : '"' ∈ (String.ofList ('"' :: substitute '"' ['"', '"'] name.toList ++ ['"'])).toList := by
    simp
  rcases escapeName_cases left with ⟨plain, absent⟩ | quoted <;>
    rcases escapeName_cases right with ⟨plain', absent'⟩ | quoted'
  · rw [← plain, ← plain', same]
  · rw [plain, quoted'] at same
    exact absurd (same ▸ marked) absent
  · rw [plain', quoted] at same
    exact absurd (same ▸ marked) absent'
  · rw [quoted, quoted', String.ofList_inj] at same
    have body := List.append_cancel_right (List.cons.inj same).2
    exact String.toList_injective (substitute_doubled_injective '"' body)

theorem not_mem_escapeName {c : Char} {name : String} (absent : c ∉ name.toList) (other : c ≠ '"') :
    c ∉ (escapeName name).toList := by
  rcases escapeName_cases name with ⟨plain, -⟩ | quoted
  · rwa [plain]
  · rw [quoted, String.toList_ofList]
    intro member
    simp only [substitute, List.cons_append, List.mem_cons, List.mem_append, List.mem_flatMap, other,
      List.not_mem_nil, false_or, or_false] at member
    obtain ⟨d, inside, member⟩ := member
    split at member
    · simp [other] at member
    · obtain rfl := List.mem_singleton.mp member
      exact absent inside

theorem escapeIdentifier_of_absent {name : String} (plain : '.' ∉ name.toList) :
    escapeIdentifier name = escapeName name := by
  rw [escapeIdentifier, pieces_of_not_mem plain]
  simp

theorem pieces_escapeIdentifier (name : String) : pieces (· == '.') (escapeIdentifier name).toList =
    (pieces (· == '.') name.toList).map fun part => (escapeName (String.ofList part)).toList := by
  rw [escapeIdentifier, String.toList_intercalate, List.map_map]
  refine @pieces_intercalate (· == '.') '.' rfl _ (by simp [pieces_ne_nil]) ?_
  intro part listed c inside
  obtain ⟨piece, member, rfl⟩ := List.mem_map.mp listed
  have absent : '.' ∉ (String.ofList piece).toList := by
    rw [String.toList_ofList]
    intro inside
    cases (of_mem_pieces member inside).2
  rw [beq_eq_false_iff_ne]
  rintro rfl
  exact not_mem_escapeName absent (by decide) inside

/-- Different names are written differently. -/
theorem escapeIdentifier_injective : Function.Injective escapeIdentifier := by
  intro left right same
  have written : Function.Injective fun part : List Char => (escapeName (String.ofList part)).toList :=
    fun part other same => String.ofList_injective (escapeName_injective (String.toList_injective same))
  have parts : pieces (· == '.') left.toList = pieces (· == '.') right.toList := by
    refine List.map_injective_iff.mpr written ?_
    rw [← pieces_escapeIdentifier, ← pieces_escapeIdentifier, same]
  rw [← String.toList_inj, ← intercalate_pieces '.' left.toList, parts, intercalate_pieces]

end QueryNotation.Sql
