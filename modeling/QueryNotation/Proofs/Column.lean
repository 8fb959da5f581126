import QueryNotation.Column
import QueryNotation.Proofs.Text.Cut
import QueryNotation.Proofs.Text.Word

namespace QueryNotation.Column

/-! # Reading back columns -/

open Text

/-- The columns whose written form says which part is which: `*`, or words for the name
and the label, and the name of a type of one word. -/
inductive IsPlain : Column → Prop where
  | star : IsPlain .star
  | named {name : String} {label cast : Option String} (word : IsWord name)
    (labelled : ∀ text ∈ label, IsWord text)
    (typed : ∀ text ∈ cast, IsWord text ∧ isTypeName text = true) :
    IsPlain { name, label, cast }

/-- The characters in front of the cast: a name, behind its label if it has one. -/
def leadText (name : String) (label : Option String) : List Char :=
  (match label with
    | some label => label.toList ++ [':']
    | none => []) ++ name.toList

theorem toList_text (name : String) (label cast : Option String) :
    (text { name, label, cast }).toList =
      leadText name label ++
        match cast with
        | some cast => ':' :: ':' :: cast.toList
        | none => [] := by
  unfold text leadText
  cases label <;> cases cast <;> simp

variable {name : String} {label : Option String} {rest : List Char}

theorem cutAtText_pass {front : List Char} (absent : ':' ∉ front) (rest : List Char) :
    cutAtText [':', ':'] (front ++ rest) =
      (cutAtText [':', ':'] rest).map fun (before, after) => (front ++ before, after) := by
  induction front with
  | nil => simp
  | cons c more induction =>
      simp only [List.mem_cons, not_or] at absent
      have other : [':', ':'].isPrefixOf? (c :: (more ++ rest)) = none := by
        simp [List.isPrefixOf?, absent.1]
      rw [List.cons_append, cutAtText, other]
      simp only [induction absent.2, Option.map_map]
      rfl

theorem cutAtText_single {c : Char} (other : c ≠ ':') (rest : List Char) :
    cutAtText [':', ':'] (':' :: c :: rest) =
      (cutAtText [':', ':'] (c :: rest)).map fun (before, after) => (':' :: before, after) := by
  have single : [':', ':'].isPrefixOf? (':' :: c :: rest) = none := by
    simp [List.isPrefixOf?, Ne.symm other]
  rw [cutAtText, single]

/-- A scan for the mark of a cast passes over the name and its label. -/
theorem cutAtText_leadText (word : IsName name) (labelled : ∀ text ∈ label, IsName text)
    (rest : List Char) :
    cutAtText [':', ':'] (leadText name label ++ rest) =
      (cutAtText [':', ':'] rest).map fun (before, after) =>
        (leadText name label ++ before, after) := by
  have nameFree : ':' ∉ name.toList := word.absent (by decide)
  cases label with
  | none => exact cutAtText_pass nameFree rest
  | some label =>
      have labelFree : ':' ∉ label.toList := (labelled label rfl).absent (by decide)
      simp only [leadText, List.append_assoc]
      rw [cutAtText_pass labelFree]
      cases shape : name.toList with
      | nil => exact absurd shape word.ne_nil
      | cons c more =>
          have other : c ≠ ':' := by
            rintro rfl
            exact nameFree (by simp [shape])
          have passed := cutAtText_pass nameFree rest
          rw [shape] at passed
          rw [List.singleton_append, List.cons_append, cutAtText_single other, ← List.cons_append,
            passed, Option.map_map, Option.map_map]
          simp [Function.comp_def]

theorem cutFirst_leadText (word : IsName name) (labelled : ∀ text ∈ label, IsName text) :
    cutFirst ':' (leadText name label) = label.map fun text => (text.toList, name.toList) := by
  cases label with
  | none => exact cutFirst_of_absent (word.absent (by decide))
  | some label =>
      rw [leadText, List.append_assoc]
      exact cutFirst_append ((labelled label rfl).absent (by decide)) _

theorem leadText_plain (word : IsName name) (labelled : ∀ text ∈ label, IsName text) :
    ∀ c ∈ leadText name label, isNameChar c = true ∨ c = ':' := by
  intro c member
  rcases List.mem_append.mp member with front | inside
  · cases label with
    | none => cases front
    | some label =>
        rcases List.mem_append.mp front with inside | colon
        · exact .inl ((labelled label rfl).plain c inside)
        · exact .inr (List.mem_singleton.mp colon)
  · exact .inl (word.plain c inside)

section Read

variable {cast : Option String} (word : IsName name) (labelled : ∀ text ∈ label, IsName text)
  (trimmed : ∀ text ∈ cast, text ≠ "" ∧ trim text.toList = text.toList)

include word labelled

theorem leadText_solid : ∀ c ∈ leadText name label, isBlank c = false := by
  intro c member
  rcases leadText_plain word labelled c member with plain | rfl
  · exact isBlank_nameChar plain
  · decide

include trimmed

theorem trim_text : trim (text { name, label, cast }).toList = (text { name, label, cast }).toList := by
  have solid := leadText_solid word labelled
  rw [toList_text]
  cases cast with
  | none =>
      rw [List.append_nil]
      exact trim_of_solid solid
  | some cast =>
      obtain ⟨full, kept⟩ := trimmed cast rfl
      obtain ⟨first, more, shape⟩ : ∃ first more, leadText name label = first :: more :=
        List.exists_cons_of_ne_nil (by simp [leadText, word.full])
      have ends : (leadText name label ++ ':' :: ':' :: cast.toList).getLast? = cast.toList.getLast? := by
        have some : cast.toList ≠ [] := by simpa using full
        rw [List.getLast?_append_of_ne_nil _ (by simp), List.getLast?_cons_cons,
          List.getLast?_cons_of_ne_nil some]
      apply trim_eq_self
      · intro c begins
        rw [shape, List.cons_append, List.head?_cons] at begins
        obtain rfl := Option.some.inj begins
        exact solid _ (by simp [shape])
      · rw [ends]
        exact last_of_trimmed kept

/-- A column is read back from its text. -/
theorem ofChars_text : ofChars (text { name, label, cast }).toList = { name, label, cast } := by
  have solid := trim_text word labelled trimmed
  have lead := cutFirst_leadText word labelled
  have cut := cutAtText_leadText word labelled
  have leadSolid : trim (leadText name label) = leadText name label :=
    trim_of_solid (leadText_solid word labelled)
  rw [toList_text] at solid ⊢
  cases cast with
  | none =>
      have absent := cut []
      rw [List.append_nil, show cutAtText [':', ':'] [] = none from rfl, Option.map_none] at absent
      simp only [List.append_nil] at solid ⊢
      unfold ofChars
      simp only [solid, absent, lead]
      cases label with
      | none => simp [leadText]
      | some label => simp [word.trim_eq, (labelled label rfl).trim_eq]
  | some cast =>
      have here := cut (':' :: ':' :: cast.toList)
      have found : cutAtText [':', ':'] (':' :: ':' :: cast.toList) = some ([], cast.toList) := by
        simp [cutAtText, List.isPrefixOf?]
      rw [found, Option.map_some] at here
      simp only [List.append_nil] at solid here ⊢
      unfold ofChars
      simp only [solid, here, lead, leadSolid, (trimmed cast rfl).2]
      cases label with
      | none => simp [leadText]
      | some label => simp [word.trim_eq, (labelled label rfl).trim_eq]

end Read

theorem brokenCast?_typed {cast : Option String} (castable : ∀ text ∈ cast, isTypeName text = true) :
    brokenCast? { name, label, cast } = none := by
  rw [brokenCast?, Option.filter_eq_none_iff]
  intro cast given
  simp [castable cast given]

/-- The columns that are read back from their written form, in which nothing but the marks
between their parts stands beside names. -/
structure IsItem (column : Column) : Prop where
  chars : ∀ c ∈ column.text.toList, isNameChar c = true ∨ c = ':' ∨ c = '*'
  full : column.text.toList ≠ []
  read : ofChars column.text.toList = column
  castable : column.brokenCast? = none

theorem isItem_star : IsItem .star where
  chars := by decide
  full := by decide
  read := by decide
  castable := rfl

section Named

variable {cast : Option String} (word : IsName name) (labelled : ∀ text ∈ label, IsName text)
  (typed : ∀ text ∈ cast, IsName text)

include word labelled typed

theorem text_plain : ∀ c ∈ (text { name, label, cast }).toList, isNameChar c = true ∨ c = ':' := by
  intro c member
  rw [toList_text] at member
  rcases List.mem_append.mp member with lead | behind
  · exact leadText_plain word labelled c lead
  · cases cast with
    | none => cases behind
    | some cast =>
        simp only [List.mem_cons] at behind
        rcases behind with colon | colon | inside
        · exact .inr colon
        · exact .inr colon
        · exact .inl ((typed cast rfl).plain c inside)

/-- A column over names is an item, if its cast is the name of a type. -/
theorem isItem_named (castable : ∀ text ∈ cast, isTypeName text = true) :
    IsItem { name, label, cast } where
  chars c member := (text_plain word labelled typed c member).imp_right .inl
  full := by
    rw [toList_text]
    simp [leadText, word.full]
  read := ofChars_text word labelled fun text given =>
    ⟨(typed text given).full, (typed text given).trim_eq⟩
  castable := brokenCast?_typed castable

end Named

theorem IsPlain.isItem {column : Column} (plain : column.IsPlain) : column.IsItem := by
  cases plain with
  | star => exact isItem_star
  | named word labelled typed =>
      exact isItem_named word.isName (fun text given => (labelled text given).isName)
        (fun text given => (typed text given).1.isName) fun text given => (typed text given).2

theorem star_of_isStar {column : Column} (plain : column.IsPlain) (star : column.isStar = true) :
    column = .star := by
  cases plain with
  | star => rfl
  | named word labelled typed =>
      simp only [Column.isStar, decide_eq_true_eq] at star
      subst star
      exact absurd (word.plain '*' (by decide)) (by decide)

end QueryNotation.Column
