import QueryNotation.Proofs.Column
import QueryNotation.Proofs.SelectList
import QueryNotation.Proofs.TypeName

namespace QueryNotation

/-! # Casts in select lists

What may stand behind `::` and what ends an item of a list are told by two grammars.
They agree on every type without a modifier; the parenthesis of a modifier is taken for
that of an embed.
-/

namespace TypeName

open Text

variable {c : Char} {height : Nat} {suffix : List Char}

theorem isFlat_baseChar (plain : isBaseChar c = true) : IsFlat c ∧ c ≠ ',' ∧ c ≠ '(' := by
  refine ⟨isFlat_of_class (by decide) plain, ?_, ?_⟩
  · rintro rfl
    exact absurd plain (by decide)
  · rintro rfl
    exact absurd plain (by decide)

theorem isFlat_modifierChar (plain : isModifierChar c = true) : IsFlat c :=
  isFlat_of_class (by decide) plain

theorem IsArraySuffix.unopened (array : IsArraySuffix suffix) : '(' ∉ suffix := by
  intro member
  rcases array.mem_cases member with blank | other | other
  · exact absurd blank (by decide)
  · exact absurd other (by decide)
  · exact absurd other (by decide)

theorem IsArraySuffix.nested (array : IsArraySuffix suffix) (room : '[' ∈ suffix → 0 < height) :
    Nested (· = ',') height suffix := by
  induction array with
  | nil => exact .nil
  | pair _ induction =>
      obtain ⟨lower, rfl⟩ := Nat.exists_eq_add_one.mpr (room List.mem_cons_self)
      have empty : Nested (fun _ => False) lower [] := .nil
      exact .bracket rfl rfl empty (induction fun _ => Nat.succ_pos lower)
  | @blank c rest blank _ induction =>
      refine .flat (isFlat_blank blank) ?_ (induction fun member => room (List.mem_cons_of_mem c member))
      rintro rfl
      exact absurd blank (by decide)

/-- In front of the first `[` of a suffix there are only blanks. -/
theorem IsArraySuffix.exists_opener (array : IsArraySuffix suffix) (member : '[' ∈ suffix) :
    ∃ blanks rest, suffix = blanks ++ '[' :: rest ∧ ∀ c ∈ blanks, isBlank c = true := by
  induction array with
  | nil => cases member
  | @pair rest _ induction => exact ⟨[], ']' :: rest, rfl, List.forall_mem_nil _⟩
  | @blank c rest blank _ induction =>
      have behind : '[' ∈ rest := by
        refine (List.mem_cons.mp member).resolve_left ?_
        rintro rfl
        exact absurd blank (by decide)
      obtain ⟨blanks, more, rfl, all⟩ := induction behind
      exact ⟨c :: blanks, more, rfl, List.forall_mem_cons.mpr ⟨blank, all⟩⟩

end TypeName

namespace Selection

open Text QueryNotation.TypeName

variable {bound : Nat} {name cast : String} {label : Option String} {selection : Selection}

/-- A cast that can be read where `bound` brackets may be open: it has no modifier, and
its `[]` fit. -/
def IsListCast (bound : Nat) (cast : String) : Prop :=
  '(' ∉ cast.toList ∧ ('[' ∈ cast.toList → 0 < bound)

instance (bound : Nat) (cast : String) : Decidable (IsListCast bound cast) :=
  inferInstanceAs (Decidable (_ ∧ _))

/-- A column with a cast, written and cut in front of the tail of the type. -/
structure IsCut (column : Column) (front tail : List Char) : Prop where
  text : column.text.toList = front ++ tail
  flat : ∀ c ∈ front, IsFlat c ∧ c ≠ ',' ∧ c ≠ '('
  shape : IsTail tail
  trimmed : trim column.text.toList = column.text.toList
  names : NamesItem column.text
  read : Column.ofChars column.text.toList = column
  castable : column.brokenCast? = none

theorem exists_cut (word : IsName name) (labelled : ∀ text ∈ label, IsName text)
    (typed : isTypeName cast = true) (trimmed : trim cast.toList = cast.toList) :
    ∃ front tail, IsCut { name, label, cast := some cast } front tail ∧
      ∀ c, isOpener c = true → (c ∈ cast.toList ↔ c ∈ tail) := by
  obtain ⟨base, tail, same, plain, shape⟩ := exists_base_of_isTypeName typed
  rw [trimmed] at same
  have full : cast ≠ "" := by
    rintro rfl
    exact absurd typed (by decide)
  have kept : ∀ text ∈ some cast, text ≠ "" ∧ trim text.toList = text.toList := by
    rintro text ⟨⟩
    exact ⟨full, trimmed⟩
  have text : (Column.text { name, label, cast := some cast }).toList =
      (Column.leadText name label ++ ':' :: ':' :: base) ++ tail := by
    rw [Column.toList_text]
    simp only [same, List.append_assoc, List.cons_append]
  refine ⟨_, tail, ⟨text, ?_, shape, Column.trim_text word labelled kept, ?_,
    Column.ofChars_text word labelled kept, Column.brokenCast?_typed ?_⟩, ?_⟩
  · intro c member
    simp only [List.mem_append, List.mem_cons] at member
    rcases member with lead | rfl | rfl | inside
    · rcases Column.leadText_plain word labelled c lead with named | rfl
      · refine ⟨isFlat_nameChar named, ?_, ?_⟩
        · rintro rfl
          exact absurd named (by decide)
        · rintro rfl
          exact absurd named (by decide)
      · exact ⟨⟨rfl, rfl, rfl⟩, by decide, by decide⟩
    · exact ⟨⟨rfl, rfl, rfl⟩, by decide, by decide⟩
    · exact ⟨⟨rfl, rfl, rfl⟩, by decide, by decide⟩
    · exact isFlat_baseChar (plain c inside)
  · exact ⟨':', by rw [text]; simp, by decide, by decide⟩
  · rintro text ⟨⟩
    exact typed
  -- An opening bracket of the type stands behind its words.
  · intro c opens
    rw [same, List.mem_append, or_iff_right]
    intro inside
    have closed := (isFlat_baseChar (plain c inside)).1.2.1
    rw [opens] at closed
    cases closed

section Cut

variable {column : Column} {front tail : List Char} (cut : IsCut column front tail)

include cut

theorem IsCut.nested (room : '(' ∈ tail ∨ '[' ∈ tail → 0 < bound) :
    Nested (· = ',') bound column.text.toList := by
  have plain : Nested (· = ',') bound front := .of_flat fun c member =>
    ⟨(cut.flat c member).1, (cut.flat c member).2.1⟩
  rw [cut.text]
  refine plain.append ?_
  cases cut.shape with
  | bare array => exact array.nested fun member => room (.inr member)
  | modified digits array =>
      obtain ⟨lower, rfl⟩ := Nat.exists_eq_add_one.mpr (room (.inl List.mem_cons_self))
      have inside : Nested (fun _ => False) lower _ := .of_flat fun c member =>
        ⟨isFlat_modifierChar (digits c member), id⟩
      exact .bracket rfl rfl inside (array.nested fun _ => Nat.succ_pos lower)

theorem IsCut.split (room : '(' ∈ tail ∨ '[' ∈ tail → 0 < bound) :
    splitTopLevel ',' bound column.text.toList = .ok [column.text.toList] := by
  obtain ⟨c, member, -⟩ := cut.names
  exact splitTopLevel_single (cut.nested room) cut.trimmed (List.ne_nil_of_mem member)

/-- A column with a cast without a modifier is read as an item of a list. -/
theorem IsCut.reads (bare : '(' ∉ tail) (room : '[' ∈ tail → 0 < bound) :
    Reads bound column.text.toList { columns := [column] } := by
  have enough : '(' ∈ tail ∨ '[' ∈ tail → 0 < bound := fun opened => room (opened.resolve_left bare)
  have unopened : '(' ∉ column.text.toList := by
    rw [cut.text, List.mem_append, not_or]
    exact ⟨fun member => (cut.flat '(' member).2.2 rfl, bare⟩
  refine ⟨_, cut.split enough, List.cons_ne_nil _ _, ?_⟩
  rw [List.foldlM_cons, readItem, findTopLevel_nested (cut.nested enough) (Nat.le_refl bound) unopened]
  simp only [Except.mapError, ok_bind, cut.read, cut.castable]
  rfl

/-- Where no bracket may be open, no cast with a bracket is read. -/
theorem IsCut.tooDeep (bracket : '(' ∈ tail ∨ '[' ∈ tail) :
    splitTopLevel ',' 0 column.text.toList = .error .tooDeep := by
  have plain : ∀ c ∈ front, IsFlat c ∧ c ≠ ',' := fun c member =>
    ⟨(cut.flat c member).1, (cut.flat c member).2.1⟩
  rw [cut.text]
  cases cut.shape with
  | modified _ _ => exact splitTopLevel_tooDeep plain (by decide) (by decide) _
  | bare array =>
      obtain ⟨blanks, rest, rfl, blank⟩ := array.exists_opener (bracket.resolve_left array.unopened)
      rw [← List.append_assoc]
      refine splitTopLevel_tooDeep ?_ (by decide) (by decide) rest
      intro c member
      rcases List.mem_append.mp member with lead | inside
      · exact plain c lead
      · refine ⟨isFlat_blank (blank c inside), ?_⟩
        rintro rfl
        exact absurd (blank _ inside) (by decide)

/-- A column whose cast has a modifier is read as an embed. -/
theorem IsCut.embeds (modified : '(' ∈ tail) (reads : Reads bound column.text.toList selection) :
    selection.embeds ≠ [] := by
  obtain ⟨items, split, -, read⟩ := reads
  cases bound with
  | zero =>
      rw [cut.tooDeep (.inl modified)] at split
      cases split
  | succ bound =>
      rw [cut.split fun _ => Nat.succ_pos bound] at split
      obtain rfl := Except.ok.inj split
      obtain ⟨_, here, finished⟩ := ok_of_bind read
      obtain rfl := Except.ok.inj finished
      cases shape : cut.shape with
      | bare array => exact absurd modified array.unopened
      | @modified modifier suffix digits array =>
          have opened : findTopLevel '(' (bound + 1) (front ++ '(' :: (modifier ++ ')' :: suffix)) =
              .ok (some (front, '(' :: (modifier ++ ')' :: suffix))) :=
            findTopLevel_flat (fun c member => ⟨(cut.flat c member).1, (cut.flat c member).2.2⟩) rfl
          rw [← cut.text] at opened
          exact readItem_opened opened here

end Cut

/-- A column whose cast is the name of a type is read from a select list, alone, exactly
if the type has no modifier and its `[]` fit; and then it is read among other items, of
which each is a list that can be read on its own. -/
theorem ofText_cast (word : IsName name) (labelled : ∀ text ∈ label, IsName text)
    (typed : isTypeName cast = true) (trimmed : trim cast.toList = cast.toList) :
    (ofText bound (Column.text { name, label, cast := some cast }) =
        .ok { columns := [{ name, label, cast := some cast }] } ↔ IsListCast bound cast) ∧
      ∀ before after : List (String × Selection),
        (∀ part ∈ before ++ after, NamesItem part.1 ∧ ofText bound part.1 = .ok part.2) →
        IsListCast bound cast →
        ofText bound (String.intercalate "," (before.map Prod.fst ++
            Column.text { name, label, cast := some cast } :: after.map Prod.fst)) =
          .ok (merged (before.map Prod.snd ++
            { columns := [{ name, label, cast := some cast }] } :: after.map Prod.snd)) := by
  obtain ⟨front, tail, cut, openers⟩ := exists_cut word labelled typed trimmed
  have modified := openers '(' rfl
  have brackets := openers '[' rfl
  have alone (fits : IsListCast bound cast) := cut.reads (mt modified.mpr fits.1) fun member =>
    fits.2 (brackets.mpr member)
  refine ⟨⟨fun read => ?_, fun fits => ofChars_of_reads (alone fits)⟩, fun before after each fits => ?_⟩
  · have reads := reads_of_ofText cut.names read
    refine ⟨fun member => cut.embeds (modified.mp member) reads rfl, fun member => ?_⟩
    -- Where no bracket may be open, the one in the cast is too deep.
    by_contra none
    obtain rfl : bound = 0 := Nat.eq_zero_of_not_pos none
    obtain ⟨items, split, -⟩ := reads
    rw [cut.tooDeep (.inr (brackets.mp member))] at split
    cases split
  · let parts : List (String × Selection) := before ++
      (Column.text { name, label, cast := some cast },
        { columns := [{ name, label, cast := some cast }] }) :: after
    have reads : ∀ part ∈ parts, Reads bound part.1.toList part.2 := by
      intro part member
      simp only [parts, List.mem_append, List.mem_cons] at member
      rcases member with front | rfl | back
      · exact (each part (List.mem_append_left _ front)).elim reads_of_ofText
      · exact alone fits
      · exact (each part (List.mem_append_right _ back)).elim reads_of_ofText
    have joined := ofText_join (by simp [parts]) reads
    simpa [parts] using joined

/-- A modifier makes an embed of a column. -/
theorem modifier_embedded :
    isTypeName "numeric(10,2)" = true ∧
      ofText 32 (Column.text { name := "amount", cast := some "numeric(10,2)" }) =
        .ok { embeds := [{ relation := ":numeric", label := some "amount", columns :=
          [{ name := "10" }, { name := "2" }] }] } :=
  ⟨by decide, rfl⟩

/-- Points, brackets and a blank in a cast between an embed and a column with a cast. -/
theorem ofText_cast_between :
    ofText 1 "posts(title),n:total::pg_catalog.int8[] [],created::date" =
      .ok { columns := [{ name := "total", label := some "n", cast := some "pg_catalog.int8[] []" },
              { name := "created", cast := some "date" }]
            embeds := [{ relation := "posts", columns := [{ name := "title" }] }] } := by
  have read := (@ofText_cast 1 "total" "pg_catalog.int8[] []" (some "n") (by decide) (by decide) (by decide) (by decide)).2
    [("posts(title)", { embeds := [{ relation := "posts", columns := [{ name := "title" }] }] })]
    [("created::date", { columns := [{ name := "created", cast := some "date" }] })]
  refine read ?_ (by decide)
  refine List.forall_mem_cons.mpr ⟨⟨⟨'p', by decide⟩, rfl⟩, List.forall_mem_singleton.mpr ⟨⟨'c', by decide⟩, rfl⟩⟩

end Selection

end QueryNotation
