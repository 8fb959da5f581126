import QueryNotation.Embed
import QueryNotation.Proofs.Column

namespace QueryNotation.Embed

/-! # Embeds as items of a select list

A select list says of an embed what it is called and which columns and embeds it has.
-/

open Text

/-- The embeds that a select list describes in full: words for names, something to
show, and different names for the embeds of the same level. -/
inductive IsPlain : Embed → Prop where
  | intro {embed : Embed} (word : IsWord embed.relation)
    (labelled : ∀ text ∈ embed.label, IsWord text)
    (columns : ∀ column ∈ embed.columns, column.IsPlain)
    (full : embed.columns ≠ [] ∨ embed.embeds ≠ [])
    (distinct : (embed.embeds.map name).Nodup)
    (below : ∀ other ∈ embed.embeds, IsPlain other) : IsPlain embed

/-- The embeds that a select list can name, with something to show or without. -/
inductive IsNamed : Embed → Prop where
  | intro {embed : Embed} (word : IsWord embed.relation)
    (labelled : ∀ text ∈ embed.label, IsWord text)
    (columns : ∀ column ∈ embed.columns, column.IsPlain)
    (distinct : (embed.embeds.map name).Nodup)
    (below : ∀ other ∈ embed.embeds, IsNamed other) : IsNamed embed

theorem IsPlain.isNamed {embed : Embed} (plain : embed.IsPlain) : embed.IsNamed := by
  induction plain with
  | intro word labelled columns full distinct below induction =>
      exact .intro word labelled columns distinct induction

mutual

def mapEach (change : Embed → Embed) : Embed → Embed
  | { relation, label, inner, columns, filters, order, limit, embeds } =>
    { change { relation, label, inner, columns, filters, order, limit, embeds } with
      embeds := mapAll change embeds }

/-- The same change made to some embeds and to those below them. -/
def mapAll (change : Embed → Embed) : List Embed → List Embed
  | [] => []
  | embed :: rest => mapEach change embed :: mapAll change rest

end

/-- What a select list says of an embed itself. -/
def bare (embed : Embed) : Embed :=
  { embed with filters := [], order := [], limit := none }

/-- The columns that a list is read as: all of them, where it names nothing. -/
def shown (columns : List Column) (embeds : List Embed) : List Column :=
  if columns.isEmpty && embeds.isEmpty then [.star] else columns

/-- An embed whose list names what it is read as. -/
def starred (embed : Embed) : Embed :=
  { embed with columns := shown embed.columns embed.embeds }

/-- What a select list is read to say of an embed itself. -/
def told (embed : Embed) : Embed :=
  { bare embed with columns := shown embed.columns embed.embeds }

/-- An embed with its filters, but without its order and its limit. -/
def filtered (embed : Embed) : Embed :=
  { embed with order := [], limit := none }

/-- An embed with its filters and its order, but without its limit. -/
def ordered (embed : Embed) : Embed :=
  { embed with limit := none }

theorem mapEach_eq (change : Embed → Embed) (embed : Embed) :
    embed.mapEach change = { change embed with embeds := mapAll change embed.embeds } := by
  cases embed
  rw [mapEach]

theorem mapAll_eq_map (change : Embed → Embed) (embeds : List Embed) :
    mapAll change embeds = embeds.map (mapEach change) := by
  induction embeds with
  | nil => rw [mapAll]; rfl
  | cons embed rest induction => rw [mapAll, induction]; rfl

theorem shown_of_full {columns : List Column} {embeds : List Embed}
    (full : columns ≠ [] ∨ embeds ≠ []) : shown columns embeds = columns := by
  refine if_neg fun none => ?_
  simp only [Bool.and_eq_true, List.isEmpty_iff] at none
  exact full.elim (· none.1) (· none.2)

theorem map_name_told (embeds : List Embed) : (mapAll told embeds).map name = embeds.map name := by
  rw [mapAll_eq_map, List.map_map]
  refine List.map_congr_left fun embed _ => ?_
  rw [Function.comp_apply, mapEach_eq]
  rfl

theorem mapEach_told {embed : Embed} (plain : embed.IsPlain) : embed.mapEach told = embed.mapEach bare := by
  induction plain with
  | intro word labelled columns full distinct below induction =>
      rw [mapEach_eq, mapEach_eq, mapAll_eq_map, mapAll_eq_map, List.map_congr_left induction, told,
        shown_of_full full]
      rfl

/-- Of plain embeds a list is read to say what it says. -/
theorem mapAll_told {embeds : List Embed} (plain : ∀ embed ∈ embeds, embed.IsPlain) :
    mapAll told embeds = mapAll bare embeds := by
  rw [mapAll_eq_map, mapAll_eq_map]
  exact List.map_congr_left fun embed member => mapEach_told (plain embed member)

theorem selectItems_eq_map (embeds : List Embed) : selectItems embeds = embeds.map selectItem := by
  induction embeds with
  | nil => rw [selectItems]; rfl
  | cons embed rest induction => rw [selectItems, induction]; rfl

theorem depth_le_greatestDepth {embed : Embed} {embeds : List Embed} (member : embed ∈ embeds) :
    embed.depth ≤ greatestDepth embeds := by
  induction embeds with
  | nil => cases member
  | cons first rest induction =>
      rw [greatestDepth]
      rcases List.mem_cons.mp member with rfl | later
      · exact Nat.le_max_left _ _
      · exact Nat.le_trans (induction later) (Nat.le_max_right _ _)

theorem depth_eq (embed : Embed) : embed.depth = 1 + greatestDepth embed.embeds := by
  cases embed
  rw [depth]

def listItems (columns : List Column) (embeds : List Embed) : List (List Char) :=
  (columns.map fun column => column.text.toList) ++ embeds.map fun embed => embed.selectItem.toList

def headText (embed : Embed) : List Char :=
  Column.leadText embed.relation embed.label ++ if embed.inner then "!inner".toList else []

theorem toList_selectItem (embed : Embed) :
    embed.selectItem.toList =
      headText embed ++ '(' :: ([','].intercalate (listItems embed.columns embed.embeds) ++ [')']) := by
  obtain ⟨relation, label, inner, columns, filters, order, limit, embeds⟩ := embed
  rw [selectItem.eq_def]
  unfold headText listItems Column.leadText
  simp only [selectItems_eq_map]
  cases label <;> cases inner <;> simp [String.toList_intercalate, Function.comp_def]

/-- A character of an item outside its brackets. -/
def IsListChar (c : Char) : Prop :=
  isNameChar c = true ∨ c = ':' ∨ c = '!' ∨ c = '*'

namespace IsListChar

variable {c : Char}

theorem flat (plain : IsListChar c) : IsFlat c := by
  rcases plain with name | rfl | rfl | rfl
  · exact isFlat_nameChar name
  · exact ⟨rfl, rfl, rfl⟩
  · exact ⟨rfl, rfl, rfl⟩
  · exact ⟨rfl, rfl, rfl⟩

theorem solid (plain : IsListChar c) : isBlank c = false := by
  rcases plain with name | rfl | rfl | rfl
  · exact isBlank_nameChar name
  · decide
  · decide
  · decide

theorem ne_mark (plain : IsListChar c) {mark : Char} (other : mark ∈ [',', '(', ')', '.']) :
    c ≠ mark := by
  rintro rfl
  simp only [List.mem_cons, List.not_mem_nil, or_false] at other
  rcases other with rfl | rfl | rfl | rfl <;> exact absurd plain (by unfold IsListChar; decide)

end IsListChar

theorem isListChar_of_column {column : Column} (item : column.IsItem) :
    ∀ c ∈ column.text.toList, IsListChar c := by
  intro c member
  rcases item.chars c member with name | colon | star
  · exact .inl name
  · exact .inr (.inl colon)
  · exact .inr (.inr (.inr star))

theorem headText_plain {embed : Embed} (word : IsWord embed.relation)
    (labelled : ∀ text ∈ embed.label, IsWord text) : ∀ c ∈ headText embed, IsListChar c := by
  intro c member
  rcases List.mem_append.mp member with lead | behind
  · rcases Column.leadText_plain word.isName (fun text given => (labelled text given).isName) c lead
      with plain | colon
    · exact .inl plain
    · exact .inr (.inl colon)
  · split at behind
    · simp only [String.reduceToList, List.mem_cons, List.not_mem_nil, or_false] at behind
      unfold IsListChar
      rcases behind with rfl | rfl | rfl | rfl | rfl | rfl <;> decide
    · cases behind

section Kept

variable {change : Embed → Embed} (kept : ∀ embed, embed.IsPlain → change embed = embed)

theorem mapAll_of_each {embeds : List Embed} (each : ∀ embed ∈ embeds, embed.mapEach change = embed) :
    mapAll change embeds = embeds := by
  rw [mapAll_eq_map, List.map_congr_left (g := id) each, List.map_id]

include kept

theorem mapEach_kept {embed : Embed} (plain : embed.IsPlain) : embed.mapEach change = embed := by
  induction plain with
  | @intro embed word labelled columns full distinct below induction =>
      rw [mapEach_eq, mapAll_of_each induction, kept embed ⟨word, labelled, columns, full, distinct, below⟩]
      cases embed
      rfl

/-- A change that leaves every plain embed alone leaves the embeds below it alone. -/
theorem mapAll_kept {embeds : List Embed} (plain : ∀ embed ∈ embeds, embed.IsPlain) :
    mapAll change embeds = embeds :=
  mapAll_of_each fun embed member => mapEach_kept kept (plain embed member)

end Kept

theorem mapAll_id {embeds : List Embed} (plain : ∀ embed ∈ embeds, embed.IsPlain) :
    mapAll id embeds = embeds :=
  mapAll_kept (fun _ _ => rfl) plain

theorem mapAll_starred {embeds : List Embed} (plain : ∀ embed ∈ embeds, embed.IsPlain) :
    mapAll starred embeds = embeds := by
  refine mapAll_kept (fun embed plain => ?_) plain
  obtain ⟨_, _, _, full, _, _⟩ := plain
  rw [starred, shown_of_full full]
  cases embed
  rfl

theorem nested_plain {text : List Char} {height : Nat} (plain : ∀ c ∈ text, IsListChar c) :
    Nested (· = ',') height text :=
  .of_flat fun c member => ⟨(plain c member).flat, (plain c member).ne_mark (by simp)⟩

theorem nested_join {parts : List (List Char)} {height : Nat}
    (nested : ∀ part ∈ parts, Nested (· = ',') height part) :
    Nested (fun _ => False) height ([','].intercalate parts) := by
  induction parts with
  | nil => exact .nil
  | cons part more induction =>
      have first := (nested part (by simp)).weaken fun _ (impossible : False) => impossible.elim
      have others := induction fun other member => nested other (by simp [member])
      cases more with
      | nil => rwa [List.intercalate_singleton]
      | cons next rest =>
          rw [List.intercalate_cons_cons, List.append_assoc]
          exact first.append (.flat ⟨rfl, rfl, rfl⟩ id others)

theorem nested_listItems {columns : List Column} {embeds : List Embed} {height : Nat}
    (items : ∀ column ∈ columns, column.IsItem)
    (embedsNested : ∀ embed ∈ embeds, Nested (· = ',') height embed.selectItem.toList) :
    ∀ item ∈ listItems columns embeds, Nested (· = ',') height item := by
  intro item member
  rcases List.mem_append.mp member with front | back
  · obtain ⟨column, listed, rfl⟩ := List.mem_map.mp front
    exact nested_plain (isListChar_of_column (items column listed))
  · obtain ⟨embed, listed, rfl⟩ := List.mem_map.mp back
    exact embedsNested embed listed

/-- The brackets of an item nest as deep as the embeds do. -/
theorem nested_selectItem {embed : Embed} (named : embed.IsNamed) :
    Nested (· = ',') embed.depth embed.selectItem.toList := by
  induction named with
  | @intro embed word labelled columns distinct below induction =>
      have head : Nested (· = ',') embed.depth (headText embed) :=
        nested_plain (headText_plain word labelled)
      have items := nested_join (nested_listItems (fun column listed => (columns column listed).isItem)
        fun other member => (induction other member).mono (depth_le_greatestDepth member))
      rw [toList_selectItem]
      refine head.append ?_
      rw [depth_eq, Nat.add_comm]
      exact .bracket rfl rfl items .nil

end QueryNotation.Embed
