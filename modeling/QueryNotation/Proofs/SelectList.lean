import QueryNotation.Proofs.Embed
import QueryNotation.Proofs.Outcome
import QueryNotation.Proofs.Text.Separated
import QueryNotation.SelectList

namespace QueryNotation.Selection

/-! # Reading back select lists

A select list is read back as the columns and the embeds that it was written for.  Of an
embed it gives all but the filters, the order and the limit, which stand elsewhere.

Lists that can be read on their own are read to the same columns, embeds and warnings
when they stand in one list, in the order in which they stand.
-/

open Text

section Listed

open Embed

variable {embed : Embed} {bound : Nat} {readInner : List Char → Outcome Selection}

theorem dropLead?_spread {text : List Char} (plain : ∀ c ∈ text.head?, c ≠ '.') :
    dropLead? ['.', '.', '.'] text = none := by
  refine dropLead?_eq_none ?_
  rintro ⟨rest, rfl⟩
  exact plain '.' rfl rfl

def hintText (relation : String) (inner : Bool) : List Char :=
  relation.toList ++ if inner then "!inner".toList else []

theorem headText_eq (embed : Embed) :
    headText embed =
      (match embed.label with
        | some label => label.toList ++ [':']
        | none => []) ++ hintText embed.relation embed.inner := by
  unfold headText Column.leadText hintText
  cases embed.label with
  | none => exact List.append_assoc _ _ _
  | some label => exact List.append_assoc _ _ _

theorem hintText_plain {relation : String} (word : IsWord relation) (inner : Bool) :
    ':' ∉ hintText relation inner := by
  intro member
  rcases List.mem_append.mp member with front | behind
  · exact word.absent (by decide) front
  · cases inner with
    | true => exact absurd behind (by decide)
    | false => cases behind

theorem cutFirst_hintText {relation : String} (word : IsWord relation) (inner : Bool) :
    cutFirst '!' (hintText relation inner) =
      if inner then some (relation.toList, "inner".toList) else none := by
  have absent : '!' ∉ relation.toList := word.absent (by decide)
  unfold hintText
  cases inner with
  | true => exact cutFirst_append absent _
  | false => exact cutFirst_of_absent (by simpa using absent)

theorem readHead_headText (word : IsWord embed.relation)
    (labelled : ∀ text ∈ embed.label, IsWord text) :
    readHead (headText embed) =
      { relation := embed.relation, label := embed.label, inner := embed.inner, warnings := [] } := by
  have plain := headText_plain word labelled
  have trimmed : trim (headText embed) = headText embed :=
    trim_of_solid fun c member => (plain c member).solid
  have hintTrimmed : trim (hintText embed.relation embed.inner) =
      hintText embed.relation embed.inner := by
    refine trim_of_solid fun c member => (plain c ?_).solid
    rw [headText_eq]
    exact List.mem_append_right _ member
  have spread : dropLead? ['.', '.', '.'] (headText embed) = none :=
    dropLead?_spread fun c first => (plain c (List.mem_of_mem_head? first)).ne_mark (by simp)
  have cut : cutFirst ':' (headText embed) =
      embed.label.map fun text => (text.toList, hintText embed.relation embed.inner) := by
    rw [headText_eq]
    cases shape : embed.label with
    | none => exact cutFirst_of_absent (hintText_plain word _)
    | some label =>
        rw [List.append_assoc]
        exact cutFirst_append ((labelled label shape).absent (by decide)) _
  have hint := cutFirst_hintText word embed.inner
  have same : embed.label = none → headText embed = hintText embed.relation embed.inner := by
    intro absent
    rw [headText_eq, absent, List.nil_append]
  have relation := word.trim_eq
  have mark : String.ofList (trim "inner".toList) = "inner" := by decide
  unfold readHead
  simp only [trimmed, spread, cut]
  cases shape : embed.label with
  | none =>
      simp only [Option.map_none, same shape, hint]
      cases inner : embed.inner with
      | true => simp only [if_true, relation, mark, String.ofList_toList, decide_true, List.append_nil]
      | false => simp [hintText]
  | some label =>
      simp only [Option.map_some, hintTrimmed, hint, (labelled label shape).trim_eq]
      cases inner : embed.inner with
      | true => simp only [if_true, relation, mark, String.ofList_toList, decide_true, List.append_nil]
      | false => simp [hintText]

/-- A column is read as an item of a list. -/
theorem readItem_column {column : Column} (item : column.IsItem) (selection : Selection) :
    readItem bound readInner selection column.text.toList = .ok (selection.withColumn column) := by
  have absent : findTopLevel '(' bound column.text.toList = .ok none := by
    refine findTopLevel_absent fun c member => ?_
    have listed := isListChar_of_column item c member
    exact ⟨listed.flat, listed.ne_mark (by simp)⟩
  rw [readItem, absent]
  simp only [Except.mapError, ok_bind, item.read, item.castable]
  rfl

/-- An embed is read as an item of a list, when the list inside it is. -/
theorem readItem_embed (named : embed.IsNamed) (room : embed.depth ≤ bound)
    (inner : readInner ([','].intercalate (listItems embed.columns embed.embeds)) =
      .ok { columns := shown embed.columns embed.embeds, embeds := mapAll told embed.embeds })
    (selection : Selection) :
    readItem bound readInner selection embed.selectItem.toList =
      .ok (selection.withEmbed (embed.mapEach told) []) := by
  obtain ⟨word, labelled, columns, distinct, below⟩ := named
  have head := headText_plain word labelled
  have opened : findTopLevel '(' bound embed.selectItem.toList =
      .ok (some (headText embed,
        '(' :: ([','].intercalate (listItems embed.columns embed.embeds) ++ [')']))) := by
    rw [toList_selectItem]
    exact findTopLevel_flat (fun c member =>
      ⟨(head c member).flat, (head c member).ne_mark (by simp)⟩) rfl
  have items := nested_join (nested_listItems (fun column listed => (columns column listed).isItem)
    fun other member => (nested_selectItem (below other member)).mono (depth_le_greatestDepth member))
  have closed : upToClose bound
      ('(' :: ([','].intercalate (listItems embed.columns embed.embeds) ++ [')'])) =
        .ok ('(' :: [','].intercalate (listItems embed.columns embed.embeds), []) :=
    upToClose_bracket rfl rfl items (by rw [depth_eq] at room; omega)
  rw [readItem, opened]
  simp only [Except.mapError, ok_bind, readEmbed, closed, readHead_headText word labelled,
    List.drop_succ_cons, List.drop_zero, inner, trailingWarnings, allBlank, List.all_nil, if_true]
  rw [mapEach_eq]
  rfl

theorem foldlM_columns {columns : List Column} (items : ∀ column ∈ columns, column.IsItem)
    (selection : Selection) :
    (columns.map fun column => column.text.toList).foldlM (readItem bound readInner) selection =
      .ok { selection with columns := selection.columns ++ columns } := by
  induction columns generalizing selection with
  | nil => simp [pure, Except.pure]
  | cons column rest induction =>
      rw [List.map_cons, List.foldlM_cons, readItem_column (items column (by simp)), ok_bind,
        induction fun other member => items other (by simp [member])]
      simp [withColumn]

theorem foldlM_embeds {embeds : List Embed} (named : ∀ embed ∈ embeds, embed.IsNamed)
    (room : ∀ embed ∈ embeds, embed.depth ≤ bound)
    (inner : ∀ embed ∈ embeds,
      readInner ([','].intercalate (listItems embed.columns embed.embeds)) =
        .ok { columns := shown embed.columns embed.embeds, embeds := mapAll told embed.embeds })
    (selection : Selection) :
    (embeds.map fun embed => embed.selectItem.toList).foldlM (readItem bound readInner) selection =
      .ok { selection with embeds := selection.embeds ++ mapAll told embeds } := by
  induction embeds generalizing selection with
  | nil => simp [pure, Except.pure, mapAll]
  | cons embed rest induction =>
      rw [List.map_cons, List.foldlM_cons, readItem_embed (named embed (by simp))
        (room embed (by simp)) (inner embed (by simp)), ok_bind,
        induction (fun other member => named other (by simp [member]))
          (fun other member => room other (by simp [member]))
          (fun other member => inner other (by simp [member]))]
      simp [withEmbed, mapAll]

/-- A character of a list, with the marks that hold it together. -/
def IsSelectChar (c : Char) : Prop :=
  IsListChar c ∨ c = ',' ∨ c = '(' ∨ c = ')'

theorem IsSelectChar.solid {c : Char} (plain : IsSelectChar c) : isBlank c = false := by
  rcases plain with listed | rfl | rfl | rfl
  · exact listed.solid
  · decide
  · decide
  · decide

theorem IsSelectChar.ne_point {c : Char} (plain : IsSelectChar c) : c ≠ '.' := by
  rcases plain with listed | rfl | rfl | rfl
  · exact listed.ne_mark (by simp)
  · decide
  · decide
  · decide

theorem join_chars {parts : List (List Char)} (each : ∀ part ∈ parts, ∀ c ∈ part, IsSelectChar c) :
    ∀ c ∈ [','].intercalate parts, IsSelectChar c := by
  induction parts with
  | nil => exact List.forall_mem_nil _
  | cons part more induction =>
      have others := induction fun other member => each other (by simp [member])
      cases more with
      | nil => simpa using each part (by simp)
      | cons next rest =>
          rw [List.intercalate_cons_cons]
          intro c member
          rcases List.mem_append.mp member with front | back
          · rcases List.mem_append.mp front with inside | comma
            · exact each part (by simp) c inside
            · exact .inr (.inl (List.mem_singleton.mp comma))
          · exact others c back

theorem listItems_chars {columns : List Column} {embeds : List Embed}
    (items : ∀ column ∈ columns, column.IsItem)
    (embedChars : ∀ embed ∈ embeds, ∀ c ∈ embed.selectItem.toList, IsSelectChar c) :
    ∀ item ∈ listItems columns embeds, ∀ c ∈ item, IsSelectChar c := by
  intro item member c inside
  rcases List.mem_append.mp member with front | back
  · obtain ⟨column, listed, rfl⟩ := List.mem_map.mp front
    exact .inl (isListChar_of_column (items column listed) c inside)
  · obtain ⟨embed, listed, rfl⟩ := List.mem_map.mp back
    exact embedChars embed listed c inside

theorem selectItem_chars (named : embed.IsNamed) :
    ∀ c ∈ embed.selectItem.toList, IsSelectChar c := by
  induction named with
  | @intro embed word labelled columns distinct below induction =>
      have items := join_chars
        (listItems_chars (fun column listed => (columns column listed).isItem) induction)
      rw [toList_selectItem]
      intro c member
      simp only [List.mem_append, List.mem_cons, List.not_mem_nil, or_false] at member
      rcases member with head | rfl | inside | rfl
      · exact .inl (headText_plain word labelled c head)
      · exact .inr (.inr (.inl rfl))
      · exact items c inside
      · exact .inr (.inr (.inr rfl))

theorem listItems_full {columns : List Column} {embeds : List Embed}
    (items : ∀ column ∈ columns, column.IsItem) :
    ∀ item ∈ listItems columns embeds, item ≠ [] := by
  intro item member
  rcases List.mem_append.mp member with front | back
  · obtain ⟨column, listed, rfl⟩ := List.mem_map.mp front
    exact (items column listed).full
  · obtain ⟨embed, listed, rfl⟩ := List.mem_map.mp back
    rw [toList_selectItem]
    simp

theorem readWith_listItems {columns : List Column} {embeds : List Embed}
    (items : ∀ column ∈ columns, column.IsItem) (named : ∀ embed ∈ embeds, embed.IsNamed)
    (room : ∀ embed ∈ embeds, embed.depth ≤ bound)
    (inner : ∀ embed ∈ embeds,
      readInner ([','].intercalate (listItems embed.columns embed.embeds)) =
        .ok { columns := shown embed.columns embed.embeds, embeds := mapAll told embed.embeds }) :
    readWith bound readInner ([','].intercalate (listItems columns embeds)) =
      .ok { columns := shown columns embeds, embeds := mapAll told embeds } := by
  have chars := listItems_chars items fun embed member => selectItem_chars (named embed member)
  have trimmed : trim ([','].intercalate (listItems columns embeds)) =
      [','].intercalate (listItems columns embeds) :=
    trim_of_solid fun c member => (join_chars chars c member).solid
  have split : splitTopLevel ',' bound ([','].intercalate (listItems columns embeds)) =
      .ok (listItems columns embeds) :=
    splitTopLevel_join
      (nested_listItems items fun embed member =>
        (nested_selectItem (named embed member)).mono (room embed member))
      (fun item member => trim_of_solid fun c inside => (chars item member c inside).solid)
      (listItems_full items)
  have both : (mapAll told embeds).isEmpty = embeds.isEmpty := by rw [mapAll_eq_map, List.isEmpty_map]
  unfold readWith
  simp only [trimmed, split, Except.mapError, ok_bind]
  rw [listItems, List.foldlM_append, foldlM_columns items, ok_bind, foldlM_embeds named room inner,
    ok_bind, orStar, shown]
  simp only [List.nil_append, both]
  split <;> rfl

/-- A select list is read back; a list that names nothing asks for all columns. -/
theorem ofChars_named {columns : List Column} {embeds : List Embed}
    (items : ∀ column ∈ columns, column.IsItem) (named : ∀ embed ∈ embeds, embed.IsNamed)
    (room : greatestDepth embeds ≤ bound) :
    ofChars bound ([','].intercalate (listItems columns embeds)) =
      .ok { columns := shown columns embeds, embeds := mapAll told embeds } := by
  have deep (embed : Embed) (member : embed ∈ embeds) : embed.depth ≤ bound :=
    Nat.le_trans (depth_le_greatestDepth member) room
  induction bound generalizing columns embeds with
  | zero =>
      refine readWith_listItems items named deep fun embed member => ?_
      have impossible := deep embed member
      rw [depth_eq] at impossible
      omega
  | succ bound induction =>
      refine readWith_listItems items named deep fun embed member => ?_
      obtain ⟨word, labelled, columns, distinct, below⟩ := named embed member
      have lower : greatestDepth embed.embeds ≤ bound := by
        have here := deep embed member
        rw [depth_eq] at here
        omega
      exact induction (fun column listed => (columns column listed).isItem) below lower fun other listed =>
        Nat.le_trans (depth_le_greatestDepth listed) lower

/-- A select list of plain embeds is read back as it is. -/
theorem ofChars_listItems {columns : List Column} {embeds : List Embed}
    (items : ∀ column ∈ columns, column.IsItem)
    (plain : ∀ embed ∈ embeds, embed.IsPlain) (full : columns ≠ [] ∨ embeds ≠ [])
    (room : greatestDepth embeds ≤ bound) :
    ofChars bound ([','].intercalate (listItems columns embeds)) =
      .ok { columns, embeds := mapAll bare embeds } := by
  rw [ofChars_named items (fun embed member => (plain embed member).isNamed) room, shown_of_full full,
    mapAll_told plain]

theorem toList_selectList (query : Query) :
    query.selectList.toList = [','].intercalate (Embed.listItems query.columns query.embeds) := by
  rw [Query.selectList, Embed.selectItems_eq_map, Embed.listItems, String.toList_intercalate,
    List.map_append, List.map_map, List.map_map]
  rfl

variable {selection found : Selection} {text item : List Char}

/-- An item adds no embed or one, and the list of that is read one level further in. -/
theorem embeds_readItem (read : readItem bound readInner selection item = .ok found) :
    found.embeds = selection.embeds ∨ ∃ inside inner embed, readInner inside = .ok inner ∧
      bare embed = embed ∧ embed.embeds = inner.embeds ∧ found.embeds = selection.embeds ++ [embed] := by
  obtain ⟨split, _, read⟩ := ok_of_bind read
  cases split with
  | none =>
      dsimp only at read
      split at read
      · cases read
      · obtain rfl := Except.ok.inj read
        exact .inl rfl
  | some parts =>
      obtain ⟨⟨embed, warnings⟩, embedded, read⟩ := ok_of_bind read
      obtain rfl := Except.ok.inj read
      obtain ⟨⟨bracket, behind⟩, _, embedded⟩ := ok_of_bind embedded
      obtain ⟨inner, listed, embedded⟩ := ok_of_bind embedded
      obtain ⟨rfl, rfl⟩ := Prod.mk.inj (Except.ok.inj embedded)
      exact .inr ⟨_, inner, _, listed, rfl, rfl, rfl⟩

theorem embeds_orStar (selection : Selection) : selection.orStar.embeds = selection.embeds := by
  unfold orStar
  split <;> rfl

/-- What holds without embeds, and still with one more if it holds of the list of that one level
further in, holds of the embeds of every list. -/
theorem ofChars_invariant (holds : Nat → List Embed → Prop) (none : ∀ bound, holds bound [])
    (more : ∀ {bound embeds embed}, holds (bound + 1) embeds → bare embed = embed →
      holds bound embed.embeds → holds (bound + 1) (embeds ++ [embed]))
    (read : ofChars bound text = .ok found) : holds bound found.embeds := by
  have run {bound : Nat} {readInner : List Char → Outcome Selection} {text : List Char} {found : Selection}
      (add : ∀ {embeds embed inside inner}, holds bound embeds → readInner inside = .ok inner →
        bare embed = embed → embed.embeds = inner.embeds → holds bound (embeds ++ [embed]))
      (read : readWith bound readInner text = .ok found) : holds bound found.embeds := by
    obtain ⟨items, _, read⟩ := ok_of_bind read
    obtain ⟨listed, folded, read⟩ := ok_of_bind read
    obtain rfl := Except.ok.inj read
    rw [embeds_orStar]
    refine foldlM_invariant (fun selection => holds bound selection.embeds) ?_ (none bound) folded
    intro selection item next before here
    rcases embeds_readItem here with same | ⟨inside, inner, embed, deeper, plain, below, added⟩
    · rwa [same]
    · rw [added]
      exact add before deeper plain below
  induction bound generalizing text found with
  | zero => exact run (fun _ impossible => by cases impossible) read
  | succ bound induction =>
      exact run (fun before deeper plain below => more before plain (below ▸ induction deeper)) read

end Listed

section Joined

variable {bound : Nat} {readInner : List Char → Outcome Selection} {front behind selection : Selection}

def append (front behind : Selection) : Selection where
  columns := front.columns ++ behind.columns
  embeds := front.embeds ++ behind.embeds
  warnings := front.warnings ++ behind.warnings

def merged (selections : List Selection) : Selection :=
  selections.foldr append {}

theorem append_assoc (first second third : Selection) :
    (first.append second).append third = first.append (second.append third) := by
  simp [append, List.append_assoc]

theorem append_empty (selection : Selection) : selection.append {} = selection := by
  simp [append]

/-- What an item adds does not depend on what stands in front of it. -/
theorem readItem_from (selection : Selection) (item : List Char) :
    readItem bound readInner selection item =
      (readItem bound readInner {} item).map selection.append := by
  unfold readItem
  cases (findTopLevel '(' bound item).mapError (Fault.ofNesting bound item) with
  | error fault => rfl
  | ok found =>
      rw [ok_bind, ok_bind]
      cases found with
      | some opened =>
          obtain ⟨before, bracketed⟩ := opened
          change (readEmbed bound readInner item before bracketed >>= _) =
            Except.map _ (readEmbed bound readInner item before bracketed >>= _)
          cases readEmbed bound readInner item before bracketed with
          | error fault => rfl
          | ok read => simp [ok_bind, Except.map, append, withEmbed, pure, Except.pure]
      | none =>
          simp only
          split
          · rfl
          · simp [Except.map, append, withColumn, pure, Except.pure]

theorem foldlM_from (items : List (List Char)) (selection : Selection) :
    items.foldlM (readItem bound readInner) selection =
      (items.foldlM (readItem bound readInner) {}).map selection.append := by
  induction items generalizing selection with
  | nil => exact congrArg Except.ok (append_empty selection).symm
  | cons item rest induction =>
      rw [List.foldlM_cons, List.foldlM_cons, readItem_from]
      cases readItem bound readInner {} item with
      | error fault => rfl
      | ok first =>
          rw [Except.map, ok_bind, ok_bind, induction, induction first]
          cases rest.foldlM (readItem bound readInner) {} with
          | error fault => rfl
          | ok others => exact congrArg Except.ok (append_assoc selection first others)

theorem readItem_full {item : List Char} (read : readItem bound readInner front item = .ok selection) :
    selection.columns ≠ [] ∨ selection.embeds ≠ [] := by
  unfold readItem at read
  obtain ⟨found, -, read⟩ := ok_of_bind read
  split at read
  · obtain ⟨⟨embed, warnings⟩, -, read⟩ := ok_of_bind read
    obtain rfl := Except.ok.inj read
    exact .inr (by simp [withEmbed])
  · simp only at read
    split at read
    · cases read
    · obtain rfl := Except.ok.inj read
      exact .inl (by simp [withColumn])

theorem readItem_opened {item : List Char} {opened : List Char × List Char}
    (found : findTopLevel '(' bound item = .ok (some opened))
    (read : readItem bound readInner front item = .ok selection) : selection.embeds ≠ [] := by
  obtain ⟨before, bracketed⟩ := opened
  rw [readItem, found, Except.mapError, ok_bind] at read
  obtain ⟨⟨embed, warnings⟩, -, read⟩ := ok_of_bind read
  obtain rfl := Except.ok.inj read
  simp [withEmbed]

theorem foldlM_full {items : List (List Char)} (some : items ≠ [])
    (read : items.foldlM (readItem bound readInner) {} = .ok selection) :
    selection.columns ≠ [] ∨ selection.embeds ≠ [] := by
  obtain ⟨first, rest, rfl⟩ := List.exists_cons_of_ne_nil some
  rw [List.foldlM_cons] at read
  obtain ⟨started, here, read⟩ := ok_of_bind read
  rw [foldlM_from] at read
  obtain ⟨others, -, rfl⟩ := ok_of_map read
  exact (readItem_full here).imp (fun full => List.append_ne_nil_of_left_ne_nil full _)
    fun full => List.append_ne_nil_of_left_ne_nil full _

theorem orStar_full (full : selection.columns ≠ [] ∨ selection.embeds ≠ []) :
    selection.orStar = selection := by
  refine if_neg fun none => ?_
  simp only [Bool.and_eq_true, List.isEmpty_iff] at none
  exact full.elim (· none.1) (· none.2)

def innerReader : Nat → List Char → Outcome Selection
  | 0, inner => .error (.nestingTooDeep 0 (String.ofList inner))
  | bound + 1, inner => ofChars bound inner

theorem ofChars_eq (bound : Nat) (text : List Char) :
    ofChars bound text = readWith bound (innerReader bound) text := by
  cases bound <;> rfl

/-- A text has items, and read one after another they make the selection. -/
def Reads (bound : Nat) (text : List Char) (selection : Selection) : Prop :=
  ∃ items, splitTopLevel ',' bound text = .ok items ∧ items ≠ [] ∧
    items.foldlM (readItem bound (innerReader bound)) {} = .ok selection

/-- A text in which more stands than commas and blanks. -/
def NamesItem (text : String) : Prop :=
  ∃ c ∈ text.toList, isBlank c = false ∧ c ≠ ','

theorem ofChars_of_reads {text : List Char} (reads : Reads bound text selection) :
    ofChars bound text = .ok selection := by
  obtain ⟨items, split, some, read⟩ := reads
  rw [ofChars_eq, readWith]
  simp only [splitTopLevel_trim (show isBlank ',' = false from rfl) rfl, split, Except.mapError,
    ok_bind, read]
  exact congrArg Except.ok (orStar_full (foldlM_full some read))

theorem reads_of_ofText {text : String} (names : NamesItem text)
    (read : ofText bound text = .ok selection) : Reads bound text.toList selection := by
  obtain ⟨c, member, solid, other⟩ := names
  rw [ofText, ofChars_eq, readWith] at read
  simp only [splitTopLevel_trim (show isBlank ',' = false from rfl) rfl] at read
  obtain ⟨items, split, read⟩ := ok_of_bind read
  obtain ⟨folded, folds, finished⟩ := ok_of_bind read
  cases found : splitTopLevel ',' bound text.toList with
  | error fault =>
      rw [found] at split
      cases split
  | ok pieces =>
      rw [found] at split
      obtain rfl := Except.ok.inj split
      have some := splitTopLevel_ne_nil found member solid other
      rw [orStar_full (foldlM_full some folds)] at finished
      obtain rfl := Except.ok.inj finished
      exact ⟨_, found, some, folds⟩

theorem Reads.append {text rest : List Char} (here : Reads bound text front)
    (there : Reads bound rest behind) : Reads bound (text ++ ',' :: rest) (front.append behind) := by
  obtain ⟨items, split, some, read⟩ := here
  obtain ⟨others, further, -, readOthers⟩ := there
  refine ⟨items ++ others, splitTopLevel_append (by decide) split further,
    List.append_ne_nil_of_left_ne_nil some _, ?_⟩
  rw [List.foldlM_append, read, ok_bind, foldlM_from, readOthers]
  rfl

theorem reads_intercalate {parts : List (List Char × Selection)} (some : parts ≠ [])
    (each : ∀ part ∈ parts, Reads bound part.1 part.2) :
    Reads bound ([','].intercalate (parts.map Prod.fst)) (merged (parts.map Prod.snd)) := by
  induction parts with
  | nil => exact absurd rfl some
  | cons part more induction =>
      have first := each part List.mem_cons_self
      cases more with
      | nil =>
          change Reads bound _ (part.2.append {})
          rw [append_empty]
          simpa using first
      | cons next others =>
          have behind := induction (List.cons_ne_nil next others) fun other member =>
            each other (List.mem_cons_of_mem part member)
          rw [List.map_cons, List.map_cons, List.map_cons, List.intercalate_cons_cons, List.append_assoc]
          exact first.append behind

/-- Lists that stand one behind another are read as one. -/
theorem ofText_join {parts : List (String × Selection)} (some : parts ≠ [])
    (each : ∀ part ∈ parts, Reads bound part.1.toList part.2) :
    ofText bound (String.intercalate "," (parts.map Prod.fst)) = .ok (merged (parts.map Prod.snd)) := by
  have texts : ∀ part ∈ parts.map (Prod.map String.toList id), Reads bound part.1 part.2 :=
    List.forall_mem_map.mpr each
  have whole := reads_intercalate (by simpa using some) texts
  rw [ofText, String.toList_intercalate]
  refine ofChars_of_reads ?_
  simpa [Function.comp_def] using whole

end Joined

end QueryNotation.Selection
