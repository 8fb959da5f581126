import QueryNotation.Proofs.Outcome
import QueryNotation.Sql.Writer
import QueryNotation.Validation

namespace QueryNotation.Sql

/-! # What a statement tells of its query

A part of a query is told of when the text, the warnings or the metadata of the statement would be
others without it.  A `SELECT` tells of every part.  An `INSERT` tells of none, and an `UPDATE` and a
`DELETE` of no count, head or single object; their one note on ordering and row limits stands for four
parts together.
-/

variable {policy : KeyPolicy} {query left right : Query} {written other : Written}
  {items more : List String}

/-- The parts of a query that say which rows are meant, in which order, and what the answer holds. -/
inductive Part where
  | count
  | head
  | single
  | limit
  | offset
  | range
  | filters
  | order
deriving DecidableEq, Repr

namespace Part

def isSet (query : Query) : Part → Bool
  | .count => query.count.isSome
  | .head => query.head
  | .single => query.single.isSome
  | .limit => query.limit.isSome
  | .offset => query.offset.isSome
  | .range => query.range.isSome
  | .filters => !query.filters.isEmpty
  | .order => !query.order.isEmpty

def clear (query : Query) : Part → Query
  | .count => { query with count := none }
  | .head => { query with head := false }
  | .single => { query with single := none }
  | .limit => { query with limit := none }
  | .offset => { query with offset := none }
  | .range => { query with range := none }
  | .filters => { query with filters := [] }
  | .order => { query with order := [] }

/-- The parts that the note on dropped modifiers stands for. -/
def isModifier : Part → Bool
  | .limit | .offset | .range | .order => true
  | .count | .head | .single | .filters => false

end Part

def tells (query : Query) (part : Part) : Bool :=
  match query.operation with
  | .select => true
  | .insert | .upsert | .call => false
  | .update | .delete =>
    part = .filters || part.isModifier && !hasModifiers (part.clear query)

theorem length_clause_cons {lead separator : String} (led : lead ≠ "") (apart : separator ≠ "")
    (item : String) (more : List String) :
    (clause lead separator more).toList.length < (clause lead separator (item :: more)).toList.length := by
  have leads : 0 < lead.toList.length := List.length_pos_iff.mpr (by simpa using led)
  have separates : 0 < separator.toList.length := List.length_pos_iff.mpr (by simpa using apart)
  cases more with
  | nil =>
      simp only [clause, List.isEmpty_nil, List.isEmpty_cons, if_true, Bool.false_eq_true, if_false,
        String.toList_append, List.length_append]
      simp only [String.toList_empty, List.length_nil]
      omega
  | cons next rest =>
      simp only [clause, List.isEmpty_cons, Bool.false_eq_true, if_false, String.toList_append,
        String.toList_intercalate, List.map_cons, List.intercalate_cons_cons, List.length_append]
      omega

/-- A clause with items in front is longer than without them. -/
theorem length_clause_append {lead separator : String} (led : lead ≠ "") (apart : separator ≠ "")
    (full : items ≠ []) (more : List String) :
    (clause lead separator more).toList.length <
      (clause lead separator (items ++ more)).toList.length := by
  induction items with
  | nil => exact absurd rfl full
  | cons item rest induction =>
      have first := length_clause_cons led apart item (rest ++ more)
      cases rest with
      | nil => exact first
      | cons next others => exact Nat.lt_trans (induction (by simp)) first

theorem clause_append_ne {lead separator : String} (led : lead ≠ "") (apart : separator ≠ "")
    (full : items ≠ []) (more : List String) :
    clause lead separator (items ++ more) ≠ clause lead separator more := by
  intro same
  have longer := length_clause_append led apart full more
  rw [same] at longer
  exact Nat.lt_irrefl _ longer

theorem conditions_ne_nil {qualifier : Option String} {filters : List Filter} (full : filters ≠ [])
    (found : conditions qualifier filters = .ok items) : items ≠ [] := by
  rintro rfl
  exact full (List.length_eq_zero_iff.mp (forall₂_of_mapM found).length_eq)

/-- The end of a statement that limits its rows. -/
def Paging.text (paging : Paging) : String :=
  (match paging.limit with
    | some limit => " LIMIT " ++ toString limit
    | none => "") ++
  match paging.offset with
  | some offset => " OFFSET " ++ toString offset
  | none => ""

theorem Paging.text_limit (limit : UInt64) (offset : Option UInt64) :
    Paging.text ⟨some limit, offset⟩ ≠ Paging.text ⟨none, offset⟩ := by
  intro same
  have lengths := congrArg (fun text => text.toList.length) same
  simp [Paging.text] at lengths
  omega

theorem Paging.text_offset (limit : Option UInt64) (offset : UInt64) :
    Paging.text ⟨limit, some offset⟩ ≠ Paging.text ⟨limit, none⟩ := by
  intro same
  have lengths := congrArg (fun text => text.toList.length) same
  simp [Paging.text] at lengths

theorem Paging.text_ne_empty (limit : UInt64) (offset : Option UInt64) :
    Paging.text ⟨some limit, offset⟩ ≠ "" := by
  intro same
  have lengths := congrArg (fun text => text.toList.length) same
  simp [Paging.text] at lengths

/-- The rows of a query whose range does not count. -/
theorem paging_plain (plain : query.range = none ∨ query.limit ≠ none ∨ query.offset ≠ none) :
    paging query = .ok ⟨query.limit, query.offset⟩ := by
  unfold paging
  cases range : query.range with
  | none => rfl
  | some bounds =>
      have counts : ¬ (query.limit.isNone && query.offset.isNone) = true := by
        rw [range] at plain
        simpa [Decidable.imp_iff_not_or] using plain
      dsimp only
      rw [if_neg counts]

/-- The rows of a query whose range counts. -/
theorem paging_range {rows : Paging} (range : query.range ≠ none) (limit : query.limit = none)
    (offset : query.offset = none) (found : paging query = .ok rows) : ∃ count, rows.limit = some count := by
  obtain ⟨bounds, given⟩ := Option.ne_none_iff_exists'.mp range
  unfold paging at found
  rw [given, limit, offset] at found
  dsimp only at found
  rw [if_pos (by rfl)] at found
  generalize (if bounds.1 ≤ bounds.2 then bounds.2 - bounds.1 else 0) = span at found
  split at found
  · cases found
  · obtain rfl := Except.ok.inj found
    exact ⟨_, rfl⟩

theorem pagingWarnings_eq_nil :
    pagingWarnings query = [] ↔ query.range = none ∨ query.limit = none ∧ query.offset = none := by
  unfold pagingWarnings
  cases query.range with
  | none => simp
  | some bounds => simp

/-- Limit, offset and range show: in the end of the statement, or in the warning that a range does not
count. -/
theorem paging_shows {part : Part} {rows others : Paging} (pages : part = .limit ∨ part = .offset ∨ part = .range)
    (set : part.isSet query = true) (found : paging query = .ok rows)
    (cleared : paging (part.clear query) = .ok others) :
    rows.text ≠ others.text ∨ pagingWarnings query ≠ pagingWarnings (part.clear query) := by
  rcases pages with rfl | rfl | rfl
  · obtain ⟨limit, limited⟩ := Option.isSome_iff_exists.mp (show query.limit.isSome = true from set)
    -- With a range but no offset the range counts once the limit is gone: the warning tells the two apart.
    by_cases plain : query.range = none ∨ query.offset ≠ none
    · rw [paging_plain (.inr (.inl (by simp [limited]))), limited] at found
      rw [@paging_plain (Part.limit.clear query) (plain.imp_right .inr)] at cleared
      obtain rfl := Except.ok.inj found
      obtain rfl := Except.ok.inj cleared
      exact .inl (Paging.text_limit limit query.offset)
    · rw [not_or, not_ne_iff] at plain
      have said : pagingWarnings query ≠ [] := by simp [pagingWarnings_eq_nil, plain.1, limited]
      rw [(@pagingWarnings_eq_nil (Part.limit.clear query)).mpr (.inr ⟨rfl, plain.2⟩)]
      exact .inr said
  · obtain ⟨offset, skipped⟩ := Option.isSome_iff_exists.mp (show query.offset.isSome = true from set)
    by_cases plain : query.range = none ∨ query.limit ≠ none
    · rw [paging_plain (.inr (.inr (by simp [skipped]))), skipped] at found
      rw [@paging_plain (Part.offset.clear query) (plain.imp_right .inl)] at cleared
      obtain rfl := Except.ok.inj found
      obtain rfl := Except.ok.inj cleared
      exact .inl (Paging.text_offset query.limit offset)
    · rw [not_or, not_ne_iff] at plain
      have said : pagingWarnings query ≠ [] := by simp [pagingWarnings_eq_nil, plain.1, skipped]
      rw [(@pagingWarnings_eq_nil (Part.offset.clear query)).mpr (.inr ⟨plain.2, rfl⟩)]
      exact .inr said
  · have given : query.range ≠ none := Option.isSome_iff_ne_none.mp set
    by_cases counts : query.limit = none ∧ query.offset = none
    · obtain ⟨count, limited⟩ := paging_range given counts.1 counts.2 found
      rw [@paging_plain (Part.range.clear query) (.inl rfl)] at cleared
      obtain rfl := Except.ok.inj cleared
      have none : Paging.text ⟨query.limit, query.offset⟩ = "" := by
        rw [counts.1, counts.2]
        rfl
      obtain ⟨limit, offset⟩ := rows
      obtain rfl : limit = some count := limited
      exact .inl fun same => Paging.text_ne_empty count offset (same.trans none)
    · have said : pagingWarnings query ≠ [] := by
        rw [Ne, pagingWarnings_eq_nil]
        exact fun silent => silent.elim given counts
      rw [(@pagingWarnings_eq_nil (Part.range.clear query)).mpr (.inl rfl)]
      exact .inr said

theorem get?_foldl_keys {key : String} (apart : ∀ name, "fk." ++ name ≠ key)
    (joins : List (Embed × Join)) {metadata : Metadata} (absent : metadata.get? key = none) :
    (joins.foldl (fun (metadata : Metadata) (embed, join) =>
      metadata.insert ("fk." ++ embed.name) join.key) metadata).get? key = none := by
  induction joins generalizing metadata with
  | nil => exact absent
  | cons first rest induction =>
      rw [List.foldl_cons]
      refine induction ?_
      rw [Metadata.get?_insert, if_neg (apart _), absent]

theorem key_ne {key : String} (other : key.toList.head? ≠ some 'f') (name : String) : "fk." ++ name ≠ key := by
  rintro rfl
  exact other (by simp)

/-- Whether the metadata hold each wish about the answer. -/
theorem isSome_responseMetadata (query : Query) {keys : Metadata}
    (plain : ∀ key, key.toList.head? ≠ some 'f' → keys.get? key = none) :
    ((responseMetadata query keys).get? "count").isSome = query.count.isSome ∧
      ((responseMetadata query keys).get? "head").isSome = query.head ∧
      ((responseMetadata query keys).get? "single").isSome = query.single.isSome := by
  have count := plain "count" (by decide)
  have head := plain "head" (by decide)
  have single := plain "single" (by decide)
  unfold responseMetadata
  cases query.count <;> cases query.head <;> rcases query.single with _ | (_ | _) <;>
    simp [Metadata.get?_insert, count, head, single]

/-- Count, head and single object each stand in the metadata. -/
theorem responseMetadata_shows {part : Part} (answers : part = .count ∨ part = .head ∨ part = .single)
    (set : part.isSet query = true) {keys : Metadata} (plain : ∀ key, key.toList.head? ≠ some 'f' → keys.get? key = none) :
    responseMetadata query keys ≠ responseMetadata (part.clear query) keys := by
  have before := isSome_responseMetadata query plain
  have after := isSome_responseMetadata (part.clear query) plain
  intro same
  rw [← same] at after
  rcases answers with rfl | rfl | rfl
  · exact Bool.false_ne_true (after.1.symm.trans (before.1.trans set))
  · exact Bool.false_ne_true (after.2.1.symm.trans (before.2.1.trans set))
  · exact Bool.false_ne_true (after.2.2.symm.trans (before.2.2.trans set))

/-- What the columns and the joins of a query give to its `SELECT`. -/
structure SelectFrame where
  qualifier : Option String
  front : String
  conditions : List String
  orders : List String
  warnings : List String
  keys : Metadata

def SelectFrame.statement (frame : SelectFrame) (query : Query) (own : List String) (rows : Paging) : Written where
  text := frame.front ++ (clause " WHERE " " AND " (own ++ frame.conditions) ++
    (clause " ORDER BY " ", " (query.order.map (orderText frame.qualifier) ++ frame.orders) ++ rows.text))
  warnings := frame.warnings ++ pagingWarnings query
  metadata := responseMetadata query frame.keys

theorem appended (front conditions order limit offset : String) :
    front ++ conditions ++ order ++ limit ++ offset = front ++ (conditions ++ (order ++ (limit ++ offset))) := by
  rw [String.append_assoc, String.append_assoc, String.append_assoc]

/-- Two queries of the same table, columns and embeds stand in one frame. -/
theorem writeSelect_framed (table : left.table = right.table) (columns : left.columns = right.columns)
    (embeds : left.embeds = right.embeds) (wrote : writeSelect policy left = .ok written)
    (again : writeSelect policy right = .ok other) :
    ∃ (frame : SelectFrame) (own others : List String) (rows rowsAgain : Paging),
      (∀ key, key.toList.head? ≠ some 'f' → frame.keys.get? key = none) ∧
      conditions frame.qualifier left.filters = .ok own ∧
      conditions frame.qualifier right.filters = .ok others ∧
      paging left = .ok rows ∧ paging right = .ok rowsAgain ∧
      written = frame.statement left own rows ∧ other = frame.statement right others rowsAgain := by
  obtain ⟨plans, planned, wrote⟩ := ok_of_bind wrote
  obtain ⟨shown, listed, wrote⟩ := ok_of_bind wrote
  obtain ⟨own, found, wrote⟩ := ok_of_bind wrote
  obtain ⟨embedded, inside, wrote⟩ := ok_of_bind wrote
  obtain ⟨rows, paged, wrote⟩ := ok_of_bind wrote
  obtain rfl := Except.ok.inj wrote
  have lists (qualifier : Option String) (joins : List (Embed × Join)) :
      selectColumns right qualifier joins = selectColumns left qualifier joins := by
    unfold selectColumns
    rw [columns]
  -- The second run takes the same joins and columns; only its conditions and its paging are its own.
  unfold writeSelect at again
  simp only [← table, ← embeds, planned, lists, listed, inside, ok_bind] at again
  obtain ⟨others, foundAgain, again⟩ := ok_of_bind again
  obtain ⟨rowsAgain, pagedAgain, again⟩ := ok_of_bind again
  obtain rfl := Except.ok.inj again
  let frame : SelectFrame := {
    qualifier := if left.embeds.isEmpty then none else some left.table
    front := "SELECT " ++ String.intercalate ", " shown ++ " FROM " ++ escapeIdentifier left.table ++
      String.join (plans.map fun join => " " ++ join.clause)
    conditions := embedded.flatten
    orders := (left.embeds.zip plans).flatMap fun (embed, join) => embed.order.map (orderText (some join.qualifier))
    warnings := (left.embeds.zip plans).flatMap fun (embed, join) => joinWarnings embed join
    keys := (left.embeds.zip plans).foldl
      (fun (metadata : Metadata) (embed, join) => metadata.insert ("fk." ++ embed.name) join.key) [] }
  have plain (key : String) (other : key.toList.head? ≠ some 'f') : frame.keys.get? key = none :=
    get?_foldl_keys (key_ne other) (left.embeds.zip plans) rfl
  refine ⟨frame, own, others, rows, rowsAgain, plain, found, foundAgain, paged, pagedAgain, ?_, ?_⟩
  · exact congrArg (fun text => Written.mk text _ _) (appended _ _ _ _ _)
  · exact congrArg (fun text => Written.mk text _ _) (appended _ _ _ _ _)

theorem select_shows {part : Part} (set : part.isSet query = true) (wrote : writeSelect policy query = .ok written)
    (cleared : writeSelect policy (part.clear query) = .ok other) : written ≠ other := by
  have table : query.table = (part.clear query).table := by cases part <;> rfl
  have columns : query.columns = (part.clear query).columns := by cases part <;> rfl
  have embeds : query.embeds = (part.clear query).embeds := by cases part <;> rfl
  obtain ⟨frame, own, others, rows, rowsAgain, plain, found, foundAgain, paged, pagedAgain, rfl, rfl⟩ :=
    writeSelect_framed table columns embeds wrote cleared
  have metadata (answers : part = .count ∨ part = .head ∨ part = .single) :
      frame.statement query own rows ≠ frame.statement (part.clear query) others rowsAgain := fun same =>
    responseMetadata_shows answers set plain (congrArg Written.metadata same)
  -- Where filters and order are kept, the statements differ behind them, or in a warning.
  have ends (pages : part = .limit ∨ part = .offset ∨ part = .range)
      (filters : (part.clear query).filters = query.filters) (order : (part.clear query).order = query.order) :
      frame.statement query own rows ≠ frame.statement (part.clear query) others rowsAgain := by
    intro same
    rw [filters, found] at foundAgain
    obtain rfl := Except.ok.inj foundAgain
    have text := congrArg Written.text same
    have warnings := congrArg Written.warnings same
    unfold SelectFrame.statement at text warnings
    rw [order] at text
    rcases paging_shows pages set paged pagedAgain with rows | said
    · exact rows (by simpa using text)
    · exact said (List.append_cancel_left warnings)
  cases part with
  | count => exact metadata (.inl rfl)
  | head => exact metadata (.inr (.inl rfl))
  | single => exact metadata (.inr (.inr rfl))
  | limit => exact ends (.inl rfl) rfl rfl
  | offset => exact ends (.inr (.inl rfl)) rfl rfl
  | range => exact ends (.inr (.inr rfl)) rfl rfl
  | filters =>
      rw [show paging (Part.filters.clear query) = paging query from rfl, paged] at pagedAgain
      obtain rfl := Except.ok.inj pagedAgain
      obtain rfl := Except.ok.inj foundAgain
      have full := conditions_ne_nil (by simpa [Part.isSet] using set) found
      intro same
      have text := congrArg Written.text same
      simp only [SelectFrame.statement, Part.clear, String.append_right_inj, String.append_left_inj] at text
      exact clause_append_ne (by decide) (by decide) full frame.conditions text
  | order =>
      rw [show paging (Part.order.clear query) = paging query from rfl, paged] at pagedAgain
      obtain rfl := Except.ok.inj pagedAgain
      rw [show (Part.order.clear query).filters = query.filters from rfl, found] at foundAgain
      obtain rfl := Except.ok.inj foundAgain
      have full : query.order.map (orderText frame.qualifier) ≠ [] := by simpa [Part.isSet] using set
      intro same
      have text := congrArg Written.text same
      simp only [SelectFrame.statement, Part.clear, String.append_right_inj, String.append_left_inj] at text
      exact clause_append_ne (by decide) (by decide) full frame.orders text

/-- An `INSERT` is written without a look at any of the parts. -/
theorem writeInsert_clear (policy : KeyPolicy) (query : Query) (part : Part) :
    writeInsert policy (part.clear query) = writeInsert policy query := by
  cases part <;> rfl

theorem hasModifiers_of_isSet {part : Part} (modifies : part.isModifier = true) (set : part.isSet query = true) :
    hasModifiers query = true := by
  simp only [hasModifiers, Bool.or_eq_true]
  cases part with
  | limit => exact .inl (.inl (.inr set))
  | offset => exact .inl (.inr set)
  | range => exact .inr set
  | order => exact .inl (.inl (.inl set))
  | count | head | single | filters => cases modifies

theorem hasModifiers_clear {part : Part} (plain : part.isModifier = false) :
    hasModifiers (part.clear query) = hasModifiers query := by
  cases part <;> first | rfl | cases plain

/-- The note on modifiers is another one without a part only if the part alone called for it. -/
theorem hasModifiers_ne_iff {part : Part} (set : part.isSet query = true) :
    hasModifiers query ≠ hasModifiers (part.clear query) ↔
      (part.isModifier && !hasModifiers (part.clear query)) = true := by
  cases modifies : part.isModifier with
  | false => simp [hasModifiers_clear modifies]
  | true =>
      rw [hasModifiers_of_isSet modifies set]
      cases hasModifiers (part.clear query) <;> decide

theorem droppedModifiers?_eq_iff (operation : left.operation = right.operation) :
    droppedModifiers? left = droppedModifiers? right ↔ hasModifiers left = hasModifiers right := by
  unfold droppedModifiers?
  rw [operation]
  cases hasModifiers left <;> cases hasModifiers right <;> simp

theorem updateWarnings_eq_iff (operation : left.operation = right.operation) (table : left.table = right.table)
    (filters : left.filters = right.filters) :
    updateWarnings left = updateWarnings right ↔ hasModifiers left = hasModifiers right := by
  rw [← droppedModifiers?_eq_iff operation]
  unfold updateWarnings
  rw [table, filters]
  generalize right.filters.isEmpty = unfiltered, droppedModifiers? left = note, droppedModifiers? right = again
  cases unfiltered <;> cases note <;> cases again <;> simp [String.append_assoc, ← String.toList_inj]

/-- The end that an `UPDATE` and a `DELETE` share. -/
def changeStatement (front : String) (notes : List String) (query : Query) : Outcome Written := do
  let found ← whereClause query
  let returning ← returningClause query
  return {
    text := front ++ found ++ returning
    warnings := notes ++ returningWarnings query }

theorem writeUpdate_eq (query : Query) : writeUpdate query = assignedRow query >>= fun row =>
    changeStatement ("UPDATE " ++ escapeIdentifier query.table ++ " SET " ++
      String.intercalate ", " (row.map fun (column, value) =>
        escapeIdentifier column ++ " = " ++ jsonLiteral value)) (updateWarnings query) query :=
  rfl

theorem writeDelete_eq (full : query.filters ≠ []) : writeDelete query =
    changeStatement ("DELETE FROM " ++ escapeIdentifier query.table)
      (droppedModifiers? query).toList query := by
  unfold writeDelete
  rw [if_neg (by simpa using full)]
  rfl

variable {front : String} {notes others : List String} {part : Part}

/-- Of the parts other than filters only the notes can tell. -/
theorem changeStatement_eq_iff (plain : part ≠ .filters)
    (wrote : changeStatement front notes query = .ok written)
    (cleared : changeStatement front others (part.clear query) = .ok other) :
    written = other ↔ notes = others := by
  have same : changeStatement front others (part.clear query) = changeStatement front others query := by
    cases part <;> first | rfl | exact absurd rfl plain
  rw [same] at cleared
  obtain ⟨found, tested, wrote⟩ := ok_of_bind wrote
  obtain ⟨returning, answered, wrote⟩ := ok_of_bind wrote
  obtain rfl := Except.ok.inj wrote
  unfold changeStatement at cleared
  simp only [tested, answered, ok_bind] at cleared
  obtain rfl := Except.ok.inj cleared
  simp

theorem changeStatement_filters (full : query.filters ≠ [])
    (wrote : changeStatement front notes query = .ok written)
    (cleared : changeStatement front others (Part.filters.clear query) = .ok other) : written ≠ other := by
  obtain ⟨found, tested, wrote⟩ := ok_of_bind wrote
  obtain ⟨returning, answered, wrote⟩ := ok_of_bind wrote
  obtain rfl := Except.ok.inj wrote
  obtain ⟨texts, conditioned, tested⟩ := ok_of_bind tested
  obtain rfl := Except.ok.inj tested
  unfold changeStatement at cleared
  rw [show returningClause (Part.filters.clear query) = returningClause query from rfl] at cleared
  simp only [show whereClause (Part.filters.clear query) = .ok "" from rfl, answered, ok_bind] at cleared
  obtain rfl := Except.ok.inj cleared
  intro same
  have text := congrArg Written.text same
  simp only [String.append_right_inj, String.append_left_inj] at text
  have longer : clause " WHERE " " AND " (texts ++ []) ≠ clause " WHERE " " AND " [] :=
    clause_append_ne (by decide) (by decide) (conditions_ne_nil full conditioned) []
  rw [List.append_nil] at longer
  exact longer text

theorem update_shows_iff (set : part.isSet query = true) (wrote : writeUpdate query = .ok written)
    (cleared : writeUpdate (part.clear query) = .ok other) :
    written ≠ other ↔ (part = .filters || part.isModifier && !hasModifiers (part.clear query)) = true := by
  rw [writeUpdate_eq] at wrote cleared
  obtain ⟨row, assigned, wrote⟩ := ok_of_bind wrote
  have kept : assignedRow (part.clear query) = assignedRow query := by cases part <;> rfl
  have table : (part.clear query).table = query.table := by cases part <;> rfl
  rw [kept, assigned, table, ok_bind] at cleared
  by_cases filters : part = .filters
  · subst filters
    have full : query.filters ≠ [] := by simpa [Part.isSet] using set
    simp [changeStatement_filters full wrote cleared]
  · have operation : query.operation = (part.clear query).operation := by cases part <;> rfl
    have same : query.filters = (part.clear query).filters := by
      cases part <;> first | rfl | exact absurd rfl filters
    rw [Ne, changeStatement_eq_iff filters wrote cleared, updateWarnings_eq_iff operation table.symm same,
      ← Ne, hasModifiers_ne_iff set]
    simp [filters]

theorem delete_shows_iff (set : part.isSet query = true) (wrote : writeDelete query = .ok written)
    (cleared : writeDelete (part.clear query) = .ok other) :
    written ≠ other ↔ (part = .filters || part.isModifier && !hasModifiers (part.clear query)) = true := by
  by_cases filters : part = .filters
  · subst filters
    cases cleared
  · have full : query.filters ≠ [] := fun none => by simp [writeDelete, none] at wrote
    have fullAgain : (part.clear query).filters ≠ [] := by
      cases part <;> first | exact full | exact absurd rfl filters
    have operation : query.operation = (part.clear query).operation := by cases part <;> rfl
    have table : (part.clear query).table = query.table := by cases part <;> rfl
    rw [writeDelete_eq full] at wrote
    rw [writeDelete_eq fullAgain, table] at cleared
    have notes : (droppedModifiers? query).toList = (droppedModifiers? (part.clear query)).toList ↔
        droppedModifiers? query = droppedModifiers? (part.clear query) :=
      ⟨fun same => by simpa using congrArg List.head? same, congrArg Option.toList⟩
    rw [Ne, changeStatement_eq_iff filters wrote cleared, notes, droppedModifiers?_eq_iff operation, ← Ne,
      hasModifiers_ne_iff set]
    simp [filters]

/-- A statement tells of a part of its query exactly when it is a `SELECT`, or when it is an `UPDATE` or
a `DELETE` and the part is the filters or the only one that its note on modifiers stands for. -/
theorem write_clear_ne_iff (policy : KeyPolicy) (query : Query) (part : Part) {written other : Written}
    (set : part.isSet query = true) (wrote : write policy query = .ok written)
    (cleared : write policy (part.clear query) = .ok other) :
    written ≠ other ↔ tells query part = true := by
  have operation : (part.clear query).operation = query.operation := by cases part <;> rfl
  unfold write at wrote cleared
  rw [operation] at cleared
  unfold tells
  cases kind : query.operation with
  | select =>
      rw [kind] at wrote cleared
      simpa using select_shows set wrote cleared
  | insert | upsert =>
      rw [kind] at wrote cleared
      have same := (writeInsert_clear policy query part).symm.trans cleared
      simpa using Except.ok.inj (wrote.symm.trans same)
  | update =>
      rw [kind] at wrote cleared
      exact update_shows_iff set wrote cleared
  | delete =>
      rw [kind] at wrote cleared
      exact delete_shows_iff set wrote cleared
  | call =>
      rw [kind] at wrote
      cases wrote

/-- Nothing in the statement of an `INSERT` tells that its rows should be counted. -/
theorem insert_untold :
    let query : Query := {
      table := "users"
      operation := .insert
      body := some (.single [("a", .number (.integer 1))])
      count := some .exact }
    Part.count.isSet query = true ∧ query.validate .sql = .ok () ∧
      (Part.count.clear query).validate .sql = .ok () ∧
      write (.ofOptions {}) query = .ok { text := "INSERT INTO users (a) VALUES (1)" } ∧
      write (.ofOptions {}) (Part.count.clear query) = .ok { text := "INSERT INTO users (a) VALUES (1)" } := by
  refine ⟨rfl, ?_, ?_, ?_, ?_⟩ <;> decide +kernel

def firstRowsDeleted : Query where
  table := "logs"
  operation := .delete
  filters := [{ column := "level", op := .eq, value := .string "debug" }]
  limit := some 10
  count := some .exact

theorem write_clear_ne_iff_limit : ∃ written other, Part.limit.isSet firstRowsDeleted = true ∧
    write (.ofOptions {}) firstRowsDeleted = .ok written ∧
    write (.ofOptions {}) (Part.limit.clear firstRowsDeleted) = .ok other ∧
    (written ≠ other ↔ tells firstRowsDeleted .limit = true) ∧ tells firstRowsDeleted .limit = true := by
  have wrote : write (.ofOptions {}) firstRowsDeleted = .ok {
      text := "DELETE FROM logs WHERE level = 'debug'"
      warnings := ["ordering and row limits have no DELETE form and were dropped"] } := by decide +kernel
  have cleared : write (.ofOptions {}) (Part.limit.clear firstRowsDeleted) = .ok {
      text := "DELETE FROM logs WHERE level = 'debug'" } := by decide +kernel
  exact ⟨_, _, rfl, wrote, cleared,
    write_clear_ne_iff (.ofOptions {}) firstRowsDeleted .limit rfl wrote cleared, rfl⟩

end QueryNotation.Sql
