import QueryNotation.Proofs.Sql.Deletion
import QueryNotation.Proofs.Sql.Dropped
import QueryNotation.Proofs.Sql.Insert
import QueryNotation.Proofs.Sql.Tree

namespace QueryNotation.Sql

/-! # Where a statement mentions columns

A statement is a list of pieces: the tables it names, the columns it mentions, each in one of its
places, and what stands between them.
-/

/-- The places in which a statement mentions a column. -/
inductive Place where
  /-- The list of `SELECT` or `RETURNING`. -/
  | output
  | condition
  | order
  /-- The condition of a join. -/
  | key
  /-- The columns of an `INSERT`. -/
  | inserted
  /-- The columns that an `UPDATE` sets. -/
  | assigned
  /-- The target of `ON CONFLICT`. -/
  | conflict
  /-- The columns that an upsert writes over. -/
  | merged
  /-- The columns of the row that could not be inserted. -/
  | excluded
deriving DecidableEq, Repr

def Place.splits : Place → Bool
  | .output | .condition | .order | .key => false
  | .inserted | .assigned | .conflict | .merged | .excluded => true

def Place.spell (place : Place) (column : String) : String :=
  if place.splits then escapeIdentifier column else escapeName column

/-- A column that is mentioned, behind its table if one is named. -/
structure Mention where
  place : Place
  table : Option String
  column : String
deriving DecidableEq, Repr

def Mention.text (mention : Mention) : String :=
  match mention.table with
  | some table => escapeName table ++ "." ++ mention.place.spell mention.column
  | none => mention.place.spell mention.column

/-- A table that a statement names. -/
structure Source where
  path : String
  label : Option String := none
deriving DecidableEq, Repr

def Source.text (source : Source) : String :=
  escapeIdentifier source.path ++
    match source.label with
    | some label => " AS " ++ escapeIdentifier label
    | none => ""

@[simp]
theorem Source.text_unlabelled (path : String) : Source.text ⟨path, none⟩ = escapeIdentifier path :=
  String.append_empty

/-- A piece of a statement. -/
inductive Piece where
  | plain (text : String)
  | source (source : Source)
  | mention (mention : Mention)
deriving DecidableEq, Repr

namespace Piece

def text : Piece → String
  | .plain written => written
  | .source named => named.text
  | .mention mentioned => mentioned.text

def source? : Piece → Option Source
  | .source named => some named
  | _ => none

def mention? : Piece → Option Mention
  | .mention mentioned => some mentioned
  | _ => none

def join (pieces : List Piece) : String :=
  String.join (pieces.map text)

@[simp]
theorem join_nil : join [] = "" :=
  String.join_nil

@[simp]
theorem join_cons (piece : Piece) (pieces : List Piece) : join (piece :: pieces) = piece.text ++ join pieces :=
  String.join_cons

@[simp]
theorem join_append (front back : List Piece) : join (front ++ back) = join front ++ join back := by
  rw [join, List.map_append, String.join_append]
  rfl

theorem join_flatMap {α : Type} (items : List α) (pieces : α → List Piece) :
    join (items.flatMap pieces) = String.join (items.map fun item => join (pieces item)) := by
  induction items with
  | nil => rfl
  | cons item rest induction =>
      rw [List.flatMap_cons, join_append, induction, List.map_cons, String.join_cons]

def separated (separator : String) (items : List (List Piece)) : List Piece :=
  [plain separator].intercalate items

@[simp]
theorem join_separated (separator : String) (items : List (List Piece)) :
    join (separated separator items) = separator.intercalate (items.map join) := by
  unfold separated
  induction items with
  | nil => simp
  | cons item rest induction =>
      cases rest with
      | nil => simp
      | cons next others =>
          rw [List.intercalate_cons_cons, join_append, join_append, induction, join_cons, join_nil,
            String.append_empty, text]
          exact String.intercalate_cons_cons.symm

/-- A clause that lists its items; nothing when there are none. -/
def clause (lead separator : String) (items : List (List Piece)) : List Piece :=
  if items.isEmpty then [] else plain lead :: separated separator items

@[simp]
theorem join_clause (lead separator : String) (items : List (List Piece)) :
    join (clause lead separator items) = Sql.clause lead separator (items.map join) := by
  unfold clause Sql.clause
  rw [List.isEmpty_map]
  cases items.isEmpty with
  | true => rfl
  | false =>
      rw [if_neg Bool.false_ne_true, if_neg Bool.false_ne_true, join_cons, join_separated, text]

section Parts

variable {β : Type} {part? : Piece → Option β} {separator : String}

/-- What stands between the items is no part. -/
theorem filterMap_separated (plain : ∀ text, part? (.plain text) = none) (items : List (List Piece)) :
    (separated separator items).filterMap part? = items.flatMap (List.filterMap part?) := by
  unfold separated
  induction items with
  | nil => rfl
  | cons item rest induction =>
      cases rest with
      | nil => simp
      | cons next others =>
          rw [List.intercalate_cons_cons, List.filterMap_append, List.filterMap_append, induction,
            List.filterMap_cons_none (plain separator), List.filterMap_nil, List.append_nil]
          exact List.flatMap_cons.symm

theorem filterMap_clause (plain : ∀ text, part? (.plain text) = none) (lead : String)
    (items : List (List Piece)) :
    (clause lead separator items).filterMap part? = items.flatMap (List.filterMap part?) := by
  unfold clause
  cases items with
  | nil => rfl
  | cons item rest =>
      rw [List.isEmpty_cons, if_neg Bool.false_ne_true, List.filterMap_cons_none (plain lead),
        filterMap_separated plain]

end Parts

end Piece

def mentions (pieces : List Piece) : List Mention :=
  pieces.filterMap Piece.mention?

def sources (pieces : List Piece) : List Source :=
  pieces.filterMap Piece.source?

section Listed

variable {separator : String}

@[simp]
theorem mentions_nil : mentions [] = [] :=
  rfl

@[simp]
theorem mentions_plain (text : String) (pieces : List Piece) :
    mentions (.plain text :: pieces) = mentions pieces :=
  rfl

@[simp]
theorem mentions_source (source : Source) (pieces : List Piece) :
    mentions (.source source :: pieces) = mentions pieces :=
  rfl

@[simp]
theorem mentions_mention (mention : Mention) (pieces : List Piece) :
    mentions (.mention mention :: pieces) = mention :: mentions pieces :=
  rfl

@[simp]
theorem mentions_append (front back : List Piece) : mentions (front ++ back) = mentions front ++ mentions back :=
  List.filterMap_append

@[simp]
theorem mentions_flatMap {α : Type} (items : List α) (pieces : α → List Piece) :
    mentions (items.flatMap pieces) = items.flatMap fun item => mentions (pieces item) :=
  List.filterMap_flatMap

@[simp]
theorem mentions_separated (items : List (List Piece)) :
    mentions (Piece.separated separator items) = items.flatMap mentions :=
  Piece.filterMap_separated (fun _ => rfl) items

@[simp]
theorem mentions_clause (lead : String) (items : List (List Piece)) :
    mentions (Piece.clause lead separator items) = items.flatMap mentions :=
  Piece.filterMap_clause (fun _ => rfl) lead items

end Listed

def columnPieces (qualifier : Option String) (column : Column) : List Piece :=
  let cast := match column.cast with
    | some cast => "::" ++ cast
    | none => ""
  let label := match column.label with
    | some label => " AS " ++ escapeIdentifier label
    | none => ""
  [.mention ⟨.output, qualifier, column.name⟩, .plain (cast ++ label)]

def allPieces (qualifier : Option String) : List Piece :=
  [.mention ⟨.output, qualifier, "*"⟩]

/-- What stands in front of the column and behind it in a condition that tests it. -/
def testSides (filter : Filter) : String × String :=
  let test := fun word => " " ++ word ++ " " ++ literal filter.op filter.value filter.config
  if filter.negated then
    match negativeWord? filter.op with
    | some word => ("", test word)
    | none => ("NOT (", test filter.op.symbol ++ ")")
  else ("", test filter.op.symbol)

/-- The condition of a filter: a constant, or a test of the column. -/
def conditionPieces (qualifier : Option String) (filter : Filter) : List Piece :=
  if isEmptyIn filter then [.plain (if filter.negated then "TRUE" else "FALSE")]
  else
    [.plain (testSides filter).1, .mention ⟨.condition, qualifier, filter.column⟩, .plain (testSides filter).2]

def orderPieces (qualifier : Option String) (item : OrderItem) : List Piece :=
  let nulls := match item.nulls with
    | some .first => " NULLS FIRST"
    | some .last => " NULLS LAST"
    | none => ""
  [.mention ⟨.order, qualifier, item.column⟩, .plain ((if item.descending then " DESC" else " ASC") ++ nulls)]

def joinPieces (policy : KeyPolicy) (table : String) (embed : Embed) : List Piece :=
  [.plain " ", .plain (if embed.inner then "INNER JOIN " else "LEFT JOIN "),
    .source ⟨embed.relation, embed.label⟩, .plain " ON ",
    .mention ⟨.key, some embed.name, policy.foreignKey table⟩, .plain " = ",
    .mention ⟨.key, some table, policy.primaryKey⟩]

/-- The `WHERE` clause of the filters on the main table. -/
def wherePieces (query : Query) : List Piece :=
  Piece.clause " WHERE " " AND " (query.filters.map (conditionPieces none))

/-- The `RETURNING` clause. -/
def returningPieces (query : Query) : List Piece :=
  if !query.returning then []
  else
    .plain " RETURNING " :: Piece.separated ", "
      (if query.selectsAll then [allPieces none] else query.columns.map (columnPieces none))

/-- The `ON CONFLICT` clause. -/
def conflictPieces (target overwritten : List String) : List Piece :=
  .plain " ON CONFLICT (" ::
    Piece.separated ", " (target.map fun column => [.mention ⟨.conflict, none, column⟩]) ++
      .plain ")" ::
        if overwritten = [] then [.plain " DO NOTHING"]
        else
          .plain " DO UPDATE SET " :: Piece.separated ", " (overwritten.map fun column =>
            [.mention ⟨.merged, none, column⟩, .plain " = EXCLUDED.", .mention ⟨.excluded, none, column⟩])

def mainQualifier (query : Query) : Option String :=
  if query.embeds.isEmpty then none else some query.table

def eachTable {α : Type} (query : Query) (own : List α) (part : Embed → List α)
    (pieces : Option String → α → List Piece) : List (List Piece) :=
  own.map (pieces (mainQualifier query)) ++
    query.embeds.flatMap fun embed => (part embed).map (pieces (some embed.name))

def outputPieces (query : Query) : List (List Piece) :=
  let columns := eachTable query query.columns Embed.columns columnPieces
  if columns.isEmpty then [allPieces (mainQualifier query)] else columns

def selectPieces (policy : KeyPolicy) (query : Query) : List Piece :=
  .plain "SELECT " :: Piece.separated ", " (outputPieces query) ++
    .plain " FROM " :: .source ⟨query.table, none⟩ ::
      query.embeds.flatMap (joinPieces policy query.table) ++
      Piece.clause " WHERE " " AND " (eachTable query query.filters Embed.filters conditionPieces) ++
      Piece.clause " ORDER BY " ", " (eachTable query query.order Embed.order orderPieces) ++
      [.plain (pagingOf query).text]

def insertPieces (policy : KeyPolicy) (query : Query) : List Piece :=
  let columns := Body.columnNames (rowsOf query)
  .plain "INSERT INTO " :: .source ⟨query.table, none⟩ :: .plain " (" ::
    Piece.separated ", " (columns.map fun column => [.mention ⟨.inserted, none, column⟩]) ++
      .plain (") VALUES " ++
        String.intercalate ", " ((rowsOf query).map fun row => tupleText (rowLiterals columns row))) ::
      (if query.operation = .upsert then
        conflictPieces (conflictColumns policy query) (overwrittenColumns policy query columns) else []) ++
      returningPieces query

def updatePieces (query : Query) : List Piece :=
  .plain "UPDATE " :: .source ⟨query.table, none⟩ :: .plain " SET " ::
    Piece.separated ", " ((rowsOf query).flatten.map fun (column, value) =>
      [.mention ⟨.assigned, none, column⟩, .plain (" = " ++ jsonLiteral value)]) ++
      wherePieces query ++ returningPieces query

def deletePieces (query : Query) : List Piece :=
  .plain "DELETE FROM " :: .source ⟨query.table, none⟩ :: wherePieces query ++ returningPieces query

def statementPieces (policy : KeyPolicy) (query : Query) : List Piece :=
  match query.operation with
  | .select => selectPieces policy query
  | .insert | .upsert => insertPieces policy query
  | .update => updatePieces query
  | .delete => deletePieces query
  | .call => []

section Written

variable {policy : KeyPolicy} {query : Query} {qualifier : Option String} {text : String} {texts : List String}

theorem text_mention (place : Place) (whole : place.splits = false) (qualifier : Option String) (column : String) :
    Mention.text ⟨place, qualifier, column⟩ = qualified qualifier column := by
  cases qualifier <;> simp [Mention.text, Place.spell, qualified, whole]

theorem text_split (place : Place) (split : place.splits = true) (column : String) :
    Mention.text ⟨place, none, column⟩ = escapeIdentifier column := by
  simp [Mention.text, Place.spell, split]

theorem map_of_mapM {α : Type} {f : α → Outcome String} {pieces : α → List Piece} {items : List α}
    (each : ∀ item text, f item = .ok text → Piece.join (pieces item) = text)
    (finished : items.mapM f = .ok texts) : (items.map pieces).map Piece.join = texts := by
  rw [List.map_map]
  exact eq_map_of_mapM each finished

theorem join_columnPieces {column : Column} (wrote : columnText qualifier column = .ok text) :
    Piece.join (columnPieces qualifier column) = text := by
  unfold columnText at wrote
  split at wrote
  · cases wrote
  · obtain rfl := Except.ok.inj wrote
    rw [columnPieces, Piece.join_cons, Piece.join_cons, Piece.join_nil, Piece.text, Piece.text,
      text_mention .output rfl, String.append_empty]
    exact String.append_assoc.symm

theorem join_allPieces (qualifier : Option String) : Piece.join (allPieces qualifier) = qualified qualifier "*" := by
  rw [allPieces, Piece.join_cons, Piece.join_nil, Piece.text, text_mention .output rfl, String.append_empty]

theorem join_conditionPieces {filter : Filter} (wrote : condition qualifier filter = .ok text) :
    Piece.join (conditionPieces qualifier filter) = text := by
  have said : conditionText qualifier filter = text := by
    unfold condition at wrote
    split at wrote
    · cases wrote
    · exact Except.ok.inj wrote
  rw [← said, conditionPieces]
  cases empty : isEmptyIn filter with
  | true => simp [conditionText_empty qualifier empty, Piece.text]
  | false =>
      rw [conditionText_full qualifier empty, if_neg Bool.false_ne_true]
      simp only [Piece.join_cons, Piece.join_nil, Piece.text, text_mention .condition rfl, String.append_empty]
      unfold testSides
      cases filter.negated with
      | false => simp [String.append_assoc]
      | true => cases negativeWord? filter.op <;> simp [String.append_assoc]

theorem join_orderPieces (qualifier : Option String) (item : OrderItem) :
    Piece.join (orderPieces qualifier item) = orderText qualifier item := by
  rw [orderPieces, Piece.join_cons, Piece.join_cons, Piece.join_nil, Piece.text, Piece.text,
    text_mention .order rfl, String.append_empty, orderText]
  exact String.append_assoc.symm

def plannedJoin (policy : KeyPolicy) (table : String) (embed : Embed) : Join :=
  let key := qualified (some embed.name) (policy.foreignKey table) ++ " = " ++
    qualified (some table) policy.primaryKey
  { clause := (if embed.inner then "INNER JOIN " else "LEFT JOIN ") ++
      Source.text ⟨embed.relation, embed.label⟩ ++ " ON " ++ key
    qualifier := embed.name
    key }

theorem plannedJoin_eq {table : String} {embed : Embed} {join : Join}
    (planned : Join.ofEmbed policy table embed = .ok join) : plannedJoin policy table embed = join := by
  unfold Join.ofEmbed at planned
  split at planned
  · cases planned
  · exact Except.ok.inj planned

theorem join_joinPieces (policy : KeyPolicy) (table : String) (embed : Embed) :
    Piece.join (joinPieces policy table embed) = " " ++ (plannedJoin policy table embed).clause := by
  simp only [joinPieces, Piece.join_cons, Piece.join_nil, Piece.text, text_mention .key rfl,
    String.append_empty, plannedJoin, String.append_assoc]

theorem join_wherePieces (wrote : whereClause query = .ok text) : Piece.join (wherePieces query) = text := by
  obtain ⟨found, listed, wrote⟩ := ok_of_bind wrote
  obtain rfl := Except.ok.inj wrote
  rw [wherePieces, Piece.join_clause, map_of_mapM (fun _ _ => join_conditionPieces) listed]

theorem join_returningPieces (wrote : returningClause query = .ok text) : Piece.join (returningPieces query) = text := by
  unfold returningClause at wrote
  unfold returningPieces
  split at wrote
  · next silent =>
    obtain rfl := Except.ok.inj wrote
    rw [if_pos silent, Piece.join_nil]
  · next answers =>
    rw [if_neg answers, Piece.join_cons, Piece.join_separated]
    split at wrote
    · next all =>
      obtain rfl := Except.ok.inj wrote
      rw [if_pos all, List.map_singleton, String.intercalate_singleton, join_allPieces]
      decide
    · next some =>
      obtain ⟨shown, listed, wrote⟩ := ok_of_bind wrote
      obtain rfl := Except.ok.inj wrote
      rw [if_neg some, map_of_mapM (fun _ _ => join_columnPieces) listed]
      rfl

theorem join_conflictPieces (target overwritten : List String) :
    Piece.join (conflictPieces target overwritten) = conflictText target overwritten := by
  have targets : (target.map fun column => [Piece.mention ⟨.conflict, none, column⟩]).map Piece.join =
      target.map escapeIdentifier := by
    rw [List.map_map]
    refine List.map_congr_left fun column _ => ?_
    simp [Piece.text, text_split .conflict rfl]
  have updates : (overwritten.map fun column => [Piece.mention ⟨.merged, none, column⟩, .plain " = EXCLUDED.",
      .mention ⟨.excluded, none, column⟩]).map Piece.join =
      overwritten.map fun column => escapeIdentifier column ++ " = EXCLUDED." ++ escapeIdentifier column := by
    rw [List.map_map]
    refine List.map_congr_left fun column _ => ?_
    simp [Piece.text, text_split .merged rfl, text_split .excluded rfl, String.append_assoc]
  unfold conflictPieces conflictText
  rw [Piece.join_append, Piece.join_cons, Piece.join_separated, targets, Piece.join_cons]
  split
  · simp [Piece.text, String.append_assoc]
  · rw [Piece.join_cons, Piece.join_separated, updates]
    simp [Piece.text, String.append_assoc]

section Tables

variable {α : Type} {f : Option String → α → Outcome String} {pieces : Option String → α → List Piece}
  {part : Embed → List α} {own : List α}

theorem map_eachTable {lists : List (List String)}
    (each : ∀ qualifier item text, f qualifier item = .ok text → Piece.join (pieces qualifier item) = text)
    (wrote : own.mapM (f (mainQualifier query)) = .ok texts)
    (behind : (query.embeds.map fun embed => (embed, plannedJoin policy query.table embed)).mapM
      (fun (embed, join) => (part embed).mapM (f (some join.qualifier))) = .ok lists) :
    (eachTable query own part pieces).map Piece.join = texts ++ lists.flatten := by
  rw [List.mapM_map] at behind
  have found : (query.embeds.map fun embed => ((part embed).map (pieces (some embed.name))).map Piece.join) = lists :=
    eq_map_of_mapM (fun embed _ => map_of_mapM (each (some embed.name))) behind
  rw [eachTable, List.map_append, map_of_mapM (each _) wrote, List.map_flatMap, List.flatMap_def, found]

end Tables

theorem map_outputPieces (wrote : selectColumns query (mainQualifier query)
      (query.embeds.map fun embed => (embed, plannedJoin policy query.table embed)) = .ok texts) :
    (outputPieces query).map Piece.join = texts := by
  unfold selectColumns at wrote
  split at wrote
  · next bare =>
    simp only [List.isEmpty_map, Bool.and_eq_true, List.isEmpty_iff] at bare
    rw [bare.2] at wrote
    obtain rfl := Except.ok.inj wrote
    simp [outputPieces, eachTable, mainQualifier, bare.1, bare.2, join_allPieces, qualified, escapeName]
  · obtain ⟨own, here, wrote⟩ := ok_of_bind wrote
    obtain ⟨lists, behind, wrote⟩ := ok_of_bind wrote
    obtain rfl := Except.ok.inj wrote
    have shown := map_eachTable (f := columnText) (fun _ _ _ => join_columnPieces) here behind
    unfold outputPieces
    rw [← shown, List.isEmpty_map]
    dsimp only
    split
    · rw [List.map_singleton, join_allPieces]
    · rfl

theorem map_orders (policy : KeyPolicy) (query : Query) :
    (eachTable query query.order Embed.order orderPieces).map Piece.join =
      query.order.map (orderText (mainQualifier query)) ++
        (query.embeds.map fun embed => (embed, plannedJoin policy query.table embed)).flatMap fun (embed, join) =>
          embed.order.map (orderText (some join.qualifier)) := by
  have items (qualifier : Option String) (order : List OrderItem) :
      (order.map (orderPieces qualifier)).map Piece.join = order.map (orderText qualifier) := by
    rw [List.map_map]
    exact List.map_congr_left fun item _ => join_orderPieces qualifier item
  rw [eachTable, List.map_append, items, List.map_flatMap, List.flatMap_map]
  simp only [items]
  rfl

/-- The facts about the assumed keys of a `SELECT`. -/
def keyFacts (policy : KeyPolicy) (query : Query) : Metadata :=
  query.embeds.foldl
    (fun metadata embed => metadata.insert ("fk." ++ embed.name) (plannedJoin policy query.table embed).key) []

theorem join_selectPieces {written : Written} (wrote : writeSelect policy query = .ok written) :
    written.text = Piece.join (selectPieces policy query) ∧
      written.metadata = responseMetadata query (keyFacts policy query) := by
  obtain ⟨plans, planned, wrote⟩ := ok_of_bind wrote
  obtain rfl := eq_map_of_mapM (fun _ _ => plannedJoin_eq) planned
  rw [← List.map_prod_left_eq_zip] at wrote
  change selectColumns query (mainQualifier query) _ >>= _ = _ at wrote
  obtain ⟨columns, listed, wrote⟩ := ok_of_bind wrote
  obtain ⟨own, found, wrote⟩ := ok_of_bind wrote
  obtain ⟨embedded, inside, wrote⟩ := ok_of_bind wrote
  obtain ⟨rows, paged, wrote⟩ := ok_of_bind wrote
  obtain rfl := Except.ok.inj wrote
  have shown := map_outputPieces listed
  have filtered := map_eachTable (f := condition) (fun _ _ _ => join_conditionPieces) found inside
  have joined := Piece.join_flatMap query.embeds (joinPieces policy query.table)
  simp only [join_joinPieces] at joined
  have paging : pagingOf query = rows := by rw [pagingOf, paged]
  refine ⟨?_, congrArg (responseMetadata query) List.foldl_map⟩
  simp only [selectPieces, Piece.join_append, Piece.join_cons, Piece.join_separated, Piece.join_clause, shown,
    filtered, map_orders policy, joined, paging, Piece.text, Source.text_unlabelled, Piece.join_nil, List.map_map,
    Paging.text, String.append_empty, String.append_assoc]
  rfl

theorem rowsOf_inserted {rows : List Json.Row} (found : insertedRows query = .ok rows) : rowsOf query = rows := by
  unfold insertedRows at found
  unfold rowsOf
  split at found
  · cases found
  · next body _ given =>
    split at found
    · cases found
    · rw [given]
      exact Except.ok.inj found
  · cases found

theorem rowsOf_assigned {row : Json.Row} (found : assignedRow query = .ok row) : rowsOf query = [row] := by
  unfold assignedRow at found
  unfold rowsOf
  split at found
  · next given =>
    split at found
    · cases found
    · rw [given, Except.ok.inj found]
      rfl
  · cases found
  · cases found
  · cases found

theorem join_insertPieces {written : Written} (wrote : writeInsert policy query = .ok written) :
    written.text = Piece.join (insertPieces policy query) := by
  obtain ⟨rows, found, wrote⟩ := ok_of_bind wrote
  obtain ⟨returning, answered, wrote⟩ := ok_of_bind wrote
  obtain rfl := Except.ok.inj wrote
  have columns : ((Body.columnNames rows).map fun column =>
      [Piece.mention ⟨.inserted, none, column⟩]).map Piece.join = (Body.columnNames rows).map escapeIdentifier := by
    rw [List.map_map]
    refine List.map_congr_left fun column _ => ?_
    simp [Piece.text, text_split .inserted rfl]
  have conflict : Piece.join (if query.operation = .upsert then
        conflictPieces (conflictColumns policy query) (overwrittenColumns policy query (Body.columnNames rows)) else []) =
      if query.operation = .upsert then conflictClause policy query (Body.columnNames rows) else "" := by
    split
    · rw [join_conflictPieces, conflictClause_eq]
    · exact Piece.join_nil
  simp only [insertPieces, rowsOf_inserted found, Piece.join_append, Piece.join_cons, Piece.join_separated, columns,
    conflict, join_returningPieces answered, Piece.text, Source.text_unlabelled,
    String.append_assoc]
  rfl

theorem join_updatePieces {written : Written} (wrote : writeUpdate query = .ok written) :
    written.text = Piece.join (updatePieces query) := by
  obtain ⟨row, found, wrote⟩ := ok_of_bind wrote
  obtain ⟨condition, filtered, wrote⟩ := ok_of_bind wrote
  obtain ⟨returning, answered, wrote⟩ := ok_of_bind wrote
  obtain rfl := Except.ok.inj wrote
  have assignments : ((rowsOf query).flatten.map fun (column, value) =>
      [Piece.mention ⟨.assigned, none, column⟩, .plain (" = " ++ jsonLiteral value)]).map Piece.join =
      row.map fun (column, value) => escapeIdentifier column ++ " = " ++ jsonLiteral value := by
    rw [rowsOf_assigned found, List.flatten_singleton, List.map_map]
    refine List.map_congr_left fun field _ => ?_
    simp [Piece.text, text_split .assigned rfl, String.append_assoc]
  simp only [updatePieces, Piece.join_append, Piece.join_cons, Piece.join_separated, assignments,
    join_wherePieces filtered, join_returningPieces answered, Piece.text, Source.text_unlabelled, String.append_assoc]

theorem join_deletePieces {written : Written} (wrote : writeDelete query = .ok written) :
    written.text = Piece.join (deletePieces query) := by
  unfold writeDelete at wrote
  split at wrote
  · cases wrote
  · obtain ⟨condition, filtered, wrote⟩ := ok_of_bind wrote
    obtain ⟨returning, answered, wrote⟩ := ok_of_bind wrote
    obtain rfl := Except.ok.inj wrote
    simp only [deletePieces, Piece.join_append, Piece.join_cons, join_wherePieces filtered,
      join_returningPieces answered, Piece.text, Source.text_unlabelled, String.append_assoc]

/-- A statement is the text of its pieces. -/
theorem join_statementPieces {written : Written} (wrote : write policy query = .ok written) :
    written.text = Piece.join (statementPieces policy query) := by
  unfold write at wrote
  unfold statementPieces
  cases operation : query.operation <;> simp only [operation] at wrote ⊢
  case select => exact (join_selectPieces wrote).1
  case insert | upsert => exact join_insertPieces wrote
  case update => exact join_updatePieces wrote
  case delete => exact join_deletePieces wrote
  case call => cases wrote

end Written

end QueryNotation.Sql
