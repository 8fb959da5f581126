import QueryNotation.Proofs.Sql.Change
import QueryNotation.Proofs.Sql.Parts
import QueryNotation.Proofs.Sql.Reference
import QueryNotation.Proofs.Sql.Qualifier
import QueryNotation.Proofs.Sql.Unread

namespace QueryNotation.Sql

/-! # Tables with quoted names

The name of a table is taken from its text: the marks are left out, and what stands behind the last
point is kept.  A name between marks may hold both, so it is read as it is written exactly if it holds
neither.
-/

open Text

variable {options : Options} {parsed : Parsed} {name : String} {path : List Name}

theorem filter_repeatMark (mark previous : Char) (text : List Char) :
    (repeatMark mark previous text).filter (· != mark) = text.filter (· != mark) := by
  fun_induction repeatMark mark previous text with
  | case1 => rfl
  | case2 rest induction => rw [List.filter_cons, List.filter_cons, induction]
  | case3 => simp
  | case4 => simp [*]
  | case5 => simp [*]
  | case6 => simp [*]

/-- A name loses its own marks together with those around it. -/
theorem unquoted_quoteWith (name : String) : unquoted (quoteWith '"' name) = unquoted name := by
  rw [unquoted, unquoted, quoteWith, String.toList_ofList]
  simp [filter_repeatMark]

theorem splitTableName_quoteWith (name : String) : splitTableName (quoteWith '"' name) = splitTableName name := by
  rw [splitTableName, splitTableName, unquoted_quoteWith]

theorem not_mem_unquoted (written : String) : '"' ∉ (unquoted written).toList := by
  simp [unquoted]

/-- A table goes by what stands behind the last point. -/
theorem splitTableName_fst (written : String) : (splitTableName written).1 = lastPart (unquoted written) := by
  unfold splitTableName
  dsimp only
  split
  · next schema table cut =>
    obtain ⟨shape, absent⟩ := eq_of_cutLast cut
    have parts := @pieces_cut (· == '.') '.' rfl schema table
    rw [← shape, pieces_of_not_mem absent] at parts
    simp only [lastPart, parts, List.getLast_append_singleton]
  · next none => exact (lastPart_of_absent (not_mem_of_cutLast none)).symm

theorem splitTableName_snd (written : String) :
    (splitTableName written).2 = none ↔ '.' ∉ (unquoted written).toList := by
  unfold splitTableName
  dsimp only
  split
  · next schema table cut =>
    obtain ⟨shape, _⟩ := eq_of_cutLast cut
    exact iff_of_false nofun fun absent => absent (by simp [shape])
  · next none => exact iff_of_true rfl (not_mem_of_cutLast none)

theorem isUnmarked_lastPart (written : String) : IsUnmarked (lastPart (unquoted written)) where
  point := not_mem_lastPart _
  mark inside := by
    rw [lastPart, String.toList_ofList] at inside
    exact not_mem_unquoted written (of_mem_pieces (List.getLast_mem _) inside).1

/-- A name is left as it is exactly if it holds neither a point nor a mark. -/
theorem lastPart_unquoted_eq_iff : lastPart (unquoted name) = name ↔ IsUnmarked name := by
  constructor
  · intro same
    rw [← same]
    exact isUnmarked_lastPart name
  · intro ⟨point, mark⟩
    rw [unquoted_of_absent mark, lastPart_of_absent point]

/-- The names that the table of a statement is written with. -/
def JoinedTable.path? (table : JoinedTable) : Option (List Name) :=
  match table.source with
  | .table path _ _ => some path
  | .other _ => none

/-- The names of the one table that a statement is about: that of a selection in front of those joined to
it. -/
def Statement.path? : Statement → Option (List Name)
  | .query tree =>
      match tree.body with
      | .select selection => selection.sources.head?.bind JoinedTable.path?
      | _ => none
  | .insert tree => some tree.table
  | .update tree => tree.table.path?
  | .delete tree => tree.tables.head?.bind JoinedTable.path?
  | .other _ => none

theorem TableSource.named_path (path : List Name) (suffix : String) (label : Option TableLabel) :
    (TableSource.table path suffix label).named = .ok {
      name := (splitTableName (Name.path path)).1
      label := label.map fun other => other.name.value
      schema := (splitTableName (Name.path path)).2 } := by
  unfold TableSource.named
  dsimp only

theorem name_of_named {table : JoinedTable} {named : NamedTable} (shape : table.path? = some path)
    (read : table.source.named = .ok named) : named.name = (splitTableName (Name.path path)).1 := by
  obtain ⟨source, joins⟩ := table
  cases source with
  | other text => cases shape
  | table names suffix label =>
      obtain rfl := Option.some.inj shape
      rw [TableSource.named_path] at read
      rw [← Except.ok.inj read]

/-- The table of a read statement goes by the text of its path. -/
theorem Statement.table_of_read {statement : Statement} (shape : statement.path? = some path)
    (read : statement.read = .ok parsed) : parsed.query.table = (splitTableName (Name.path path)).1 := by
  cases statement with
  | query tree =>
      obtain ⟨selection, source, table, joined, placed, limit, offset, reads, rfl⟩ := tree.ok_of_read read
      have same : source.path? = some path := by
        simpa [Statement.path?, reads.body, reads.only] using shape
      exact name_of_named same reads.named
  | insert tree =>
      obtain rfl := Option.some.inj shape
      obtain ⟨rows, before, columns, _, clause, rfl⟩ := InsertTree.ok_of_read read
      exact clause.table_eq
  | update tree =>
      obtain ⟨table, cells, filters, columns, reads, rfl⟩ := tree.ok_of_read read
      exact name_of_named shape reads.named
  | delete tree =>
      obtain ⟨source, table, filters, columns, reads, rfl⟩ := tree.ok_of_read read
      have same : source.path? = some path := by
        simpa [Statement.path?, reads.only] using shape
      exact name_of_named same reads.named
  | other text => cases shape

/-- A name between quotation marks, its own marks doubled. -/
def quotedName (name : String) : String :=
  String.ofList ('"' :: substitute '"' ['"', '"'] name.toList ++ ['"'])

def quotedTree (name : String) : Name where
  value := name
  mark := some '"'

theorem path_quotedTree (name : String) : Name.path [quotedTree name] = quoteWith '"' name := by
  simp [Name.path, Name.text, quotedTree]

/-- The kinds of statements that are about one table. -/
inductive TableForm where
  | select
  | update
  | delete
  | insert
deriving DecidableEq, Repr

namespace TableForm

def lead : TableForm → String
  | .select => "SELECT * FROM "
  | .update => "UPDATE "
  | .delete => "DELETE FROM "
  | .insert => "INSERT INTO "

def tail : TableForm → String
  | .select | .delete => ""
  | .update => " SET a = 1"
  | .insert => " (a) VALUES (1)"

def text (form : TableForm) (written : String) : String :=
  form.lead ++ written ++ form.tail

def leadTokens : TableForm → List Token
  | .select => [.word "SELECT" false, .symbol "*", .word "FROM" false]
  | .update => [.word "UPDATE" false]
  | .delete => [.word "DELETE" false, .word "FROM" false]
  | .insert => [.word "INSERT" false, .word "INTO" false]

def tailTokens : TableForm → List Token
  | .select | .delete => []
  | .update => [.word "SET" false, .word "a" false, .symbol "=", .constant (.number "1" false)]
  | .insert => [.symbol "(", .word "a" false, .symbol ")", .word "VALUES" false, .symbol "(",
      .constant (.number "1" false), .symbol ")"]

def tree (path : List Name) : TableForm → Statement
  | .select => .query { body := .select { items := [.wildcard], sources := [⟨.table path "" none, []⟩] } }
  | .update => .update {
      lead := "UPDATE "
      table := ⟨.table path "" none, []⟩
      assignments := [⟨"a", .constant (.number "1" false)⟩] }
  | .delete => .delete { tables := [⟨.table path "" none, []⟩] }
  | .insert => .insert {
      lead := "INSERT INTO "
      table := path
      columns := [{ value := "a" }]
      source := some { body := .values "VALUES" [[.constant (.number "1" false)]] } }

/-- The query that says of a table what the statement says. -/
def query (table : String) : TableForm → Query
  | .select => { table, operation := .select, columns := [.star] }
  | .update => { table, operation := .update, body := some (.single [("a", .number (.integer 1))]) }
  | .delete => { table, operation := .delete }
  | .insert => { table, operation := .insert, body := some (.single [("a", .number (.integer 1))]) }

theorem scan?_lead (form : TableForm) {rest : List Char} {tokens : List Token}
    (behind : Token.scan? rest = some tokens) :
    Token.scan? (form.lead.toList ++ rest) = some (form.leadTokens ++ tokens) := by
  cases form with
  | select =>
      have source := scan?_keyword "FROM" (by decide) behind
      rw [← scan?_space] at source
      exact scan?_keyword "SELECT" (by decide) (scan?_token (by decide) (fun same => absurd same (by decide))
        (by decide) (read?_star _) le_rfl source)
  | update => exact scan?_keyword "UPDATE" (by decide) behind
  | delete => exact scan?_keyword "DELETE" (by decide) (scan?_keyword "FROM" (by decide) behind)
  | insert => exact scan?_keyword "INSERT" (by decide) (scan?_keyword "INTO" (by decide) behind)

theorem scan?_tail (form : TableForm) : Token.scan? form.tail.toList = some form.tailTokens := by
  cases form <;> decide +kernel

theorem scan?_text (form : TableForm) (name : String) :
    Token.scan? (form.text (quotedName name)).toList =
      some (form.leadTokens ++ .word name true :: form.tailTokens) := by
  have ends : form.tail.toList.head? ≠ some '"' := by cases form <;> decide
  have table := scan?_quotedName_append name.toList ends form.scan?_tail
  rw [String.ofList_toList] at table
  have whole : (form.text (quotedName name)).toList =
      form.lead.toList ++ ('"' :: substitute '"' ['"', '"'] name.toList ++ '"' :: form.tail.toList) := by
    simp [text, quotedName]
  rw [whole]
  exact form.scan?_lead table

theorem statementOfDepth_tokens (form : TableForm) (level : Nat) (name : String) :
    Grammar.statementOfDepth (level + 5) (form.leadTokens ++ .word name true :: form.tailTokens) =
      .ok (form.tree [quotedTree name], []) := by
  cases form <;> rfl

theorem ofText_text (form : TableForm) {depth : Nat} (deep : 5 ≤ depth) (name : String) :
    Statement.ofText depth (form.text (quotedName name)).toList = .ok [form.tree [quotedTree name]] := by
  have count : 1 ≤ (form.leadTokens ++ .word name true :: form.tailTokens).length := by
    rw [List.length_append, List.length_cons]
    omega
  obtain ⟨level, enough⟩ :
      ∃ level, min depth ((form.leadTokens ++ .word name true :: form.tailTokens).length + 4) = level + 5 :=
    Nat.exists_eq_add_of_le' (by omega)
  have found := form.statementOfDepth_tokens level name
  obtain ⟨first, others, shape, other⟩ : ∃ first others,
      form.leadTokens ++ .word name true :: form.tailTokens = first :: others ∧ first ≠ .symbol ";" := by
    cases form <;> exact ⟨_, _, rfl, by decide⟩
  rw [Statement.ofText, form.scan?_text name]
  simp only [enough]
  rw [shape] at found ⊢
  exact congrArg (Except.map Prod.fst) (Grammar.statementsUpTo_single _ other found)

theorem read_tree (form : TableForm) (path : List Name) : (form.tree path).read = .ok {
    query := form.query (splitTableName (Name.path path)).1
    warnings := schemaWarnings (splitTableName (Name.path path)).2 } := by
  have named := TableSource.named_path path "" none
  cases form with
  | select =>
      simp only [tree, Statement.read, QueryTree.read, SelectTree.checkFeatures, SelectTree.source, named, ok_bind,
        pure_bind, Option.isSome_none, Bool.or_self, List.isEmpty_nil, Bool.not_true, Bool.false_eq_true, if_false,
        List.mapM_nil, List.map_nil, if_true, List.append_nil]
      rfl
  | update =>
      simp only [tree, Statement.read, UpdateTree.read, named, ok_bind]
      rfl
  | delete =>
      simp only [tree, Statement.read, DeleteTree.read, DeleteTree.table, named, ok_bind, List.isEmpty_nil, if_true]
      rfl
  | insert =>
      simp only [tree, Statement.read, InsertTree.read]
      generalize splitTableName (Name.path path) = parts
      rfl

end TableForm

theorem Statement.table_of_quoted {statement : Statement} (shape : statement.path? = some [quotedTree name])
    (reads : statement.read = .ok parsed) : parsed.query.table = lastPart (unquoted name) := by
  rw [Statement.table_of_read shape reads, path_quotedTree, splitTableName_quoteWith, splitTableName_fst]

theorem read_single {text : String} {statement : Statement}
    (single : Statement.ofText options.maxDepth text.toList = .ok [statement])
    (small : text.utf8ByteSize ≤ options.maxInputLength) : read options text = statement.read := by
  rw [read, Options.checkSize_ok small, single]
  rfl

theorem statement_of_single {text : String} {statement : Statement}
    (single : Statement.ofText options.maxDepth text.toList = .ok [statement])
    (reads : read options text = .ok parsed) : statement.read = .ok parsed := by
  unfold read at reads
  obtain ⟨_, _, reads⟩ := ok_of_bind reads
  rw [single] at reads
  exact reads

/-- A statement is read whose table is written between quotation marks.  It is about the table that the
name leads to without its marks, behind its last point: the one that is named exactly if the name holds
neither a mark nor a point.  Only of a point is something said. -/
theorem read_quotedTable (name : String) :
    (∀ (form : TableForm) (options : Options), 5 ≤ options.maxDepth →
        (form.text (quotedName name)).utf8ByteSize ≤ options.maxInputLength →
        ∃ warnings, read options (form.text (quotedName name)) =
            .ok { query := form.query (lastPart (unquoted name)), warnings } ∧
          (warnings = [] ↔ '.' ∉ name.toList)) ∧
      (∀ (options : Options) (text : String) (statement : Statement) (parsed : Parsed),
        Statement.ofText options.maxDepth text.toList = .ok [statement] →
        statement.path? = some [quotedTree name] → read options text = .ok parsed →
        parsed.query.table = lastPart (unquoted name)) ∧
      (lastPart (unquoted name) = name ↔ IsUnmarked name) := by
  refine ⟨fun form options deep small => ?_, fun options text statement parsed single shape reads => ?_,
    lastPart_unquoted_eq_iff⟩
  · have reads := form.read_tree [quotedTree name]
    rw [path_quotedTree, splitTableName_quoteWith, splitTableName_fst] at reads
    have same := read_single (form.ofText_text deep name) small
    rw [reads] at same
    refine ⟨_, same, ?_⟩
    have point : '.' ∈ (unquoted name).toList ↔ '.' ∈ name.toList := by
      simp [unquoted]
    rw [schemaWarnings_eq_nil_iff, Option.isSome_eq_false_iff, Option.isNone_iff_eq_none, splitTableName_snd, point]
  · exact Statement.table_of_quoted shape (statement_of_single single reads)

/-- A point in a quoted name cuts it: another table is read. -/
theorem quotedTable_cut :
    TableForm.select.text (quotedName "a.b") = "SELECT * FROM \"a.b\"" ∧
      (read {} "SELECT * FROM \"a.b\"").map (fun parsed : Parsed => (parsed.query.table, parsed.warnings)) =
        .ok ("b", ["schema 'a' dropped; REST requests select a schema with the Accept-Profile header"]) := by
  decide +kernel

/-- A name with a space in it is read as it is written. -/
theorem read_quotedTable_space :
    ∃ parsed, read {} (TableForm.select.text (quotedName "order items")) = .ok parsed ∧
      parsed.query.table = "order items" ∧ parsed.warnings = [] := by
  obtain ⟨reads, tables, kept⟩ := read_quotedTable "order items"
  have same := kept.mpr (by decide)
  obtain ⟨warnings, found, silent⟩ := reads .select {} (by decide) (by decide +kernel)
  have table := tables {} _ _ _ (TableForm.ofText_text .select (by decide) "order items") rfl found
  exact ⟨_, found, table.trans same, silent.mpr (by decide)⟩

end QueryNotation.Sql
