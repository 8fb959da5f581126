import QueryNotation.Sql.Tree

namespace QueryNotation.Sql

/-! # The text of a statement

A tree is written with one space between its tokens and a comma and a space
between the items of a list, whatever the spacing was where it was read.
-/

/-- A clause behind others: the word, with spaces around it, and its text. -/
def clauseText (word : String) : Option String → String
  | some text => " " ++ word ++ " " ++ text
  | none => ""

/-- A clause that holds a list; nothing when the list is empty. -/
def listClause (word : String) (items : List String) : String :=
  if items.isEmpty then "" else " " ++ word ++ " " ++ commaList items

def TableLabel.text (label : TableLabel) : String :=
  wordIf label.spelled "AS" ++ label.name.text ++
    if label.columns.isEmpty then "" else " (" ++ commaList label.columns ++ ")"

/-- The place that rows come from. -/
def TableSource.text : TableSource → String
  | .table name suffix label =>
    Name.path name ++ suffix ++
      match label with
      | some label => " " ++ label.text
      | none => ""
  | .other text => text

def JoinKind.words : JoinKind → String
  | .inner false => "JOIN"
  | .inner true => "INNER JOIN"
  | .left false => "LEFT JOIN"
  | .left true => "LEFT OUTER JOIN"
  | .other words => words

def JoinTree.text (join : JoinTree) : String :=
  join.kind.words ++ " " ++ join.source.text ++ join.constraint

def JoinedTable.text (table : JoinedTable) : String :=
  String.intercalate " " (table.source.text :: table.joins.map JoinTree.text)

/-- An item of a select list.  The other name of a column always follows `AS`. -/
def SelectItem.text : SelectItem → String
  | .wildcard => "*"
  | .tableWildcard table => Name.path table ++ ".*"
  | .plain value => value.text
  | .labelled value label => value.text ++ " AS " ++ label.text

/-- An item of `ORDER BY`. -/
def SortItem.text (item : SortItem) : String :=
  item.value.text ++
    (match item.descending with
      | some true => " DESC"
      | some false => " ASC"
      | none => "") ++
    match item.nullsFirst with
    | some true => " NULLS FIRST"
    | some false => " NULLS LAST"
    | none => ""

/-- A plain `SELECT`. -/
def SelectTree.text (selection : SelectTree) : String :=
  "SELECT" ++
    (match selection.distinct with
      | some words => " " ++ words
      | none => "") ++
    (match selection.top with
      | some words => " " ++ words
      | none => "") ++
    (if selection.items.isEmpty then ""
      else " " ++ commaList (selection.items.map SelectItem.text)) ++
    clauseText "INTO" selection.into ++
    listClause "FROM" (selection.sources.map JoinedTable.text) ++
    clauseText "WHERE" (selection.condition.map Expr.text) ++
    clauseText "GROUP BY" selection.groupBy ++
    clauseText "HAVING" selection.having ++
    listClause "WINDOW" selection.windows

def rowsText (word : String) (rows : List (List Expr)) : String :=
  word ++ " " ++ commaList (rows.map fun row => "(" ++ commaList (Expr.texts row) ++ ")")

def QueryBody.text : QueryBody → String
  | .select selection => selection.text
  | .values word rows => rowsText word rows
  | .other text => text

def QueryTree.text (query : QueryTree) : String :=
  (match query.commonTables with
    | some tables => tables ++ " "
    | none => "") ++
    query.body.text ++
    listClause "ORDER BY" (query.order.map SortItem.text) ++
    clauseText "LIMIT" (query.limit.map Expr.text) ++
    clauseText "OFFSET" (query.offset.map fun offset => offset.value.text ++ offset.unit) ++
    (match query.fetch with
      | some text => " " ++ text
      | none => "") ++
    String.join (query.locks.map (" " ++ ·))

/-- `column = value`. -/
def Assignment.text (assignment : Assignment) : String :=
  assignment.target ++ " = " ++ assignment.value.text

def InsertClause.text : InsertClause → String
  | .onConflict target action =>
    " ON CONFLICT" ++
      (match target with
        | some (.columns names) => "(" ++ commaList (names.map Name.text) ++ ")"
        | some (.constraint name) => " ON CONSTRAINT " ++ name
        | none => "") ++
      match action with
      | .doNothing => " DO NOTHING"
      | .doUpdate assignments condition =>
        " DO UPDATE SET " ++ commaList (assignments.map Assignment.text) ++
          clauseText "WHERE" (condition.map Expr.text)
  | .onDuplicateKey assignments =>
    " ON DUPLICATE KEY UPDATE " ++ commaList (assignments.map Assignment.text)

/-- The rows that a changing statement answers with. -/
def returningText (returning : Option (List SelectItem)) : String :=
  clauseText "RETURNING" (returning.map fun items => commaList (items.map SelectItem.text))

def InsertTree.text (insert : InsertTree) : String :=
  insert.lead ++ Name.path insert.table ++
    (match insert.label with
      | some label => " AS " ++ label.text
      | none => "") ++
    " " ++
    (if insert.columns.isEmpty then ""
      else "(" ++ commaList (insert.columns.map Name.text) ++ ") ") ++
    (match insert.source with
      | some source => source.text
      | none => "DEFAULT VALUES") ++
    (match insert.clause with
      | some clause => clause.text
      | none => "") ++
    returningText insert.returning

def UpdateTree.text (update : UpdateTree) : String :=
  update.lead ++ update.table.text ++
    listClause "FROM" ((update.fromBefore.getD []).map JoinedTable.text) ++
    listClause "SET" (update.assignments.map Assignment.text) ++
    listClause "FROM" ((update.fromAfter.getD []).map JoinedTable.text) ++
    clauseText "WHERE" (update.condition.map Expr.text) ++
    returningText update.returning ++
    clauseText "LIMIT" (update.limit.map Expr.text)

def DeleteTree.text (delete : DeleteTree) : String :=
  "DELETE" ++ (if delete.targets.isEmpty then "" else " " ++ commaList delete.targets) ++
    listClause "FROM" (delete.tables.map JoinedTable.text) ++
    listClause "USING" ((delete.helpers.getD []).map JoinedTable.text) ++
    clauseText "WHERE" (delete.condition.map Expr.text) ++
    returningText delete.returning ++
    listClause "ORDER BY" (delete.order.map SortItem.text) ++
    clauseText "LIMIT" (delete.limit.map Expr.text)

def Statement.text : Statement → String
  | .query tree => tree.text
  | .insert tree => tree.text
  | .update tree => tree.text
  | .delete tree => tree.text
  | .other text => text

end QueryNotation.Sql
