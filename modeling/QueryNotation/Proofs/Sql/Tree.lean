import QueryNotation.Sql.Tree
import QueryNotation.Sql.Writer

namespace QueryNotation.Sql

/-! # The trees of written statements

What the grammar makes of a statement that was written for a query over plain names: names
stand bare, a minus sign in front of a number is an operator, and inequality has its standard
symbol.  Nothing here looks at the text of the statement.
-/

open Value

/-- The value that the literal of a compared value says: strings that spell a number or a
keyword are one, and an array is its text. -/
def settledScalar : Value → Value
  | .string text => ofToken text
  | .list items => .string (arrayText items)
  | value => value

def settledValue (op : Operator) (value : Value) : Value :=
  match op, value with
  | .like, .string pattern | .ilike, .string pattern => .string (replaceChar '*' '%' pattern)
  | .oneOf, .list items => .list (items.map settledScalar)
  | _, value => settledScalar value

def nameTree (name : String) : Expr :=
  .name { value := name }

def numberTree (text : String) : Expr :=
  match text.toList with
  | '-' :: digits => .negative (.constant (.number (String.ofList digits) false))
  | _ => .constant (.number text false)

def valueTree : Value → Expr
  | .null => .constant .null
  | .bool value => .constant (.bool value)
  | .number text => numberTree text
  | .string text => .constant (.string text)
  | .list items => .constant (.string (arrayText items))

/-- What `IS` tests for. -/
def truthOf : Value → Truth
  | .bool true => .true
  | .bool false => .false
  | _ => .null

def treeSymbol : Operator → String
  | .neq => "<>"
  | op => op.symbol

def conditionTree (filter : Filter) : Expr :=
  let column := nameTree filter.column
  let value := settledValue filter.op filter.value
  match filter.op, value with
  | .is, value => .isTest column (truthOf value) filter.negated
  | .oneOf, .list items => .inList column (items.map valueTree) filter.negated
  | .like, value => .like column (valueTree value) false filter.negated false none
  | .ilike, value => .like column (valueTree value) true filter.negated false none
  | op, value =>
    let plain := Expr.binary column (treeSymbol op) (valueTree value)
    if filter.negated then .not (.nested plain) else plain

def conditionsTree : List Filter → Option Expr
  | [] => none
  | first :: rest => some ((rest.map conditionTree).foldl Expr.and (conditionTree first))

def columnTree (column : Column) : SelectItem :=
  if column.isStar then .wildcard
  else
    match column.label with
    | some label => .labelled (nameTree column.name) { value := label }
    | none => .plain (nameTree column.name)

/-- The columns that are put out: all of them when none is named. -/
def shownColumns (query : Query) : List Column :=
  if query.columns.isEmpty then [.star] else query.columns

/-- The columns that a mutation answers with. -/
def returningTree (query : Query) : Option (List SelectItem) :=
  if query.returning then some ((shownColumns query).map columnTree) else none

def sortTree (item : OrderItem) : SortItem where
  value := nameTree item.column
  descending := some item.descending
  nullsFirst := item.nulls.map fun nulls => nulls = .first

def countTree (count : UInt64) : Expr :=
  numberTree (toString count)

def tableTree (table : String) : JoinedTable where
  source := .table [{ value := table }] "" none
  joins := []

/-- The JSON value that the literal of a cell says: arrays and objects are their text. -/
def settledJson : Json → Json
  | .array items => .string (Json.array items).text
  | .object fields => .string (Json.object fields).text
  | value => value

def cellOf (row : Json.Row) (column : String) : Json :=
  (row.get? column).getD .null

def cellTree : Json → Expr
  | .null => .constant .null
  | .bool value => .constant (.bool value)
  | .number value => numberTree value.text
  | .string text => .constant (.string text)
  | .array items => .constant (.string (Json.array items).text)
  | .object fields => .constant (.string (Json.object fields).text)

def rowsTree (columns : List String) (rows : List Json.Row) : QueryTree where
  body := .values "VALUES" (rows.map fun row => columns.map fun column => cellTree (cellOf row column))

def mergeTree (column : String) : Assignment where
  target := column
  value := .path [{ value := "EXCLUDED" }, { value := column }]

/-- True when an upsert leaves the rows that are there already as they are. -/
def keepsRows (policy : KeyPolicy) (query : Query) (columns : List String) : Bool :=
  query.ignoreDuplicates || (mergedColumns columns (conflictColumns policy query)).isEmpty

/-- What an insert does about a row that is there already. -/
def conflictTree (policy : KeyPolicy) (query : Query) (columns : List String) :
    Option InsertClause :=
  if query.operation = .upsert then
    let target := conflictColumns policy query
    let action : ConflictAction :=
      if keepsRows policy query columns then .doNothing
      else .doUpdate ((mergedColumns columns target).map mergeTree) none
    some (.onConflict (some (.columns (target.map fun name => { value := name }))) action)
  else none

def rowsOf (query : Query) : List Json.Row :=
  query.body.elim [] Body.insertedRows

/-- What the writer makes of limit, offset and range. -/
def pagingOf (query : Query) : Paging :=
  match paging query with
  | .ok found => found
  | .error _ => { limit := none, offset := none }

def selectTree (query : Query) : QueryTree where
  body := .select {
    items := (shownColumns query).map columnTree
    sources := [tableTree query.table]
    condition := conditionsTree query.filters }
  order := query.order.map sortTree
  limit := (pagingOf query).limit.map countTree
  offset := (pagingOf query).offset.map fun count => { value := countTree count }

def insertTree (policy : KeyPolicy) (query : Query) : InsertTree :=
  let columns := Body.columnNames (rowsOf query)
  { lead := "INSERT INTO "
    table := [{ value := query.table }]
    columns := columns.map fun name => { value := name }
    source := some (rowsTree columns (rowsOf query))
    clause := conflictTree policy query columns
    returning := returningTree query }

def updateTree (query : Query) : UpdateTree where
  lead := "UPDATE "
  table := tableTree query.table
  assignments := (rowsOf query).flatten.map fun cell => { target := cell.1, value := cellTree cell.2 }
  condition := conditionsTree query.filters
  returning := returningTree query

def deleteTree (query : Query) : DeleteTree where
  tables := [tableTree query.table]
  condition := conditionsTree query.filters
  returning := returningTree query

def statementTree (policy : KeyPolicy) (query : Query) : Statement :=
  match query.operation with
  | .select => .query (selectTree query)
  | .insert | .upsert => .insert (insertTree policy query)
  | .update => .update (updateTree query)
  | .delete => .delete (deleteTree query)
  | .call => .other ""

end QueryNotation.Sql
