import QueryNotation.Sql.Token

namespace QueryNotation.Sql

/-! # Statements as trees

What a statement says, as far as a query may depend on it.  The parts that no
query can hold are kept as their text: a subquery, an arithmetic expression, a
window.
-/

/-- What `IS` tests for. -/
inductive Truth where
  | null
  | true
  | false
  | unknown
deriving DecidableEq, Repr

/-- An argument of a function. -/
inductive Argument (E : Type) where
  | positional (value : E)
  /-- A wildcard, a named argument or a query. -/
  | other (text : String)

/-- What stands around the arguments of a function call. -/
structure CallFrame where
  /-- In front of the arguments, inside the parentheses. -/
  lead : String := ""
  /-- Behind the arguments, inside the parentheses. -/
  clauses : String := ""
  /-- Behind the parentheses. -/
  suffix : String := ""
  /-- The window, behind all else. -/
  window : Option String := none
deriving DecidableEq, Repr

/-- An expression. -/
inductive Expr where
  | name (name : Name)
  /-- Names with dots between them. -/
  | path (names : List Name)
  | constant (value : Constant)
  | nested (inner : Expr)
  | not (operand : Expr)
  | negative (operand : Expr)
  | and (left right : Expr)
  | or (left right : Expr)
  | binary (left : Expr) (symbol : String) (right : Expr)
  | isTest (operand : Expr) (what : Truth) (negated : Bool)
  | inList (operand : Expr) (items : List Expr) (negated : Bool)
  /-- `LIKE`, or `ILIKE` when case does not matter. -/
  | like (operand pattern : Expr) (anyCase negated any : Bool) (escape : Option String)
  /-- `CAST(… AS …)` with its first word, or `…::…` when there is none. -/
  | cast (operand : Expr) (type : String) (word : Option String)
  | call (name : String) (arguments : List (Argument Expr)) (frame : CallFrame)
  /-- A function that is called by its name alone. -/
  | bareCall (name : String)
  /-- An array, with the word `ARRAY` in front when `named`. -/
  | array (items : List Expr) (named : Bool)
  /-- A query that stands for its value. -/
  | subquery (text : String)
  /-- A test on the rows of a query. -/
  | subqueryTest (text : String)
  | other (text : String)

def commaList (items : List String) : String :=
  String.intercalate ", " items

/-- A word that stands only when a condition holds, with a space behind it. -/
def wordIf (condition : Bool) (word : String) : String :=
  if condition then word ++ " " else ""

/-- What `IS` tests for, as it stands in a statement. -/
def Truth.text : Truth → String
  | .null => "NULL"
  | .true => "TRUE"
  | .false => "FALSE"
  | .unknown => "UNKNOWN"

mutual

def Expr.text : Expr → String
  | .name word => word.text
  | .path words => Name.path words
  | .constant value => value.text
  | .nested inner => "(" ++ inner.text ++ ")"
  | .not operand => "NOT " ++ operand.text
  | .negative operand => "-" ++ operand.text
  | .and left right => left.text ++ " AND " ++ right.text
  | .or left right => left.text ++ " OR " ++ right.text
  | .binary left symbol right => left.text ++ " " ++ symbol ++ " " ++ right.text
  | .isTest operand what negated => operand.text ++ " IS " ++ wordIf negated "NOT" ++ what.text
  | .inList operand items negated =>
    operand.text ++ " " ++ wordIf negated "NOT" ++ "IN (" ++ commaList (Expr.texts items) ++ ")"
  | .like operand pattern anyCase negated any escape =>
    operand.text ++ " " ++ wordIf negated "NOT" ++ (if anyCase then "ILIKE " else "LIKE ") ++
      wordIf any "ANY" ++ pattern.text ++
      match escape with
      | some text => " ESCAPE " ++ text
      | none => ""
  | .cast operand type (some word) => word ++ "(" ++ operand.text ++ " AS " ++ type ++ ")"
  | .cast operand type none => operand.text ++ "::" ++ type
  | .call function arguments frame =>
    function ++ "(" ++ frame.lead ++ commaList (Expr.argumentTexts arguments) ++
      (if arguments.isEmpty || frame.clauses.isEmpty then "" else " ") ++ frame.clauses ++ ")" ++
      frame.suffix ++
      match frame.window with
      | some window => " OVER " ++ window
      | none => ""
  | .bareCall function => function
  | .array items named =>
    (if named then "ARRAY[" else "[") ++ commaList (Expr.texts items) ++ "]"
  | .subquery text => "(" ++ text ++ ")"
  | .subqueryTest text => text
  | .other text => text

def Expr.texts : List Expr → List String
  | [] => []
  | item :: rest => item.text :: Expr.texts rest

def Expr.argumentText : Argument Expr → String
  | .positional value => value.text
  | .other text => text

def Expr.argumentTexts : List (Argument Expr) → List String
  | [] => []
  | argument :: rest => Expr.argumentText argument :: Expr.argumentTexts rest

end

/-- The other name of a table. -/
structure TableLabel where
  name : Name
  /-- The word `AS` is written. -/
  spelled : Bool
  columns : List String := []
deriving DecidableEq, Repr

/-- What rows come from. -/
inductive TableSource where
  /-- A table; `suffix` is what stands between its name and its other name. -/
  | table (name : List Name) (suffix : String) (label : Option TableLabel)
  | other (text : String)
deriving DecidableEq, Repr

/-- How a table is joined. -/
inductive JoinKind where
  /-- `JOIN`, or `INNER JOIN` when `spelled`. -/
  | inner (spelled : Bool)
  /-- `LEFT JOIN`, or `LEFT OUTER JOIN` when `spelled`. -/
  | left (spelled : Bool)
  | other (words : String)
deriving DecidableEq, Repr

/-- A table joined to those before it. -/
structure JoinTree where
  kind : JoinKind
  source : TableSource
  constraint : String
deriving DecidableEq, Repr

/-- A table with those joined to it. -/
structure JoinedTable where
  source : TableSource
  joins : List JoinTree
deriving DecidableEq, Repr

/-- An item of a select list. -/
inductive SelectItem where
  | wildcard
  /-- All columns of a table. -/
  | tableWildcard (table : List Name)
  | plain (value : Expr)
  | labelled (value : Expr) (label : Name)

/-- An item of `ORDER BY`. -/
structure SortItem where
  value : Expr
  /-- `DESC` is written, or `ASC`, or neither. -/
  descending : Option Bool
  /-- `NULLS FIRST` is written, or `NULLS LAST`, or neither. -/
  nullsFirst : Option Bool

/-- A plain `SELECT`. -/
structure SelectTree where
  /-- `DISTINCT` with what belongs to it. -/
  distinct : Option String := none
  /-- `TOP` with what belongs to it. -/
  top : Option String := none
  items : List SelectItem
  /-- The target of `SELECT … INTO`. -/
  into : Option String := none
  sources : List JoinedTable
  condition : Option Expr := none
  groupBy : Option String := none
  having : Option String := none
  windows : List String := []

/-- What a query begins with. -/
inductive QueryBody where
  | select (selection : SelectTree)
  /-- Rows of values; `word` is `VALUES` as it is spelled. -/
  | values (word : String) (rows : List (List Expr))
  | other (text : String)

/-- A limit, as it is written. -/
structure OffsetClause where
  value : Expr
  /-- ` ROW` or ` ROWS`, if written. -/
  unit : String := ""

/-- A query. -/
structure QueryTree where
  /-- The common table expressions. -/
  commonTables : Option String := none
  body : QueryBody
  order : List SortItem := []
  limit : Option Expr := none
  offset : Option OffsetClause := none
  fetch : Option String := none
  locks : List String := []

/-- `column = value`. -/
structure Assignment where
  target : String
  value : Expr

/-- What an insert does about a row that is there already. -/
inductive ConflictAction where
  | doNothing
  | doUpdate (assignments : List Assignment) (condition : Option Expr)

/-- Which rows conflict. -/
inductive ConflictTarget where
  | columns (names : List Name)
  | constraint (name : String)
deriving DecidableEq, Repr

/-- The clause behind the rows of an insert. -/
inductive InsertClause where
  | onConflict (target : Option ConflictTarget) (action : ConflictAction)
  | onDuplicateKey (assignments : List Assignment)

/-- `INSERT`. -/
structure InsertTree where
  /-- The words up to the table. -/
  lead : String
  table : List Name
  label : Option Name := none
  columns : List Name := []
  /-- The rows; none for `DEFAULT VALUES`. -/
  source : Option QueryTree
  clause : Option InsertClause := none
  returning : Option (List SelectItem) := none

/-- `UPDATE`. -/
structure UpdateTree where
  /-- The words up to the table. -/
  lead : String
  table : JoinedTable
  /-- `FROM` before `SET`. -/
  fromBefore : Option (List JoinedTable) := none
  assignments : List Assignment
  /-- `FROM` behind the assignments. -/
  fromAfter : Option (List JoinedTable) := none
  condition : Option Expr := none
  returning : Option (List SelectItem) := none
  limit : Option Expr := none

/-- `DELETE`. -/
structure DeleteTree where
  /-- The tables named before `FROM`. -/
  targets : List String := []
  tables : List JoinedTable
  /-- The tables behind `USING`. -/
  helpers : Option (List JoinedTable) := none
  condition : Option Expr := none
  returning : Option (List SelectItem) := none
  order : List SortItem := []
  limit : Option Expr := none

/-- A statement. -/
inductive Statement where
  | query (query : QueryTree)
  | insert (insert : InsertTree)
  | update (update : UpdateTree)
  | delete (delete : DeleteTree)
  | other (text : String)

end QueryNotation.Sql
