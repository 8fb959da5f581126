import QueryNotation.Sql.Grammar.Change
import QueryNotation.Sql.Tree.Text

namespace QueryNotation.Sql.Grammar

/-! # Statements that define things

Such statements are read only to be written again in a message.
-/

/-- What happens to a reference when the row it leads to changes. -/
def referenceAction : Grammar String := do
  match ← phrase? [["CASCADE"], ["RESTRICT"], ["SET", "NULL"], ["SET", "DEFAULT"],
      ["NO", "ACTION"]] with
  | some words => return words
  | none => mismatch

/-- Columns between parentheses, as text; nothing when there are none. -/
def columnsText? : Grammar String := do
  if ← atSymbol "(" then return "(" ++ commaList ((← nameList).map Name.text) ++ ")"
  else return ""

/-- A reference to another table, behind `REFERENCES`; `gap` stands before its columns. -/
def reference (gap : String) : Grammar String := do
  let table ← dottedName
  let columns ← columnsText?
  let actions ← repeated do
    if ← keywords? ["ON", "DELETE"] then return some (" ON DELETE " ++ (← referenceAction))
    else if ← keywords? ["ON", "UPDATE"] then return some (" ON UPDATE " ++ (← referenceAction))
    else return none
  return "REFERENCES " ++ Name.path table ++ (if columns.isEmpty then "" else gap ++ columns) ++
    String.join actions

/-- A named constraint's name. -/
def constraintName? : Grammar String := do
  match ← behind "CONSTRAINT" name with
  | some constraint => return "CONSTRAINT " ++ constraint.text ++ " "
  | none => return ""

/-- An option of a column without its name, if one follows. -/
def plainColumnOption? (inner : Level) : Grammar (Option String) := do
  match ← phrase? [["NOT", "NULL"], ["NULL"], ["PRIMARY", "KEY"], ["UNIQUE"]] with
  | some words => return some words
  | none =>
    if ← keyword? "DEFAULT" then return some ("DEFAULT " ++ (← inner.expression 40).text)
    else if ← keyword? "REFERENCES" then return some (← reference " ")
    else if ← keyword? "CHECK" then
      return some ("CHECK (" ++ (← parenthesized inner.whole).text ++ ")")
    else return none

def columnOption? (inner : Level) : Grammar (Option String) := do
  let lead ← constraintName?
  match ← plainColumnOption? inner with
  | some text => return some (lead ++ text)
  | none => if lead.isEmpty then return none else mismatch

def columnDefinition (inner : Level) : Grammar String := do
  let column ← name
  let type ← typeText
  let options ← repeated (columnOption? inner)
  return String.intercalate " " (column.text :: type :: options)

/-- A constraint of a new table, if one stands here. -/
def tableConstraint? (inner : Level) : Grammar (Option String) := do
  let lead ← constraintName?
  if ← keywords? ["PRIMARY", "KEY"] then return some (lead ++ "PRIMARY KEY " ++ (← columnsText?))
  else if ← keyword? "UNIQUE" then return some (lead ++ "UNIQUE " ++ (← columnsText?))
  else if ← keywords? ["FOREIGN", "KEY"] then
    let columns ← columnsText?
    keyword "REFERENCES"
    return some (lead ++ "FOREIGN KEY " ++ columns ++ " " ++ (← reference ""))
  else if ← keyword? "CHECK" then
    return some (lead ++ "CHECK (" ++ (← parenthesized inner.whole).text ++ ")")
  else if lead.isEmpty then return none
  else mismatch

/-- An element of a new table: the text of a column, or of a constraint. -/
def tableElement (inner : Level) : Grammar (Bool × String) := do
  match ← attempt (tableConstraint? inner) with
  | some (some constraint) => return (true, constraint)
  | _ => return (false, ← columnDefinition inner)

/-- `CREATE TABLE`, behind `CREATE`. -/
def createStatement (inner : Level) : Grammar String := do
  let temporary ← match ← oneOf? ["TEMPORARY", "TEMP"] with
    | some _ => pure "TEMPORARY "
    | none => pure ""
  keyword "TABLE"
  let guarded ← keywords? ["IF", "NOT", "EXISTS"]
  let table ← dottedName
  let elements ←
    if ← atSymbol "(" then parenthesized (commaSeparatedUntil ")" (tableElement inner))
    else pure []
  let source ← behind "AS" inner.query
  let parts := (elements.filter fun element => !element.1) ++ elements.filter Prod.fst
  return "CREATE " ++ temporary ++ "TABLE " ++ wordIf guarded "IF NOT EXISTS" ++ Name.path table ++
    (if parts.isEmpty then if source.isSome then "" else " ()"
      else " (" ++ commaList (parts.map Prod.snd) ++ ")") ++
    match source with
    | some query => " AS " ++ query.text
    | none => ""

/-- `DROP`, behind the word. -/
def dropStatement : Grammar String := do
  let kind ← if ← keywords? ["MATERIALIZED", "VIEW"] then pure "MATERIALIZED VIEW"
    else
      match ← oneOf? ["TABLE", "VIEW", "INDEX", "ROLE", "SCHEMA", "DATABASE", "SEQUENCE", "TYPE",
          "USER"] with
      | some word => pure word
      | none => mismatch
  let guarded ← keywords? ["IF", "EXISTS"]
  let names ← commaSeparated dottedName
  let behaviour ← trailingPhrase [["CASCADE"], ["RESTRICT"]]
  return "DROP " ++ kind ++ " " ++ wordIf guarded "IF EXISTS" ++ commaList (names.map Name.path) ++
    behaviour

/-- `TRUNCATE`, behind the word. -/
def truncateStatement : Grammar String := do
  let table ← keyword? "TABLE"
  let only ← keyword? "ONLY"
  let names ← commaSeparated dottedName
  let identity ← trailingPhrase [["RESTART", "IDENTITY"], ["CONTINUE", "IDENTITY"]]
  let behaviour ← trailingPhrase [["CASCADE"], ["RESTRICT"]]
  return "TRUNCATE " ++ wordIf table "TABLE" ++ wordIf only "ONLY" ++
    commaList (names.map Name.path) ++ identity ++ behaviour

def transactionMode? : Grammar (Option String) := do
  if ← keywords? ["ISOLATION", "LEVEL"] then
    match ← phrase? [["READ", "UNCOMMITTED"], ["READ", "COMMITTED"], ["REPEATABLE", "READ"],
        ["SERIALIZABLE"], ["SNAPSHOT"]] with
    | some words => return some ("ISOLATION LEVEL " ++ words)
    | none => mismatch
  else phrase? [["READ", "ONLY"], ["READ", "WRITE"]]

/-- The modes of a transaction; commas between them may be left out. -/
def transactionModes : Grammar String := do
  let modes ← repeated do
    let _ ← symbol? ","
    transactionMode?
  return if modes.isEmpty then "" else " " ++ commaList modes

/-- `BEGIN`, behind the word. -/
def beginStatement : Grammar String := do
  let kind ← trailingPhrase [["TRANSACTION"], ["WORK"]]
  return "BEGIN" ++ kind ++ (← transactionModes)

/-- Whether another transaction follows, behind `COMMIT` and the like. -/
def chain? : Grammar String := do
  let _ ← oneOf? ["TRANSACTION", "WORK"]
  if ← keyword? "AND" then
    let refused ← keyword? "NO"
    keyword "CHAIN"
    return if refused then "" else " AND CHAIN"
  else return ""

/-- `ROLLBACK`, behind the word. -/
def rollbackStatement : Grammar String := do
  let chain ← chain?
  let point ← behind "TO" do
    let _ ← keyword? "SAVEPOINT"
    return " TO SAVEPOINT " ++ (← name).text
  return "ROLLBACK" ++ chain ++ point.getD ""

end QueryNotation.Sql.Grammar
