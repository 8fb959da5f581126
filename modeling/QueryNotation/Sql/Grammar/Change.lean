import QueryNotation.Sql.Grammar.Table

namespace QueryNotation.Sql.Grammar

/-! # Statements that change rows -/

/-- `column = value`.  The column may be a list of columns. -/
def assignment (inner : Level) : Grammar Assignment := do
  let target ← if ← atSymbol "(" then
      let columns ← parenthesized (commaSeparated dottedName)
      pure ("(" ++ commaList (columns.map Name.path) ++ ")")
    else pure (Name.path (← dottedName))
  symbol "="
  return { target, value := ← inner.whole }

def condition? (inner : Level) : Grammar (Option Expr) :=
  behind "WHERE" inner.whole

/-- The number of rows behind `LIMIT`; `ALL` is no limit. -/
def limitValue (inner : Level) : Grammar (Option Expr) := do
  if ← keyword? "ALL" then return none else return some (← inner.whole)

/-- What to do on a conflict, behind `OR`; as text. -/
def conflictWord? : Grammar (Option String) := do
  if ← keyword? "OR" then
    match ← oneOf? ["ROLLBACK", "ABORT", "FAIL", "IGNORE", "REPLACE"] with
    | some word => return some word
    | none => mismatch
  else return none

/-- What the rows that are there already are told by, if it is given. -/
def conflictTarget? : Grammar (Option ConflictTarget) := do
  if ← keywords? ["ON", "CONSTRAINT"] then return some (.constraint (Name.path (← dottedName)))
  else if ← atSymbol "(" then return some (.columns (← nameList))
  else return none

/-- What an insert does about a row that is there already, behind `ON`. -/
def insertClause (inner : Level) : Grammar InsertClause := do
  if ← keyword? "CONFLICT" then
    let target ← conflictTarget?
    keyword "DO"
    if ← keyword? "NOTHING" then return .onConflict target .doNothing
    else
      keywords ["UPDATE", "SET"]
      let assignments ← commaSeparated (assignment inner)
      return .onConflict target (.doUpdate assignments (← condition? inner))
  else
    keywords ["DUPLICATE", "KEY", "UPDATE"]
    return .onDuplicateKey (← commaSeparated (assignment inner))

/-- The words between `INSERT` and the table. -/
def insertLead : Grammar String := do
  let conflict ← conflictWord?
  let overwrite ← keyword? "OVERWRITE"
  let into ← keyword? "INTO"
  let _ ← keyword? "LOCAL"
  let table ← keyword? "TABLE"
  match conflict with
  | some word => return "INSERT OR " ++ word ++ " INTO "
  | none =>
    return "INSERT " ++ wordIf overwrite "OVERWRITE" ++ wordIf into "INTO" ++ wordIf table "TABLE"

/-- The columns that values are given for, if they are listed.  A parenthesis before a
query is not the beginning of a list. -/
def insertColumns? : Grammar (List Name) := do
  match (← get).take 2 with
  | [.symbol "(", second] =>
    if second.keyword? = some "SELECT" ∨ second.keyword? = some "WITH" then return []
    else nameList
  | _ => return []

def insertTree (inner : Level) : Grammar InsertTree := do
  let lead ← insertLead
  let table ← dottedName
  let label ← behind "AS" name
  let (columns, source) ←
    if ← keywords? ["DEFAULT", "VALUES"] then pure ([], none)
    else
      let columns ← insertColumns?
      pure (columns, some (← inner.query))
  let clause ← behind "ON" (insertClause inner)
  return { lead, table, label, columns, source, clause, returning := ← returning? inner }

def updateTree (inner : Level) : Grammar UpdateTree := do
  let lead ← match ← conflictWord? with
    | some word => pure ("UPDATE OR " ++ word ++ " ")
    | none => pure "UPDATE "
  let table ← inner.joined
  let fromBefore ← behind "FROM" (commaSeparated inner.joined)
  keyword "SET"
  let assignments ← commaSeparated (assignment inner)
  let fromAfter ← if fromBefore.isNone then behind "FROM" (commaSeparated inner.joined)
    else pure none
  let condition ← condition? inner
  let returning ← returning? inner
  let limit ← behind "LIMIT" inner.whole
  return { lead, table, fromBefore, assignments, fromAfter, condition, returning, limit }

def deleteTree (inner : Level) : Grammar DeleteTree := do
  let targets ← if ← atKeyword "FROM" then pure [] else commaSeparated dottedName
  keyword "FROM"
  let tables ← commaSeparated inner.joined
  let helpers ← behind "USING" (commaSeparated inner.joined)
  let condition ← condition? inner
  let returning ← returning? inner
  let order ← orderBy? inner
  let limit ← behind "LIMIT" (limitValue inner)
  return {
    targets := targets.map Name.path
    tables, helpers, condition, returning, order, limit := limit.join }

end QueryNotation.Sql.Grammar
