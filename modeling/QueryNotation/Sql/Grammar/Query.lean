import QueryNotation.Sql.Grammar.Change
import QueryNotation.Sql.Grammar.Expression

namespace QueryNotation.Sql.Grammar

/-! # Queries -/

/-- `DISTINCT` with what belongs to it; `ALL` says nothing. -/
def distinct? (inner : Level) : Grammar (Option String) := do
  let all ← keyword? "ALL"
  if ← keyword? "DISTINCT" then
    if all then mismatch
    else if ← keyword? "ON" then
      let columns ← parenthesized (commaSeparatedUntil ")" inner.whole)
      return some ("DISTINCT ON (" ++ commaList (Expr.texts columns) ++ ")")
    else return some "DISTINCT"
  else return none

/-- `TOP` with what belongs to it. -/
def top? (inner : Level) : Grammar (Option String) :=
  behind "TOP" do
    let count ← if ← atSymbol "(" then pure ("(" ++ (← parenthesized inner.whole).text ++ ")")
      else digits
    let percent ← keyword? "PERCENT"
    let ties ← keywords? ["WITH", "TIES"]
    return "TOP " ++ count ++ (if percent then " PERCENT" else "") ++
      if ties then " WITH TIES" else ""

/-- The table of `SELECT … INTO`. -/
def into? : Grammar (Option String) :=
  behind "INTO" do
    let temporary ← match ← oneOf? ["TEMPORARY", "TEMP"] with
      | some _ => pure "TEMPORARY "
      | none => pure ""
    let unlogged ← keyword? "UNLOGGED"
    let table ← keyword? "TABLE"
    return temporary ++ wordIf unlogged "UNLOGGED" ++ wordIf table "TABLE" ++
      Name.path (← dottedName)

/-- A group of columns inside `GROUP BY`. -/
def groupTuple (inner : Level) : Grammar String := do
  if ← atSymbol "(" then
    let columns ← parenthesized (commaSeparatedUntil ")" inner.whole)
    return "(" ++ commaList (Expr.texts columns) ++ ")"
  else return "(" ++ (← inner.whole).text ++ ")"

def groupItem (inner : Level) : Grammar String := do
  if ← keywords? ["GROUPING", "SETS"] then
    return "GROUPING SETS (" ++ commaList (← parenthesized (commaSeparated (groupTuple inner))) ++
      ")"
  else if (← get).take 2 = [.symbol "(", .symbol ")"] then
    symbol "("
    symbol ")"
    return "()"
  else return (← inner.whole).text

/-- What stands behind `GROUP BY`. -/
def groupBy? (inner : Level) : Grammar (Option String) := do
  if ← keywords? ["GROUP", "BY"] then
    if ← keyword? "ALL" then return some "ALL"
    else return some (commaList (← commaSeparated (groupItem inner)))
  else return none

def namedWindow (inner : Level) : Grammar String := do
  let window ← name
  keyword "AS"
  let definition ← if ← atSymbol "(" then
      pure ("(" ++ (← parenthesized (windowText inner)) ++ ")")
    else pure (← name).text
  return window.text ++ " AS " ++ definition

/-- A plain `SELECT`, behind the word. -/
def selection (inner : Level) : Grammar SelectTree := do
  let distinct ← distinct? inner
  let top ← top? inner
  let items ← if ← atKeyword "FROM" then pure [] else commaSeparated (selectItem inner)
  let into ← into?
  let sources ← behind "FROM" (commaSeparated inner.joined)
  let condition ← condition? inner
  let groupBy ← groupBy? inner
  let having ← behind "HAVING" inner.whole
  let windows ← behind "WINDOW" (commaSeparated (namedWindow inner))
  return {
    distinct, top, items, into, sources := sources.getD [], condition, groupBy
    having := having.map Expr.text
    windows := windows.getD [] }

def valueRows (inner : Level) (word : String) : Grammar QueryBody := do
  let rows ← commaSeparated (parenthesized (commaSeparated inner.whole))
  return .values word rows

/-- A selection, rows of values, or a query between parentheses. -/
def bodyTerm (inner : Level) : Grammar QueryBody := do
  if ← keyword? "SELECT" then return .select (← selection inner)
  else if ← atSymbol "(" then return .other ("(" ++ (← parenthesized inner.query).text ++ ")")
  else if ← keyword? "VALUES" then valueRows inner "VALUES"
  else if ← keyword? "VALUE" then valueRows inner "VALUE"
  else if ← keyword? "TABLE" then return .other ("TABLE " ++ Name.path (← dottedName))
  else mismatch

/-- A set operator and what stands behind it, if one of the words is next. -/
def setTail? (words : List String) (operand : Grammar QueryBody) : Grammar (Option String) := do
  match ← oneOf? words with
  | none => return none
  | some word =>
    let quantifier ← match ← oneOf? ["ALL", "DISTINCT"] with
      | some quantifier => pure (" " ++ quantifier)
      | none => pure ""
    return some (" " ++ word ++ quantifier ++ " " ++ (← operand).text)

/-- Bodies joined by set operators that stand on one step of precedence. -/
def setChain (words : List String) (operand : Grammar QueryBody) : Grammar QueryBody := do
  let first ← operand
  match ← repeated (setTail? words operand) with
  | [] => return first
  | tails => return .other (first.text ++ String.join tails)

/-- What a query begins with.  `INTERSECT` binds more tightly than the others. -/
def queryBody (inner : Level) : Grammar QueryBody :=
  setChain ["UNION", "EXCEPT", "MINUS"] (setChain ["INTERSECT"] (bodyTerm inner))

def commonTable (inner : Level) : Grammar String := do
  let table ← name
  let columns ←
    if ← atSymbol "(" then
      pure (" (" ++ commaList (← parenthesized (commaSeparated labelColumn)) ++ ")")
    else pure ""
  keyword "AS"
  let kept ← trailingPhrase [["MATERIALIZED"], ["NOT", "MATERIALIZED"]]
  let query ← parenthesized inner.query
  return table.text ++ columns ++ " AS" ++ kept ++ " (" ++ query.text ++ ")"

def commonTables? (inner : Level) : Grammar (Option String) :=
  behind "WITH" do
    let recursive ← keyword? "RECURSIVE"
    return "WITH " ++ wordIf recursive "RECURSIVE" ++
      commaList (← commaSeparated (commonTable inner))

/-- The number of rows to pass over. -/
def offset? (inner : Level) : Grammar (Option OffsetClause) :=
  behind "OFFSET" do
    let value ← inner.whole
    match ← oneOf? ["ROW", "ROWS"] with
    | some unit => return { value, unit := " " ++ unit }
    | none => return { value }

/-- `LIMIT` and `OFFSET` in either order. -/
def limits (inner : Level) : Grammar (Option Expr × Option OffsetClause) := do
  let early ← offset? inner
  if ← keyword? "LIMIT" then
    let limit ← limitValue inner
    let offset ← if early.isNone then offset? inner else pure early
    return (limit, offset)
  else return (none, early)

/-- `FETCH`, with what belongs to it. -/
def fetch? : Grammar (Option String) :=
  behind "FETCH" do
    let _ ← oneOf? ["FIRST", "NEXT"]
    let count ← match ← oneOf? ["ROW", "ROWS"] with
      | some _ => pure ""
      | none =>
        let quantity ← constantText
        let percent ← keyword? "PERCENT"
        let _ ← oneOf? ["ROW", "ROWS"]
        pure (quantity ++ " " ++ wordIf percent "PERCENT")
    if ← keyword? "ONLY" then return "FETCH FIRST " ++ count ++ "ROWS ONLY"
    else
      keywords ["WITH", "TIES"]
      return "FETCH FIRST " ++ count ++ "ROWS WITH TIES"

def lock? : Grammar (Option String) :=
  behind "FOR" do
    match ← oneOf? ["UPDATE", "SHARE"] with
    | none => mismatch
    | some strength =>
      let tables ← match ← behind "OF" dottedName with
        | some table => pure (" OF " ++ Name.path table)
        | none => pure ""
      let waiting ← trailingPhrase [["NOWAIT"], ["SKIP", "LOCKED"]]
      return "FOR " ++ strength ++ tables ++ waiting

/-- A query; a statement that changes rows may stand in its place. -/
def queryTree (inner : Level) : Grammar QueryTree := do
  let commonTables ← commonTables? inner
  if ← keyword? "INSERT" then
    return { commonTables, body := .other (← insertTree inner).text }
  else if ← keyword? "UPDATE" then
    return { commonTables, body := .other (← updateTree inner).text }
  else if ← keyword? "DELETE" then
    return { commonTables, body := .other (← deleteTree inner).text }
  else
    let body ← queryBody inner
    let order ← orderBy? inner
    let (limit, offset) ← limits inner
    let fetch ← fetch?
    let locks ← repeated lock?
    return { commonTables, body, order, limit, offset, fetch, locks }

end QueryNotation.Sql.Grammar

namespace QueryNotation.Sql

def Level.above (inner : Level) : Level where
  expression := Grammar.expression inner
  operand := Grammar.operand inner
  query := Grammar.queryTree inner
  joined := Grammar.joinedTable inner

/-- The level on which things may nest `depth` deep. -/
def Level.ofDepth : Nat → Level
  | 0 => .lowest
  | depth + 1 => (ofDepth depth).above

end QueryNotation.Sql
