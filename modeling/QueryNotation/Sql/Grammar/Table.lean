import QueryNotation.Sql.Grammar.Call
import QueryNotation.Sql.Grammar.TypeName

namespace QueryNotation.Sql.Grammar

/-! # Tables and select items -/

/-- The words that end a select item, so that they are no other name of it. -/
def reservedAfterItem : List String :=
  ["WITH", "EXPLAIN", "ANALYZE", "SELECT", "WHERE", "GROUP", "SORT", "HAVING", "ORDER", "TOP",
    "LATERAL", "VIEW", "LIMIT", "OFFSET", "FETCH", "UNION", "EXCEPT", "INTERSECT", "MINUS",
    "CLUSTER", "DISTRIBUTE", "RETURNING", "VALUES", "FROM", "INTO", "END"]

/-- The words that end a table, so that they are no other name of it. -/
def reservedAfterTable : List String :=
  ["WITH", "EXPLAIN", "ANALYZE", "SELECT", "WHERE", "GROUP", "SORT", "HAVING", "ORDER", "PIVOT",
    "UNPIVOT", "TOP", "LATERAL", "VIEW", "LIMIT", "OFFSET", "FETCH", "UNION", "EXCEPT",
    "INTERSECT", "MINUS", "ON", "JOIN", "INNER", "CROSS", "FULL", "LEFT", "RIGHT", "NATURAL",
    "USING", "CLUSTER", "DISTRIBUTE", "GLOBAL", "ANTI", "SEMI", "RETURNING", "ASOF",
    "MATCH_CONDITION", "OUTER", "SET", "QUALIFY", "WINDOW", "END", "FOR", "PARTITION", "PREWHERE",
    "SETTINGS", "FORMAT", "START", "CONNECT", "MATCH_RECOGNIZE", "SAMPLE", "TABLESAMPLE", "FROM",
    "OPEN"]

/-- Another name: any name behind `AS`, a name that is not reserved without it.  The
truth value tells whether `AS` is written. -/
def otherName? (reserved : List String) : Grammar (Option (Name × Bool)) := do
  if ← keyword? "AS" then return some (← name, true)
  else
    match ← peek? with
    | some (.word text quoted) =>
      match (Token.word text quoted).keyword? with
      | some word => if reserved.contains word then return none else return some (← name, false)
      | none => return some (← name, false)
    | some (.constant (.string _)) => return some (← name, false)
    | _ => return none

def selectItem (inner : Level) : Grammar SelectItem := do
  match ← attempt wildcard with
  | some none => return .wildcard
  | some (some table) => return .tableWildcard table
  | none =>
    let value ← inner.whole
    match value with
    | .name word =>
      if (Token.word word.value word.mark.isSome).keyword? = some "FROM" then mismatch
    | _ => pure ()
    match ← otherName? reservedAfterItem with
    | some (label, _) => return .labelled value label
    | none => return .plain value

def returning? (inner : Level) : Grammar (Option (List SelectItem)) :=
  behind "RETURNING" (commaSeparated (selectItem inner))

def labelColumn : Grammar String := do
  let column ← name
  match ← attempt typeText with
  | some type => return column.text ++ " " ++ type
  | none => return column.text

def tableLabel? : Grammar (Option TableLabel) := do
  match ← otherName? reservedAfterTable with
  | none => return none
  | some (name, spelled) =>
    let columns ←
      if ← atSymbol "(" then parenthesized (commaSeparated labelColumn) else pure []
    return some { name, spelled, columns }

/-- The other name of a table, as text behind the table. -/
def labelText? : Grammar String := do
  match ← tableLabel? with
  | some label => return " " ++ label.text
  | none => return ""

def tableArguments (inner : Level) : Grammar String := do
  let arguments ← parenthesized (commaSeparatedUntil ")" (argument inner))
  return "(" ++ commaList (Expr.argumentTexts arguments) ++ ")"

def ordinality? : Grammar String := do
  if ← keywords? ["WITH", "ORDINALITY"] then return " WITH ORDINALITY" else return ""

/-- A query in place of a table, from its parenthesis on. -/
def derivedTable (inner : Level) (lead : String) : Grammar TableSource := do
  let query ← parenthesized inner.query
  return .other (lead ++ "(" ++ query.text ++ ")" ++ (← labelText?))

def nestedJoin (inner : Level) : Grammar TableSource := do
  let table ← parenthesized inner.joined
  if table.joins.isEmpty then mismatch
  return .other ("(" ++ table.text ++ ")" ++ (← labelText?))

def tableSource (inner : Level) : Grammar TableSource := do
  if ← keyword? "LATERAL" then
    if ← atSymbol "(" then derivedTable inner "LATERAL "
    else
      let function ← dottedName
      let arguments ← tableArguments inner
      return .other ("LATERAL " ++ Name.path function ++ arguments ++ (← labelText?))
  else if ← atSymbol "(" then
    match ← attempt (derivedTable inner "") with
    | some table => return table
    | none => nestedJoin inner
  else if ← keyword? "UNNEST" then
    let values ← parenthesized (commaSeparated inner.whole)
    let ordinality ← ordinality?
    return .other ("UNNEST(" ++ commaList (Expr.texts values) ++ ")" ++ ordinality ++
      (← labelText?))
  else
    let table ← dottedName
    let arguments ← if ← atSymbol "(" then tableArguments inner else pure ""
    let ordinality ← ordinality?
    return .table table (arguments ++ ordinality) (← tableLabel?)

/-- How a table is joined, from `NATURAL` or the kind of the join on; none when no join
follows. -/
def joinKind? : Grammar (Option JoinKind) := do
  if ← keyword? "JOIN" then return some (.inner false)
  else if ← keywords? ["INNER", "JOIN"] then return some (.inner true)
  else if ← keywords? ["FULL", "OUTER", "JOIN"] then return some (.other "FULL JOIN")
  else if ← keywords? ["FULL", "JOIN"] then return some (.other "FULL JOIN")
  else
    match ← oneOf? ["LEFT", "RIGHT", "INNER", "FULL"] with
    | some "LEFT" =>
      if ← keyword? "JOIN" then return some (.left false)
      else if ← keywords? ["OUTER", "JOIN"] then return some (.left true)
      else if ← keywords? ["SEMI", "JOIN"] then return some (.other "LEFT SEMI JOIN")
      else if ← keywords? ["ANTI", "JOIN"] then return some (.other "LEFT ANTI JOIN")
      else mismatch
    | some "RIGHT" =>
      if ← keyword? "JOIN" then return some (.other "RIGHT JOIN")
      else if ← keywords? ["OUTER", "JOIN"] then return some (.other "RIGHT OUTER JOIN")
      else if ← keywords? ["SEMI", "JOIN"] then return some (.other "RIGHT SEMI JOIN")
      else if ← keywords? ["ANTI", "JOIN"] then return some (.other "RIGHT ANTI JOIN")
      else mismatch
    | some _ => mismatch
    | none => return none

def joinConstraint? (inner : Level) : Grammar String := do
  if ← keyword? "ON" then return " ON " ++ (← inner.whole).text
  else if ← keyword? "USING" then
    let columns ← parenthesized (commaSeparated dottedName)
    return " USING(" ++ commaList (columns.map Name.path) ++ ")"
  else return ""

/-- A table joined to those before it, if one follows. -/
def join? (inner : Level) : Grammar (Option JoinTree) := do
  if ← keywords? ["CROSS", "JOIN"] then
    return some { kind := .other "CROSS JOIN", source := ← tableSource inner, constraint := "" }
  else if ← keyword? "NATURAL" then
    match ← joinKind? with
    | some kind =>
      return some
        { kind := .other ("NATURAL " ++ kind.words), source := ← tableSource inner,
          constraint := "" }
    | none => mismatch
  else
    match ← joinKind? with
    | some kind =>
      let source ← tableSource inner
      return some { kind, source, constraint := ← joinConstraint? inner }
    | none => return none

def joinedTable (inner : Level) : Grammar JoinedTable := do
  let source ← tableSource inner
  return { source, joins := ← repeated (join? inner) }

end QueryNotation.Sql.Grammar
