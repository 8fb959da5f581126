import QueryNotation.Sql.Grammar.Window

namespace QueryNotation.Sql.Grammar

/-! # Function calls -/

/-- `*`, or a table name with `.*` behind it. -/
def wildcard : Grammar (Option (List Name)) := do
  if ← symbol? "*" then return none
  else
    let first ← name
    let others ← repeated <| attempt do
      symbol "."
      name
    symbol "."
    symbol "*"
    return some (first :: others)

def wildcardText : Grammar String := do
  match ← wildcard with
  | none => return "*"
  | some table => return Name.path table ++ ".*"

def argumentSign? : Grammar (Option String) := do
  if ← symbol? "=>" then return some "=>"
  else if ← symbol? ":" then return some ":"
  else if ← keyword? "VALUE" then return some "VALUE"
  else return none

def argument (inner : Level) : Grammar (Argument Expr) := do
  match ← attempt wildcardText with
  | some text => return .other text
  | none =>
    let value ← inner.whole
    match ← argumentSign? with
    | none => return .positional value
    | some sign =>
      let given ← match ← attempt wildcardText with
        | some text => pure text
        | none => pure (← inner.whole).text
      return .other (value.text ++ " " ++ sign ++ " " ++ given)

/-- The arguments of a function and what stands around them. -/
def callArguments (inner : Level) : Grammar (List (Argument Expr) × CallFrame) := do
  symbol "("
  if ← symbol? ")" then return ([], {})
  else
    let lead ← match ← oneOf? ["DISTINCT", "ALL"] with
      | some word => pure (word ++ " ")
      | none => pure ""
    let arguments ← commaSeparated (argument inner)
    let order ← match ← orderBy? inner with
      | [] => pure ""
      | items => pure (orderText items)
    let limit ← match ← behind "LIMIT" inner.whole with
      | some value => pure ("LIMIT " ++ value.text)
      | none => pure ""
    symbol ")"
    return (arguments, { lead, clauses := spaced [order, limit] })

def call (inner : Level) (function : String) : Grammar Expr := do
  let (arguments, frame) ← callArguments inner
  let group ← if ← keywords? ["WITHIN", "GROUP"] then
      parenthesized do
        keywords ["ORDER", "BY"]
        return " WITHIN GROUP (" ++ orderText (← commaSeparated (sortItem inner)) ++ ")"
    else pure ""
  let filter ← match ← behind "FILTER" (parenthesized do keyword "WHERE"; inner.whole) with
    | some condition => pure (" FILTER (WHERE " ++ condition.text ++ ")")
    | none => pure ""
  let nulls ← trailingPhrase [["IGNORE", "NULLS"], ["RESPECT", "NULLS"]]
  let window ← behind "OVER" do
    if ← atSymbol "(" then return "(" ++ (← parenthesized (windowText inner)) ++ ")"
    else return (← name).text
  return .call function arguments { frame with suffix := group ++ filter ++ nulls, window }

end QueryNotation.Sql.Grammar
