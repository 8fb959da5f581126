import QueryNotation.Sql.Grammar.Level
import QueryNotation.Sql.Tree.Text

namespace QueryNotation.Sql.Grammar

/-! # Sorting and windows -/

/-- Whether nulls come first, if it is said. -/
def nullsFirst? : Grammar (Option Bool) := do
  if ← keywords? ["NULLS", "FIRST"] then return some true
  else if ← keywords? ["NULLS", "LAST"] then return some false
  else return none

/-- An item of `ORDER BY`. -/
def sortItem (inner : Level) : Grammar SortItem := do
  let value ← inner.whole
  let descending ← match ← oneOf? ["ASC", "DESC"] with
    | some word => pure (some (word == "DESC"))
    | none => pure none
  return { value, descending, nullsFirst := ← nullsFirst? }

/-- The items of `ORDER BY`, if the clause is there. -/
def orderBy? (inner : Level) : Grammar (List SortItem) := do
  if ← keywords? ["ORDER", "BY"] then commaSeparated (sortItem inner) else return []

def orderText (items : List SortItem) : String :=
  "ORDER BY " ++ commaList (items.map SortItem.text)

def spaced (texts : List String) : String :=
  String.intercalate " " (texts.filter fun text => !text.isEmpty)

def frameBound (inner : Level) : Grammar String := do
  if ← keywords? ["CURRENT", "ROW"] then return "CURRENT ROW"
  else
    let rows ← if ← keyword? "UNBOUNDED" then pure "UNBOUNDED"
      else pure (← inner.whole).text
    match ← oneOf? ["PRECEDING", "FOLLOWING"] with
    | some word => return rows ++ " " ++ word
    | none => mismatch

def frame? (inner : Level) : Grammar String := do
  match ← oneOf? ["ROWS", "RANGE", "GROUPS"] with
  | none => return ""
  | some unit =>
    if ← keyword? "BETWEEN" then
      let first ← frameBound inner
      keyword "AND"
      return unit ++ " BETWEEN " ++ first ++ " AND " ++ (← frameBound inner)
    else return unit ++ " " ++ (← frameBound inner)

def windowText (inner : Level) : Grammar String := do
  let base ← match ← peek? with
    | some (.word text quoted) =>
      let word := (Token.word text quoted).keyword?
      if ["PARTITION", "ORDER", "ROWS", "RANGE", "GROUPS"].any fun known => word == some known then
        pure ""
      else pure (← name).text
    | _ => pure ""
  let partition ← if ← keywords? ["PARTITION", "BY"] then
      pure ("PARTITION BY " ++ commaList ((← commaSeparated inner.whole).map Expr.text))
    else pure ""
  let order ← match ← orderBy? inner with
    | [] => pure ""
    | items => pure (orderText items)
  let frame ← frame? inner
  return spaced [base, partition, order, frame]

end QueryNotation.Sql.Grammar
