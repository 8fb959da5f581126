import QueryNotation.Fault
import QueryNotation.Sql.Identifier
import QueryNotation.Sql.Literal

namespace QueryNotation.Sql

/-! # SQL conditions

The condition of a filter.  A negated filter takes the negative form of its
operator where SQL has one, and is put in `NOT (...)` otherwise.
-/

def isEmptyList : Value → Bool
  | .list [] => true
  | _ => false

/-- The condition of a filter.  No value is in an empty list, which SQL cannot
write. -/
def conditionText (qualifier : Option String) (filter : Filter) : String :=
  let column := qualified qualifier filter.column
  let operand := literal filter.op filter.value filter.config
  let plain := column ++ " " ++ filter.op.symbol ++ " " ++ operand
  if filter.op = .oneOf ∧ isEmptyList filter.value then
    if filter.negated then "TRUE" else "FALSE"
  else if !filter.negated then plain
  else
    match filter.op with
    | .is => column ++ " IS NOT " ++ operand
    | .oneOf | .like | .ilike => column ++ " NOT " ++ filter.op.symbol ++ " " ++ operand
    | .matches => column ++ " !~ " ++ operand
    | .imatches => column ++ " !~* " ++ operand
    | _ => "NOT (" ++ plain ++ ")"

/-- The condition of a filter that is joined by `AND`. -/
def condition (qualifier : Option String) (filter : Filter) : Outcome String :=
  match filter.connective with
  | .or => .error (.orCondition filter.column)
  | .and => .ok (conditionText qualifier filter)

def conditions (qualifier : Option String) (filters : List Filter) : Outcome (List String) :=
  filters.mapM (condition qualifier)

end QueryNotation.Sql
