import QueryNotation.Sql.Reader.Column
import QueryNotation.Sql.Reader.Constant
import QueryNotation.Value.Wire

namespace QueryNotation.Sql

/-! # Conditions

A condition is a conjunction of filters.  A negation is pushed down to the filters,
so that a negated disjunction is a conjunction of negated filters; what is left a
disjunction is refused.
-/

/-- A filter on a column that may belong to a joined table. -/
abbrev PlacedFilter := Target × Filter

/-- A filter that compares the column an expression names with a value. -/
def placedFilter (scope : Scope) (operand : Expr) (op : Operator) (negated : Bool)
    (value : Outcome Value) : Outcome PlacedFilter := do
  let (target, column) ← operand.column scope
  return (target, { column, op, value := ← value, negated })

/-- The operator of a symbol, and whether the symbol negates it. -/
def comparisonOperator? (symbol : String) : Option (Operator × Bool) :=
  if symbol = "!~" then some (.matches, true)
  else if symbol = "!~*" then some (.imatches, true)
  else (Operator.ofSymbol? symbol).map (·, false)

/-- The value that an operator is given.  Operators on arrays take a string as the text
of an array. -/
def comparedValue (op : Operator) (right : Expr) : Outcome Value := do
  match op, ← right.value with
  | .contains, .string text | .containedBy, .string text | .overlaps, .string text =>
    return Value.ofWire op text
  | _, value => return value

def positionalArguments : List (Argument Expr) → Outcome (List Expr)
  | [] => .ok []
  | .positional value :: rest => do return value :: (← positionalArguments rest)
  | .other text :: _ => .error (.sqlLimit .namedArgument text)

def searchText (argument : Expr) : Outcome String := do
  match ← argument.value with
  | .string text | .number text => return text
  | _ => throw (.sqlLimit .searchArgument argument.text)

def textSearch (function : String) (arguments : List (Argument Expr)) (whole : String) :
    Outcome (Operator × Option String × String) := do
  match Operator.ofSearchFunction? function with
  | none => throw (.sqlLimit .unknownSearchFunction function)
  | some op =>
    match ← positionalArguments arguments with
    | [words] => return (op, none, ← searchText words)
    | [config, words] =>
      let config ← searchText config
      return (op, some config, ← searchText words)
    | _ => throw (.sqlLimit .searchArity whole)

def searchFilter (column : String) (negated : Bool) : Expr → Outcome Filter
  | .call function arguments frame => do
    let (op, config, words) ←
      textSearch function arguments (Expr.call function arguments frame).text
    return { column, op, value := .string words, negated, config }
  | .bareCall function => .error (.sqlLimit .unknownSearchFunction function)
  | value => .error (.sqlLimit .searchFunctionMissing value.text)

def comparison (scope : Scope) (negated : Bool) (left : Expr) (symbol : String) (right : Expr) :
    Outcome PlacedFilter := do
  let (target, column) ← left.column scope
  if symbol = "@@" then return (target, ← searchFilter column negated right)
  else
    match comparisonOperator? symbol with
    | none => throw (.unknownSymbol symbol)
    | some (op, inverted) =>
      let value ← comparedValue op right
      return (target, { column, op, value, negated := negated != inverted })

/-- The value that `IS` compares with; unknown is none. -/
def Truth.value? : Truth → Option Value
  | .null => some .null
  | .true => some (.bool Bool.true)
  | .false => some (.bool Bool.false)
  | .unknown => none

def Expr.conditions (scope : Scope) (negated : Bool) : Expr → Outcome (List PlacedFilter)
  | .and left right => do
    -- The negation of a conjunction is a disjunction.
    if negated then throw (.orExpression (Expr.and left right).text)
    let first ← left.conditions scope negated
    return first ++ (← right.conditions scope negated)
  | .or left right => do
    if !negated then throw (.orExpression (Expr.or left right).text)
    let first ← left.conditions scope negated
    return first ++ (← right.conditions scope negated)
  | .binary left symbol right => do return [← comparison scope negated left symbol right]
  | .nested inner => inner.conditions scope negated
  | .not operand => operand.conditions scope (!negated)
  | .isTest operand what opposite =>
    match what.value? with
    | some value => do
      return [← placedFilter scope operand .is (negated != opposite) (.ok value)]
    | none => .error (.sqlLimit .condition (Expr.isTest operand what opposite).text)
  | .inList operand items opposite => do
    let value := (Expr.values items).map Value.list
    return [← placedFilter scope operand .oneOf (negated != opposite) value]
  | .like operand pattern anyCase opposite any escape =>
    if any then
      .error (.sqlLimit .anyPattern
        (Expr.like operand pattern anyCase opposite any escape).text)
    else do
      let op := if anyCase then Operator.ilike else .like
      return [← placedFilter scope operand op (negated != opposite) pattern.value]
  | .subquery text => .error (.sqlLimit .conditionSubquery (Expr.subquery text).text)
  | .subqueryTest text => .error (.sqlLimit .conditionSubquery text)
  | value => .error (.sqlLimit .condition value.text)

end QueryNotation.Sql
