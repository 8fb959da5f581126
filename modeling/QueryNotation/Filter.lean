import QueryNotation.Operator
import QueryNotation.Value

namespace QueryNotation

/-! # Filters and order

A filter is one comparison of a column with a value.  Filters are joined by
`AND`; one joined by `OR` is known only to be refused.
-/

/-- What joins a filter to the one before it. -/
inductive Connective where
  | and
  | or
deriving DecidableEq, Repr, Inhabited

/-- One comparison. -/
structure Filter where
  column : String
  op : Operator
  value : Value
  negated : Bool := false
  connective : Connective := .and
  /-- The text-search configuration, such as a language. -/
  config : Option String := none
deriving DecidableEq, Repr, Inhabited

/-- Where nulls are sorted. -/
inductive NullsOrder where
  | first
  | last
deriving DecidableEq, Repr, Inhabited

/-- One item of an order. -/
structure OrderItem where
  column : String
  descending : Bool := false
  nulls : Option NullsOrder := none
deriving DecidableEq, Repr, Inhabited

end QueryNotation
