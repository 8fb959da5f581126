import QueryNotation.Sql.Grammar.Basic

namespace QueryNotation.Sql

/-! # Levels of nesting

An expression holds expressions and queries, and a query holds tables and
expressions.  A level is what may stand inside something; a level is built from
the one below it, and on the lowest level nothing may stand.
-/

/-- What may stand inside something. -/
structure Level where
  /-- An expression whose operators all bind more tightly than the given power. -/
  expression : Nat → Grammar Expr
  /-- An expression up to its first operator. -/
  operand : Grammar Expr
  query : Grammar QueryTree
  /-- A table with those joined to it. -/
  joined : Grammar JoinedTable

namespace Level

def lowest : Level where
  expression _ := throw .tooDeep
  operand := throw .tooDeep
  query := throw .tooDeep
  joined := throw .tooDeep

def whole (level : Level) : Grammar Expr :=
  level.expression 0

end Level

end QueryNotation.Sql
