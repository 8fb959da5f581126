import QueryNotation.Fault
import QueryNotation.Options
import QueryNotation.Sql.Identifier

namespace QueryNotation.Sql

/-! # Joins

An embed becomes a join.  Nothing is known of the tables, so the key is assumed
by a convention of names: the embedded table has a column that refers to the
primary key of its parent.
-/

/-- How the columns of a join are named. -/
structure KeyPolicy where
  /-- The column of the embedded table; `\{table}` stands for the parent. -/
  foreignKeyTemplate : String
  /-- The column of the parent. -/
  primaryKey : String
deriving DecidableEq, Repr, Inhabited

namespace KeyPolicy

def ofOptions (options : Options) : KeyPolicy where
  foreignKeyTemplate := options.foreignKeyTemplate
  primaryKey := options.primaryKey

/-- The place of the parent's name in a template. -/
def tablePlace : List Char := "\x7btable\x7d".toList

def foreignKey (policy : KeyPolicy) (parent : String) : String :=
  String.ofList
    (Text.substituteText tablePlace parent.toList policy.foreignKeyTemplate.toList)

end KeyPolicy

/-- The join of an embed. -/
structure Join where
  /-- The whole clause. -/
  clause : String
  /-- What the columns of the embed are qualified with. -/
  qualifier : String
  /-- The assumed condition. -/
  key : String
deriving DecidableEq, Repr, Inhabited

/-- The join of an embed of `table`.  An embed with embeds of its own has none. -/
def Join.ofEmbed (policy : KeyPolicy) (table : String) (embed : Embed) : Outcome Join :=
  if embed.depth > 1 then .error (.nestedEmbed embed.name embed.selectItem)
  else
    let qualifier := embed.name
    let key := qualified (some qualifier) (policy.foreignKey table) ++ " = " ++
      qualified (some table) policy.primaryKey
    let verb := if embed.inner then "INNER JOIN " else "LEFT JOIN "
    let target := escapeIdentifier embed.relation ++
      match embed.label with
      | some label => " AS " ++ escapeIdentifier label
      | none => ""
    .ok { clause := verb ++ target ++ " ON " ++ key, qualifier, key }

end QueryNotation.Sql
