import QueryNotation.Text.Blank

namespace QueryNotation

/-! # The three notations -/

/-- A notation for queries. -/
inductive Form where
  | sql
  | rest
  | chain
deriving DecidableEq, Repr, Inhabited

namespace Form

def name : Form → String
  | .sql => "sql"
  | .rest => "rest"
  | .chain => "dsl"

/-- The names under which a notation is known. -/
def names : Form → List String
  | .sql => ["sql"]
  | .rest => ["rest", "http", "postgrest"]
  | .chain => ["dsl", "js", "supabase"]

/-- A name as it is looked up: trimmed, in lower case. -/
def plainName (written : String) : String :=
  (String.ofList (Text.trim written.toList)).toLower

def ofName? (written : String) : Option Form :=
  [Form.sql, .rest, .chain].find? fun form => form.names.contains (plainName written)

def unknownMessage (written : String) : String :=
  "unknown syntax '" ++ plainName written ++ "' (expected sql, rest or dsl)"

end Form

end QueryNotation
