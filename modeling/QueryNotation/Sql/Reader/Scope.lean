import QueryNotation.Fault
import QueryNotation.Sql.Tree.Text
import QueryNotation.Text.Cut

namespace QueryNotation.Sql

/-! # Scopes

A column may be named behind the table that it belongs to.  A scope lists the names
that tables go by, in the order in which they were introduced; the first that fits
decides.
-/

/-- Which table a column belongs to: the main table, or the joined one of this number. -/
abbrev Target := Option Nat

/-- The names that tables go by. -/
structure Scope where
  names : List (String × Target)
deriving DecidableEq, Repr

namespace Scope

/-- The names of one table: its own, and its other one if it has any. -/
def tableNames (table : String) (label : Option String) (target : Target) :
    List (String × Target) :=
  (table, target) :: (label.map fun other => (other, target)).toList

def ofTable (table : String) (label : Option String) : Scope :=
  ⟨tableNames table label none⟩

def join (scope : Scope) (table : String) (label : Option String) (number : Nat) : Scope :=
  ⟨scope.names ++ tableNames table label (some number)⟩

/-- The table that a name stands for. -/
def resolve (scope : Scope) (qualifier : String) : Outcome Target :=
  match scope.names.find? fun (name, _) => name = qualifier with
  | some (_, target) => .ok target
  | none => .error (.sqlLimit .unknownQualifier qualifier)

end Scope

/-- A name without its quotation marks. -/
def unquoted (text : String) : String :=
  String.ofList (text.toList.filter (· != '"'))

def splitTableName (written : String) : String × Option String :=
  let plain := unquoted written
  match Text.cutLast '.' plain.toList with
  | some (schema, table) => (String.ofList table, some (String.ofList schema))
  | none => (plain, none)

def schemaWarnings : Option String → List String
  | some schema =>
    ["schema '" ++ schema ++
      "' dropped; REST requests select a schema with the Accept-Profile header"]
  | none => []

/-- A table as a statement names it. -/
structure NamedTable where
  name : String
  label : Option String
  schema : Option String
deriving DecidableEq, Repr

def TableSource.named : TableSource → Outcome NamedTable
  | .table path _ label =>
    let (name, schema) := splitTableName (Name.path path)
    .ok { name, label := label.map fun other => other.name.value, schema }
  | .other text => .error (.sqlLimit .notPlainTable text)

end QueryNotation.Sql
