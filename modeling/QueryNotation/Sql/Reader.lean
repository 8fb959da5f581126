import QueryNotation.Options
import QueryNotation.Sql.Grammar.Statement
import QueryNotation.Sql.Reader.Change

namespace QueryNotation.Sql

/-! # Reading SQL

A text is read if it holds one statement that a query can say.  Everything else is
refused, never approximated.
-/

def Statement.read : Statement → Outcome Parsed
  | .query tree => tree.read
  | .insert tree => tree.read
  | .update tree => tree.read
  | .delete tree => tree.read
  | .other text => .error (.sqlLimit .otherStatement text)

def read (options : Options) (text : String) : Outcome Parsed := do
  options.checkSize text.utf8ByteSize
  match Statement.ofText options.maxDepth text.toList with
  | .error .tooDeep => throw (.statementTooDeep text)
  | .error .mismatch => throw (.notSql text)
  | .ok [] => throw (.noStatement text)
  | .ok [statement] => statement.read
  | .ok _ => throw (.sqlLimit .severalStatements text)

end QueryNotation.Sql
