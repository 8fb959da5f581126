import QueryNotation.Sql.Delete
import QueryNotation.Sql.Insert
import QueryNotation.Sql.Select
import QueryNotation.Sql.Update

namespace QueryNotation.Sql

/-! # Writing SQL -/

def write (policy : KeyPolicy) (query : Query) : Outcome Written :=
  match query.operation with
  | .select => writeSelect policy query
  | .insert | .upsert => writeInsert policy query
  | .update => writeUpdate query
  | .delete => writeDelete query
  | .call => .error (.callWithoutStatement query.table)

end QueryNotation.Sql
