import QueryNotation.Fault
import QueryNotation.Notation

namespace QueryNotation

/-! # Validation

What a reader accepts may still be a query that no notation can carry out safely,
or one that the wanted notation has no form for.
-/

namespace Query

/-- Refuse filters that are joined by `OR`. -/
def checkFilters (filters : List Filter) : Outcome Unit :=
  match filters.find? fun filter => filter.connective = .or with
  | some filter => .error (.orFilter filter.column)
  | none => .ok ()

mutual

/-- Refuse filters joined by `OR` in an embed and below it. -/
def checkEmbed : Embed → Outcome Unit
  | { filters, embeds, .. } =>
    match checkFilters filters with
    | .error fault => .error fault
    | .ok () => checkEmbeds embeds

/-- Refuse filters joined by `OR` in some embeds and below them. -/
def checkEmbeds : List Embed → Outcome Unit
  | [] => .ok ()
  | embed :: rest =>
    match checkEmbed embed with
    | .error fault => .error fault
    | .ok () => checkEmbeds rest

end

/-- Refuse a body that does not fit the operation. -/
def checkBody (query : Query) : Outcome Unit :=
  let empty := Fault.emptyBody query.operation query.table
  let shape := Fault.bodyShape query.operation query.table
  match query.operation with
  | .insert | .upsert =>
    match query.body with
    | some (.arguments _) => .error shape
    | some body => if body.isEmpty then .error empty else .ok ()
    | none => .error empty
  | .update =>
    match query.body with
    | some (.single row) => if row.isEmpty then .error empty else .ok ()
    | some (.bulk _) | some (.arguments _) => .error shape
    | none => .error empty
  | .select | .delete | .call => .ok ()

/-- Refuse what SQL has no form for. -/
def checkSql (query : Query) : Outcome Unit :=
  if query.operation = .call then .error (.callRefused query.table)
  else
    match query.embeds.find? fun embed => embed.depth > 1 with
    | some embed => .error (.nestedEmbed embed.name embed.selectItem)
    | none => .ok ()

/-- Check a query before it is written in the target notation. -/
def validate (target : Form) (query : Query) : Outcome Unit := do
  if Text.allBlank query.table.toList then throw .queryWithoutTable
  checkFilters query.filters
  checkEmbeds query.embeds
  if query.operation = .delete && query.filters.isEmpty then
    throw (.deleteWithoutFilter query.table)
  query.checkBody
  if target = .sql then query.checkSql

end Query

end QueryNotation
