import QueryNotation.Sql.Reader.Condition

namespace QueryNotation.Sql

/-! # Reading SELECT

The joined tables become embeds, inner or not as the join is.  Every column, filter
and sort item goes to the table it belongs to, in the order in which it stands.
-/

/-- What belongs to a table, in order. -/
def placedAt {α : Type} (target : Target) (found : List (Target × α)) : List α :=
  found.filterMap fun (place, item) => if place = target then some item else none

/-- Refuse what a selection cannot carry. -/
def SelectTree.checkFeatures (selection : SelectTree) : Outcome Unit := do
  if selection.distinct.isSome then throw (.sqlLimit .distinct selection.text)
  if selection.groupBy.isSome || selection.having.isSome then
    throw (.sqlLimit .grouping selection.text)
  if !selection.windows.isEmpty then throw (.sqlLimit .windowDefinition selection.text)

def SelectTree.source (selection : SelectTree) : Outcome JoinedTable :=
  match selection.sources with
  | [source] => .ok source
  | [] => .error (.selectWithoutTable selection.text)
  | _ => .error (.sqlLimit .commaTables selection.text)

/-- A joined table, as an embed without columns. -/
structure JoinedEmbed where
  table : NamedTable
  inner : Bool
deriving DecidableEq, Repr

def JoinTree.embed (join : JoinTree) : Outcome JoinedEmbed := do
  let table ← join.source.named
  match join.kind with
  | .inner _ => return { table, inner := true }
  | .left _ => return { table, inner := false }
  | .other _ => throw (.sqlLimit .joinKind join.text)

def joinWarning (joined : JoinedEmbed) : String :=
  "join condition for '" ++ joined.table.name ++
    "' dropped; the embed follows the foreign key instead"

/-- The scope of a selection: its table, then the joined ones. -/
def selectionScope (table : NamedTable) (joined : List JoinedEmbed) : Scope :=
  joined.zipIdx.foldl
    (fun scope (embed, number) => scope.join embed.table.name embed.table.label number)
    (.ofTable table.name table.label)

def conditionFilters (scope : Scope) : Option Expr → Outcome (List PlacedFilter)
  | some condition => condition.conditions scope false
  | none => .ok []

/-- What a selection puts out, keeps and sorts by. -/
structure Placed where
  columns : List (Target × Column)
  filters : List PlacedFilter
  order : List (Target × OrderItem)
deriving Repr

def Placed.embed (placed : Placed) (joined : JoinedEmbed) (number : Nat) : Embed :=
  { relation := joined.table.name
    inner := joined.inner
    columns := placedAt (some number) placed.columns
    filters := placedAt (some number) placed.filters
    order := placedAt (some number) placed.order }

def QueryTree.read (tree : QueryTree) : Outcome Parsed := do
  if tree.commonTables.isSome then throw (.sqlLimit .commonTable tree.text)
  match tree.body with
  | .select selection =>
    selection.checkFeatures
    let source ← selection.source
    let table ← source.source.named
    let joined ← source.joins.mapM JoinTree.embed
    let scope := selectionScope table joined
    let columns ← selection.items.mapM (SelectItem.column scope)
    let filters ← conditionFilters scope selection.condition
    let order ← tree.order.mapM (SortItem.order scope)
    let placed : Placed := { columns, filters, order }
    let limit ← tree.limit.mapM (Expr.count "LIMIT")
    let offset ← tree.offset.mapM fun offset => offset.value.count "OFFSET"
    return {
      query := {
        table := table.name
        operation := .select
        columns := placedAt none columns
        filters := placedAt none filters
        order := placedAt none order
        limit, offset
        embeds := joined.zipIdx.map fun (embed, number) => placed.embed embed number }
      warnings := schemaWarnings table.schema ++ joined.map joinWarning ++
        if tree.locks.isEmpty then []
        else ["row locking clauses (FOR UPDATE/SHARE) were dropped"] }
  | body => throw (.sqlLimit .notPlainSelect body.text)

end QueryNotation.Sql
