import QueryNotation.Sql.Clause
import QueryNotation.Sql.Join

namespace QueryNotation.Sql

/-! # Writing SELECT -/

def orderText (qualifier : Option String) (item : OrderItem) : String :=
  qualified qualifier item.column ++ (if item.descending then " DESC" else " ASC") ++
    match item.nulls with
    | some .first => " NULLS FIRST"
    | some .last => " NULLS LAST"
    | none => ""

/-- Which rows are taken: how many at most, and how many are passed over. -/
structure Paging where
  limit : Option UInt64
  offset : Option UInt64
deriving DecidableEq, Repr

def greatestCount : UInt64 := 0xFFFFFFFFFFFFFFFF

/-- The paging of a query: its range counts only when limit and offset are unset. -/
def paging (query : Query) : Outcome Paging :=
  match query.range with
  | some (first, last) =>
    if query.limit.isNone && query.offset.isNone then
      let span := if first ≤ last then last - first else 0
      -- Both bounds belong to the range, so the longest one has more rows than a limit can count.
      if span = greatestCount then .error (.rangeTooLong first last)
      else .ok { limit := some (span + 1), offset := if first > 0 then some first else none }
    else .ok { limit := query.limit, offset := query.offset }
  | none => .ok { limit := query.limit, offset := query.offset }

/-- What is said when a range does not count. -/
def pagingWarnings (query : Query) : List String :=
  match query.range with
  | some (first, last) =>
    if query.limit.isNone && query.offset.isNone then []
    else
      ["range " ++ toString first ++ "-" ++ toString last ++
        " ignored because LIMIT/OFFSET are already set"]
  | none => []

/-- What SQL cannot say of the answer. -/
def responseMetadata (query : Query) (metadata : Metadata) : Metadata :=
  let metadata := match query.count with
    | some mode => metadata.insert "count" mode.word
    | none => metadata
  let metadata := if query.head then metadata.insert "head" "true" else metadata
  match query.single with
  | some .one => metadata.insert "single" "one"
  | some .maybeOne => metadata.insert "single" "maybe_one"
  | none => metadata

def joinWarnings (embed : Embed) (join : Join) : List String :=
  ("embed '" ++ embed.name ++ "' joined on the assumed key " ++ join.key) ::
    match embed.limit with
    | some limit =>
      ["limit " ++ toString limit ++ " on embed '" ++ embed.name ++
        "' has no JOIN form and was dropped"]
    | none => []

/-- The columns of the select list: those of the main table, then those of each
embed; all columns if none is named. -/
def selectColumns (query : Query) (qualifier : Option String) (joins : List (Embed × Join)) :
    Outcome (List String) := do
  let own ←
    if query.columns.isEmpty && joins.isEmpty then pure ["*"]
    else query.columns.mapM (columnText qualifier)
  let embedded ← joins.mapM fun (embed, join) =>
    embed.columns.mapM (columnText (some join.qualifier))
  let columns := own ++ embedded.flatten
  return if columns.isEmpty then [qualified qualifier "*"] else columns

/-- Write a `SELECT`.  Each embed is joined, and with joins every column is
qualified. -/
def writeSelect (policy : KeyPolicy) (query : Query) : Outcome Written := do
  let qualifier := if query.embeds.isEmpty then none else some query.table
  let plans ← query.embeds.mapM (Join.ofEmbed policy query.table)
  let joins := query.embeds.zip plans
  let columns ← selectColumns query qualifier joins
  let own ← conditions qualifier query.filters
  let embedded ← joins.mapM fun (embed, join) => conditions (some join.qualifier) embed.filters
  let order := query.order.map (orderText qualifier) ++
    joins.flatMap fun (embed, join) => embed.order.map (orderText (some join.qualifier))
  let paging ← paging query
  let limit := match paging.limit with
    | some limit => " LIMIT " ++ toString limit
    | none => ""
  let offset := match paging.offset with
    | some offset => " OFFSET " ++ toString offset
    | none => ""
  let keys := joins.foldl
    (fun (metadata : Metadata) (embed, join) => metadata.insert ("fk." ++ embed.name) join.key) []
  return {
    text :=
      "SELECT " ++ String.intercalate ", " columns ++ " FROM " ++ escapeIdentifier query.table ++
      String.join (plans.map fun join => " " ++ join.clause) ++
      clause " WHERE " " AND " (own ++ embedded.flatten) ++
      clause " ORDER BY " ", " order ++ limit ++ offset
    warnings :=
      (joins.flatMap fun (embed, join) => joinWarnings embed join) ++ pagingWarnings query
    metadata := responseMetadata query keys }

end QueryNotation.Sql
