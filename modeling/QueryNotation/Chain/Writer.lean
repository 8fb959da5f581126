import QueryNotation.Chain.Literal
import QueryNotation.Fault
import QueryNotation.Value.Wire

namespace QueryNotation.Chain

/-! # Writing chains

A query becomes one chain of calls behind the client.  A mutation selects its
rows behind its filters, as client code is usually written.
-/

/-- A written chain, with what was left out. -/
structure Written where
  code : String
  warnings : List String
deriving DecidableEq, Repr, Inhabited

/-- One call: a method and the texts of its arguments. -/
structure MethodCall where
  method : String
  arguments : List String := []
deriving DecidableEq, Repr, Inhabited

def MethodCall.text (call : MethodCall) : String :=
  "." ++ call.method ++ "(" ++ String.intercalate ", " call.arguments ++ ")"

/-- Options as the last argument of a call; none when there are none. -/
def optionsArgument (options : List (String × String)) : List String :=
  if options.isEmpty then []
  else [braced (options.map fun (key, value) => key ++ ": " ++ value)]

def countOption (query : Query) : List (String × String) :=
  (query.count.map fun mode => ("count", stringLiteral mode.word)).toList

def headOption (query : Query) : List (String × String) :=
  if query.head then [("head", "true")] else []

/-- True when the select list says no more than `*`. -/
def selectsOnlyAll (query : Query) : Bool :=
  query.selectsAll && query.embeds.isEmpty

def functionCalls (query : Query) : List MethodCall :=
  let params := query.body.bind fun body =>
    if body.isEmpty then none else some (literal body.toJson)
  let options := headOption query ++ countOption query
  let arguments :=
    if options.isEmpty then params.toList
    else params.getD "\x7b\x7d" :: optionsArgument options
  { method := "rpc", arguments := stringLiteral query.table :: arguments } ::
    if selectsOnlyAll query then []
    else [{ method := "select", arguments := [stringLiteral query.selectList] }]

def selectCall (query : Query) : MethodCall :=
  let options := countOption query ++ headOption query
  let all := selectsOnlyAll query
  if all && options.isEmpty then { method := "select" }
  else
    let list := if all then "*" else query.selectList
    { method := "select", arguments := stringLiteral list :: optionsArgument options }

/-- The call by which a mutation answers with rows. -/
def returningCall (query : Query) : MethodCall :=
  if selectsOnlyAll query then { method := "select" }
  else { method := "select", arguments := [stringLiteral query.selectList] }

def bodyLiteral (query : Query) : Outcome String :=
  match query.body with
  | some (.arguments _) => .error (.bodyShape query.operation query.table)
  | some body => .ok (literal body.toJson)
  | none => .error (.emptyBody query.operation query.table)

def upsertOptions (query : Query) : List (String × String) :=
  (query.onConflict.map fun target => ("onConflict", stringLiteral target)).toList ++
    if query.ignoreDuplicates then [("ignoreDuplicates", "true")] else []

def operationCalls (query : Query) : Outcome (List MethodCall) := do
  let table : MethodCall := { method := "from", arguments := [stringLiteral query.table] }
  match query.operation with
  | .call => return functionCalls query
  | .select => return [table, selectCall query]
  | .insert => return [table, { method := "insert", arguments := [← bodyLiteral query] }]
  | .upsert =>
    let body ← bodyLiteral query
    return [table,
      { method := "upsert", arguments := body :: optionsArgument (upsertOptions query) }]
  | .update => return [table, { method := "update", arguments := [← bodyLiteral query] }]
  | .delete => return [table, { method := "delete" }]

/-- The pattern of a filter with the client's wildcard. -/
def patternLiteral (pattern : String) : String :=
  stringLiteral (Value.replaceChar '*' '%' pattern)

def hasPattern (op : Operator) : Bool :=
  op = .like || op = .ilike

/-- The value of a negated filter: lists as on the wire. -/
def negatedValue (filter : Filter) : String :=
  match filter.value with
  | .list _ => stringLiteral (Value.wireToken filter.op filter.value)
  | .string text =>
    if hasPattern filter.op then patternLiteral text else literal (Json.string text)
  | other => literal other.toJson

def methodValue (filter : Filter) : String :=
  match filter.op, filter.value with
  | .oneOf, .list items => literal (Value.list items).toJson
  | .oneOf, other => literal (.array [other.toJson])
  | op, .string text => if hasPattern op then patternLiteral text else literal (.string text)
  | _, other => literal other.toJson

/-- The option that names the way in which text is searched. -/
def searchOptions (filter : Filter) : List (String × String) :=
  (match filter.op with
    | .plainText => [("type", stringLiteral "plain")]
    | .phraseText => [("type", stringLiteral "phrase")]
    | .webText => [("type", stringLiteral "websearch")]
    | _ => []) ++
  (filter.config.map fun config => ("config", stringLiteral config)).toList

/-- The call of a filter.  `column` names the embed too, if there is one. -/
def filterCall (column : String) (filter : Filter) : MethodCall :=
  let name := stringLiteral column
  if filter.negated then
    let tag := filter.op.tag ++ match filter.config with
      | some config => "(" ++ config ++ ")"
      | none => ""
    { method := "not", arguments := [name, stringLiteral tag, negatedValue filter] }
  else if filter.op.searchesText then
    { method := "textSearch"
      arguments := name :: literal filter.value.toJson :: optionsArgument (searchOptions filter) }
  else
    match filter.op.method with
    | some method => { method, arguments := [name, methodValue filter] }
    | none =>
      { method := "filter"
        arguments := [name, stringLiteral filter.op.tag,
          stringLiteral (Value.wireToken filter.op filter.value)] }

/-- The call of a filter that is joined by `AND`. -/
def filterCallOf (column : String) (filter : Filter) : Outcome MethodCall :=
  match filter.connective with
  | .or => .error (.orFilter column)
  | .and => .ok (filterCall column filter)

def orderCall (table : Option String) (item : OrderItem) : MethodCall :=
  let nulls := match item.nulls with
    | some .first => [("nullsFirst", "true")]
    | some .last => [("nullsFirst", "false")]
    | none => []
  let options := (if item.descending then [("ascending", "false")] else []) ++ nulls ++
    (table.map fun name => ("referencedTable", stringLiteral name)).toList
  { method := "order", arguments := stringLiteral item.column :: optionsArgument options }

def rangeCall (first last : UInt64) : MethodCall :=
  { method := "range", arguments := [toString first, toString last] }

def limitCall (limit : UInt64) : MethodCall :=
  { method := "limit", arguments := [toString limit] }

/-- The last row of a limit behind an offset, if it can be counted. -/
def lastRow? (limit offset : UInt64) : Option UInt64 :=
  if 0 < limit ∧ offset.toNat + (limit.toNat - 1) < UInt64.size then some (offset + (limit - 1))
  else none

/-- The calls of limit and offset, and what is said when an offset is dropped.
Together they become a range; an offset alone has no form. -/
def pagingCalls (query : Query) : List MethodCall × List String :=
  match query.limit, query.offset with
  | some limit, some offset =>
    match lastRow? limit offset with
    | some last => ([rangeCall offset last], [])
    | none =>
      ([limitCall limit],
        ["offset " ++ toString offset ++ " with limit " ++ toString limit ++
          " has no range form; offset dropped"])
  | some limit, none => ([limitCall limit], [])
  | none, some offset =>
    ([], ["offset " ++ toString offset ++ " without a limit has no chain form; dropped"])
  | none, none => ([], [])

def embedLimitCalls (embeds : List (String × Embed)) : List MethodCall :=
  embeds.filterMap fun (path, embed) => embed.limit.map fun limit =>
    { method := "limit"
      arguments :=
        toString limit :: optionsArgument [("referencedTable", stringLiteral path)] }

/-- The calls by which a mutation answers, and what is said of a count. -/
def mutationCalls (query : Query) : List MethodCall × List String :=
  if query.operation.isMutation then
    (if query.returning then [returningCall query] else [],
      if query.count.isSome then ["count on a mutation has no chain form; dropped"] else [])
  else ([], [])

def singleCalls (query : Query) : List MethodCall :=
  match query.single with
  | some .one => [{ method := "single" }]
  | some .maybeOne => [{ method := "maybeSingle" }]
  | none => []

def write (client : String) (query : Query) : Outcome Written := do
  let operation ← operationCalls query
  let embeds := Embed.paths query.embeds
  let filters ← query.filters.mapM fun filter => filterCallOf filter.column filter
  let embedFilters ← embeds.mapM fun (path, embed) =>
    embed.filters.mapM fun filter => filterCallOf (path ++ "." ++ filter.column) filter
  let (answer, answerWarnings) := mutationCalls query
  let (paging, pagingWarnings) := pagingCalls query
  -- Filters come before the answer of a mutation, and what is said of the number of rows stands last.
  let calls := operation ++ filters ++ embedFilters.flatten ++ answer ++
    query.order.map (orderCall none) ++
    embeds.flatMap (fun (path, embed) => embed.order.map (orderCall (some path))) ++
    paging ++ (query.range.map fun (first, last) => rangeCall first last).toList ++
    embedLimitCalls embeds ++ singleCalls query
  return {
    code := client ++ String.join (calls.map MethodCall.text)
    warnings := answerWarnings ++ pagingWarnings }

end QueryNotation.Chain
