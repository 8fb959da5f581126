import QueryNotation.Chain.Call
import QueryNotation.Chain.Service
import QueryNotation.Options
import QueryNotation.SelectList

namespace QueryNotation.Chain

/-! # Reading chains

The first segment that names a table, a function or a service is the root.  The
calls behind it are folded into the query in order.
-/

open Text

/-- What a chain is. -/
inductive Reading where
  | query (parsed : Parsed)
  | service (call : ServiceCall)
deriving Repr, Inhabited

/-- Where a query starts. -/
inductive QueryRoot where
  | table (arguments : List Json)
  | function (arguments : List Json)
deriving DecidableEq, Repr

/-- The services that have no query form. -/
inductive Service where
  | auth
  | storage
deriving DecidableEq, Repr

/-- Where a chain starts. -/
inductive Root where
  | query (root : QueryRoot)
  | service (service : Service)
deriving DecidableEq, Repr

/-- The root that a segment is, if it is one. -/
def rootOf? : Segment → Option Root
  | .call "from" arguments => some (.query (.table arguments))
  | .call "rpc" arguments => some (.query (.function arguments))
  | .property "auth" => some (.service .auth)
  | .property "storage" => some (.service .storage)
  | _ => none

/-- The segments before the root, the root, and the segments behind it. -/
def splitRoot : List Segment → Option (List Segment × Root × List Segment)
  | [] => none
  | segment :: rest =>
    match rootOf? segment with
    | some root => some ([], root, rest)
    | none =>
      (splitRoot rest).map fun (before, root, behind) => (segment :: before, root, behind)

def startQuery (root : QueryRoot) : Outcome Query :=
  match root with
  | .function values => do
    let arguments : Arguments := { method := "rpc", values }
    let name ← arguments.string 0
    let params ← match arguments.get? 1 with
      | some (.object fields) => pure fields
      | some other => arguments.wrong 1 "an object of parameters" other
      | none => pure []
    return {
      table := name
      operation := .call
      body := some (.arguments params)
      head := (arguments.boolOption? 2 "head").getD false
      count := (arguments.stringOption? 2 "count").bind CountMode.ofWord? }
  | .table values => do
    let arguments : Arguments := { method := "from", values }
    let name ← arguments.string 0
    return { table := name, operation := .select }

/-- Change the first embed with a name, if there is one. -/
def changeEmbed? (name : String) (change : Embed → Embed) (parsed : Parsed) : Option Parsed :=
  (Embed.updateFirst? (·.name = name) (fun embed => some (change embed)) parsed.query.embeds).map
    fun embeds => { parsed with query := { parsed.query with embeds } }

/-- Add a filter: to an embed if its column begins with the embed's name and a
point, else to the main table. -/
def routeFilter (parsed : Parsed) (filter : Filter) : Parsed :=
  let routed := (cutFirst '.' filter.column.toList).bind fun (name, column) =>
    let own := { filter with column := String.ofList column }
    changeEmbed? (String.ofList name)
      (fun embed => { embed with filters := embed.filters ++ [own] }) parsed
  routed.getD
    { parsed with query := { parsed.query with filters := parsed.query.filters ++ [filter] } }

/-- Set the operation.  A mutation or function call that was set before is lost. -/
def setOperation (operation : Operation) (parsed : Parsed) : Parsed :=
  let current := parsed.query.operation
  let warned :=
    if current.isMutation || current = .call then
      parsed.warn (operation.name ++ " replaces the earlier " ++ current.name)
    else parsed
  { warned with query := { warned.query with operation } }

def setBody (operation : Operation) (body : Body) (parsed : Parsed) : Parsed :=
  let changed := setOperation operation parsed
  { changed with query := { changed.query with body := some body } }

/-- Apply a `select` call: its list and its options. -/
def applySelect (bound : Nat) (columns : String) (count : Option CountMode) (head : Bool)
    (parsed : Parsed) : Outcome Parsed := do
  let selection ← Selection.ofText bound columns
  let query := parsed.query
  return {
    query := { query with
      columns := selection.columns
      embeds := selection.embeds
      returning := query.returning || query.operation.isMutation
      count := count.or query.count
      head := query.head || head }
    warnings := parsed.warnings ++ selection.warnings }

/-- Apply an `order` call. -/
def applyOrder (item : OrderItem) (table : Option String) (parsed : Parsed) : Parsed :=
  match table with
  | none => { parsed with query := { parsed.query with order := parsed.query.order ++ [item] } }
  | some name =>
    (changeEmbed? name (fun embed => { embed with order := embed.order ++ [item] }) parsed).getD
      (parsed.warn ("order on '" ++ name ++ "' ignored: no such embed"))

/-- Apply a `limit` call. -/
def applyLimit (count : UInt64) (table : Option String) (parsed : Parsed) : Parsed :=
  match table with
  | none => { parsed with query := { parsed.query with limit := some count } }
  | some name =>
    (changeEmbed? name (fun embed => { embed with limit := some count }) parsed).getD
      (parsed.warn ("limit on '" ++ name ++ "' ignored: no such embed"))

/-- Apply a `range` call. -/
def applyRange (first last : UInt64) (table : Option String) (parsed : Parsed) : Outcome Parsed :=
  if last < first then .error (.backwardRange first last)
  else
    match table with
    | some name => .ok (parsed.warn ("range on embed '" ++ name ++ "' ignored"))
    | none => .ok { parsed with query := { parsed.query with range := some (first, last) } }

def applyCall (options : Options) (parsed : Parsed) (call : Call) : Outcome Parsed :=
  match call with
  | .select columns count head => applySelect options.maxDepth columns count head parsed
  | .filter filter => .ok (routeFilter parsed filter)
  | .equal row =>
    .ok (row.foldl
      (fun parsed (column, value) =>
        routeFilter parsed { column, op := .eq, value := Value.ofJson value })
      parsed)
  | .order column ascending nullsFirst table =>
    let nulls := nullsFirst.map fun first => if first then NullsOrder.first else .last
    .ok (applyOrder { column, descending := !ascending, nulls } table parsed)
  | .limit count table => .ok (applyLimit count table parsed)
  | .range first last table => applyRange first last table parsed
  | .single => .ok { parsed with query := { parsed.query with single := some .one } }
  | .maybeSingle => .ok { parsed with query := { parsed.query with single := some .maybeOne } }
  | .insert body => .ok (setBody .insert body parsed)
  | .upsert body onConflict ignoreDuplicates =>
    let changed := setBody .upsert body parsed
    .ok { changed with query := { changed.query with onConflict, ignoreDuplicates } }
  | .update row => .ok (setBody .update (.single row) parsed)
  | .delete => .ok (setOperation .delete parsed)
  | .unknown name =>
    if options.strictMethods then .error (.unknownMethod name)
    else .ok (parsed.warn ("ignored unknown method '" ++ name ++ "'"))

/-- Fold one segment behind the root into the query. -/
def applySegment (options : Options) (parsed : Parsed) (segment : Segment) : Outcome Parsed :=
  match segment with
  | .property name => .ok (parsed.warn ("ignored property '" ++ name ++ "'"))
  | .call name arguments => do
    let call ← Call.classify name arguments
    applyCall options parsed call

def leadingWarning? : Segment → Option String
  | .call name _ => some ("ignored " ++ name ++ "() before the query root")
  | .property _ => none

/-- A select that names nothing asks for all columns. -/
def finish (parsed : Parsed) : Parsed :=
  let query := parsed.query
  if query.operation = .select && query.columns.isEmpty && query.embeds.isEmpty then
    { parsed with query := { query with columns := [.star] } }
  else parsed

def foldChain (options : Options) (before : List Segment) (root : QueryRoot)
    (behind : List Segment) : Outcome Parsed := do
  let query ← startQuery root
  let parsed ← behind.foldlM (applySegment options)
    { query, warnings := before.filterMap leadingWarning? }
  return finish parsed

def read (options : Options) (text : String) : Outcome Reading := do
  options.checkSize text.utf8ByteSize
  let chain := normalize text.toList
  let found ← segments options.maxDepth chain
  match splitRoot found with
  | none => throw (.noChainRoot (String.ofList chain))
  | some (_, .service .auth, behind) => return .service (← ServiceCall.ofAuth behind)
  | some (_, .service .storage, behind) => return .service (← ServiceCall.ofStorage behind)
  | some (before, .query root, behind) => return .query (← foldChain options before root behind)

def readQuery (options : Options) (text : String) : Outcome Parsed := do
  match ← read options text with
  | .query parsed => return parsed
  | .service call => throw (.serviceOnly call.description call.request.url)

end QueryNotation.Chain
