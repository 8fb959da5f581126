import QueryNotation.Options
import QueryNotation.Request.Address
import QueryNotation.Request.Text
import QueryNotation.Rest.Writer
import QueryNotation.SelectList

namespace QueryNotation.Rest

/-! # Reading requests

The select list is read first, so that the parameters of embeds find the embed
they address wherever they stand.  A parameter whose name is reserved is a filter
on a column of that name when its value reads as a filter and not as the
parameter itself.
-/

open Text

/-- What the request line asks for. -/
structure Target where
  operation : Operation
  table : String
  head : Bool
deriving DecidableEq, Repr

/-- The decoded segments of a path, empty ones left out. -/
def segments (path : List Char) : List String :=
  (words (· == '/') path).map fun segment =>
    String.ofList (decodeUtf8 (percentDecode (encodeUtf8 segment)))

/-- The part of the path that names a table or a function. -/
def localPath (path : String) : Outcome (List Char) := do
  let path := trim path.toList
  let path ←
    if Address.isAbsolute path then
      (Address.path path).mapError fun fault => .invalidUrl fault.message (String.ofList path)
    else pure path
  return (dropLead? "/rest/v1".toList path).getD path

def functionTarget (method name : String) (request : RawRequest) : Outcome Target :=
  if method = "GET" ∨ method = "POST" then .ok ⟨.call, name, false⟩
  else if method = "HEAD" then .ok ⟨.call, name, true⟩
  else .error (.unsupportedMethod request.method)

def tableTarget (method table : String) (request : RawRequest) : Outcome Target :=
  match Method.ofWord? method with
  | some .head => .ok ⟨.select, table, true⟩
  | some .get => .ok ⟨.select, table, false⟩
  | some .post => .ok ⟨.insert, table, false⟩
  | some .patch => .ok ⟨.update, table, false⟩
  | some .delete => .ok ⟨.delete, table, false⟩
  | some .put | none => .error (.unsupportedMethod request.method)

def target (request : RawRequest) : Outcome Target := do
  let path ← localPath request.path
  let method := (String.ofList (trim request.method.toList)).toUpper
  match segments path with
  | [] => .error (.pathWithoutTable request.path)
  -- Further segments behind the name of a function do no harm.
  | "rpc" :: rest =>
    match rest with
    | [] => .error (.pathWithoutTable request.path)
    | name :: _ => functionTarget method name request
  | [table] => tableTarget method table request
  | table :: _ => .error (.furtherSegments table request.path)

def isLogicKey (key : String) : Bool :=
  ["or", "and", "not.or", "not.and"].contains key

def readCount (key value : String) : Outcome UInt64 :=
  match unsigned? (trim value.toList) with
  | some count => .ok count
  | none => .error (.notCount key value)

/-- True when a value reads as the reserved parameter itself; nothing for a key
that is not reserved. -/
def readsAsParameter? (bound : Nat) (key value : String) : Option Bool :=
  match key with
  | "limit" | "offset" => some (unsigned? (trim value.toList)).isSome
  | "order" => some (readOrder bound value).toBool
  | "select" | "on_conflict" | "columns" => some false
  | _ => none

/-- A filter on a column that is named like a reserved parameter. -/
def reservedFilter? (bound : Nat) (key value : String) : Option Filter :=
  match readsAsParameter? bound key value with
  | some false => (readFilter key value).toOption
  | _ => none

def splitPath? (key : String) : Option (String × String) :=
  (cutLast '.' key.toList).map fun (path, rest) => (String.ofList path, String.ofList rest)

def embedPath? (embeds : List Embed) (key : String) : Option (String × String) :=
  (splitPath? key).filter fun (path, _) => (Embed.at? (Embed.pathNames path) embeds).isSome

def changeEmbed (path : String) (change : Embed → Embed) (parsed : Parsed) : Parsed :=
  match Embed.updateAt? change (Embed.pathNames path) parsed.query.embeds with
  | some embeds => { parsed with query := { parsed.query with embeds } }
  | none => parsed

/-- Apply a parameter that addresses an embed: its order, its limit or a filter. -/
def applyEmbedParam (bound : Nat) (key path rest value : String) (parsed : Parsed) :
    Outcome Parsed := do
  if rest = "order" then
    let items ← readOrder bound value
    return changeEmbed path (fun embed => { embed with order := embed.order ++ items }) parsed
  else if rest = "limit" then
    let limit ← readCount key value
    return changeEmbed path (fun embed => { embed with limit := some limit }) parsed
  else if rest = "offset" then
    return parsed.warn (key ++ "=" ++ value ++ " ignored: embed offsets are not supported")
  else if isLogicKey rest then throw (.orParameter key value)
  else
    let filter ← readFilter rest value
    let withFilter (embed : Embed) := { embed with filters := embed.filters ++ [filter] }
    return changeEmbed path withFilter parsed

def addFilter (filter : Filter) (parsed : Parsed) : Parsed :=
  { parsed with query := { parsed.query with filters := parsed.query.filters ++ [filter] } }

/-- Apply a parameter that is not a filter on a reserved name. -/
def applyPlainParam (bound : Nat) (key value : String) (parsed : Parsed) : Outcome Parsed := do
  let query := parsed.query
  match key with
  | "select" | "columns" => return parsed
  | "order" =>
    let items ← readOrder bound value
    return { parsed with query := { query with order := query.order ++ items } }
  | "limit" =>
    let limit ← readCount key value
    return { parsed with query := { query with limit := some limit } }
  | "offset" =>
    let offset ← readCount key value
    return { parsed with query := { query with offset := some offset } }
  | "on_conflict" => return { parsed with query := { query with onConflict := some value } }
  | _ =>
    if isLogicKey key then throw (.orParameter key value)
    else
      match embedPath? query.embeds key with
      | some (path, rest) => applyEmbedParam bound key path rest value parsed
      | none =>
        let filter ← readFilter key value
        return addFilter filter parsed

def applyParam (bound : Nat) (parsed : Parsed) (param : String × String) : Outcome Parsed :=
  match reservedFilter? bound param.1 param.2 with
  | some filter => .ok (addFilter filter parsed)
  | none => applyPlainParam bound param.1 param.2 parsed

/-- Apply one preference: what a mutation answers with, how rows are counted, and
what an upsert does with rows that are already there. -/
def applyPreference (isPost : Bool) (parsed : Parsed) (preference : List Char) : Parsed :=
  let (name, value) := (cutFirst '=' preference).getD (preference, [])
  let query := parsed.query
  let written := String.ofList preference
  let resolve (ignoring : Bool) : Parsed :=
    if isPost && query.operation = .insert then
      { parsed with query := { query with operation := .upsert, ignoreDuplicates := ignoring } }
    else parsed.warn ("Prefer: " ++ written ++ " ignored: only POST can upsert")
  match String.ofList (trim name), String.ofList (trim value) with
  | "resolution", "merge-duplicates" => resolve false
  | "resolution", "ignore-duplicates" => resolve true
  | "count", word =>
    match CountMode.ofWord? word with
    | some mode => { parsed with query := { query with count := some mode } }
    | none => parsed.warn ("unknown count mode '" ++ word ++ "'")
  | "return", "representation" => { parsed with query := { query with returning := true } }
  | "return", "minimal" | "return", "headers-only" | "missing", _ | "tx", _ => parsed
  | _, _ => parsed.warn ("Prefer: " ++ written ++ " ignored")

def preferencesIn (header : String) : List (List Char) :=
  ((pieces (· == ',') header.toList).map trim).filter (!·.isEmpty)

def readRange (text : String) : Outcome RowRange :=
  let bounds := (cutFirst '-' text.toList).bind fun (first, last) => do
    let first ← unsigned? (trim first)
    let last ← unsigned? (trim last)
    return (first, last)
  match bounds with
  | some (first, last) => if first ≤ last then .ok (first, last) else .error (.invalidRange text)
  | none => .error (.invalidRange text)

/-- True when a text stands somewhere in another. -/
def occursIn (part text : String) : Bool :=
  (cutAtText part.toList text.toList).isSome

/-- Apply the wish for a single object.  A GET cannot ask for the rows it changed, so
together with that preference it means one row or none. -/
def applySingle (isGet : Bool) (parsed : Parsed) : Parsed :=
  let query := parsed.query
  if isGet && query.returning then
    { parsed with query := { query with returning := false, single := some .maybeOne } }
  else { parsed with query := { query with single := some .one } }

def applyHeaders (request : RawRequest) (parsed : Parsed) : Outcome Parsed := do
  let isPost := request.method.toUpper = "POST"
  let isGet := request.method.toUpper = "GET"
  let parsed := match request.header? "Prefer" with
    | some header => (preferencesIn header).foldl (applyPreference isPost) parsed
    | none => parsed
  let parsed ← match request.header? "Range" with
    | some text => do
      let range ← readRange text
      pure { parsed with query := { parsed.query with range := some range } }
    | none => pure parsed
  -- A single object means something else beside the preference for rows, so this header comes last.
  return match request.header? "Accept" with
    | some accept => if occursIn singleObject accept then applySingle isGet parsed else parsed
    | none => parsed

def readRows (items : List Json) : Outcome (List Json.Row) :=
  items.mapM fun
    | .object row => .ok row
    | other => .error (.itemNotObject other.text)

/-- The body that a JSON value is for an operation. -/
def readBody (operation : Operation) (json : Json) : Outcome Body :=
  match operation, json with
  | .call, .object params => .ok (.arguments params)
  | .call, other => .error (.argumentsNotObject other.text)
  | _, .object row => .ok (.single row)
  | _, .array items => (readRows items).map .bulk
  | _, other => .error (.bodyNotRows other.text)

def acceptsBody (operation : Operation) (isPost : Bool) : Bool :=
  match operation with
  | .insert | .upsert | .update => true
  | .call => isPost
  | .select | .delete => false

def applyBody (request : RawRequest) (parsed : Parsed) : Outcome Parsed :=
  match request.body with
  | none => .ok parsed
  | some text =>
    let chars := text.toList
    if allBlank chars then .ok parsed
    else if !acceptsBody parsed.query.operation (request.method.toUpper = "POST") then
      .ok (parsed.warn ("request body ignored for " ++ request.method.toUpper))
    else
      match Json.read chars with
      | .error failure => .error (.notJson (failure.message chars) text)
      | .ok json => do
        let body ← readBody parsed.query.operation json
        return { parsed with query := { parsed.query with body := some body } }

/-- The size of a request in bytes, its headers not counted. -/
def sizeOf (request : RawRequest) : Nat :=
  request.path.utf8ByteSize + request.query.utf8ByteSize +
    match request.body with
    | some body => body.utf8ByteSize
    | none => 0

/-- The value of the first select list among the parameters. -/
def selectOf? (bound : Nat) (pairs : List (String × String)) : Option String :=
  (pairs.find? fun (key, value) => key = "select" && (reservedFilter? bound key value).isNone).map
    Prod.snd

/-- The query that the request line and the select list give. -/
def start (options : Options) (asked : Target) (pairs : List (String × String)) :
    Outcome Parsed := do
  let query : Query := { table := asked.table, operation := asked.operation, head := asked.head }
  match selectOf? options.maxDepth pairs with
  | some list =>
    let selection ← Selection.ofText options.maxDepth list
    return {
      query := { query with columns := selection.columns, embeds := selection.embeds }
      warnings := selection.warnings }
  | none =>
    return {
      query := if asked.operation = .select then { query with columns := [.star] } else query }

def read (options : Options) (request : RawRequest) : Outcome Parsed := do
  options.checkSize (sizeOf request)
  let asked ← target request
  let pairs := QueryString.decode request.query
  let parsed ← start options asked pairs
  let parsed ← pairs.foldlM (applyParam options.maxDepth) parsed
  let parsed ← applyHeaders request parsed
  applyBody request parsed

end QueryNotation.Rest
