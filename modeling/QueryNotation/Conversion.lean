import QueryNotation.Chain.Reader
import QueryNotation.Chain.Writer
import QueryNotation.Rest.Reader
import QueryNotation.Sql.Reader
import QueryNotation.Sql.Writer
import QueryNotation.Validation

namespace QueryNotation

/-! # Conversions

A conversion reads a text into a query, checks the query for the target and writes
it there.  The warnings of all steps are kept in order.  Calls of services have no
query; they become the request itself.
-/

/-- The result of a conversion. -/
structure Conversion where
  /-- The converted text, or what a call does that only exists as a request. -/
  output : String
  warnings : List String := []
  /-- Facts that the text cannot carry. -/
  metadata : Metadata := []
  /-- The request, where one was written. -/
  request : Option Request := none
  /-- The input has no form but a request. -/
  requestOnly : Bool := false
deriving DecidableEq, Repr, Inhabited

namespace Conversion

def baseFacts (query : Query) : Metadata :=
  (Metadata.insert "table" query.table []).insert "operation" query.operation.name.toLower

/-- Write a query in SQL. -/
def toSql (options : Options) (parsed : Parsed) : Outcome Conversion := do
  let written ← Sql.write (.ofOptions options) parsed.query
  return {
    output := written.text
    warnings := parsed.warnings ++ written.warnings
    metadata := (baseFacts parsed.query).insertAll written.metadata }

/-- Write a query as a request.  A function call is described and not shown. -/
def toRest (parsed : Parsed) : Conversion :=
  let written := Rest.write parsed.query
  let isCall := parsed.query.operation = .call
  { output := if isCall then "Call database function '" ++ parsed.query.table ++ "'"
      else written.request.text
    warnings := parsed.warnings ++ written.warnings
    metadata := baseFacts parsed.query
    request := some written.request
    requestOnly := isCall }

/-- Write a query as a client chain. -/
def toChain (options : Options) (parsed : Parsed) : Outcome Conversion := do
  let written ← Chain.write options.clientName parsed.query
  return {
    output := written.code
    warnings := parsed.warnings ++ written.warnings
    metadata := baseFacts parsed.query }

/-- Check a query and write it in the target notation. -/
def ofParsed (options : Options) (target : Form) (parsed : Parsed) : Outcome Conversion := do
  parsed.query.validate target
  match target with
  | .sql => toSql options parsed
  | .rest => return toRest parsed
  | .chain => toChain options parsed

def ofService (call : Chain.ServiceCall) : Conversion where
  output := call.description
  warnings := call.warnings
  metadata := (Metadata.insert "path" call.request.path []).insert "method" call.request.method.word
  request := some call.request
  requestOnly := true

/-- Convert a request that is already taken apart. -/
def ofRequest (options : Options) (target : Form) (request : RawRequest) : Outcome Conversion := do
  ofParsed options target (← Rest.read options request)

end Conversion

def convert (options : Options) (source target : Form) (text : String) : Outcome Conversion := do
  match source with
  | .sql => Conversion.ofParsed options target (← Sql.read options text)
  | .rest => Conversion.ofRequest options target (← RawRequest.ofText text)
  | .chain =>
    -- Calls of services have a form as requests only.
    if target = .rest then
      match ← Chain.read options text with
      | .query parsed => Conversion.ofParsed options target parsed
      | .service call => return .ofService call
    else Conversion.ofParsed options target (← Chain.readQuery options text)

end QueryNotation
