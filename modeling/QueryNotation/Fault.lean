import QueryNotation.Query
import QueryNotation.Text.Bracket

namespace QueryNotation

/-! # Faults

Why a query cannot be read, written or accepted.  Each fault is a cause with the
facts of it; its kind, code, message, fragment and hint are worded here and
nowhere else.
-/

/-- The first eighty characters of a text, for a message. -/
def excerpt (text : String) : String :=
  if (text.toList.drop 80).isEmpty then text
  else String.ofList (text.toList.take 80) ++ "..."

/-- What of SQL has no form in the other notations. -/
inductive SqlLimit where
  | severalStatements
  | otherStatement
  | commonTable
  | notPlainSelect
  | commaTables
  | distinct
  | grouping
  | windowDefinition
  | notPlainTable
  | joinKind
  | unknownQualifier
  | windowFunction
  | outputFunction
  | columnReference
  | notColumn
  | conditionSubquery
  | condition
  | anyPattern
  | searchFunctionMissing
  | unknownSearchFunction
  | searchArgument
  | searchArity
  | namedArgument
  | bindParameter
  | negatedText
  | comparedColumns
  | valueSubquery
  | notLiteral
  | insertSource
  | insertColumns
  | otherConflictClause
  | conflictConstraint
  /-- An upsert assigns something else than the inserted value to the column. -/
  | notExcluded (column : String)
  | updateJoin
  | tupleAssignment
  | severalDeleteTables
deriving DecidableEq, Repr

def SqlLimit.message : SqlLimit → String
  | .severalStatements => "only one statement can be converted at a time"
  | .otherStatement => "only SELECT, INSERT, UPDATE and DELETE can be converted"
  | .commonTable => "common table expressions (WITH) are not supported"
  | .notPlainSelect => "only a plain SELECT is supported, not UNION, VALUES or nested queries"
  | .commaTables => "comma-separated FROM tables are not supported"
  | .distinct => "DISTINCT is not supported"
  | .grouping => "GROUP BY and HAVING are not supported"
  | .windowDefinition => "window definitions are not supported"
  | .notPlainTable => "only plain table names are supported, not subqueries or table functions"
  | .joinKind => "only INNER and LEFT joins can become embeds"
  | .unknownQualifier => "column is qualified with a table that is not in FROM or JOIN"
  | .windowFunction => "window functions are not supported"
  | .outputFunction => "functions and aggregates in the select list are not supported"
  | .columnReference => "unexpected column reference"
  | .notColumn => "expected a column name"
  | .conditionSubquery => "subqueries are not supported"
  | .condition => "unsupported condition"
  | .anyPattern => "LIKE ANY is not supported"
  | .searchFunctionMissing => "@@ needs a text-search function on the right"
  | .unknownSearchFunction => "unknown text-search function"
  | .searchArgument => "text-search arguments must be string literals"
  | .searchArity => "text-search functions take one or two arguments"
  | .namedArgument => "only positional function arguments are supported"
  | .bindParameter => "bind parameters cannot be converted"
  | .negatedText => "only numbers can be negated"
  | .comparedColumns => "comparing two columns is not supported"
  | .valueSubquery => "subqueries are not supported"
  | .notLiteral => "expected a literal value"
  | .insertSource => "only INSERT ... VALUES is supported"
  | .insertColumns => "INSERT needs an explicit column list"
  | .otherConflictClause => "only ON CONFLICT is supported"
  | .conflictConstraint => "ON CONFLICT ON CONSTRAINT is not supported"
  | .notExcluded _ => "ON CONFLICT DO UPDATE may only assign EXCLUDED values"
  | .updateJoin => "UPDATE with joins is not supported"
  | .tupleAssignment => "tuple assignments are not supported"
  | .severalDeleteTables => "DELETE from several tables is not supported"

def SqlLimit.hint : SqlLimit → String
  | .severalStatements => "split the script and convert each statement on its own"
  | .commaTables => "use JOIN so the second table becomes an embed"
  | .grouping =>
    "aggregate on the client, or expose the query as a function and call it over RPC"
  | .joinKind => "rewrite the join as JOIN or LEFT JOIN"
  | .outputFunction =>
    "select plain columns, or expose the computation as a function and call it over RPC"
  | .notColumn => "conditions must compare a column with a literal value"
  | .conditionSubquery => "use JOIN so the related table becomes an embed"
  | .searchFunctionMissing => "write col @@ to_tsquery('english', 'words')"
  | .unknownSearchFunction =>
    "use to_tsquery, plainto_tsquery, phraseto_tsquery or websearch_to_tsquery"
  | .bindParameter => "inline the literal value"
  | .comparedColumns => "string values need single quotes"
  | .insertColumns => "write INSERT INTO t (a, b) VALUES (...)"
  | .conflictConstraint => "name the conflict columns instead"
  | .notExcluded column =>
    "write " ++ column ++ " = EXCLUDED." ++ column ++ "; upserts merge the inserted row"
  | _ => ""

/-- Why a query is refused. -/
inductive Fault where
  | inputTooLarge (size limit : Nat)
  | nestingTooDeep (bound : Nat) (text : String)
  | unbalanced (text : String)
  | statementTooDeep (text : String)
  | notSql (text : String)
  | noStatement (text : String)
  | sqlLimit (limit : SqlLimit) (text : String)
  | unknownSymbol (symbol : String)
  | brokenCast (cast column : String)
  | noChainRoot (text : String)
  | noServiceCall (service : String)
  | brokenChain (rest : String)
  | missingArgument (method : String) (index : Nat)
  | wrongArgument (method : String) (index : Nat) (expected found : String)
  | unknownCountMode (word : String)
  | backwardRange (first last : UInt64)
  | unknownMethod (name : String)
  | patternMethod (name : String)
  | serviceMethod (service name : String)
  | serviceOnly (description url : String)
  | notJson (reason text : String)
  | argumentsNotObject (found : String)
  | itemNotObject (found : String)
  | bodyNotRows (found : String)
  | argumentNotRows (method found : String)
  | noRequestLine (line : String)
  | invalidUrl (reason url : String)
  | furtherSegments (table path : String)
  | unsupportedMethod (method : String)
  | notCount (key value : String)
  | invalidRange (text : String)
  | notCountLiteral (clause text : String)
  | rangeTooLong (first last : UInt64)
  | noOperator (column text : String)
  | openConfig (column text : String)
  | needlessConfig (tag column text : String)
  | unknownOperator (tag fragment : String)
  | invalidOrderItem (item : String)
  | orParameter (key value : String)
  | orFilter (column : String)
  | orCondition (column : String)
  | orExpression (text : String)
  | pathWithoutTable (path : String)
  | queryWithoutTable
  | selectWithoutTable (text : String)
  | deleteWithoutTable
  | deleteWithoutFilter (table : String)
  | emptyBody (operation : Operation) (table : String)
  | insertWithoutRows (table : String)
  | bodyShape (operation : Operation) (table : String)
  | rowLength (row values columns : Nat) (text : String)
  | nestedEmbed (name item : String)
  /-- A function call has no statement; found before a statement is built. -/
  | callRefused (name : String)
  /-- A function call has no statement; found while a statement is built. -/
  | callWithoutStatement (name : String)
deriving DecidableEq, Repr

/-- The three kinds of fault. -/
inductive FaultKind where
  /-- The text is not well formed. -/
  | malformed
  /-- The text is well formed but means nothing. -/
  | meaningless
  /-- The text means something that is left out on purpose. -/
  | unsupported
deriving DecidableEq, Repr

def FaultKind.word : FaultKind → String
  | .malformed => "Syntax"
  | .meaningless => "Semantic"
  | .unsupported => "Unsupported"

namespace Fault

def ofNesting (bound : Nat) (text : List Char) : Text.NestingFault → Fault
  | .tooDeep => .nestingTooDeep bound (String.ofList text)
  | .unbalanced => .unbalanced (String.ofList text)

def kind : Fault → FaultKind
  | .pathWithoutTable _ | .queryWithoutTable | .selectWithoutTable _ | .deleteWithoutTable
  | .deleteWithoutFilter _ | .emptyBody .. | .insertWithoutRows _ | .bodyShape ..
  | .rowLength .. => .meaningless
  | .sqlLimit .. | .unknownSymbol _ | .unknownMethod _ | .patternMethod _ | .serviceMethod ..
  | .serviceOnly .. | .unsupportedMethod _ | .unknownOperator .. | .orParameter .. | .orFilter _
  | .orCondition _ | .orExpression _ | .nestedEmbed .. | .callRefused _
  | .callWithoutStatement _ => .unsupported
  | _ => .malformed

/-- The stable code that callers may match on. -/
def code : Fault → String
  | .inputTooLarge .. => "INPUT_TOO_LARGE"
  | .nestingTooDeep .. | .statementTooDeep _ => "NESTING_TOO_DEEP"
  | .unbalanced _ => "UNBALANCED_INPUT"
  | .notSql _ | .noStatement _ => "SQL_PARSE"
  | .sqlLimit .. => "SQL_UNSUPPORTED"
  | .unknownSymbol _ | .unknownOperator .. => "UNKNOWN_OPERATOR"
  | .brokenCast .. => "INVALID_COLUMN"
  | .noChainRoot _ | .noServiceCall _ => "DSL_NO_ROOT"
  | .brokenChain _ => "DSL_SYNTAX"
  | .missingArgument .. | .wrongArgument .. | .unknownCountMode _ | .backwardRange .. =>
    "INVALID_ARGUMENT"
  | .unknownMethod _ => "DSL_UNKNOWN_METHOD"
  | .patternMethod _ | .serviceMethod .. | .serviceOnly .. | .callRefused _
  | .callWithoutStatement _ => "UNSUPPORTED_OPERATION"
  | .notJson .. => "INVALID_BODY"
  | .argumentsNotObject _ | .itemNotObject _ | .bodyNotRows _ | .argumentNotRows .. | .bodyShape ..
  | .rowLength .. => "INVALID_BODY_SHAPE"
  | .noRequestLine _ | .invalidUrl .. | .furtherSegments .. => "INVALID_REQUEST"
  | .unsupportedMethod _ => "UNSUPPORTED_METHOD"
  | .notCount .. | .invalidRange _ | .notCountLiteral .. | .rangeTooLong .. => "INVALID_INTEGER"
  | .noOperator .. | .openConfig .. | .needlessConfig .. => "INVALID_FILTER"
  | .invalidOrderItem _ => "INVALID_ORDER"
  | .orParameter .. | .orFilter _ | .orCondition _ | .orExpression _ => "OR_UNSUPPORTED"
  | .pathWithoutTable _ | .queryWithoutTable | .selectWithoutTable _ | .deleteWithoutTable =>
    "NO_TABLE"
  | .deleteWithoutFilter _ => "DELETE_NO_WHERE"
  | .emptyBody .. | .insertWithoutRows _ => "EMPTY_BODY"
  | .nestedEmbed .. => "EMBED_TOO_DEEP"

/-- What went wrong, without kind and code. -/
def detail : Fault → String
  | .inputTooLarge size limit =>
    "input is " ++ toString size ++ " bytes, the limit is " ++ toString limit
  | .nestingTooDeep bound _ => "brackets nest deeper than " ++ toString bound
  | .unbalanced _ => "unbalanced brackets or unterminated string"
  | .statementTooDeep _ => "SQL statement is nested too deeply"
  | .notSql _ => "sql parser error"
  | .noStatement _ => "no SQL statement found"
  | .sqlLimit limit _ => limit.message
  | .unknownSymbol symbol => "SQL operator '" ++ symbol ++ "' has no filter equivalent"
  | .brokenCast cast _ => "'" ++ cast ++ "' is not a type name"
  | .noChainRoot _ => "no recognized query root"
  | .noServiceCall service => service ++ " is not followed by a method call"
  | .brokenChain rest =>
    match rest.toList with
    | c :: _ => "unexpected '" ++ c.toString ++ "' in method chain"
    | [] => "method chain ends with '.'"
  | .missingArgument method index =>
    method ++ "() expects at least " ++ toString (index + 1) ++ " argument(s)"
  | .wrongArgument method index expected _ =>
    "argument " ++ toString (index + 1) ++ " of " ++ method ++ "() must be " ++ expected
  | .unknownCountMode word => "unknown count mode '" ++ word ++ "'"
  | .backwardRange first last =>
    "range(" ++ toString first ++ ", " ++ toString last ++ ") ends before it starts"
  | .unknownMethod name => "unknown method '" ++ name ++ "'"
  | .patternMethod name => name ++ "() has no single-filter equivalent"
  | .serviceMethod service name => service ++ "." ++ name ++ " is not supported"
  | .serviceOnly description _ =>
    "'" ++ description ++ "' is an HTTP-only call with no query form"
  | .notJson reason _ => "body is not valid JSON: " ++ reason
  | .argumentsNotObject _ => "RPC parameters must be one object"
  | .itemNotObject _ => "every array item must be an object"
  | .bodyNotRows _ => "body must be an object or an array of objects"
  | .argumentNotRows method _ => method ++ "() expects an object or an array of objects"
  | .noRequestLine _ => "expected `<METHOD> <path>`"
  | .invalidUrl reason _ => "invalid URL: " ++ reason
  | .furtherSegments table _ => "unexpected path segments after '" ++ table ++ "'"
  | .unsupportedMethod method => "HTTP method '" ++ method ++ "' is not supported"
  | .notCount key _ => key ++ " must be a non-negative integer"
  | .invalidRange _ => "Range must be <from>-<to>"
  | .notCountLiteral clause _ => clause ++ " must be a non-negative integer literal"
  | .rangeTooLong .. => "range spans more rows than a LIMIT can hold"
  | .noOperator .. => "filter has no operator"
  | .openConfig .. => "unclosed operator configuration"
  | .needlessConfig tag .. => "'" ++ tag ++ "' does not take a configuration"
  | .unknownOperator tag _ => "unknown operator '" ++ tag ++ "'"
  | .invalidOrderItem _ => "invalid order item"
  | .orParameter .. => "logical filter groups are not supported"
  | .orFilter _ => "OR filter groups are not supported"
  | .orCondition _ | .orExpression _ => "OR conditions are not supported"
  | .pathWithoutTable _ => "request path names no table"
  | .queryWithoutTable => "query names no table"
  | .selectWithoutTable _ => "SELECT has no FROM table"
  | .deleteWithoutTable => "DELETE names no table"
  | .deleteWithoutFilter table => "DELETE on '" ++ table ++ "' has no filter"
  | .emptyBody operation _ => operation.name ++ " has no body"
  | .insertWithoutRows _ => "INSERT has no VALUES"
  | .bodyShape .update _ => "UPDATE: UPDATE takes exactly one object"
  | .bodyShape operation _ =>
    operation.name ++ ": rows must be an object or an array of objects"
  | .rowLength row values columns _ =>
    "row " ++ toString row ++ " has " ++ toString values ++ " values for " ++ toString columns ++
      " columns"
  | .nestedEmbed name _ =>
    "embed '" ++ name ++ "' nests further embeds, which SQL output cannot express"
  | .callRefused name | .callWithoutStatement name =>
    "RPC call '" ++ name ++ "' has no SQL statement form"

def message (fault : Fault) : String :=
  fault.kind.word ++ " error [" ++ fault.code ++ "]: " ++ fault.detail

/-- The part of the input that the fault lies in; empty when there is none. -/
def fragment : Fault → String
  | .inputTooLarge .. | .queryWithoutTable | .deleteWithoutTable => ""
  | .nestingTooDeep _ text | .unbalanced text | .statementTooDeep text | .notSql text
  | .noStatement text | .sqlLimit _ text | .noChainRoot text | .brokenChain text | .notJson _ text
  | .argumentsNotObject text | .itemNotObject text | .bodyNotRows text | .orExpression text
  | .selectWithoutTable text | .rowLength _ _ _ text => excerpt text
  | .unknownSymbol symbol => symbol
  | .brokenCast _ column => column
  | .noServiceCall service => service
  | .missingArgument method _ => method ++ "(...)"
  | .wrongArgument _ _ _ found | .argumentNotRows _ found => found
  | .unknownCountMode word => word
  | .backwardRange first last => "range(" ++ toString first ++ ", " ++ toString last ++ ")"
  | .unknownMethod name | .patternMethod name => name ++ "(...)"
  | .serviceMethod service name => service ++ "." ++ name
  | .serviceOnly _ url | .invalidUrl _ url => url
  | .noRequestLine line => line
  | .furtherSegments _ path | .pathWithoutTable path => path
  | .unsupportedMethod method => method
  | .notCount key value | .orParameter key value => key ++ "=" ++ value
  | .invalidRange text => "Range: " ++ text
  | .notCountLiteral _ text => text
  | .rangeTooLong first last => toString first ++ "-" ++ toString last
  | .noOperator column text | .openConfig column text | .needlessConfig _ column text =>
    column ++ "=" ++ text
  | .unknownOperator _ fragment => fragment
  | .invalidOrderItem item => item
  | .orFilter column | .orCondition column => column
  | .deleteWithoutFilter table | .emptyBody _ table | .insertWithoutRows table
  | .bodyShape _ table => table
  | .nestedEmbed _ item => item
  | .callRefused name | .callWithoutStatement name => name

/-- How to mend the input; empty when there is nothing to say. -/
def hint : Fault → String
  | .inputTooLarge .. => "raise `max_input_len` in the config if this is expected"
  | .nestingTooDeep .. => "raise `max_depth` in the config if this is expected"
  | .sqlLimit limit _ => limit.hint
  | .brokenCast .. => "casts take a type such as text, int4, numeric(10,2) or text[]"
  | .noChainRoot _ => "start the chain with .from('<table>'), .rpc('<fn>'), .auth or .storage"
  | .unknownCountMode _ => "use 'exact', 'planned' or 'estimated'"
  | .unknownMethod _ => "disable strict_methods to ignore unknown methods"
  | .serviceOnly .. => "convert auth and storage calls to rest"
  | .noRequestLine _ => "e.g. `GET /users?age=gte.18`"
  | .unsupportedMethod _ => "use GET, POST, PATCH or DELETE"
  | .noOperator column text => "write " ++ column ++ "=eq." ++ text
  | .unknownOperator tag _ =>
    match Operator.closestTag? tag with
    | some closest => "did you mean '" ++ closest ++ "'?"
    | none => "supported tags: eq, neq, gt, gte, lt, lte, like, ilike, is, in, cs, cd, fts, ..."
  | .invalidOrderItem _ => "use column[.asc|.desc][.nullsfirst|.nullslast]"
  | .orParameter .. => "split the request, or express the condition with in.(...)"
  | .orFilter _ => "split the query, or express the condition with in()"
  | .orCondition _ => "split the query, or express the condition with in.(...)"
  | .orExpression _ => "split the query, or express the condition with IN (...)"
  | .pathWithoutTable _ => "use a path such as /users"
  | .queryWithoutTable =>
    "the first path segment, FROM clause or from() call names the table"
  | .selectWithoutTable _ => "add FROM <table>"
  | .deleteWithoutTable => "add FROM <table>"
  | .deleteWithoutFilter _ => "add a filter such as id=eq.1; deleting every row is refused"
  | .emptyBody .update _ => "pass an object of column values"
  | .emptyBody .. => "pass an object or a non-empty array of objects"
  | .bodyShape .update _ => "send one object of column values; arrays are for inserts"
  | .bodyShape .. => "function parameters belong to rpc(), not to a table write"
  | .nestedEmbed .. => "flatten the select to one level of embeds"
  | .callRefused _ => "convert to rest instead: POST /rpc/<function>"
  | .callWithoutStatement _ => "convert to REST instead: POST /rpc/<function>"
  | _ => ""

end Fault

abbrev Outcome := Except Fault

end QueryNotation
