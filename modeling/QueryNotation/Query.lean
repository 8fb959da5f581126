import QueryNotation.Embed

namespace QueryNotation

/-! # Queries

The one form that every notation is read into and written from.
-/

/-- What a query does. -/
inductive Operation where
  | select
  | insert
  | update
  /-- Insert, or merge into the row that is already there. -/
  | upsert
  | delete
  /-- Call a function of the database. -/
  | call
deriving DecidableEq, Repr, Inhabited

namespace Operation

def isMutation : Operation → Bool
  | .insert | .update | .upsert | .delete => true
  | .select | .call => false

def name : Operation → String
  | .select => "SELECT"
  | .insert => "INSERT"
  | .update => "UPDATE"
  | .upsert => "UPSERT"
  | .delete => "DELETE"
  | .call => "RPC"

end Operation

/-- How rows are counted. -/
inductive CountMode where
  | exact
  | planned
  | estimated
deriving DecidableEq, Repr, Inhabited

namespace CountMode

def word : CountMode → String
  | .exact => "exact"
  | .planned => "planned"
  | .estimated => "estimated"

def ofWord? (word : String) : Option CountMode :=
  [CountMode.exact, .planned, .estimated].find? fun mode => mode.word = word

end CountMode

/-- How many rows a single-object answer may have. -/
inductive SingleMode where
  /-- Exactly one. -/
  | one
  /-- One or none. -/
  | maybeOne
deriving DecidableEq, Repr, Inhabited

/-- What a query sends along. -/
inductive Body where
  | single (row : Json.Row)
  | bulk (rows : List Json.Row)
  /-- The arguments of a function call. -/
  | arguments (params : Json.Row)
deriving DecidableEq, Repr, Inhabited

namespace Body

/-- The JSON value of a body. -/
def toJson : Body → Json
  | .single row => .object row
  | .bulk rows => .array (rows.map Json.object)
  | .arguments params => .object params

def insertedRows : Body → List Json.Row
  | .single row => [row]
  | .bulk rows => rows
  | .arguments _ => []

def isEmpty : Body → Bool
  | .single row => row.isEmpty
  | .bulk rows => rows.all List.isEmpty
  | .arguments params => params.isEmpty

def columnNames (rows : List Json.Row) : List String :=
  (rows.flatMap Json.Row.keys).foldl
    (fun names name => if names.contains name then names else names ++ [name]) []

end Body

/-- The rows from the first to the second number, both included. -/
abbrev RowRange := UInt64 × UInt64

/-- A query. -/
structure Query where
  /-- The table, or the name of the function to call. -/
  table : String
  operation : Operation
  columns : List Column := []
  filters : List Filter := []
  order : List OrderItem := []
  limit : Option UInt64 := none
  offset : Option UInt64 := none
  range : Option RowRange := none
  body : Option Body := none
  embeds : List Embed := []
  count : Option CountMode := none
  /-- No rows are wanted, only their number. -/
  head : Bool := false
  single : Option SingleMode := none
  /-- The columns on which an upsert may collide, separated by commas. -/
  onConflict : Option String := none
  ignoreDuplicates : Bool := false
  /-- A mutation answers with the rows it changed. -/
  returning : Bool := false
deriving Repr, Inhabited

namespace Query

/-- True when the list of columns is empty or only `*`. -/
def selectsAll (query : Query) : Bool :=
  match query.columns with
  | [] => true
  | [column] => column.isStar
  | _ => false

def selectList (query : Query) : String :=
  String.intercalate "," (query.columns.map Column.text ++ Embed.selectItems query.embeds)

end Query

/-- A query as it was read, with the warnings that arose on the way. -/
structure Parsed where
  query : Query
  warnings : List String := []
deriving Repr, Inhabited

def Parsed.warn (parsed : Parsed) (message : String) : Parsed :=
  { parsed with warnings := parsed.warnings ++ [message] }

end QueryNotation
