import QueryNotation.Json.Printer
import QueryNotation.Request.QueryString

namespace QueryNotation

/-! # HTTP requests

A request as it is built holds decoded parameters and a JSON body; a raw request
holds what is sent.  Header names are compared in any ASCII case.
-/

/-- The methods of a request. -/
inductive Method where
  | get
  | head
  | post
  | patch
  | delete
  | put
deriving DecidableEq, Repr, Inhabited

namespace Method

def word : Method → String
  | .get => "GET"
  | .head => "HEAD"
  | .post => "POST"
  | .patch => "PATCH"
  | .delete => "DELETE"
  | .put => "PUT"

/-- The method that a word stands for, in any ASCII case. -/
def ofWord? (word : String) : Option Method :=
  let plain := (String.ofList (Text.trim word.toList)).toUpper
  [Method.get, .head, .post, .patch, .delete, .put].find? fun method => method.word = plain

end Method

abbrev Headers := List (String × String)

namespace Headers

def sameName (left right : String) : Bool :=
  left.toLower = right.toLower

def get? (headers : Headers) (name : String) : Option String :=
  (headers.find? fun (key, _) => sameName key name).map Prod.snd

/-- Add a value: behind a comma to the header that has the name already, else in a
header of its own at the end. -/
def append (name value : String) : Headers → Headers
  | [] => [(name, value)]
  | (key, existing) :: rest =>
    if sameName key name then (key, existing ++ "," ++ value) :: rest
    else (key, existing) :: append name value rest

end Headers

/-- A request as it is sent. -/
structure RawRequest where
  method : String
  path : String
  /-- The encoded query, without the question mark. -/
  query : String := ""
  headers : Headers := []
  body : Option String := none
deriving DecidableEq, Repr, Inhabited

/-- A request as it is built. -/
structure Request where
  method : Method
  path : String
  /-- The parameters, decoded. -/
  query : List (String × String) := []
  headers : Headers := []
  body : Option Json := none
deriving DecidableEq, Repr, Inhabited

namespace Request

def withParam (key value : String) (request : Request) : Request :=
  { request with query := request.query ++ [(key, value)] }

def withHeader (name value : String) (request : Request) : Request :=
  { request with headers := request.headers.append name value }

/-- Set a body, with the header that tells its type. -/
def withJson (body : Json) (request : Request) : Request :=
  { request.withHeader "Content-Type" "application/json" with body := some body }

def param? (request : Request) (key : String) : Option String :=
  (request.query.find? fun (k, _) => k = key).map Prod.snd

/-- The encoded query, without the question mark. -/
def queryString (request : Request) : String :=
  QueryString.encode request.query

def url (request : Request) : String :=
  if request.query.isEmpty then request.path else request.path ++ "?" ++ request.queryString

def raw (request : Request) : RawRequest where
  method := request.method.word
  path := request.path
  query := request.queryString
  headers := request.headers
  body := request.body.map Json.text

end Request

end QueryNotation
