import QueryNotation.Chain.Arguments
import QueryNotation.Chain.Segment
import QueryNotation.Request.Basic

namespace QueryNotation.Chain

/-! # Calls of services

Calls of the `auth` and `storage` services touch no table, so they have no query
form.  They become the request that the client would send.
-/

/-- A request to a service, and what it does. -/
structure ServiceCall where
  request : Request
  description : String
  warnings : List String := []
deriving DecidableEq, Repr, Inhabited

namespace ServiceCall

/-- Where the `auth` service answers. -/
def authPath : String := "/auth/v1"

/-- Where the `storage` service answers. -/
def storagePath : String := "/storage/v1"

def plain (method : Method) (path : String) : Request :=
  { method, path }

def post (path : String) (body : Json) : Request :=
  (plain .post path).withJson body

/-- The header that names the signed-in user. -/
def withToken (request : Request) : Request :=
  request.withHeader "Authorization" "Bearer <access_token>"

def firstCall (service : String) : List Segment → Outcome Arguments
  | .call method values :: _ => .ok { method, values }
  | .property name :: _ => .error (.serviceMethod service name)
  | [] => .error (.noServiceCall service)

/-- The `data` among the options of some credentials. -/
def userData? (given : Json.Row) : Option Json :=
  match given.get? "options" with
  | some (.object options) => Json.Row.get? options "data"
  | _ => none

/-- The credentials that are sent: those given, with the data among the options in
place of the options. -/
def credentials (arguments : Arguments) : Outcome Json := do
  let given ← arguments.object 0
  let plain := given.filter fun (key, _) => key != "options"
  return .object <|
    match userData? given with
    | some data => Json.Row.insert "data" data plain
    | none => plain

/-- A posted request that sends the credentials. -/
def withCredentials (arguments : Arguments) (path description : String) : Outcome ServiceCall := do
  let body ← credentials arguments
  return { request := post (authPath ++ path) body, description }

def authRequest (arguments : Arguments) : Outcome ServiceCall := do
  match arguments.method with
  | "signUp" => withCredentials arguments "/signup" "Register a new user"
  | "signInWithPassword" =>
    let call ← withCredentials arguments "/token" "Sign in with email or phone and password"
    return { call with request := call.request.withParam "grant_type" "password" }
  | "signInWithOtp" =>
    withCredentials arguments "/otp" "Send a one-time login code or magic link"
  | "verifyOtp" => withCredentials arguments "/verify" "Verify a one-time code"
  | "signInWithOAuth" =>
    let given ← arguments.object 0
    let provider := ((given.get? "provider").bind Json.asString?).getD "<provider>"
    return {
      request := (plain .get (authPath ++ "/authorize")).withParam "provider" provider
      description := "Redirect to the " ++ provider ++ " OAuth flow" }
  | "signOut" =>
    return {
      request := withToken (plain .post (authPath ++ "/logout"))
      description := "End the current session" }
  | "getUser" =>
    return {
      request := withToken (plain .get (authPath ++ "/user"))
      description := "Fetch the signed-in user" }
  | "updateUser" =>
    let given ← arguments.object 0
    return {
      request := (withToken (plain .put (authPath ++ "/user"))).withJson (.object given)
      description := "Update the signed-in user" }
  | "resetPasswordForEmail" =>
    let email ← arguments.string 0
    return {
      request := post (authPath ++ "/recover") (.object [("email", .string email)])
      description := "Send a password recovery email" }
  | "refreshSession" =>
    let body := Json.object [("refresh_token", .string "<refresh_token>")]
    return {
      request := (post (authPath ++ "/token") body).withParam "grant_type" "refresh_token"
      description := "Exchange a refresh token for a new session" }
  | other => throw (.serviceMethod "auth" other)

/-- Read the segments behind `auth`. -/
def ofAuth (segments : List Segment) : Outcome ServiceCall := do
  let arguments ← firstCall "auth" segments
  let call ← authRequest arguments
  let warning := "auth." ++ arguments.method ++
    "() has no SQL equivalent; only the HTTP request is shown"
  return { call with warnings := call.warnings ++ [warning] }

def objectPath (lead bucket path : String) : String :=
  storagePath ++ "/object/" ++ lead ++ bucket ++ "/" ++
    String.ofList (path.toList.dropWhile (· == '/'))

def upload (method : Method) (bucket : String) (arguments : Arguments) : Outcome ServiceCall := do
  let path ← arguments.string 0
  return {
    request := plain method (objectPath "" bucket path)
    description := "Upload '" ++ path ++ "' to bucket '" ++ bucket ++ "'"
    warnings := ["the file payload is sent as the raw request body and is not shown"] }

/-- The request that moves or copies an object. -/
def transfer (verb bucket : String) (arguments : Arguments) : Outcome ServiceCall := do
  let source ← arguments.string 0
  let destination ← arguments.string 1
  let body := Json.object [("bucketId", .string bucket), ("sourceKey", .string source),
    ("destinationKey", .string destination)]
  return {
    request := post (storagePath ++ "/object/" ++ arguments.method) body
    description := verb ++ " '" ++ source ++ "' to '" ++ destination ++ "' in bucket '" ++ bucket ++
      "'" }

def objectRequest (bucket : String) (arguments : Arguments) : Outcome ServiceCall := do
  match arguments.method with
  | "upload" => upload .post bucket arguments
  | "update" => upload .put bucket arguments
  | "download" =>
    let path ← arguments.string 0
    return {
      request := plain .get (objectPath "authenticated/" bucket path)
      description := "Download '" ++ path ++ "' from bucket '" ++ bucket ++ "'" }
  | "getPublicUrl" =>
    let path ← arguments.string 0
    return {
      request := plain .get (objectPath "public/" bucket path)
      description := "Public URL of '" ++ path ++ "' in bucket '" ++ bucket ++ "'" }
  | "createSignedUrl" =>
    let path ← arguments.string 0
    let seconds ← arguments.count 1
    let body := Json.object [("expiresIn", .number (.integer seconds.toNat))]
    return {
      request := post (objectPath "sign/" bucket path) body
      description := "Sign '" ++ path ++ "' in bucket '" ++ bucket ++ "' for " ++
        toString seconds ++ " seconds" }
  | "remove" =>
    let paths ← arguments.value 0
    let request := plain .delete (storagePath ++ "/object/" ++ bucket)
    return {
      request := request.withJson (.object [("prefixes", paths)])
      description := "Remove objects from bucket '" ++ bucket ++ "'" }
  | "list" =>
    let lead := Json.string ((arguments.string? 0).getD "")
    let body := ((arguments.object? 1).getD []).foldl
      (fun row (key, value) => Json.Row.insert key value row) [("prefix", lead)]
    return {
      request := post (storagePath ++ "/object/list/" ++ bucket) (.object body)
      description := "List objects in bucket '" ++ bucket ++ "'" }
  | "move" => transfer "Move" bucket arguments
  | "copy" => transfer "Copy" bucket arguments
  | other => throw (.serviceMethod "storage.from()" other)

def bucketRequest (method : Method) (tail action : String) (arguments : Arguments) :
    Outcome ServiceCall := do
  let id ← arguments.string 0
  return {
    request := plain method (storagePath ++ "/bucket/" ++ id ++ tail)
    description := action ++ " bucket '" ++ id ++ "'" }

/-- The request of a call of `storage`, given the segments behind it. -/
def storageRequest (arguments : Arguments) (behind : List Segment) : Outcome ServiceCall := do
  match arguments.method with
  | "from" =>
    let bucket ← arguments.string 0
    objectRequest bucket (← firstCall "storage.from()" behind)
  | "listBuckets" =>
    return {
      request := plain .get (storagePath ++ "/bucket")
      description := "List all buckets" }
  | "getBucket" => bucketRequest .get "" "Fetch" arguments
  | "createBucket" =>
    let id ← arguments.string 0
    let isPublic := (arguments.boolOption? 1 "public").getD false
    let body := Json.object [("id", .string id), ("name", .string id), ("public", .bool isPublic)]
    return {
      request := post (storagePath ++ "/bucket") body
      description := "Create bucket '" ++ id ++ "'" }
  | "emptyBucket" => bucketRequest .post "/empty" "Delete every object in" arguments
  | "deleteBucket" => bucketRequest .delete "" "Delete" arguments
  | other => throw (.serviceMethod "storage" other)

/-- Read the segments behind `storage`. -/
def ofStorage (segments : List Segment) : Outcome ServiceCall := do
  let arguments ← firstCall "storage" segments
  let call ← storageRequest arguments (segments.drop 1)
  let warning := "storage calls have no SQL equivalent; only the HTTP request is shown"
  return { call with warnings := call.warnings ++ [warning] }

end ServiceCall

end QueryNotation.Chain
