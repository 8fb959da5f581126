import QueryNotation.Request.Basic
import QueryNotation.Rest.Filter

namespace QueryNotation.Rest

/-! # Writing requests

The parameters come in a fixed order: the select list, filters, filters of
embeds, order, orders of embeds, limit, offset, limits of embeds, conflict
columns.
-/

open Text

/-- The `Accept` value that asks for one object and not an array. -/
def singleObject : String := "application/vnd.pgrst.object+json"

def isEscapedInPath (c : Char) : Bool :=
  isAsciiControl c ||
    [' ', '"', '#', '%', '/', '<', '>', '?', '\x60', '{', '}'].contains c

/-- A built request, with what was left out. -/
structure Written where
  request : Request
  warnings : List String
deriving Repr, Inhabited

def methodOf (query : Query) : Method :=
  match query.operation with
  | .select => if query.head then .head else .get
  | .insert | .upsert => .post
  | .update => .patch
  | .delete => .delete
  | .call => if query.head then .head else .post

def pathOf (query : Query) : String :=
  let name := String.ofList (percentEncode isEscapedInPath query.table.toList)
  match query.operation with
  | .call => "/rpc/" ++ name
  | _ => "/" ++ name

/-- True when a select list is sent: when it says more than `*`, for a mutation
only if that answers with rows. -/
def sendsSelect (query : Query) : Bool :=
  let all := query.selectsAll && query.embeds.isEmpty
  match query.operation with
  | .select | .call => !all
  | _ => query.returning && !all

def params (query : Query) : List (String × String) :=
  let embeds := Embed.paths query.embeds
  (if sendsSelect query then [("select", query.selectList)] else []) ++
  query.filters.map (fun filter => (filter.column, filterText filter)) ++
  embeds.flatMap (fun (path, embed) =>
    embed.filters.map fun filter => (path ++ "." ++ filter.column, filterText filter)) ++
  (if query.order.isEmpty then [] else [("order", orderText query.order)]) ++
  embeds.flatMap (fun (path, embed) =>
    if embed.order.isEmpty then [] else [(path ++ ".order", orderText embed.order)]) ++
  (query.limit.map fun limit => ("limit", toString limit)).toList ++
  (query.offset.map fun offset => ("offset", toString offset)).toList ++
  embeds.flatMap (fun (path, embed) =>
    (embed.limit.map fun limit => (path ++ ".limit", toString limit)).toList) ++
  if query.operation = .upsert then
    (query.onConflict.map fun target => ("on_conflict", target)).toList
  else []

/-- What the `Prefer` header of a query says. -/
def preferences (query : Query) : List String :=
  (if query.operation = .upsert then
    [if query.ignoreDuplicates then "resolution=ignore-duplicates"
      else "resolution=merge-duplicates"]
    else []) ++
  (if query.returning || query.single = some .maybeOne then ["return=representation"] else []) ++
  (query.count.map fun mode => "count=" ++ mode.word).toList

/-- The body that is sent; a posted function call without arguments sends an empty
object. -/
def bodyOf (query : Query) : Option Json :=
  match query.operation with
  | .insert | .upsert | .update => query.body.map Body.toJson
  | .call =>
    match query.body with
    | some body => some body.toJson
    | none => if methodOf query = .post then some (.object []) else none
  | .select | .delete => none

def headers (query : Query) : Headers :=
  let single : Headers := if query.single.isSome then [("Accept", singleObject)] else []
  let preferring := (preferences query).foldl
    (fun headers preference => Headers.append "Prefer" preference headers) single
  let ranged := match query.range with
    | some (first, last) =>
      (preferring.append "Range" (toString first ++ "-" ++ toString last)).append
        "Range-Unit" "items"
    | none => preferring
  if (bodyOf query).isSome then ranged.append "Content-Type" "application/json" else ranged

/-- What is said of a function call or of a body that is not sent. -/
def warnings (query : Query) : List String :=
  (if query.operation = .call && !query.head then
    ["'" ++ query.table ++ "' is a database function call; it only exists as an HTTP request"]
    else []) ++
  if query.body.isSome && (bodyOf query).isNone then
    ["request body dropped: " ++ (methodOf query).word ++ " requests carry none"]
  else []

def write (query : Query) : Written where
  request := {
    method := methodOf query
    path := pathOf query
    query := params query
    headers := headers query
    body := bodyOf query }
  warnings := warnings query

end QueryNotation.Rest
