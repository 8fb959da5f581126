import QueryNotation.Fault
import QueryNotation.Request.Basic

namespace QueryNotation

/-! # The text of a request

A request line with method and target, header lines, a blank line and the body.
The blank line may be missing in front of a body that no header line can be.
-/

namespace Request

def text (request : Request) : String :=
  request.method.word ++ " " ++ request.url ++
    String.join (request.headers.map fun (name, value) => "\n" ++ name ++ ": " ++ value) ++
    match request.body with
    | some body => "\n\n" ++ body.text
    | none => ""

end Request

namespace RawRequest

open Text

def dropReturn (line : List Char) : List Char :=
  (dropTail? ['\r'] line).getD line

/-- The lines of a text.  A carriage return in front of a line feed belongs to it,
and a line feed at the end begins no further line. -/
def lines (text : List Char) : List (List Char) :=
  match (pieces (· == '\n') text).reverse with
  | [] => []
  | last :: before => before.reverse.map dropReturn ++ if last.isEmpty then [] else [last]

/-- The name and value of a header line.  A line that begins like JSON is none. -/
def headerOfLine? (line : List Char) : Option (String × String) :=
  match cutFirst ':' line with
  | some (name, value) =>
    let name := trim name
    if name.head? = some '{' ∨ name.head? = some '[' then none
    else some (String.ofList name, String.ofList (trim value))
  | none => none

/-- The headers behind the request line, and the lines of the body. -/
def splitHeaders : List (List Char) → Headers × List (List Char)
  | [] => ([], [])
  | line :: rest =>
    if allBlank line then ([], rest)
    else
      match headerOfLine? line with
      | some header =>
        let (headers, body) := splitHeaders rest
        (header :: headers, body)
      | none => ([], line :: rest)

/-- A request with the given target, which holds path and query. -/
def ofTarget (method target : List Char) : RawRequest :=
  let (path, query) := (cutFirst '?' target).getD (target, [])
  { method := String.ofList method, path := String.ofList path, query := String.ofList query }

def ofText (text : String) : Outcome RawRequest :=
  let found := lines (trim text.toList)
  let requestLine := trim (found.head?.getD [])
  match words isBlank requestLine with
  | method :: target :: _ =>
    let (headers, bodyLines) := splitHeaders (found.drop 1)
    let body := trim (List.intercalate ['\n'] bodyLines)
    .ok { ofTarget method target with
      headers
      body := if body.isEmpty then none else some (String.ofList body) }
  | _ => .error (.noRequestLine (String.ofList requestLine))

def header? (request : RawRequest) (name : String) : Option String :=
  request.headers.get? name

end RawRequest

end QueryNotation
