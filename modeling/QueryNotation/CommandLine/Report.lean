import QueryNotation.Conversion

namespace QueryNotation.CommandLine

/-! # What the command line shows

Results go to the output; faults, warnings and facts go to the messages beside it.
-/

/-- What a run shows, and the status it ends with. -/
structure Report where
  status : UInt32 := 0
  output : String := ""
  messages : String := ""
deriving DecidableEq, Repr, Inhabited

def linesText (lines : List String) : String :=
  String.join (lines.map fun line => line ++ "\n")

def padded (width : Nat) (text : String) : String :=
  text ++ String.ofList (List.replicate (width - text.length) ' ')

namespace Report

def failure (messages : List String) : Report where
  status := 1
  messages := linesText messages

/-- What is said of a fault, with its fragment and its hint. -/
def faultLines (fault : Fault) : List String :=
  ["Error: " ++ fault.message] ++
    (if fault.fragment.isEmpty then [] else ["  at: " ++ fault.fragment]) ++
    if fault.hint.isEmpty then [] else ["  hint: " ++ fault.hint]

def operatorLine (tag symbol method : String) : String :=
  "  " ++ padded 8 tag ++ " " ++ padded 24 symbol ++ " " ++ method

/-- How an operator is written in SQL. -/
def symbolText (op : Operator) : String :=
  match op.searchFunction with
  | some function => op.symbol ++ " " ++ function
  | none => op.symbol

def methodText (op : Operator) : String :=
  match op.method with
  | some method => "." ++ method ++ "()"
  | none =>
    if op.searchesText then ".textSearch()" else ".filter(col, '" ++ op.tag ++ "', v)"

def operators : Report where
  output := linesText <|
    ["Operators", "", operatorLine "TAG" "SQL" "CHAIN METHOD"] ++
      Operator.all.map fun op => operatorLine op.tag (symbolText op) (methodText op)

/-- What is shown when the notations are missing. -/
def usage : Report where
  output := linesText
    ["querybridge", "", "Usage: querybridge <FROM> <TO> [INPUT]", "", "Try: querybridge --help"]

/-- The words that the command line knows. -/
def help : Report where
  output := linesText
    ["Convert queries between SQL, PostgREST requests and client chains", "",
      "Usage: querybridge [OPTIONS] <FROM> <TO> [INPUT]", "       querybridge operators", "",
      "Options:",
      "      --json           Print the full result as JSON",
      "      --strict         Reject unknown chain methods instead of ignoring them",
      "  -c, --config <PATH>  Options file (TOML)",
      "  -v, --verbose        Verbose output",
      "  -h, --help           Print help"]

/-- What is shown when the command line cannot be read. -/
def misuse : Report where
  status := 2
  messages := linesText ["error: invalid command line", "", "Try: querybridge --help"]

def pairsJson (pairs : List (String × String)) : Json :=
  .array (pairs.map fun (key, value) => .array [.string key, .string value])

def requestJson (request : Request) : Json :=
  .object <|
    [("method", .string request.method.word), ("path", .string request.path),
      ("query", pairsJson request.query), ("headers", pairsJson request.headers)] ++
    (request.body.map fun body => ("body", body)).toList

def conversionJson (result : Conversion) : Json :=
  .object <|
    [("output", .string result.output), ("warnings", .array (result.warnings.map .string)),
      ("metadata", .object (result.metadata.map fun (key, value) => (key, .string value)))] ++
    (result.request.map fun request => ("http", requestJson request)).toList ++
    [("http_only", .bool result.requestOnly)]

def conversionLines (result : Conversion) : List String :=
  if result.requestOnly then
    ("HTTP only: " ++ result.output) :: (result.request.map Request.text).toList
  else [result.output]

def noteLines (verbose : Bool) (result : Conversion) : List String :=
  result.warnings.map ("warning: " ++ ·) ++
    if verbose then result.metadata.map fun (key, value) => "meta: " ++ key ++ " = " ++ value
    else []

def ofConversion (json verbose : Bool) (result : Conversion) : Report :=
  if json then { output := linesText [(conversionJson result).indentedText] }
  else
    { output := linesText (conversionLines result)
      messages := linesText (noteLines verbose result) }

def behind (lines : List String) (report : Report) : Report :=
  { report with messages := linesText lines ++ report.messages }

end Report

end QueryNotation.CommandLine
