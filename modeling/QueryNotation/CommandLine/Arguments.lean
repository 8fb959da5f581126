import QueryNotation.Notation
import QueryNotation.Text.Cut

namespace QueryNotation.CommandLine

/-! # The words of the command line

Two notations and a query, with flags anywhere among them: `--json`, `--strict`,
`-v` or `--verbose`, and `-c` or `--config` with a path.  Each flag is given once
at most, and behind `--` no word is a flag.
-/

open Text

/-- What the words of the command line say. -/
structure Arguments where
  source : Option Form := none
  target : Option Form := none
  query : Option String := none
  /-- Show the whole result as JSON. -/
  json : Bool := false
  /-- Refuse unknown methods of a chain. -/
  strict : Bool := false
  /-- Show the input and the facts of the result. -/
  verbose : Bool := false
  /-- The settings file to read. -/
  settings : Option String := none
deriving DecidableEq, Repr, Inhabited

namespace Arguments

/-- Place a word that is no flag: the source, then the target, then the query. -/
def place? (word : String) (arguments : Arguments) : Option Arguments :=
  match arguments.source, arguments.target, arguments.query with
  | none, _, _ => (Form.ofName? word).map fun form => { arguments with source := some form }
  | some _, none, _ => (Form.ofName? word).map fun form => { arguments with target := some form }
  | some _, some _, none => some { arguments with query := some word }
  | some _, some _, some _ => none

/-- Set a flag that takes no value. -/
def raise? (flag : String) (arguments : Arguments) : Option Arguments :=
  match flag with
  | "json" => if arguments.json then none else some { arguments with json := true }
  | "strict" => if arguments.strict then none else some { arguments with strict := true }
  | "verbose" => if arguments.verbose then none else some { arguments with verbose := true }
  | _ => none

/-- Set the settings file, which must have a name. -/
def withSettings? (path : String) (arguments : Arguments) : Option Arguments :=
  if path.isEmpty || arguments.settings.isSome then none
  else some { arguments with settings := some path }

/-- What a flag asks for: a change of the arguments, or the next word as its value. -/
inductive FlagOutcome where
  | done (arguments : Arguments)
  | wantsPath (arguments : Arguments)
deriving Repr

/-- Read a long flag, given what is behind the dashes. -/
def longFlag? (flag : List Char) (arguments : Arguments) : Option FlagOutcome :=
  match cutFirst '=' flag with
  | some (name, path) =>
    if String.ofList name = "config" then
      (arguments.withSettings? (String.ofList path)).map .done
    else none
  | none =>
    if String.ofList flag = "config" then some (.wantsPath arguments)
    else (arguments.raise? (String.ofList flag)).map .done

/-- Read a group of short flags, given what is behind the dash. -/
def shortFlags? (arguments : Arguments) : List Char → Option FlagOutcome
  | [] => some (.done arguments)
  | 'v' :: rest => (arguments.raise? "verbose").bind fun arguments => shortFlags? arguments rest
  | ['c'] => some (.wantsPath arguments)
  | 'c' :: '=' :: path => (arguments.withSettings? (String.ofList path)).map .done
  | 'c' :: path => (arguments.withSettings? (String.ofList path)).map .done
  | _ => none

/-- True for a word that can be no value: one that begins like a flag. -/
def isFlag (word : String) : Bool :=
  match word.toList with
  | '-' :: _ :: _ => true
  | _ => false

/-- Read a word that begins like a flag. -/
def flag? (word : String) (arguments : Arguments) : Option FlagOutcome :=
  match word.toList with
  | '-' :: '-' :: flag => longFlag? flag arguments
  | '-' :: flags => shortFlags? arguments flags
  | _ => none

/-- Read the words behind those that gave the arguments so far. -/
def scan? (arguments : Arguments) : List String → Option Arguments
  | [] => some arguments
  | word :: rest =>
    if word = "--" then rest.foldlM (fun arguments word => arguments.place? word) arguments
    else if isFlag word then
      match flag? word arguments with
      | none => none
      | some (.done arguments) => scan? arguments rest
      | some (.wantsPath arguments) =>
        match rest with
        | [] => none
        | path :: rest =>
          if isFlag path then none
          else (arguments.withSettings? path).bind fun arguments => scan? arguments rest
    else (arguments.place? word).bind fun arguments => scan? arguments rest

end Arguments

/-- What the command line asks for. -/
inductive Command where
  /-- Show the table of operators. -/
  | operators
  | help
  | conversion (arguments : Arguments)
deriving DecidableEq, Repr

/-- Read the command line.  The settings file that the environment names counts when
the words name none. -/
def Command.ofWords? (environment : Option String) (words : List String) : Option Command := do
  let withEnvironment (arguments : Arguments) : Option Arguments :=
    match arguments.settings, environment with
    | none, some path => arguments.withSettings? path
    | _, _ => some arguments
  match words with
  | "operators" :: rest =>
    if rest = [] ∨ rest = ["--"] then (withEnvironment {}).map fun _ => .operators else none
  | ["-h"] | ["--help"] | ["help"] => some .help
  | _ => return .conversion (← withEnvironment (← Arguments.scan? {} words))

end QueryNotation.CommandLine
