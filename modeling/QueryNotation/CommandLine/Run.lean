import QueryNotation.CommandLine.Arguments
import QueryNotation.CommandLine.Report
import QueryNotation.Settings

namespace QueryNotation.CommandLine

/-! # Runs of the command line

A run asks its surroundings for files and for the standard input and decides
everything else by itself.  The settings are read first, so that a broken settings
file is reported before any input is asked for.
-/

open Text

/-- Why a file cannot be read. -/
inductive FileFault where
  | missing
  | directory
  | notDirectory
  | denied
  | notText
  | other (reason : String)
deriving DecidableEq, Repr

def FileFault.message : FileFault → String
  | .missing => "No such file or directory (os error 2)"
  | .directory => "Is a directory (os error 21)"
  | .notDirectory => "Not a directory (os error 20)"
  | .denied => "Permission denied (os error 13)"
  | .notText => "stream did not contain valid UTF-8"
  | .other reason => reason

def FileFault.isAbsence : FileFault → Bool
  | .missing | .directory | .notDirectory => true
  | .denied | .notText | .other _ => false

/-- Why there is no input. -/
inductive InputFault where
  /-- The standard input is a terminal. -/
  | terminal
  | unreadable (fault : FileFault)
  | blank
deriving DecidableEq, Repr

def InputFault.message : InputFault → String
  | .terminal => "no input: pass the query as an argument or pipe it on stdin"
  | .unreadable fault => "failed to read stdin: " ++ fault.message
  | .blank => "stdin was empty"

/-- What a run needs of the system around it. -/
structure Surroundings (m : Type → Type) where
  textOfFile : String → m (Except FileFault String)
  textOfInput : m (Except InputFault String)
  /-- Where the settings of the user are looked for, behind those of the directory. -/
  userSettings : Option String

/-- Why the settings cannot be read. -/
inductive SettingsFault where
  | unreadable (fault : FileFault)
  | invalid
deriving DecidableEq, Repr

def SettingsFault.message : SettingsFault → String
  | .unreadable fault => "IO error: " ++ fault.message ++ ": " ++ fault.message
  | .invalid => "Invalid config file"

/-- What is said when the settings cannot be read; the path is named when it was given. -/
def settingsMessage (path : Option String) (fault : SettingsFault) : String :=
  "Error: failed to load config" ++
    (match path with
      | some path => " from " ++ path
      | none => "") ++
    ": " ++ fault.message

def readSettings (text : Except FileFault String) : Except SettingsFault Options :=
  match text with
  | .error fault => .error (.unreadable fault)
  | .ok text =>
    match Options.ofToml? text with
    | some options => .ok options
    | none => .error .invalid

def localSettings : String := "querybridge.toml"

variable {m : Type → Type} [Monad m]

/-- The options of the first of some files that is there; the defaults when none is. -/
def discoverSettings (surroundings : Surroundings m) :
    List String → m (Except SettingsFault Options)
  | [] => return .ok {}
  | path :: rest => do
    match ← surroundings.textOfFile path with
    | .error fault =>
      if fault.isAbsence then discoverSettings surroundings rest
      else return .error (.unreadable fault)
    | .ok text => return readSettings (.ok text)

def findSettings (surroundings : Surroundings m) (path : Option String) :
    m (Except SettingsFault Options) := do
  match path with
  | some path => return readSettings (← surroundings.textOfFile path)
  | none => discoverSettings surroundings (localSettings :: surroundings.userSettings.toList)

/-- The options of a run, or what is said when they cannot be read. -/
def loadOptions (surroundings : Surroundings m) (arguments : Arguments) :
    m (Except String Options) := do
  return match ← findSettings surroundings arguments.settings with
    | .error fault => .error (settingsMessage arguments.settings fault)
    | .ok options =>
      .ok { options with strictMethods := options.strictMethods || arguments.strict }

def loadInput (surroundings : Surroundings m) (arguments : Arguments) :
    m (Except InputFault String) := do
  match arguments.query with
  | some query => return .ok query
  | none =>
    match ← surroundings.textOfInput with
    | .error fault => return .error fault
    | .ok text => return if allBlank text.toList then .error .blank else .ok text

def report (arguments : Arguments) (options : Options) (source target : Form) (input : String) :
    Report :=
  let shown := if arguments.verbose then ["Input: " ++ String.ofList (trim input.toList)] else []
  Report.behind shown <|
    match convert options source target input with
    | .error fault => .failure (Report.faultLines fault)
    | .ok result => .ofConversion arguments.json arguments.verbose result

def runConversion (surroundings : Surroundings m) (arguments : Arguments) (source target : Form) :
    m Report := do
  match ← loadOptions surroundings arguments with
  | .error message => return .failure [message]
  | .ok options =>
    match ← loadInput surroundings arguments with
    | .error fault => return .failure ["Error: " ++ fault.message]
    | .ok input => return report arguments options source target input

/-- Carry out what the command line asks for.  `environment` is the settings file that
the environment names. -/
def run (surroundings : Surroundings m) (environment : Option String) (words : List String) :
    m Report := do
  match Command.ofWords? environment words with
  | none => return .misuse
  | some .operators => return .operators
  | some .help => return .help
  | some (.conversion arguments) =>
    match arguments.source, arguments.target with
    | some source, some target => runConversion surroundings arguments source target
    | _, _ => return .usage

end QueryNotation.CommandLine
