import QueryNotation.CommandLine.Run

/-! # The program

Reads files, the environment and the standard input for a run, and shows what the
run reports.
-/

open QueryNotation.CommandLine

def fileFaultOf : IO.Error → FileFault
  | .noFileOrDirectory .. => .missing
  | .permissionDenied .. => .denied
  | .inappropriateType .. => .directory
  | other => .other other.toString

def textOf (action : IO ByteArray) : IO (Except FileFault String) := do
  match ← action.toBaseIO with
  | .error fault => return .error (fileFaultOf fault)
  | .ok bytes =>
    return match String.fromUTF8? bytes with
      | some text => .ok text
      | none => .error .notText

/-- The standard input, unless it is a terminal. -/
def readStandardInput : IO (Except InputFault String) := do
  let input ← IO.getStdin
  if ← input.isTty then return .error .terminal
  let rec readAll (held : ByteArray) : Nat → IO ByteArray
    | 0 => return held
    | count + 1 => do
      let chunk ← input.read 65536
      if chunk.isEmpty then return held else readAll (held ++ chunk) count
  return (← textOf (readAll ByteArray.empty (1 <<< 40))).mapError .unreadable

def userSettingsPath : IO (Option String) := do
  let folder ← match ← IO.getEnv "XDG_CONFIG_HOME" with
    | some folder =>
      if folder.startsWith "/" then pure (some folder)
      else pure ((← IO.getEnv "HOME").map (· ++ "/.config"))
    | none => pure ((← IO.getEnv "HOME").map (· ++ "/.config"))
  return folder.map (· ++ "/querybridge/config.toml")

/-- The files, the input and the environment of this process. -/
def processSurroundings : IO (Surroundings IO) := do
  return {
    textOfFile := fun path => textOf (IO.FS.readBinFile path)
    textOfInput := readStandardInput
    userSettings := ← userSettingsPath }

/-- Run the command line. -/
def main (words : List String) : IO UInt32 := do
  let report ← run (← processSurroundings) (← IO.getEnv "QUERYBRIDGE_CONFIG") words
  IO.print report.output
  IO.eprint report.messages
  return report.status
