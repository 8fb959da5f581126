import QueryNotation.Fault
import QueryNotation.Json.Printer
import QueryNotation.Text.Unsigned

namespace QueryNotation.Chain

/-! # Arguments of a call

Typed access to the decoded arguments of a call.  An argument that is missing or
of the wrong type is a fault that names the method.
-/

/-- The arguments of a call. -/
structure Arguments where
  method : String
  values : List Json

namespace Arguments

/-- The argument at a place, unless it is null. -/
def get? (arguments : Arguments) (index : Nat) : Option Json :=
  arguments.values[index]?.filter (· ≠ .null)

def value (arguments : Arguments) (index : Nat) : Outcome Json :=
  match arguments.values[index]? with
  | some value => .ok value
  | none => .error (.missingArgument arguments.method index)

def wrong {α : Type} (arguments : Arguments) (index : Nat) (expected : String) (found : Json) :
    Outcome α :=
  .error (.wrongArgument arguments.method index expected found.text)

def textOf? : Json → Option String
  | .string text => some text
  | .number value => some value.text
  | _ => none

/-- A string; a number counts as its text. -/
def string (arguments : Arguments) (index : Nat) : Outcome String := do
  let found ← arguments.value index
  match textOf? found with
  | some text => return text
  | none => arguments.wrong index "a string" found

def string? (arguments : Arguments) (index : Nat) : Option String :=
  (arguments.get? index).bind textOf?

/-- A count of rows; a string of digits counts too. -/
def count (arguments : Arguments) (index : Nat) : Outcome UInt64 := do
  let found ← arguments.value index
  let number := match found with
    | .number value => value.toUnsigned?
    | .string text => Text.unsigned? (Text.trim text.toList)
    | _ => none
  match number with
  | some count => return count
  | none => arguments.wrong index "a non-negative integer" found

def object (arguments : Arguments) (index : Nat) : Outcome Json.Row := do
  match ← arguments.value index with
  | .object fields => return fields
  | found => arguments.wrong index "an object" found

def object? (arguments : Arguments) (index : Nat) : Option Json.Row :=
  match arguments.get? index with
  | some (.object fields) => some fields
  | _ => none

/-- A truth value among the options at a place. -/
def boolOption? (arguments : Arguments) (index : Nat) (key : String) : Option Bool :=
  ((arguments.object? index).bind fun options => options.get? key).bind Json.asBool?

/-- A string among the options at a place; a number counts as its text. -/
def stringOption? (arguments : Arguments) (index : Nat) (key : String) : Option String :=
  ((arguments.object? index).bind fun options => options.get? key).bind textOf?

end Arguments

end QueryNotation.Chain
