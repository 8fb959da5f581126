import QueryNotation.Options
import QueryNotation.Toml.Document

namespace QueryNotation

/-! # Settings files

The options as a TOML document gives them.  A missing key keeps its default, keys
that are not known are passed over, and a known key must have its type.
-/

namespace Options

/-- The setting under a key: none when it is missing, refused when it has another type. -/
def setting {α : Type} (ofScalar? : Toml.Scalar → Option α) (key : String) (default : α)
    (fields : Toml.Fields) : Option α :=
  match fields.find? key with
  | none => some default
  | some (.scalar value) => ofScalar? value
  | some _ => none

def boolOf? : Toml.Scalar → Option Bool
  | .bool value => some value
  | _ => none

def countOf? : Toml.Scalar → Option Nat
  | .integer value => if 0 ≤ value then some value.toNat else none
  | _ => none

def textOf? : Toml.Scalar → Option String
  | .string text => some text
  | _ => none

def ofToml? (text : String) : Option Options := do
  let fields ← Toml.ofText? text
  let defaults : Options := {}
  return {
    strictMethods := ← setting boolOf? "strict_methods" defaults.strictMethods fields
    maxInputLength := ← setting countOf? "max_input_len" defaults.maxInputLength fields
    maxDepth := ← setting countOf? "max_depth" defaults.maxDepth fields
    foreignKeyTemplate := ← setting textOf? "fk_template" defaults.foreignKeyTemplate fields
    primaryKey := ← setting textOf? "primary_key" defaults.primaryKey fields
    clientName := ← setting textOf? "client_name" defaults.clientName fields }

end Options

end QueryNotation
