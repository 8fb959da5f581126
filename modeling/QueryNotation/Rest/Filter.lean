import QueryNotation.Fault
import QueryNotation.Value.Wire

namespace QueryNotation.Rest

/-! # Filters and orders on the wire

A filter is the parameter `column=[not.]tag[(config)].token`, an order the
parameter `order=column.asc.nullsfirst,...`.
-/

open Text

/-- The value of a filter's parameter. -/
def filterText (filter : Filter) : String :=
  (if filter.negated then "not." else "") ++ filter.op.tag ++
    (match filter.config with
      | some config => "(" ++ config ++ ")"
      | none => "") ++
    "." ++ Value.wireToken filter.op filter.value

/-- The tag and the configuration in front of the point of a filter's parameter. -/
def splitConfig (text : List Char) : Option (List Char × Option (List Char)) :=
  match cutFirst '(' text with
  | none => some (text, none)
  | some (tag, rest) =>
    match dropTail? [')'] rest with
    | some config => some (tag, some config)
    | none => none

def readFilter (column text : String) : Outcome Filter :=
  let (negated, rest) := match dropLead? "not.".toList text.toList with
    | some rest => (true, rest)
    | none => (false, text.toList)
  match cutFirst '.' rest with
  | none => .error (.noOperator column text)
  | some (front, token) =>
    match splitConfig front with
    | none => .error (.openConfig column text)
    | some (tag, config) =>
      let tag := String.ofList tag
      match Operator.ofTag? tag with
      | none => .error (.unknownOperator tag (column ++ "=" ++ text))
      | some op =>
        if config.isSome && !op.searchesText then .error (.needlessConfig tag column text)
        else
          .ok {
            column
            op
            value := Value.ofWire op (String.ofList token)
            negated
            config := config.map String.ofList }

def orderItemText (item : OrderItem) : String :=
  item.column ++ (if item.descending then ".desc" else ".asc") ++
    match item.nulls with
    | some .first => ".nullsfirst"
    | some .last => ".nullslast"
    | none => ""

def orderText (order : List OrderItem) : String :=
  String.intercalate "," (order.map orderItemText)

def applyModifier (item : OrderItem) (modifier : String) : Option OrderItem :=
  match modifier with
  | "asc" => some { item with descending := false }
  | "desc" => some { item with descending := true }
  | "nullsfirst" => some { item with nulls := some .first }
  | "nullslast" => some { item with nulls := some .last }
  | _ => none

def readOrderItem (text : List Char) : Outcome OrderItem :=
  let invalid := Except.error (.invalidOrderItem (String.ofList text))
  match pieces (· == '.') text with
  | [] => invalid
  | column :: modifiers =>
    let column := trim column
    if column.isEmpty then invalid
    else
      let item : OrderItem := { column := String.ofList column }
      match (modifiers.map String.ofList).foldlM applyModifier item with
      | some item => .ok item
      | none => invalid

def readOrder (bound : Nat) (text : String) : Outcome (List OrderItem) := do
  let items ← (splitTopLevel ',' bound text.toList).mapError (Fault.ofNesting bound text.toList)
  items.mapM readOrderItem

end QueryNotation.Rest
