import QueryNotation.Json.Printer
import QueryNotation.Json.Reader

namespace QueryNotation

/-! # Filter values

The values a column is compared with.  A number keeps its decimal text, so
nothing is lost on the way from one notation to another.
-/

/-- A filter value. -/
inductive Value where
  | null
  | bool (value : Bool)
  | number (text : String)
  | string (text : String)
  | list (items : List Value)
deriving Repr, Inhabited

/-- Decimal text: an optional minus sign, then digits with at most one point
between them. -/
def isNumeric (text : String) : Bool :=
  let digits := match text.toList with
    | '-' :: rest => rest
    | digits => digits
  digits.head?.any Char.isDigit && digits.getLast?.any Char.isDigit &&
    digits.all (fun c => c.isDigit || c == '.') && digits.count '.' ≤ 1

namespace Value

mutual

def decEq : (left right : Value) → Decidable (left = right)
  | .null, .null => isTrue rfl
  | .bool a, .bool b => decidable_of_iff (a = b) (by simp)
  | .number a, .number b => decidable_of_iff (a = b) (by simp)
  | .string a, .string b => decidable_of_iff (a = b) (by simp)
  | .list a, .list b =>
    match decEqItems a b with
    | isTrue same => isTrue (by rw [same])
    | isFalse differ => isFalse (by simpa using differ)
  | .null, .bool _ | .null, .number _ | .null, .string _ | .null, .list _ | .bool _, .null
  | .bool _, .number _ | .bool _, .string _ | .bool _, .list _ | .number _, .null
  | .number _, .bool _ | .number _, .string _ | .number _, .list _ | .string _, .null
  | .string _, .bool _ | .string _, .number _ | .string _, .list _ | .list _, .null
  | .list _, .bool _ | .list _, .number _ | .list _, .string _ => isFalse (by simp)

def decEqItems : (left right : List Value) → Decidable (left = right)
  | [], [] => isTrue rfl
  | [], _ :: _ | _ :: _, [] => isFalse (by simp)
  | a :: as, b :: bs =>
    match decEq a b with
    | isFalse differ => isFalse (by simp [differ])
    | isTrue same =>
      match decEqItems as bs with
      | isTrue rest => isTrue (by rw [same, rest])
      | isFalse differ => isFalse (by simp [differ])

end

instance : DecidableEq Value := decEq

def isNull : Value → Bool
  | .null => true
  | _ => false

/-- The number with a text, if it is decimal. -/
def ofNumeric? (text : String) : Option Value :=
  if isNumeric text then some (.number text) else none

/-- Type a bare token: decimal text, the truth values and `null` have a type of
their own, all else is a string. -/
def ofToken (token : String) : Value :=
  if token = "null" then .null
  else if token = "true" then .bool true
  else if token = "false" then .bool false
  else if isNumeric token then .number token
  else .string token

mutual

/-- The value of a JSON value.  An object becomes its text. -/
def ofJson : Json → Value
  | .null => .null
  | .bool value => .bool value
  | .number value => .number value.text
  | .string value => .string value
  | .array items => .list (ofJsonItems items)
  | .object fields => .string (Json.object fields).text

def ofJsonItems : List Json → List Value
  | [] => []
  | item :: rest => ofJson item :: ofJsonItems rest

end

mutual

/-- The JSON value of a value.  A number that JSON cannot hold becomes a string. -/
def toJson : Value → Json
  | .null => .null
  | .bool value => .bool value
  | .number text =>
    match Json.Number.ofText? text.toList with
    | some value => .number value
    | none => .string text
  | .string text => .string text
  | .list items => .array (toJsonItems items)

def toJsonItems : List Value → List Json
  | [] => []
  | item :: rest => toJson item :: toJsonItems rest

end

def boolText (value : Bool) : String :=
  if value then "true" else "false"

mutual

def text : Value → String
  | .null => "null"
  | .bool value => boolText value
  | .number text => text
  | .string text => text
  | .list items => "(" ++ String.intercalate "," (itemTexts items) ++ ")"

def itemTexts : List Value → List String
  | [] => []
  | item :: rest => text item :: itemTexts rest

end

end Value

end QueryNotation
