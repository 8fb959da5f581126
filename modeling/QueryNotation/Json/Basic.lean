import QueryNotation.Decimal.Shortest

namespace QueryNotation

/-! # JSON values

Objects keep their keys in the order in which they were first seen.  A number is
a whole number of at most 64 bits or a binary floating-point value.
-/

/-- A JSON number. -/
inductive Json.Number where
  | integer (value : Int)
  | real (negative : Bool) (magnitude : Decimal.Binary64)
deriving DecidableEq, Repr, Inhabited

/-- A JSON value. -/
inductive Json where
  | null
  | bool (value : Bool)
  | number (value : Json.Number)
  | string (value : String)
  | array (items : List Json)
  | object (fields : List (String × Json))
deriving Repr, Inhabited

namespace Json

/-- The fields of an object in the order of their first appearance. -/
abbrev Row := List (String × Json)

mutual

def decEq : (left right : Json) → Decidable (left = right)
  | .null, .null => isTrue rfl
  | .bool a, .bool b => decidable_of_iff (a = b) (by simp)
  | .number a, .number b => decidable_of_iff (a = b) (by simp)
  | .string a, .string b => decidable_of_iff (a = b) (by simp)
  | .array a, .array b =>
    match decEqItems a b with
    | isTrue same => isTrue (by rw [same])
    | isFalse differ => isFalse (by simpa using differ)
  | .object a, .object b =>
    match decEqFields a b with
    | isTrue same => isTrue (by rw [same])
    | isFalse differ => isFalse (by simpa using differ)
  | .null, .bool _ | .null, .number _ | .null, .string _ | .null, .array _ | .null, .object _
  | .bool _, .null | .bool _, .number _ | .bool _, .string _ | .bool _, .array _
  | .bool _, .object _ | .number _, .null | .number _, .bool _ | .number _, .string _
  | .number _, .array _ | .number _, .object _ | .string _, .null | .string _, .bool _
  | .string _, .number _ | .string _, .array _ | .string _, .object _ | .array _, .null
  | .array _, .bool _ | .array _, .number _ | .array _, .string _ | .array _, .object _
  | .object _, .null | .object _, .bool _ | .object _, .number _ | .object _, .string _
  | .object _, .array _ => isFalse (by simp)

def decEqItems : (left right : List Json) → Decidable (left = right)
  | [], [] => isTrue rfl
  | [], _ :: _ | _ :: _, [] => isFalse (by simp)
  | a :: as, b :: bs =>
    match decEq a b with
    | isFalse differ => isFalse (by simp [differ])
    | isTrue same =>
      match decEqItems as bs with
      | isTrue rest => isTrue (by rw [same, rest])
      | isFalse differ => isFalse (by simp [differ])

def decEqFields : (left right : List (String × Json)) → Decidable (left = right)
  | [], [] => isTrue rfl
  | [], _ :: _ | _ :: _, [] => isFalse (by simp)
  | (k, a) :: as, (l, b) :: bs =>
    if keys : k = l then
      match decEq a b with
      | isFalse differ => isFalse (by simp [differ])
      | isTrue same =>
        match decEqFields as bs with
        | isTrue rest => isTrue (by rw [keys, same, rest])
        | isFalse differ => isFalse (by simp [differ])
    else isFalse (by simp [keys])

end

instance : DecidableEq Json := decEq

def Row.get? : Row → String → Option Json
  | [], _ => none
  | (k, v) :: rest, key => if k = key then some v else Row.get? rest key

/-- Set a field: a known key keeps its place, a new one goes to the end. -/
def Row.insert (key : String) (value : Json) : Row → Row
  | [] => [(key, value)]
  | (k, v) :: rest => if k = key then (k, value) :: rest else (k, v) :: Row.insert key value rest

/-- The row of a list of fields in which keys may be repeated. -/
def Row.ofList (fields : List (String × Json)) : Row :=
  fields.foldl (fun row (key, value) => Row.insert key value row) []

def Row.keys (row : Row) : List String :=
  row.map Prod.fst

theorem Row.get?_insert (key other : String) (value : Json) (row : Row) :
    (Row.insert key value row).get? other = if key = other then some value else row.get? other := by
  induction row with
  | nil => simp [Row.insert, Row.get?]
  | cons field rest induction =>
    obtain ⟨k, v⟩ := field
    by_cases here : k = key
    · by_cases same : key = other <;> simp [Row.insert, Row.get?, here, same]
    · by_cases found : k = other
      · subst found
        simp [Row.insert, Row.get?, here, Ne.symm here]
      · simp [Row.insert, Row.get?, here, found, induction]

/-- The number as an unsigned word, if it is a whole number of that size. -/
def Number.toUnsigned? : Number → Option UInt64
  | .integer value =>
    if 0 ≤ value ∧ value.toNat < UInt64.size then some (UInt64.ofNat value.toNat) else none
  | .real .. => none

def asString? : Json → Option String
  | .string value => some value
  | _ => none

def asBool? : Json → Option Bool
  | .bool value => some value
  | _ => none

end Json

end QueryNotation
