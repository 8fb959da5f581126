import QueryNotation.Toml.Scalar

namespace QueryNotation.Toml

/-! # TOML documents

A document is a table of tables.  A key may be given once only, and a table may be
opened once only, except where its name was only passed through before.
-/

/-- How a table came about. -/
inductive Origin where
  /-- It was opened by a line of its own. -/
  | header
  /-- Its name was passed through by such a line. -/
  | implied
  /-- Its name was passed through by a key. -/
  | dotted
deriving DecidableEq, Repr

/-- What a key stands for. -/
inductive Item where
  | scalar (value : Scalar)
  | table (origin : Origin) (fields : List (String × Item))
  /-- Tables that were opened one after the other, the last first. -/
  | series (last : List (String × Item))
deriving Repr

abbrev Fields := List (String × Item)

namespace Fields

def find? (key : String) (fields : Fields) : Option Item :=
  (List.find? (fun field => field.1 = key) fields).map Prod.snd

def put (key : String) (item : Item) : Fields → Fields
  | [] => [(key, item)]
  | (k, v) :: rest => if k = key then (k, item) :: rest else (k, v) :: put key item rest

/-- Change the table that a line for `path` leads to; tables on the way come about. -/
def within (change : Fields → Option Fields) : List String → Fields → Option Fields
  | [], fields => change fields
  | key :: path, fields =>
    match fields.find? key with
    | none => (within change path []).map fun inner => fields.put key (.table .implied inner)
    | some (.table origin inner) =>
      (within change path inner).map fun inner => fields.put key (.table origin inner)
    | some (.series last) => (within change path last).map fun last => fields.put key (.series last)
    | some (.scalar _) => none

def define (value : Item) : List String → Fields → Option Fields
  | [], _ => none
  | [key], fields => if (fields.find? key).isSome then none else some (fields.put key value)
  | key :: path, fields =>
    match fields.find? key with
    | none => (define value path []).map fun inner => fields.put key (.table .dotted inner)
    | some (.table .header _) => none
    | some (.table origin inner) =>
      (define value path inner).map fun inner => fields.put key (.table origin inner)
    | some _ => none

def openTable (key : String) (fields : Fields) : Option Fields :=
  match fields.find? key with
  | none => some (fields.put key (.table .header []))
  | some (.table .implied inner) => some (fields.put key (.table .header inner))
  | some _ => none

/-- Open a further table of a series. -/
def openNext (key : String) (fields : Fields) : Option Fields :=
  match fields.find? key with
  | none | some (.series _) => some (fields.put key (.series []))
  | some _ => none

end Fields

def isKeyCharacter (c : Char) : Bool :=
  c.isAlphanum || c == '_' || c == '-'

def readKeyPart? (text : List Char) : Option (String × List Char) :=
  match text.takeWhile isKeyCharacter with
  | [] => (readString? text).map fun (key, rest) => (String.ofList key, rest)
  | key => some (String.ofList key, text.drop key.length)

/-- Read a dotted key, `bound` parts at most. -/
def readKey? : Nat → List Char → Option (List String × List Char)
  | 0, _ => none
  | bound + 1, text => do
    let (part, rest) ← readKeyPart? (skipSpaces text)
    match skipSpaces rest with
    | '.' :: rest' =>
      let (parts, after) ← readKey? bound rest'
      return (part :: parts, after)
    | rest' => return ([part], rest')

/-- Pass over spaces, line breaks and comments, `bound` lines at most. -/
def skipLines : Nat → List Char → List Char
  | 0, text => text
  | bound + 1, text =>
    let rest := skipComment (skipSpaces text)
    match newline? rest with
    | some rest' => skipLines bound rest'
    | none => rest

/-- Read the items of an array and its closing bracket, `bound` items at most. -/
def readItems? (readItem : List Char → Option (Item × List Char)) :
    Nat → List Char → Option (List Char)
  | 0, _ => none
  | bound + 1, text =>
    match skipLines text.length text with
    | ']' :: rest => some rest
    | text => do
      let (_, rest) ← readItem text
      match skipLines rest.length rest with
      | ',' :: rest' => readItems? readItem bound rest'
      | ']' :: rest' => return rest'
      | _ => none

/-- Read a key and its value into a table. -/
def readField? (readItem : List Char → Option (Item × List Char)) (fields : Fields)
    (text : List Char) : Option (Fields × List Char) := do
  let (key, rest) ← readKey? text.length text
  match rest with
  | '=' :: rest' =>
    let (item, after) ← readItem (skipSpaces rest')
    return (← fields.define item key, after)
  | _ => none

/-- Read the fields of a table on one line and its closing brace, `bound` at most. -/
def readFields? (readItem : List Char → Option (Item × List Char)) :
    Nat → Fields → List Char → Option (List Char)
  | 0, _, _ => none
  | bound + 1, fields, text => do
    let (fields, rest) ← readField? readItem fields text
    match skipSpaces rest with
    | ',' :: rest' => readFields? readItem bound fields rest'
    | '}' :: rest' => return rest'
    | _ => none

/-- Read a value with at most `depth` levels of brackets.  What stands between brackets is
checked and not kept. -/
def readItem? : Nat → List Char → Option (Item × List Char)
  | depth, text =>
    match depth, text with
    | 0, '[' :: _ | 0, '{' :: _ => none
    | depth + 1, '[' :: rest =>
      (readItems? (readItem? depth) (rest.length + 1) rest).map (.scalar .other, ·)
    | depth + 1, '{' :: rest =>
      match skipSpaces rest with
      | '}' :: rest' => some (.scalar .other, rest')
      | rest => (readFields? (readItem? depth) (rest.length + 1) [] rest).map (.scalar .other, ·)
    | _, '"' :: _ | _, '\'' :: _ =>
      (readAnyString? text).map fun (content, rest) =>
        (.scalar (.string (String.ofList content)), rest)
    | _, text => (readBare? text).map fun (value, rest) => (.scalar value, rest)

/-- How deep values may nest. -/
def greatestDepth : Nat := 80

/-- A document that has been read in part: the whole, and the table that lines now go to. -/
structure Progress where
  fields : Fields
  path : List String
deriving Repr

/-- Read the name of a table between brackets. -/
def readHeader? (closer : List Char) (text : List Char) :
    Option (List String × String × List Char) := do
  let (key, rest) ← readKey? text.length text
  let rest' ← Text.dropLead? closer rest
  return (key.dropLast, ← key.getLast?, rest')

def readLineOf? (progress : Progress) (text : List Char) : Option (Progress × List Char) :=
  match text with
  | '[' :: '[' :: rest => do
    let (path, key, after) ← readHeader? [']', ']'] rest
    let fields ← progress.fields.within (Fields.openNext key) path
    return ({ fields, path := path ++ [key] }, after)
  | '[' :: rest => do
    let (path, key, after) ← readHeader? [']'] rest
    let fields ← progress.fields.within (Fields.openTable key) path
    return ({ fields, path := path ++ [key] }, after)
  | text => do
    let (key, rest) ← readKey? text.length text
    match rest with
    | '=' :: rest' =>
      let (item, after) ← readItem? greatestDepth (skipSpaces rest')
      let fields ← progress.fields.within (fun fields => fields.define item key) progress.path
      return ({ progress with fields }, after)
    | _ => none

/-- Read the lines of a document, `bound` at most. -/
def readDocument? : Nat → Progress → List Char → Option Fields
  | 0, _, _ => none
  | bound + 1, progress, text =>
    match skipLines text.length text with
    | [] => some progress.fields
    | text => do
      let (progress, rest) ← readLineOf? progress text
      let rest := skipComment (skipSpaces rest)
      match rest with
      | [] => return progress.fields
      | rest => readDocument? bound progress (← newline? rest)

/-- The root table of a document; none when the text is not well formed. -/
def ofText? (text : String) : Option Fields :=
  let text := text.toList
  let text := (Text.dropLead? ['\uFEFF'] text).getD text
  readDocument? (text.length + 1) { fields := [], path := [] } text

end QueryNotation.Toml
