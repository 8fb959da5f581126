import QueryNotation.Sql.Tree

namespace QueryNotation.Sql

/-! # Reading tokens

A reader takes tokens from the front of a list.  A mismatch may be caught, and
the reader before it then goes on where it stood; nesting that is too deep ends
all reading.
-/

/-- Why reading stops. -/
inductive Stop where
  | mismatch
  | tooDeep
deriving DecidableEq, Repr

abbrev Grammar := StateT (List Token) (Except Stop)

namespace Grammar

def mismatch {α : Type} : Grammar α :=
  throw .mismatch

def peek? : Grammar (Option Token) := do
  return (← get).head?

/-- The next token as a keyword, which stays. -/
def peekKeyword? : Grammar (Option String) := do
  return (← peek?).bind Token.keyword?

/-- True when the next token is this symbol, which stays. -/
def atSymbol (text : String) : Grammar Bool := do
  return (← peek?) == some (.symbol text)

/-- True when the next token is this keyword, which stays. -/
def atKeyword (word : String) : Grammar Bool := do
  return (← peekKeyword?) == some word

def next : Grammar Token := do
  match ← get with
  | [] => mismatch
  | token :: rest =>
    set rest
    return token

def symbol? (text : String) : Grammar Bool := do
  if ← atSymbol text then
    let _ ← next
    return true
  else return false

def keyword? (word : String) : Grammar Bool := do
  if ← atKeyword word then
    let _ ← next
    return true
  else return false

/-- Take these keywords if they are next, all of them or none. -/
def keywords? (words : List String) : Grammar Bool := do
  let tokens ← get
  if (tokens.take words.length).map Token.keyword? = words.map some then
    set (tokens.drop words.length)
    return true
  else return false

/-- Take whichever of the keywords is next. -/
def oneOf? (words : List String) : Grammar (Option String) := do
  match ← peekKeyword? with
  | some word =>
    if words.contains word then
      let _ ← next
      return some word
    else return none
  | none => return none

/-- Take the first of the phrases that stands here, and give its words. -/
def phrase? : List (List String) → Grammar (Option String)
  | [] => return none
  | words :: rest => do
    if ← keywords? words then return some (String.intercalate " " words) else phrase? rest

/-- Take the first of the phrases that stands here, and give it with a space before it;
nothing when none does. -/
def trailingPhrase (phrases : List (List String)) : Grammar String := do
  match ← phrase? phrases with
  | some words => return " " ++ words
  | none => return ""

def symbol (text : String) : Grammar Unit := do
  unless ← symbol? text do mismatch

def keyword (word : String) : Grammar Unit := do
  unless ← keyword? word do mismatch

/-- Take these keywords, which must be next. -/
def keywords (words : List String) : Grammar Unit := do
  unless ← keywords? words do mismatch

/-- Try to read; on a mismatch go on where reading began. -/
def attempt {α : Type} (reader : Grammar α) : Grammar (Option α) := fun tokens =>
  match reader tokens with
  | .ok (value, rest) => .ok (some value, rest)
  | .error .mismatch => .ok (none, tokens)
  | .error .tooDeep => .error .tooDeep

/-- Read as the first reader does or, if it stops for any reason, as the second;
if both stop, the first one's reason holds. -/
def orElse {α : Type} (first second : Grammar α) : Grammar α := fun tokens =>
  match first tokens with
  | .ok result => .ok result
  | .error stop =>
    match second tokens with
    | .ok result => .ok result
    | .error _ => .error stop

/-- Read what stands behind a keyword, if the keyword is next. -/
def behind {α : Type} (word : String) (reader : Grammar α) : Grammar (Option α) := do
  if ← keyword? word then return some (← reader) else return none

def parenthesized {α : Type} (reader : Grammar α) : Grammar α := do
  symbol "("
  let value ← reader
  symbol ")"
  return value

/-- Read as long as there is something more, `bound` times at most. -/
def repeatUpTo {α : Type} (step : Grammar (Option α)) : Nat → Grammar (List α)
  | 0 => return []
  | bound + 1 => do
    match ← step with
    | some value => return value :: (← repeatUpTo step bound)
    | none => return []

/-- Read as long as there is something more.  Every round takes a token. -/
def repeated {α : Type} (step : Grammar (Option α)) : Grammar (List α) := do
  repeatUpTo step (← get).length

/-- Read items with commas between them, one at least. -/
def commaSeparated {α : Type} (item : Grammar α) : Grammar (List α) := do
  let first ← item
  let rest ← repeated do
    if ← symbol? "," then return some (← item) else return none
  return first :: rest

/-- Read items with commas between them, or none before the closing symbol. -/
def commaSeparatedUntil {α : Type} (closer : String) (item : Grammar α) : Grammar (List α) := do
  if ← atSymbol closer then return [] else commaSeparated item

/-- A name: a word in any form, or a string that stands for one. -/
def name : Grammar Name := do
  match ← next with
  | .word text quoted => return { value := text, mark := if quoted then some '"' else none }
  | .constant (.string text) => return { value := text, mark := some '\'' }
  | _ => mismatch

def dottedName : Grammar (List Name) := do
  let first ← name
  let rest ← repeated do
    if ← symbol? "." then return some (← name) else return none
  return first :: rest

def nameList : Grammar (List Name) :=
  parenthesized (commaSeparated name)

def constantText : Grammar String := do
  match ← next with
  | .constant value => return value.text
  | .word text true => return quoteWith '"' text
  | .word text false =>
    let word := (Token.word text false).keyword?
    if word = some "TRUE" then return "true"
    else if word = some "FALSE" then return "false"
    else if word = some "NULL" then return "NULL"
    else mismatch
  | _ => mismatch

def digits : Grammar String := do
  match ← next with
  | .constant (.number text false) =>
    if text.toList.all Char.isDigit then return text else mismatch
  | _ => mismatch

end Grammar

end QueryNotation.Sql
