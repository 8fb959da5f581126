import QueryNotation.Sql.Grammar.Call
import QueryNotation.Sql.Grammar.TypeName

namespace QueryNotation.Sql.Grammar

/-! # Forms that a word begins

Some words begin a form of their own: a case, a cast, a function with words among
its arguments.  Where the form does not fit, the word is a name after all.
-/

def timeFields : List String :=
  ["YEAR", "YEARS", "MONTH", "MONTHS", "WEEK", "WEEKS", "DAY", "DAYS", "DAYOFWEEK", "DAYOFYEAR",
    "DATE", "DATETIME", "HOUR", "HOURS", "MINUTE", "MINUTES", "SECOND", "SECONDS", "CENTURY",
    "DECADE", "DOW", "DOY", "EPOCH", "ISODOW", "ISOWEEK", "ISOYEAR", "JULIAN", "MICROSECOND",
    "MICROSECONDS", "MILLENIUM", "MILLENNIUM", "MILLISECOND", "MILLISECONDS", "NANOSECOND",
    "NANOSECONDS", "QUARTER", "TIME", "TIMEZONE", "TIMEZONE_HOUR", "TIMEZONE_MINUTE"]

/-- A part of a date or a time; one that is not known is kept as it is. -/
def timeField : Grammar String := do
  match ← oneOf? timeFields with
  | some field => return field
  | none => return (← name).text

def interval (inner : Level) : Grammar Expr := do
  let value ← inner.operand
  let unit ← match ← oneOf? timeFields with
    | some first =>
      match ← behind "TO" timeField with
      | some last => pure (" " ++ first ++ " TO " ++ last)
      | none => pure (" " ++ first)
    | none => pure ""
  return .other ("INTERVAL " ++ value.text ++ unit)

def typedLiteral (inner : Level) : Grammar Expr := do
  match ← typeForm with
  | .known type => return .other (type ++ " " ++ (← constantText))
  | .interval => interval inner
  | .custom _ => mismatch

/-- `CASE`, behind the word. -/
def caseForm (inner : Level) : Grammar Expr := do
  let operand ← if ← atKeyword "WHEN" then pure "" else pure (" " ++ (← inner.whole).text)
  let branch : Grammar String := do
    let condition ← inner.whole
    keyword "THEN"
    return " WHEN " ++ condition.text ++ " THEN " ++ (← inner.whole).text
  keyword "WHEN"
  let first ← branch
  let others ← repeated (behind "WHEN" branch)
  let default ← match ← behind "ELSE" inner.whole with
    | some value => pure (" ELSE " ++ value.text)
    | none => pure ""
  keyword "END"
  return .other ("CASE" ++ operand ++ first ++ String.join others ++ default ++ " END")

def castForm (inner : Level) (word : String) : Grammar Expr :=
  parenthesized do
    let operand ← inner.whole
    keyword "AS"
    return .cast operand (← typeText) (some word)

/-- `EXISTS`, behind the word. -/
def existsForm (inner : Level) (negated : Bool) : Grammar Expr := do
  let query ← parenthesized inner.query
  return .subqueryTest (wordIf negated "NOT" ++ "EXISTS (" ++ query.text ++ ")")

/-- `EXTRACT`, behind the word. -/
def extractForm (inner : Level) : Grammar Expr :=
  parenthesized do
    let field ← timeField
    keyword "FROM"
    return .other ("EXTRACT(" ++ field ++ " FROM " ++ (← inner.whole).text ++ ")")

/-- `CEIL` and `FLOOR`, behind the word. -/
def roundForm (inner : Level) (word : String) : Grammar Expr :=
  parenthesized do
    let value ← inner.whole
    let unit ← match ← behind "TO" timeField with
      | some field => pure (" TO " ++ field)
      | none =>
        if ← symbol? "," then
          match ← next with
          | .constant (.number digits long) => pure (", " ++ (Constant.number digits long).text)
          | _ => mismatch
        else pure ""
    return .other (word ++ "(" ++ value.text ++ unit ++ ")")

/-- `POSITION`, behind the word. -/
def positionForm (inner : Level) : Grammar Expr :=
  parenthesized do
    let part ← inner.expression 60
    keyword "IN"
    return .other ("POSITION(" ++ part.text ++ " IN " ++ (← inner.whole).text ++ ")")

def substringForm (inner : Level) (word : String) : Grammar Expr :=
  parenthesized do
    let value ← inner.whole
    let commas ← symbol? ","
    let start ← if commas then pure (", " ++ (← inner.whole).text)
      else
        match ← behind "FROM" inner.whole with
        | some start => pure (" FROM " ++ start.text)
        | none => pure ""
    let further ← if ← keyword? "FOR" then pure true else symbol? ","
    let count ← if further then
        pure ((if commas then ", " else " FOR ") ++ (← inner.whole).text)
      else pure ""
    return .other (word ++ "(" ++ value.text ++ start ++ count ++ ")")

/-- `OVERLAY`, behind the word. -/
def overlayForm (inner : Level) : Grammar Expr :=
  parenthesized do
    let value ← inner.whole
    keyword "PLACING"
    let part ← inner.whole
    keyword "FROM"
    let start ← inner.whole
    let count ← match ← behind "FOR" inner.whole with
      | some count => pure (" FOR " ++ count.text)
      | none => pure ""
    return .other ("OVERLAY(" ++ value.text ++ " PLACING " ++ part.text ++ " FROM " ++ start.text ++
      count ++ ")")

/-- `TRIM`, behind the word. -/
def trimForm (inner : Level) : Grammar Expr :=
  parenthesized do
    let side ← match ← oneOf? ["BOTH", "LEADING", "TRAILING"] with
      | some word => pure (word ++ " ")
      | none => pure ""
    let first ← inner.whole
    match ← behind "FROM" inner.whole with
    | some value => return .other ("TRIM(" ++ side ++ first.text ++ " FROM " ++ value.text ++ ")")
    | none => return .other ("TRIM(" ++ side ++ first.text ++ ")")

def arrayItems (inner : Level) (named : Bool) : Grammar Expr := do
  let items ← commaSeparatedUntil "]" inner.whole
  symbol "]"
  return .array items named

def arrayForm (inner : Level) (word : String) : Grammar Expr := do
  if ← symbol? "[" then arrayItems inner true
  else
    let query ← parenthesized inner.query
    return .call word [.other query.text] {}

/-- `NOT`, behind the word. -/
def notForm (inner : Level) : Grammar Expr := do
  if ← keyword? "EXISTS" then existsForm inner true
  else return .not (← inner.expression 30)

/-- The functions of time, which may be called by their name alone. -/
def clockForm (inner : Level) (word : String) : Grammar Expr := do
  if ← atSymbol "(" then
    let (arguments, frame) ← callArguments inner
    return .call word arguments frame
  else return .bareCall word

/-- What a word begins that is not just a name; none when it is just a name. -/
def wordForm? (inner : Level) (word : String) (keyword : String) : Option (Grammar Expr) :=
  match keyword with
  | "TRUE" => some (return .constant (.bool true))
  | "FALSE" => some (return .constant (.bool false))
  | "NULL" => some (return .constant .null)
  | "CURRENT_CATALOG" | "CURRENT_USER" | "SESSION_USER" | "USER" => some (return .bareCall word)
  | "CURRENT_TIMESTAMP" | "CURRENT_TIME" | "CURRENT_DATE" | "LOCALTIME" | "LOCALTIMESTAMP" =>
    some (clockForm inner word)
  | "CASE" => some (caseForm inner)
  | "CAST" | "TRY_CAST" | "SAFE_CAST" => some (castForm inner keyword)
  | "EXISTS" => some (existsForm inner false)
  | "EXTRACT" => some (extractForm inner)
  | "CEIL" | "FLOOR" => some (roundForm inner keyword)
  | "POSITION" => some (positionForm inner)
  | "SUBSTR" | "SUBSTRING" => some (substringForm inner keyword)
  | "OVERLAY" => some (overlayForm inner)
  | "TRIM" => some (trimForm inner)
  | "INTERVAL" => some (interval inner)
  | "ARRAY" => some (arrayForm inner word)
  | "NOT" => some (notForm inner)
  | _ => none

def namedForm (inner : Level) (word : Name) : Grammar Expr := do
  if ← atSymbol "(" then call inner word.text
  else
    match ← peek? with
    | some (.constant (.string text)) =>
      if word.value.toList.head? = some '_' then
        let _ ← next
        return .other (word.text ++ " " ++ (Constant.string text).text)
      else return .name word
    | _ => return .name word

def wordOperand (inner : Level) (text : String) (quoted : Bool) : Grammar Expr :=
  let word : Name := { value := text, mark := if quoted then some '"' else none }
  match (Token.word text quoted).keyword? with
  | none => namedForm inner word
  | some keyword =>
    match wordForm? inner text keyword with
    | none => namedForm inner word
    | some form =>
      if keyword = "EXISTS" ∨ keyword = "TRIM" then form else orElse form (namedForm inner word)

end QueryNotation.Sql.Grammar
