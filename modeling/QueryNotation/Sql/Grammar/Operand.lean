import QueryNotation.Sql.Grammar.WordForm

namespace QueryNotation.Sql.Grammar

/-! # Operands

An operand is a constant, a form that a word or a symbol begins, or a part of one:
a field behind a point or an element between brackets.
-/

def parenthesesForm (inner : Level) : Grammar Expr := do
  let value ← match ← peekKeyword? with
    | some "SELECT" | some "WITH" => pure (Expr.subquery (← inner.query).text)
    | _ =>
      match ← commaSeparated inner.whole with
      | [value] => pure (Expr.nested value)
      | values => pure (Expr.other ("(" ++ commaList (Expr.texts values) ++ ")"))
  symbol ")"
  return value

/-- The operators that stand before their operand with a space between. -/
def spacedSigns : List String := ["#", "@-@", "@@", "?-", "?|"]

/-- The operators that stand right before their operand. -/
def closeSigns : List String := ["!!", "|/", "||/", "@", "~"]

def symbolOperand (inner : Level) (sign : String) : Grammar Expr := do
  if sign = "[" then arrayItems inner false
  else if sign = "(" then parenthesesForm inner
  else if sign = "-" then return .negative (← inner.expression 90)
  else if sign = "+" then return .other ("+" ++ (← inner.expression 90).text)
  else if sign = ":" then
    match ← next with
    | .word text _ | .constant (.number text false) => return .constant (.parameter (":" ++ text))
    | _ => mismatch
  else if spacedSigns.contains sign then
    return .other (sign ++ " " ++ (← inner.expression 80).text)
  else if closeSigns.contains sign then return .other (sign ++ (← inner.expression 80).text)
  else mismatch

def operand (inner : Level) : Grammar Expr := do
  match ← attempt (typedLiteral inner) with
  | some literal => return literal
  | none =>
    match ← next with
    | .word text quoted => wordOperand inner text quoted
    | .constant value => return .constant value
    | .symbol sign => symbolOperand inner sign
    | .customOperator _ => mismatch

/-- A step from a value to a part of it. -/
inductive Access where
  | field (member : Expr)
  | element (text : String)

def Access.text : Access → String
  | .field member => "." ++ member.text
  | .element text => "[" ++ text ++ "]"

/-- The name that a step leads to, if it leads to one. -/
def Access.name? : Access → Option Name
  | .field (.name word) => some word
  | _ => none

/-- A field, behind the point.  What cannot be one by itself is taken as a name. -/
def fieldAccess (inner : Level) : Grammar Access := do
  let member : Grammar Expr := do
    match ← inner.operand with
    | .name word => return .name word
    | .constant value => return .constant value
    | .call function arguments frame => return .call function arguments frame
    | .bareCall function => return .bareCall function
    | _ => mismatch
  match ← peek? with
  | some (.constant (.string _)) => return .field (.name (← name))
  | _ =>
    match ← attempt member with
    | some value => return .field value
    | none => return .field (.name (← name))

/-- An index or a slice, behind the opening bracket. -/
def elementAccess (inner : Level) : Grammar Access := do
  let bound? : Grammar String := do
    if ← atSymbol "]" then return "" else return (← inner.whole).text
  let first ← if ← atSymbol ":" then pure "" else pure (← inner.whole).text
  if ← symbol? "]" then
    if first.isEmpty then mismatch else return .element first
  else
    symbol ":"
    let last ← bound?
    symbol "]"
    return .element (first ++ ":" ++ last)

/-- One step to a part of a value, if one follows. -/
def access? (inner : Level) : Grammar (Option Access) := do
  if ← symbol? "[" then return some (← elementAccess inner)
  else if (← get).take 2 = [.symbol ".", .symbol "*"] then return none
  else if ← symbol? "." then return some (← fieldAccess inner)
  else return none

/-- The names along a path, if there is nothing but names on it. -/
def pathNames? (root : Expr) (steps : List Access) : Option (List Name) :=
  match root with
  | .name word => (steps.mapM Access.name?).map (word :: ·)
  | _ => none

/-- The part of a value that some steps lead to.  Names make a path, and a path that
ends in a call is the name of the function. -/
def accessed (root : Expr) (steps : List Access) : Expr :=
  match steps.getLast? with
  | none => root
  | some last =>
    let asText := Expr.other (root.text ++ String.join (steps.map Access.text))
    match pathNames? root steps, pathNames? root steps.dropLast, last with
    | some names, _, _ => .path names
    | none, some names, .field (.call function arguments frame) =>
      .call (Name.path names ++ "." ++ function) arguments frame
    | none, some names, .field (.bareCall function) =>
      .bareCall (Name.path names ++ "." ++ function)
    | _, _, _ => asText

def accessForm (inner : Level) : Grammar Expr := do
  let root ← operand inner
  let steps ← repeated (access? inner)
  let value ←
    if (← get).take 2 = [.symbol ".", .symbol "*"] then
      match pathNames? root steps with
      | some names =>
        symbol "."
        symbol "*"
        pure (Expr.other (Name.path names ++ ".*"))
      | none => mismatch
    else pure (accessed root steps)
  match ← behind "COLLATE" dottedName with
  | some collation => return .other (value.text ++ " COLLATE " ++ Name.path collation)
  | none => return value

end QueryNotation.Sql.Grammar
