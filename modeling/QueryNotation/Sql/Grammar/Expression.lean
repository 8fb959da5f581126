import QueryNotation.Sql.Grammar.Operand

namespace QueryNotation.Sql.Grammar

/-! # Expressions

An expression is an operand and what its operators make of it.  An operator that
stands behind an expression has a power; it belongs to the expression if its
power is greater than that of the operator in front.
-/

def comparisonSymbols : List String :=
  ["=", "==", "<", "<=", "<>", ">", ">=", "~", "~*", "!~", "!~*", "~~", "~~*", "!~~", "!~~*", ":=",
    "<=>"]

/-- The symbols that bind less than arithmetic and more than comparison. -/
def otherSymbols : List String :=
  ["|", "||", "&", "&&", "#", "<<", ">>", "->", "->>", "#>", "#>>", "@>", "<@", "#-", "@?", "@@",
    "?", "?&", "?|", "^@", "!", "##", "&<", "&>", "&<|", "|&>", "<<|", "|>>", "<->", "<^", ">^",
    "?#", "?-", "?-|", "?||", "~=", "@"]

/-- The power of a symbol behind an expression; zero when it is no operator. -/
def symbolPower (symbol : String) : Nat :=
  if comparisonSymbols.contains symbol then 50
  else if otherSymbols.contains symbol then 70
  else if symbol = "+" ∨ symbol = "-" then 80
  else if symbol = "*" ∨ symbol = "/" ∨ symbol = "%" then 90
  else if symbol = "^" then 100
  else if symbol = "[" then 130
  else if symbol = "::" then 140
  else 0

/-- The words that `NOT` may precede behind an expression. -/
def testWords : List String :=
  ["IN", "BETWEEN", "LIKE", "ILIKE", "SIMILAR", "REGEXP", "RLIKE"]

/-- The power of a word behind an expression, given the words behind it. -/
def wordPower (word : String) (second third : Option String) : Nat :=
  if word = "OR" then 10
  else if word = "AND" then 20
  else if word = "XOR" then 75
  else if word = "IS" ∨ word = "NOTNULL" then 40
  else if word = "OVERLAPS" ∨ word = "OPERATOR" ∨ testWords.contains word then 60
  else if word = "NOT" then
    match second with
    | some follower =>
      if testWords.contains follower then 60 else if follower = "NULL" then 40 else 0
    | none => 0
  else if word = "AT" ∧ second = some "TIME" ∧ third = some "ZONE" then 110
  else if word = "DIV" then 90
  else 0

def infixPower (tokens : List Token) : Nat :=
  match tokens with
  | .symbol symbol :: _ => symbolPower symbol
  | .customOperator _ :: _ => 70
  | .word text false :: rest =>
    wordPower ((Token.word text false).keyword?.getD "") (rest.head?.bind Token.keyword?)
      ((rest.drop 1).head?.bind Token.keyword?)
  | _ => 0

/-- The symbols that `ANY` and `ALL` may follow. -/
def quantifiedSymbols : List String :=
  ["=", "<", "<=", "<>", ">", ">=", "~", "~*", "!~", "!~*", "~~", "~~*", "!~~", "!~~*"]

def binaryForm (inner : Level) (left : Expr) (power : Nat) (symbol : String) : Grammar Expr := do
  match ← oneOf? ["ANY", "ALL", "SOME"] with
  | some word =>
    Grammar.symbol "("
    let query ← match ← peekKeyword? with
      | some "SELECT" | some "WITH" => pure (← inner.query).text
      | _ => pure (← inner.expression power).text
    Grammar.symbol ")"
    if quantifiedSymbols.contains symbol then
      return .other (left.text ++ " " ++ symbol ++ " " ++ word ++ "(" ++ query ++ ")")
    else mismatch
  | none => return .binary left symbol (← inner.expression power)

/-- `AND` and `OR`, which `ANY` and `ALL` may not follow. -/
def logicForm (inner : Level) (make : Expr → Expr) (power : Nat) : Grammar Expr := do
  match ← oneOf? ["ANY", "ALL", "SOME"] with
  | some _ => mismatch
  | none => return make (← inner.expression power)

/-- What `IS` makes of the expression in front of it. -/
def isForm (inner : Level) (left : Expr) : Grammar Expr := do
  let negated ← keyword? "NOT"
  if ← keyword? "NULL" then return .isTest left .null negated
  else if ← keyword? "TRUE" then return .isTest left .true negated
  else if ← keyword? "FALSE" then return .isTest left .false negated
  else if ← keyword? "UNKNOWN" then return .isTest left .unknown negated
  else if ← keywords? ["DISTINCT", "FROM"] then
    return .other (left.text ++ " IS " ++ wordIf negated "NOT" ++ "DISTINCT FROM " ++
      (← inner.whole).text)
  else mismatch

/-- What `IN` makes of the expression in front of it. -/
def inForm (inner : Level) (left : Expr) (negated : Bool) : Grammar Expr :=
  parenthesized do
    match ← attempt inner.query with
    | some query =>
      return .subqueryTest (left.text ++ " " ++ wordIf negated "NOT" ++ "IN (" ++ query.text ++ ")")
    | none => return .inList left (← commaSeparated inner.whole) negated

/-- What `LIKE` or `ILIKE` makes of the expression in front of it. -/
def likeForm (inner : Level) (left : Expr) (anyCase negated : Bool) : Grammar Expr := do
  let any ← keyword? "ANY"
  let pattern ← inner.expression 60
  let escape ← behind "ESCAPE" constantText
  return .like left pattern anyCase negated any escape

def testForm (inner : Level) (left : Expr) (negated : Bool) : Grammar Expr := do
  let lead := left.text ++ " " ++ wordIf negated "NOT"
  if ← keyword? "IN" then inForm inner left negated
  else if ← keyword? "BETWEEN" then
    let low ← inner.expression 60
    keyword "AND"
    return .other (lead ++ "BETWEEN " ++ low.text ++ " AND " ++ (← inner.expression 60).text)
  else if ← keyword? "LIKE" then likeForm inner left false negated
  else if ← keyword? "ILIKE" then likeForm inner left true negated
  else if ← keywords? ["SIMILAR", "TO"] then
    let pattern ← inner.expression 60
    let escape ← match ← behind "ESCAPE" constantText with
      | some text => pure (" ESCAPE " ++ text)
      | none => pure ""
    return .other (lead ++ "SIMILAR TO " ++ pattern.text ++ escape)
  else
    match ← oneOf? ["REGEXP", "RLIKE"] with
    | some word => return .other (lead ++ word ++ " " ++ (← inner.expression 60).text)
    | none => mismatch

/-- An operator that is given by its name in a schema, behind its word. -/
def namedOperator : Grammar String := do
  let part : Grammar String := do
    match ← next with
    | .symbol text | .customOperator text => return text
    | .word text quoted => return if quoted then quoteWith '"' text else text
    | .constant value => return value.text
  let parts ← parenthesized do
    let first ← part
    let others ← repeated do
      if ← symbol? "." then return some (← part) else return none
    return first :: others
  return "OPERATOR(" ++ String.intercalate "." parts ++ ")"

def infixWord (inner : Level) (left : Expr) (power : Nat) : Grammar Expr := do
  if ← keyword? "AND" then logicForm inner (.and left) power
  else if ← keyword? "OR" then logicForm inner (.or left) power
  else if ← keyword? "XOR" then binaryForm inner left power "XOR"
  else if ← keyword? "OVERLAPS" then binaryForm inner left power "OVERLAPS"
  else if ← keyword? "OPERATOR" then binaryForm inner left power (← namedOperator)
  else if ← keyword? "IS" then isForm inner left
  else if ← keyword? "NOTNULL" then return .isTest left .null true
  else if ← keywords? ["AT", "TIME", "ZONE"] then
    return .other (left.text ++ " AT TIME ZONE " ++ (← inner.expression power).text)
  else if ← keywords? ["NOT", "NULL"] then return .isTest left .null true
  else testForm inner left (← keyword? "NOT")

def infixForm (inner : Level) (left : Expr) (power : Nat) : Grammar Expr := do
  match ← peek? with
  | some (.symbol sign) =>
    let _ ← next
    if sign = "::" then return .cast left (← typeText) none
    else if sign = "!" then return .other (left.text ++ "!")
    else if sign = "[" then mismatch
    else binaryForm inner left power (if sign = "==" then "=" else sign)
  | some (.customOperator sign) =>
    let _ ← next
    binaryForm inner left power sign
  | _ => infixWord inner left power

/-- Take the operators that bind more tightly than `power`, `bound` of them at most. -/
def infixUpTo (inner : Level) (power : Nat) : Nat → Expr → Grammar Expr
  | 0, left => return left
  | bound + 1, left => do
    let nextPower := infixPower (← get)
    if nextPower ≤ power then return left
    else infixUpTo inner power bound (← infixForm inner left nextPower)

/-- An expression whose operators all bind more tightly than `power`. -/
def expression (inner : Level) (power : Nat) : Grammar Expr := do
  let left ← accessForm inner
  infixUpTo inner power (← get).length left

end QueryNotation.Sql.Grammar
