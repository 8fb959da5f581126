import QueryNotation.Sql.Grammar.Definition
import QueryNotation.Sql.Grammar.Query
import QueryNotation.Sql.Token.Scan

namespace QueryNotation.Sql

/-! # Statements

A text holds statements with semicolons between them.  How deep things nest in a
statement is bounded.
-/

namespace Grammar

def queryWords : List String := ["SELECT", "WITH", "VALUES", "FROM"]

def explainStatement (word : String) (statement : Grammar Statement) : Grammar String := do
  let analyze ← keyword? "ANALYZE"
  let verbose ← keyword? "VERBOSE"
  let lead := word ++ " " ++ wordIf analyze "ANALYZE" ++ wordIf verbose "VERBOSE"
  match ← attempt statement with
  | some inner => return lead ++ inner.text
  | none => return word ++ " " ++ Name.path (← dottedName)

/-- A statement, whose parts nest on the given level; `explained` reads a statement that is
part of this one. -/
def statement (inner : Level) (explained : Grammar Statement) : Grammar Statement := do
  if ← atSymbol "(" then return .query (← inner.query)
  else
    match ← peekKeyword? with
    | none => mismatch
    | some word =>
      if queryWords.contains word then return .query (← inner.query)
      else
        let _ ← next
        match word with
        | "INSERT" => return .insert (← insertTree inner)
        | "UPDATE" => return .update (← updateTree inner)
        | "DELETE" => return .delete (← deleteTree inner)
        | "CREATE" => return .other (← createStatement inner)
        | "DROP" => return .other (← dropStatement)
        | "TRUNCATE" => return .other (← truncateStatement)
        | "EXPLAIN" | "DESCRIBE" | "DESC" => return .other (← explainStatement word explained)
        | "BEGIN" => return .other (← beginStatement)
        | "START" =>
          keyword "TRANSACTION"
          return .other ("START TRANSACTION" ++ (← transactionModes))
        | "COMMIT" => return .other ("COMMIT" ++ (← chain?))
        | "END" => return .other ("END" ++ (← chain?))
        | "ROLLBACK" => return .other (← rollbackStatement)
        | "SAVEPOINT" => return .other ("SAVEPOINT " ++ (← name).text)
        | "RELEASE" =>
          let _ ← keyword? "SAVEPOINT"
          return .other ("RELEASE SAVEPOINT " ++ (← name).text)
        | _ => mismatch

/-- A statement whose parts nest at most `depth` deep, itself counted. -/
def statementOfDepth : Nat → Grammar Statement
  | 0 => throw .tooDeep
  | depth + 1 => statement (Level.ofDepth depth) (statementOfDepth depth)

/-- Statements with semicolons between them, `bound` of them at most.  The word `END`
behind a statement ends the list. -/
def statementsUpTo (read : Grammar Statement) : Nat → Grammar (List Statement)
  | 0 => return []
  | bound + 1 => do
    let _ ← repeated do
      if ← symbol? ";" then return some () else return none
    if (← peek?).isNone then return []
    else
      let first ← read
      if ← atSymbol ";" then return first :: (← statementsUpTo read bound)
      else if (← peek?).isNone then return [first]
      else if ← atKeyword "END" then return [first]
      else mismatch

end Grammar

/-- The statements of a text, nested at most `depth` deep.  Apart from the first few,
a level of nesting takes a token, so that the number of tokens bounds the levels too. -/
def Statement.ofText (depth : Nat) (text : List Char) : Except Stop (List Statement) :=
  match Token.scan? text with
  | none => .error .mismatch
  | some tokens =>
    let read := Grammar.statementOfDepth (min depth (tokens.length + 4))
    (Grammar.statementsUpTo read (tokens.length + 1) tokens).map Prod.fst

end QueryNotation.Sql
