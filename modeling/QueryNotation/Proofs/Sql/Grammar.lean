import QueryNotation.Proofs.Sql.Token
import QueryNotation.Sql.Grammar.Statement

namespace QueryNotation.Sql.Grammar

/-! # The tree of a comparison

What the grammar makes of the tokens of a statement that compares a column with a numeral.  A
reader is run on tokens that are known but for the two names, so that each step needs only the
words that a name must not be.
-/

variable {α β : Type} {tokens rest : List Token} {reader : Grammar α} {value : α} {text word : String}

theorem bind_run (reader : Grammar α) (next : α → Grammar β) (tokens : List Token) :
    (reader >>= next) tokens = reader tokens >>= fun found => next found.1 found.2 :=
  rfl

theorem pure_run (value : α) (tokens : List Token) : (pure value : Grammar α) tokens = .ok (value, tokens) :=
  rfl

theorem get_run (tokens : List Token) : (get : Grammar (List Token)) tokens = .ok (tokens, tokens) :=
  rfl

theorem ite_run {condition : Prop} [Decidable condition] (first second : Grammar α) (tokens : List Token) :
    (if condition then first else second) tokens = if condition then first tokens else second tokens := by
  split <;> rfl

theorem peek?_run (tokens : List Token) : peek? tokens = .ok (tokens.head?, tokens) :=
  rfl

theorem peekKeyword?_run (tokens : List Token) :
    peekKeyword? tokens = .ok (tokens.head?.bind Token.keyword?, tokens) :=
  rfl

theorem atSymbol_run (text : String) (tokens : List Token) :
    atSymbol text tokens = .ok (tokens.head? == some (.symbol text), tokens) :=
  rfl

theorem atKeyword_run (word : String) (tokens : List Token) :
    atKeyword word tokens = .ok (tokens.head?.bind Token.keyword? == some word, tokens) :=
  rfl

theorem next_run (token : Token) (rest : List Token) : next (token :: rest) = .ok (token, rest) :=
  rfl

theorem symbol?_other (other : tokens.head? ≠ some (.symbol text)) :
    symbol? text tokens = .ok (false, tokens) := by
  simp only [symbol?, bind_run, atSymbol_run, ok_bind, beq_eq_false_iff_ne.mpr other]
  rfl

/-- What stands behind a symbol is not looked for when another token is next. -/
theorem optional_other (other : tokens.head? ≠ some (.symbol text)) (taken : Grammar (Option α)) :
    (do if ← symbol? text then taken else return none : Grammar (Option α)) tokens = .ok (none, tokens) := by
  rw [bind_run, symbol?_other other]
  rfl

theorem keyword?_other (other : tokens.head?.bind Token.keyword? ≠ some word) :
    keyword? word tokens = .ok (false, tokens) := by
  simp only [keyword?, bind_run, atKeyword_run, ok_bind, beq_eq_false_iff_ne.mpr other]
  rfl

theorem keyword?_here {token : Token} (here : token.keyword? = some word) (rest : List Token) :
    keyword? word (token :: rest) = .ok (true, rest) := by
  simp [keyword?, bind_run, atKeyword_run, ok_bind, here]
  rfl

/-- A list of keywords is not taken unless the first of them is next. -/
theorem keywords?_other {words : List String} (other : tokens.head?.bind Token.keyword? ≠ some word) :
    keywords? (word :: words) tokens = .ok (false, tokens) := by
  have differ : (tokens.take (word :: words).length).map Token.keyword? ≠ (word :: words).map some := by
    cases tokens with
    | nil => simp
    | cons token rest => exact fun same => other (List.cons.inj same).1
  simp only [keywords?, bind_run, get_run, ok_bind, if_neg differ]
  rfl

theorem oneOf?_other {words : List String} (other : ∀ word ∈ tokens.head?.bind Token.keyword?, word ∉ words) :
    oneOf? words tokens = .ok (none, tokens) := by
  simp only [oneOf?, bind_run, peekKeyword?_run, ok_bind]
  cases shape : tokens.head?.bind Token.keyword? with
  | none => rfl
  | some word =>
      have absent : words.contains word = false := by simpa using other word shape
      simp only [absent]
      rfl

theorem behind_other (other : tokens.head?.bind Token.keyword? ≠ some word) (reader : Grammar α) :
    behind word reader tokens = .ok (none, tokens) := by
  simp only [behind, bind_run, keyword?_other other, ok_bind]
  rfl

theorem behind_here {token : Token} (here : token.keyword? = some word)
    (read : reader tokens = .ok (value, rest)) : behind word reader (token :: tokens) = .ok (some value, rest) := by
  simp only [behind, bind_run, keyword?_here here, ok_bind, if_true, read]
  rfl

theorem attempt_mismatch (read : reader tokens = .error .mismatch) :
    attempt reader tokens = .ok (none, tokens) := by
  rw [attempt, read]

theorem repeated_none {step : Grammar (Option α)} (read : step tokens = .ok (none, tokens)) :
    repeated step tokens = .ok ([], tokens) := by
  rw [repeated, bind_run, get_run, ok_bind]
  cases tokens with
  | nil => rfl
  | cons token rest =>
      simp only [List.length_cons, repeatUpTo, bind_run, read, ok_bind]
      rfl

/-- One item is a whole list when no comma follows. -/
theorem commaSeparated_single (read : reader tokens = .ok (value, rest)) (ends : rest.head? ≠ some (.symbol ",")) :
    commaSeparated reader tokens = .ok ([value], rest) := by
  simp only [commaSeparated, bind_run, read, ok_bind, repeated_none (optional_other ends _)]
  rfl

theorem dottedName_single (text : String) {rest : List Token} (ends : rest.head? ≠ some (.symbol ".")) :
    dottedName (.word text false :: rest) = .ok ([{ value := text }], rest) := by
  have first : name (.word text false :: rest) = .ok ({ value := text }, rest) := rfl
  simp only [dottedName, bind_run, first, ok_bind, repeated_none (optional_other ends _)]
  rfl

/-- The words that may continue a type or a constant whose first word is a name elsewhere. -/
def partWords : List String :=
  ["VARYING", "UNSIGNED", "PRECISION", "WITH", "WITHOUT", "COLLATE", "TRUE", "FALSE", "NULL"]

/-- The tokens that may follow an operand without being a part of it. -/
inductive EndsOperand : Token → Prop where
  | symbol {mark : String} (apart : mark ∉ [".", "(", "["]) : EndsOperand (.symbol mark)
  | word {text : String} (apart : String.ofList (text.toList.map Char.toUpper) ∉ partWords) :
    EndsOperand (.word text false)

variable {follower : Token}

namespace EndsOperand

theorem ne_symbol (ends : EndsOperand follower) {mark : String} (known : mark ∈ [".", "(", "["]) :
    follower ≠ .symbol mark := by
  rintro rfl
  cases ends with
  | symbol apart => exact apart known

theorem keyword?_ne (ends : EndsOperand follower) (known : word ∈ partWords) : follower.keyword? ≠ some word := by
  cases ends with
  | symbol apart => simp [Token.keyword?]
  | word apart => exact fun same => apart (Option.some.inj same ▸ known)

theorem keyword?_run (ends : EndsOperand follower) (known : word ∈ partWords) (rest : List Token) :
    keyword? word (follower :: rest) = .ok (false, follower :: rest) :=
  keyword?_other (ends.keyword?_ne known)

theorem keywords?_run (ends : EndsOperand follower) (known : word ∈ partWords) (words : List String)
    (rest : List Token) : keywords? (word :: words) (follower :: rest) = .ok (false, follower :: rest) :=
  keywords?_other (ends.keyword?_ne known)

theorem symbol?_run (ends : EndsOperand follower) {mark : String} (known : mark ∈ [".", "(", "["]) (rest : List Token) :
    symbol? mark (follower :: rest) = .ok (false, follower :: rest) :=
  symbol?_other fun same => ends.ne_symbol known (Option.some.inj same)

theorem constantText_run (ends : EndsOperand follower) (rest : List Token) :
    constantText (follower :: rest) = .error .mismatch := by
  cases ends with
  | symbol apart => rfl
  | @word text apart =>
      simp only [partWords, List.mem_cons, List.not_mem_nil, or_false, not_or] at apart
      simp only [constantText, bind_run, next_run, ok_bind, Token.keyword?, Option.some.injEq, apart, if_false]
      rfl

theorem length?_run (ends : EndsOperand follower) (rest : List Token) :
    length? (follower :: rest) = .ok ("", follower :: rest) := by
  rw [length?, bind_run, ends.symbol?_run (by decide)]
  rfl

theorem precision?_run (ends : EndsOperand follower) (rest : List Token) :
    precision? (follower :: rest) = .ok ("", follower :: rest) := by
  rw [precision?, bind_run, ends.symbol?_run (by decide)]
  rfl

theorem zone?_run (ends : EndsOperand follower) (rest : List Token) :
    zone? (follower :: rest) = .ok ("", follower :: rest) := by
  rw [zone?, bind_run, ends.keywords?_run (by decide), ok_bind]
  simp only [Bool.false_eq_true, if_false, bind_run, ends.keywords?_run (show "WITHOUT" ∈ partWords by decide), ok_bind]
  rfl

theorem typeArguments?_run (ends : EndsOperand follower) (rest : List Token) :
    typeArguments? (follower :: rest) = .ok ("", follower :: rest) := by
  rw [typeArguments?, bind_run, ends.symbol?_run (by decide)]
  rfl

end EndsOperand

theorem elementType_word (text : String) (rest : List Token) (ends : EndsOperand follower)
    (timed : (Token.word text false).keyword? ≠ some "INTERVAL") :
    ∃ form, elementType (.word text false :: follower :: rest) = .ok (form, follower :: rest) ∧
      form ≠ .interval := by
  have named : dottedName (.word text false :: follower :: rest) = .ok ([{ value := text }], follower :: rest) :=
    dottedName_single text fun same => ends.ne_symbol (by decide) (Option.some.inj same)
  have custom : ∃ form, elementType.custom (.word text false :: follower :: rest) =
      .ok (form, follower :: rest) ∧ form ≠ .interval := by
    refine ⟨.custom (Name.path [{ value := text }] ++ ""), ?_, by simp⟩
    simp only [elementType.custom, bind_run, named, ok_bind, ends.typeArguments?_run, pure_run]
  have word : (Token.word text false).keyword? = some (String.ofList (text.toList.map Char.toUpper)) := rfl
  rw [word] at timed
  unfold elementType
  simp only [bind_run, peekKeyword?_run, ok_bind, List.head?_cons, Option.bind_some, word, ite_run]
  generalize String.ofList (text.toList.map Char.toUpper) = upper at timed
  have length := ends.length?_run rest
  have precision := ends.precision?_run rest
  have zone := ends.zone?_run rest
  have varying := ends.keyword?_run (show "VARYING" ∈ partWords by decide) rest
  have unsigned := ends.keyword?_run (show "UNSIGNED" ∈ partWords by decide) rest
  have exactly := ends.keyword?_run (show "PRECISION" ∈ partWords by decide) rest
  -- What may stand behind the word of a type is a bracket or a keyword, and the follower is neither.
  by_cases plain : plainTypes.contains upper = true
  · rw [if_pos plain]
    exact ⟨_, rfl, by simp⟩
  by_cases sized : sizedTypes.contains upper = true
  · rw [if_neg plain, if_pos sized]
    by_cases bits : upper = "BIT"
    · simp only [next_run, ok_bind, if_pos bits, varying, length, unsigned]
      exact ⟨_, rfl, by simp⟩
    · simp only [next_run, ok_bind, if_neg bits, pure_run, length, unsigned]
      exact ⟨_, rfl, by simp⟩
  by_cases exacts : exactTypes.contains upper = true
  · rw [if_neg plain, if_neg sized, if_pos exacts]
    simp only [next_run, ok_bind, precision]
    exact ⟨_, rfl, by simp⟩
  rw [if_neg plain, if_neg sized, if_neg exacts]
  by_cases double : upper = "DOUBLE"
  · rw [if_pos double]
    simp only [next_run, ok_bind, exactly, precision]
    exact ⟨_, rfl, by simp⟩
  by_cases character : upper = "CHAR" ∨ upper = "CHARACTER"
  · rw [if_neg double, if_pos character]
    simp only [next_run, ok_bind, varying, length]
    exact ⟨_, rfl, by simp⟩
  by_cases time : upper = "TIME" ∨ upper = "TIMESTAMP"
  · rw [if_neg double, if_neg character, if_pos time]
    simp only [next_run, ok_bind, zone, length]
    exact ⟨_, rfl, by simp⟩
  rw [if_neg double, if_neg character, if_neg time, if_neg fun interval => timed (congrArg some interval)]
  split
  · simp only [next_run, ok_bind, length]
    exact ⟨_, rfl, by simp⟩
  · exact custom

/-- No typed constant stands in front of such a token, whatever its word may name elsewhere. -/
theorem typedLiteral_word (inner : Level) (text : String) (rest : List Token) (ends : EndsOperand follower)
    (timed : (Token.word text false).keyword? ≠ some "INTERVAL") :
    typedLiteral inner (.word text false :: follower :: rest) = .error .mismatch := by
  obtain ⟨form, read, known⟩ := elementType_word text rest ends timed
  have plain : arrayBrackets (follower :: rest) = .ok ("", follower :: rest) := by
    have other : (follower :: rest).head? ≠ some (.symbol "[") :=
      fun same => ends.ne_symbol (by decide) (Option.some.inj same)
    rw [arrayBrackets, bind_run, repeated_none (optional_other other _)]
    rfl
  have type : typeForm (.word text false :: follower :: rest) = .ok (form, follower :: rest) := by
    rw [typeForm, bind_run, read, ok_bind, bind_run, plain]
    rfl
  rw [typedLiteral, bind_run, type, ok_bind]
  cases form with
  | known text =>
      dsimp only
      rw [bind_run, ends.constantText_run]
      rfl
  | interval => exact absurd rfl known
  | custom text => rfl

/-- A name that stands bare and is none of these words in capitals. -/
structure IsFree (words : List String) (name : String) : Prop where
  bare : IsBare name
  apart : String.ofList (name.toList.map Char.toUpper) ∉ words

instance (words : List String) (name : String) : Decidable (IsFree words name) :=
  decidable_of_iff (IsBare name ∧ String.ofList (name.toList.map Char.toUpper) ∉ words)
    ⟨fun both => ⟨both.1, both.2⟩, fun free => ⟨free.bare, free.apart⟩⟩

/-- The words that begin a form of their own where an operand stands. -/
def formWords : List String :=
  ["TRUE", "FALSE", "NULL", "CURRENT_CATALOG", "CURRENT_USER", "SESSION_USER", "USER", "CURRENT_TIMESTAMP",
    "CURRENT_TIME", "CURRENT_DATE", "LOCALTIME", "LOCALTIMESTAMP", "CASE", "CAST", "TRY_CAST", "SAFE_CAST",
    "EXISTS", "EXTRACT", "CEIL", "FLOOR", "POSITION", "SUBSTR", "SUBSTRING", "OVERLAY", "TRIM", "INTERVAL",
    "ARRAY", "NOT"]

theorem wordForm?_none {keyword : String} (other : keyword ∉ formWords) (inner : Level) (word : String) :
    wordForm? inner word keyword = none := by
  unfold wordForm?
  split
  all_goals first | rfl | exact absurd (by decide) other

variable {inner : Level} {column : String}

theorem operand_column (inner : Level) (held : IsFree formWords column) (ends : EndsOperand follower)
    (rest : List Token) :
    operand inner (.word column false :: follower :: rest) = .ok (.name { value := column }, follower :: rest) := by
  have timed : (Token.word column false).keyword? ≠ some "INTERVAL" := by
    intro interval
    have apart := held.apart
    rw [Option.some.inj interval] at apart
    exact apart (by decide)
  have literal := attempt_mismatch (typedLiteral_word inner column rest ends timed)
  have named : namedForm inner { value := column } (follower :: rest) =
      .ok (.name { value := column }, follower :: rest) := by
    have call : ((follower :: rest).head? == some (.symbol "(")) = false :=
      beq_eq_false_iff_ne.mpr fun same => ends.ne_symbol (by decide) (Option.some.inj same)
    rw [namedForm, bind_run, atSymbol_run, ok_bind, call]
    cases ends <;> rfl
  have word : wordOperand inner column false = namedForm inner { value := column } := by
    have keyword : (Token.word column false).keyword? = some (String.ofList (column.toList.map Char.toUpper)) := rfl
    rw [wordOperand]
    simp only [keyword, wordForm?_none held.apart]
    rfl
  rw [operand, bind_run, literal, ok_bind]
  simp only [bind_run, next_run, ok_bind, word, named]

theorem typedLiteral_constant (inner : Level) (value : Constant) :
    typedLiteral inner [.constant value] = .error .mismatch := by
  cases value <;> rfl

theorem operand_constant (inner : Level) (value : Constant) :
    operand inner [.constant value] = .ok (.constant value, []) := by
  rw [operand, bind_run, attempt_mismatch (typedLiteral_constant inner value)]
  rfl

/-- An operand that nothing behind it takes a part of. -/
theorem accessForm_plain {value : Expr} {tokens : List Token} (read : operand inner tokens = .ok (value, rest))
    (plain : rest.head? ∉ [some (.symbol "."), some (.symbol "[")])
    (ends : rest.head?.bind Token.keyword? ≠ some "COLLATE") : accessForm inner tokens = .ok (value, rest) := by
  simp only [List.mem_cons, List.not_mem_nil, or_false, not_or] at plain
  have apart : rest.take 2 ≠ [.symbol ".", .symbol "*"] := by
    intro same
    cases rest with
    | nil => cases same
    | cons first more => exact plain.1 (congrArg some (List.cons.inj same).1)
  have none : access? inner rest = .ok (none, rest) := by
    simp only [access?, bind_run, symbol?_other plain.2, ok_bind, Bool.false_eq_true, if_false, get_run, if_neg apart,
      symbol?_other plain.1]
    rfl
  simp only [accessForm, bind_run, read, ok_bind, repeated_none none, get_run, if_neg apart, pure_run,
    behind_other ends]
  rfl

/-- An expression that nothing stands behind. -/
theorem expression_last {value : Expr} {tokens : List Token} (power : Nat)
    (read : operand inner tokens = .ok (value, [])) : expression inner power tokens = .ok (value, []) := by
  rw [expression, bind_run, accessForm_plain read (by simp) (by simp)]
  rfl

theorem expression_constant (inner : Level) (power : Nat) (value : Constant) :
    expression inner power [.constant value] = .ok (.constant value, []) :=
  expression_last power (operand_constant inner value)

theorem accessForm_column (inner : Level) (held : IsFree formWords column) (ends : EndsOperand follower)
    (rest : List Token) :
    accessForm inner (.word column false :: follower :: rest) = .ok (nameTree column, follower :: rest) := by
  refine accessForm_plain (operand_column inner held ends rest) ?_ (ends.keyword?_ne (by decide))
  simp only [List.head?_cons, List.mem_cons, Option.some.injEq, List.not_mem_nil, or_false, not_or]
  exact ⟨ends.ne_symbol (by decide), ends.ne_symbol (by decide)⟩

theorem operand_negative (inner : Level) (digits : String) :
    operand inner.above [.symbol "-", .constant (.number digits false)] =
      .ok (.negative (.constant (.number digits false)), []) := by
  have literal : typedLiteral inner.above [.symbol "-", .constant (.number digits false)] = .error .mismatch := rfl
  have behind : symbolOperand inner.above "-" [.constant (.number digits false)] =
      .ok (.negative (.constant (.number digits false)), []) := by
    have number := expression_constant inner 90 (.number digits false)
    change (do return Expr.negative (← expression inner 90) : Grammar Expr) [.constant (.number digits false)] = _
    rw [bind_run, number]
    rfl
  rw [operand, bind_run, attempt_mismatch literal, ok_bind]
  exact behind

theorem expression_numeral (inner : Level) (power : Nat) (text : String) :
    expression inner.above power (numeralTokens text) = .ok (numberTree text, []) := by
  by_cases negative : ∃ digits, text.toList = '-' :: digits
  · obtain ⟨digits, shape⟩ := negative
    have tokens : numeralTokens text = [.symbol "-", .constant (.number (String.ofList digits) false)] := by
      unfold numeralTokens
      simp only [shape]
    have tree : numberTree text = .negative (.constant (.number (String.ofList digits) false)) := by
      unfold numberTree
      simp only [shape]
    rw [tokens, tree]
    exact expression_last power (operand_negative inner _)
  · have tokens : numeralTokens text = [.constant (.number text false)] := by
      unfold numeralTokens
      split
      · next digits shape => exact absurd ⟨digits, shape⟩ negative
      · rfl
    have tree : numberTree text = .constant (.number text false) := by
      unfold numberTree
      split
      · next digits shape => exact absurd ⟨digits, shape⟩ negative
      · rfl
    rw [tokens, tree]
    exact expression_constant inner.above power (.number text false)

/-- The symbols of the operators that compare by size. -/
theorem treeSymbol_mem {op : Operator} (compares : op ∈ comparisons) :
    treeSymbol op ∈ ["=", "<>", ">", ">=", "<", "<="] := by
  revert compares
  cases op <;> decide

/-- A numeral begins with no keyword. -/
theorem keyword?_numeralTokens (text : String) : (numeralTokens text).head?.bind Token.keyword? = none := by
  unfold numeralTokens
  split <;> rfl

theorem infixUpTo_last (inner : Level) (power bound : Nat) (left : Expr) :
    infixUpTo inner power bound left [] = .ok (left, []) := by
  cases bound <;> rfl

/-- One operator that takes all that stands behind an expression. -/
theorem infixUpTo_single {power : Nat} {left value : Expr} {tokens : List Token} (bound : Nat)
    (stronger : power < infixPower tokens)
    (read : infixForm inner left (infixPower tokens) tokens = .ok (value, [])) :
    infixUpTo inner power (bound + 1) left tokens = .ok (value, []) := by
  have weak : ¬ infixPower tokens ≤ power := by omega
  rw [infixUpTo, bind_run, get_run, ok_bind]
  dsimp only
  rw [ite_run, if_neg weak, bind_run, read, ok_bind]
  exact infixUpTo_last inner power bound value

theorem infixForm_comparison {mark : String} (compares : mark ∈ ["=", "<>", ">", ">=", "<", "<="])
    {right : Expr} (left : Expr) (power : Nat) (plain : tokens.head?.bind Token.keyword? = none)
    (read : inner.expression power tokens = .ok (right, [])) :
    infixForm inner left power (.symbol mark :: tokens) = .ok (.binary left mark right, []) := by
  have same : mark ≠ "::" ∧ mark ≠ "!" ∧ mark ≠ "[" ∧ (if mark = "==" then "=" else mark) = mark := by
    revert compares
    simp only [List.mem_cons, List.not_mem_nil, or_false]
    rintro (rfl | rfl | rfl | rfl | rfl | rfl) <;> decide
  have bare : oneOf? ["ANY", "ALL", "SOME"] tokens = .ok (none, tokens) := oneOf?_other (by simp [plain])
  rw [infixForm, bind_run, peek?_run, ok_bind]
  simp only [List.head?_cons, bind_run, next_run, ok_bind, if_neg same.1, if_neg same.2.1, if_neg same.2.2.1,
    same.2.2.2, binaryForm, bare, read]
  rfl

/-- A column, the symbol of a comparison and an operand that takes all that stands behind it. -/
theorem expression_compared {op : Operator} {right : Expr} (compares : op ∈ comparisons)
    (held : IsFree formWords column) (plain : tokens.head?.bind Token.keyword? = none)
    (read : inner.expression 50 tokens = .ok (right, [])) :
    expression inner 0 (.word column false :: .symbol (treeSymbol op) :: tokens) =
      .ok (.binary (nameTree column) (treeSymbol op) right, []) := by
  have symbols := treeSymbol_mem compares
  generalize treeSymbol op = mark at symbols
  -- The mark takes no part of the column in front of it.
  have known : mark ∉ [".", "(", "["] ∧ symbolPower mark = 50 := by
    revert symbols
    simp only [List.mem_cons, List.not_mem_nil, or_false]
    rintro (rfl | rfl | rfl | rfl | rfl | rfl) <;> decide
  obtain ⟨apart, power⟩ := known
  rw [expression, bind_run, accessForm_column inner held (.symbol apart), ok_bind, bind_run, get_run, ok_bind]
  refine infixUpTo_single _ ?_ ?_
  · rw [infixPower, power]
    decide
  · rw [infixPower, power]
    exact infixForm_comparison symbols (nameTree column) 50 plain read

theorem expression_comparison {op : Operator} (compares : op ∈ comparisons)
    (held : IsFree formWords column) (inner : Level) (numeral : String) :
    expression inner.above.above 0 (conditionTokens column op numeral) =
      .ok (.binary (nameTree column) (treeSymbol op) (numberTree numeral), []) :=
  expression_compared compares held (keyword?_numeralTokens numeral) (expression_numeral inner 50 numeral)

/-- The words that begin something other than a table where a table stands. -/
def tableWords : List String :=
  ["LATERAL", "UNNEST"]

abbrev whereToken : Token :=
  .word "WHERE" false

theorem keyword?_where {word : String} (other : word ≠ "WHERE") (rest : List Token) :
    keyword? word (whereToken :: rest) = .ok (false, whereToken :: rest) :=
  keyword?_other fun same => other (Option.some.inj same).symm

theorem keywords?_where {word : String} (other : word ≠ "WHERE") (words : List String) (rest : List Token) :
    keywords? (word :: words) (whereToken :: rest) = .ok (false, whereToken :: rest) :=
  keywords?_other fun same => other (Option.some.inj same).symm

theorem keyword?_table {table word : String} (named : IsFree tableWords table)
    (known : word ∈ tableWords) (rest : List Token) :
    keyword? word (.word table false :: rest) = .ok (false, .word table false :: rest) :=
  keyword?_other fun same => named.apart (Option.some.inj same ▸ known)

theorem tableLabel?_where (rest : List Token) : tableLabel? (whereToken :: rest) = .ok (none, whereToken :: rest) := by
  have none : otherName? reservedAfterTable (whereToken :: rest) = .ok (none, whereToken :: rest) := by
    rw [otherName?, bind_run, keyword?_where (by decide), ok_bind]
    rfl
  rw [tableLabel?, bind_run, none]
  rfl

theorem join?_where (inner : Level) (rest : List Token) :
    join? inner (whereToken :: rest) = .ok (none, whereToken :: rest) := by
  have kind : joinKind? (whereToken :: rest) = .ok (none, whereToken :: rest) := by
    rw [joinKind?, bind_run, keyword?_where (by decide), ok_bind]
    rfl
  simp only [join?, bind_run, keywords?_where (show "CROSS" ≠ "WHERE" by decide),
    keyword?_where (show "NATURAL" ≠ "WHERE" by decide), ok_bind, Bool.false_eq_true, if_false, kind]
  rfl

theorem joinedTable_where {table : String} (named : IsFree tableWords table)
    (inner : Level) (rest : List Token) :
    joinedTable inner (.word table false :: whereToken :: rest) = .ok (tableTree table, whereToken :: rest) := by
  have name := @dottedName_single table (whereToken :: rest) (by simp)
  have ordinality : ordinality? (whereToken :: rest) = .ok ("", whereToken :: rest) := by
    rw [ordinality?, bind_run, keywords?_where (by decide)]
    rfl
  have word : (some (Token.word table false) == some (Token.symbol "(")) = false := by simp
  have mark : (some whereToken == some (Token.symbol "(")) = false := by simp
  have source : tableSource inner (.word table false :: whereToken :: rest) =
      .ok (.table [{ value := table }] "" none, whereToken :: rest) := by
    simp only [tableSource, bind_run, keyword?_table named (show "LATERAL" ∈ tableWords by decide),
      keyword?_table named (show "UNNEST" ∈ tableWords by decide), ok_bind, Bool.false_eq_true, if_false,
      atSymbol_run, List.head?_cons, ite_run, word, mark, name, pure_run, ordinality, tableLabel?_where]
    rfl
  rw [joinedTable, bind_run, source, ok_bind, bind_run, repeated_none (join?_where inner rest)]
  rfl

section Filtered

variable {table : String} {condition : Expr}

theorem selectItem_star (inner : Level) (rest : List Token) :
    selectItem inner (.symbol "*" :: rest) = .ok (.wildcard, rest) :=
  rfl

theorem selection_filtered (named : IsFree tableWords table) (inner : Level)
    (read : expression inner.above.above 0 tokens = .ok (condition, [])) :
    selection inner.above.above.above
        (.symbol "*" :: .word "FROM" false :: .word table false :: whereToken :: tokens) =
      .ok ({ items := [.wildcard], sources := [tableTree table], condition := some condition }, []) := by
  have distinct (rest : List Token) :
      distinct? inner.above.above.above (.symbol "*" :: rest) = .ok (none, .symbol "*" :: rest) := rfl
  have top (rest : List Token) :
      top? inner.above.above.above (.symbol "*" :: rest) = .ok (none, .symbol "*" :: rest) := rfl
  have start (rest : List Token) :
      atKeyword "FROM" (.symbol "*" :: rest) = .ok (false, .symbol "*" :: rest) := rfl
  have into (rest : List Token) :
      into? (.word "FROM" false :: rest) = .ok (none, .word "FROM" false :: rest) := rfl
  have items (rest : List Token) : commaSeparated (selectItem inner.above.above.above)
      (.symbol "*" :: .word "FROM" false :: rest) = .ok ([.wildcard], .word "FROM" false :: rest) :=
    commaSeparated_single (selectItem_star _ _) (by simp)
  have source : inner.above.above.above.joined (.word table false :: whereToken :: tokens) = _ :=
    joinedTable_where named inner.above.above tokens
  have tables : behind "FROM" (commaSeparated inner.above.above.above.joined)
      (.word "FROM" false :: .word table false :: whereToken :: tokens) = _ :=
    behind_here (by decide) (commaSeparated_single source (by simp))
  have filtered : condition? inner.above.above.above (whereToken :: tokens) = _ :=
    behind_here (by decide) read
  simp only [selection, bind_run, distinct, top, start, ok_bind, Bool.false_eq_true, if_false, items, into, tables,
    filtered]
  rfl

theorem setChain_single {words : List String} {operand : Grammar QueryBody} {body : QueryBody} {tokens : List Token}
    (read : operand tokens = .ok (body, [])) : setChain words operand tokens = .ok (body, []) := by
  have none : setTail? words operand [] = .ok (none, []) := rfl
  rw [setChain, bind_run, read, ok_bind, bind_run, repeated_none none]
  rfl

theorem queryTree_select {selected : SelectTree} {tokens : List Token} (inner : Level)
    (read : selection inner tokens = .ok (selected, [])) :
    queryTree inner (.word "SELECT" false :: tokens) = .ok ({ body := .select selected }, []) := by
  have select : keyword? "SELECT" (.word "SELECT" false :: tokens) = .ok (true, tokens) := rfl
  have term : bodyTerm inner (.word "SELECT" false :: tokens) = .ok (.select selected, []) := by
    simp only [bodyTerm, bind_run, select, ok_bind, if_true, read]
    rfl
  have body : queryBody inner (.word "SELECT" false :: tokens) = .ok (.select selected, []) :=
    setChain_single (setChain_single term)
  have insert : keyword? "INSERT" (.word "SELECT" false :: tokens) = .ok (false, .word "SELECT" false :: tokens) := rfl
  have update : keyword? "UPDATE" (.word "SELECT" false :: tokens) = .ok (false, .word "SELECT" false :: tokens) := rfl
  have delete : keyword? "DELETE" (.word "SELECT" false :: tokens) = .ok (false, .word "SELECT" false :: tokens) := rfl
  have common : commonTables? inner (.word "SELECT" false :: tokens) = .ok (none, .word "SELECT" false :: tokens) := rfl
  simp only [queryTree, bind_run, common, insert, update, delete, ok_bind, Bool.false_eq_true, if_false, body]
  rfl

theorem statementOfDepth_select {selected : SelectTree} {tokens : List Token} (depth : Nat)
    (read : selection (Level.ofDepth depth) tokens = .ok (selected, [])) :
    statementOfDepth (depth + 2) (.word "SELECT" false :: tokens) =
      .ok (.query { body := .select selected }, []) := by
  have query : (Level.ofDepth (depth + 1)).query (.word "SELECT" false :: tokens) =
      .ok ({ body := .select selected }, []) := queryTree_select _ read
  have bracket : atSymbol "(" (.word "SELECT" false :: tokens) = .ok (false, .word "SELECT" false :: tokens) := rfl
  have word : peekKeyword? (.word "SELECT" false :: tokens) = .ok (some "SELECT", .word "SELECT" false :: tokens) := rfl
  rw [statementOfDepth, statement, bind_run, bracket, ok_bind]
  simp only [Bool.false_eq_true, if_false, bind_run, word, ok_bind]
  change (do return Statement.query (← (Level.ofDepth (depth + 1)).query) : Grammar Statement) _ = _
  rw [bind_run, query]
  rfl

theorem statementsUpTo_single {read : Grammar Statement} {statement : Statement} {tokens : List Token}
    {token : Token} (bound : Nat) (first : token ≠ .symbol ";")
    (found : read (token :: tokens) = .ok (statement, [])) :
    statementsUpTo read (bound + 1) (token :: tokens) = .ok ([statement], []) := by
  have other : (token :: tokens).head? ≠ some (.symbol ";") := by simpa using first
  rw [statementsUpTo, bind_run, repeated_none (optional_other other _), ok_bind, bind_run, peek?_run, ok_bind]
  dsimp only
  rw [ite_run, if_neg (by simp), bind_run, found]
  rfl

end Filtered

end QueryNotation.Sql.Grammar

namespace QueryNotation.Sql

variable {table : String} {tokens : List Token} {tree : Expr} {depth : Nat}

/-- The statement for the rows that meet a condition is one selection with the tree of the condition. -/
theorem ofText_filtered {condition : String} (deep : 5 ≤ depth) (named : Grammar.IsFree Grammar.tableWords table)
    (scanned : Token.scan? condition.toList = some tokens)
    (read : ∀ inner : Level, Grammar.expression inner.above.above 0 tokens = .ok (tree, [])) :
    Statement.ofText depth (filteredText table condition).toList = .ok [.query { body := .select {
      items := [.wildcard]
      sources := [tableTree table]
      condition := some tree } }] := by
  obtain ⟨level, enough⟩ : ∃ level, min depth ((filteredTokens table tokens).length + 4) = level + 5 :=
    Nat.exists_eq_add_of_le' (by simp [filteredTokens]; omega)
  have single := Grammar.statementsUpTo_single ((filteredTokens table tokens).length) (by simp)
    (Grammar.statementOfDepth_select (level + 3)
      (Grammar.selection_filtered named (Level.ofDepth level) (read (Level.ofDepth level))))
  rw [Statement.ofText, scan?_filtered named.bare scanned]
  simp only [enough]
  exact congrArg (Except.map Prod.fst) single

end QueryNotation.Sql
