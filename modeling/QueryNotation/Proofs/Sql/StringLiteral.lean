import QueryNotation.Proofs.Sql.Comparison
import QueryNotation.Proofs.Sql.Quoted
import QueryNotation.Proofs.Value.Wire

namespace QueryNotation.Sql

/-! # Comparisons with strings

A column may be compared with any constant.  The kinds of strings that the reader knows say their
content; a string of another kind says the whole text of its constant, with all marks, and only a
parameter is refused.

A pattern that a statement holds is read as it is, and is written with `%` for each `*`, wherever the
pattern comes from.  So it comes back from a statement unless it holds a `*`, which is no wildcard there.
-/

variable {options : Options} {table column literal : String} {constant : Constant}

/-- The strings of other kinds than the reader knows. -/
def Constant.isUnknown : Constant → Bool
  | .national _ | .hexadecimal _ | .bits _ | .unicode _ | .dollar .. => true
  | .number .. | .string _ | .escaped _ | .parameter _ | .bool _ | .null => false

theorem value_unknown (unknown : constant.isUnknown = true) :
    (Expr.constant constant).value = .ok (.string constant.text) := by
  cases constant <;> first | rfl | cases unknown

/-- Only a parameter has no value. -/
theorem value_error_iff : (∃ fault, (Expr.constant constant).value = .error fault) ↔
    ∃ name, constant = .parameter name := by
  constructor
  · rintro ⟨fault, failed⟩
    cases constant with
    | parameter name => exact ⟨name, rfl⟩
    | _ => cases failed
  · rintro ⟨name, rfl⟩
    exact ⟨_, rfl⟩

theorem text_dollar_ne (tag content : String) : (Constant.dollar tag content).text ≠ content := by
  intro same
  have lengths := congrArg (fun text => text.toList.length) same
  simp only [Constant.text, String.toList_append, List.length_append] at lengths
  have dollar : "$".toList.length = 1 := by decide
  omega

theorem expression_constantCompared (inner : Level) (held : Grammar.IsFree Grammar.formWords column)
    (constant : Constant) :
    Grammar.expression inner.above.above 0 [.word column false, .symbol "=", .constant constant] =
      .ok (.binary (nameTree column) "=" (.constant constant), []) :=
  @Grammar.expression_compared _ _ _ .eq _ (by decide) held rfl
    (Grammar.expression_constant inner.above 50 constant)

theorem conditions_constant (scope : Scope) (column : String) (constant : Constant) :
    (Expr.binary (nameTree column) "=" (.constant constant)).conditions scope false =
      ((Expr.constant constant).value.map fun value => ({ column, op := .eq, value } : Filter)).map
        fun filter => [(none, filter)] := by
  cases read : (Expr.constant constant).value with
  | ok value =>
      have compared : comparison scope false (nameTree column) "=" (.constant constant) =
          .ok (none, { column, op := .eq, value }) :=
        @comparison_tree _ .eq _ _ _ _ (by decide) read
      rw [Expr.conditions, compared]
      rfl
  | error fault =>
      have equal : comparisonOperator? "=" = some (.eq, false) := by decide
      have compared : comparedValue .eq (.constant constant) = .error fault := by
        unfold comparedValue
        rw [read]
        rfl
      have failed : comparison scope false (nameTree column) "=" (.constant constant) = .error fault := by
        unfold comparison
        rw [nameTree, Expr.column, ok_bind]
        simp only [if_neg (show "=" ≠ "@@" by decide), equal, compared]
        rfl
      rw [Expr.conditions, failed]
      rfl

/-- A statement that compares a column with a constant is read as the value of the constant is. -/
theorem read_constant (deep : 5 ≤ options.maxDepth) (named : Grammar.IsFree Grammar.tableWords table)
    (held : Grammar.IsFree Grammar.formWords column)
    (scanned : Token.scan? literal.toList = some [.constant constant])
    (small : (comparisonText table column .eq literal).utf8ByteSize ≤ options.maxInputLength) :
    read options (comparisonText table column .eq literal) =
      (Expr.constant constant).value.map fun value => { query := comparing table column .eq value } := by
  rw [comparisonText_eq] at small ⊢
  rw [read_filtered deep named (@scan?_compared _ _ .eq _ held.bare (by decide) scanned)
    (fun inner => expression_constantCompared inner held constant) small
    fun scope => conditions_constant scope column constant]
  cases (Expr.constant constant).value <;> rfl

/-- A string between apostrophes, with or without escapes, is compared as its content, and any other
kind of string as the whole text of the constant, which is never its content where it stands between
tags.  Nothing but a parameter is refused. -/
theorem read_stringLiteral (options : Options) (table column : String) (deep : 5 ≤ options.maxDepth)
    (named : Grammar.IsFree Grammar.tableWords table) (held : Grammar.IsFree Grammar.formWords column) :
    (∀ (form : StringForm) (content : String), form.Carries content →
      Token.scan? (form.spell content).toList = some [.constant (form.constant content)]) ∧
    ∀ (literal : String) (constant : Constant), Token.scan? literal.toList = some [.constant constant] →
      (comparisonText table column .eq literal).utf8ByteSize ≤ options.maxInputLength →
      (∀ content, constant = .string content ∨ constant = .escaped content →
        read options (comparisonText table column .eq literal) =
          .ok { query := comparing table column .eq (.string content) }) ∧
      (constant.isUnknown = true →
        read options (comparisonText table column .eq literal) =
          .ok { query := comparing table column .eq (.string constant.text) }) ∧
      (∀ tag content, constant = .dollar tag content → constant.text ≠ content) ∧
      ((∃ fault, read options (comparisonText table column .eq literal) = .error fault) ↔
        ∃ name, constant = .parameter name) := by
  refine ⟨fun form content carries => scan?_spell carries, fun literal constant scanned small => ?_⟩
  rw [read_constant deep named held scanned small]
  refine ⟨?_, fun unknown => ?_, ?_, ?_⟩
  · rintro content (rfl | rfl) <;> rfl
  · rw [value_unknown unknown]
    rfl
  · rintro tag content rfl
    exact text_dollar_ne tag content
  · rw [← value_error_iff]
    cases (Expr.constant constant).value with
    | ok value => simp [Except.map]
    | error fault => simp [Except.map]

/-- A string between tags is compared with its tags. -/
theorem dollarString_kept :
    Token.scan? "$$abc$$".toList = some [.constant (.dollar "" "abc")] ∧
      (read {} "SELECT * FROM t WHERE c = $$abc$$").map (fun parsed => parsed.query.filters) =
        .ok [{ column := "c", op := .eq, value := .string "$$abc$$" }] := by
  refine ⟨?_, ?_⟩ <;> decide +kernel

theorem read_stringLiteral_apostrophe :
    Grammar.IsFree Grammar.tableWords "t" ∧ Grammar.IsFree Grammar.formWords "c" ∧
      read {} (comparisonText "t" "c" .eq (StringForm.escape.spell "it's")) =
        .ok { query := comparing "t" "c" .eq (.string "it's") } := by
  have named : Grammar.IsFree Grammar.tableWords "t" := by decide +kernel
  have held : Grammar.IsFree Grammar.formWords "c" := by decide +kernel
  obtain ⟨spelled, reads⟩ := read_stringLiteral {} "t" "c" (by decide) named held
  have scanned := spelled .escape "it's" trivial
  exact ⟨named, held, (reads _ _ scanned (by decide +kernel)).1 "it's" (.inr rfl)⟩

section Pattern

open Value

variable {policy : KeyPolicy} {options : Options} {table column pattern : String} {op : Operator} {negated : Bool}

def patternFilter (column : String) (op : Operator) (negated : Bool) (pattern : String) : Filter where
  column
  op
  value := .string pattern
  negated

def patternCondition (column : String) (op : Operator) (negated : Bool) (pattern : String) : String :=
  column ++ (if negated then " NOT " else " ") ++ op.symbol ++ " " ++ quote pattern

/-- The statement for the rows of a table whose column is or is not like a pattern. -/
def patternText (table column : String) (op : Operator) (negated : Bool) (pattern : String) : String :=
  filteredText table (patternCondition column op negated pattern)

abbrev patternOperators : List Operator :=
  [.like, .ilike]

theorem like_or_ilike (wild : op ∈ patternOperators) : op = .like ∨ op = .ilike := by
  simpa only [patternOperators, List.mem_cons, List.not_mem_nil, or_false] using wild

def testTokens (op : Operator) (negated : Bool) (pattern : String) : List Token :=
  (if negated then [.word "NOT" false] else []) ++ [.word op.symbol false, .constant (.string pattern)]

theorem scan?_pattern (held : IsBare column) (wild : op ∈ patternOperators) :
    Token.scan? (patternCondition column op negated pattern).toList =
      some (.word column false :: testTokens op negated pattern) := by
  have quoted : Token.scan? (quote pattern).toList = some [.constant (.string pattern)] :=
    @scan?_spell .standard pattern trivial
  have word : IsBareWord op.symbol.toList := by
    rcases like_or_ilike wild with rfl | rfl
    · decide
    · decide
  have not : IsBareWord "NOT".toList := by decide
  have space : " ".toList = [' '] := by decide
  have tested := scan?_keyword op.symbol word quoted
  unfold patternCondition testTokens
  cases negated with
  | false =>
      simp only [Bool.false_eq_true, if_false, String.toList_append, space, List.append_assoc, List.cons_append,
        List.nil_append]
      exact scan?_keyword column held.isBareWord tested
  | true =>
      have middle : " NOT ".toList = ' ' :: ("NOT".toList ++ [' ']) := by decide
      simp only [if_true, String.toList_append, space, middle, List.append_assoc, List.cons_append, List.nil_append]
      exact scan?_keyword column held.isBareWord (scan?_keyword "NOT" not tested)

def patternTree (column : String) (op : Operator) (negated : Bool) (pattern : String) : Expr :=
  .like (nameTree column) (.constant (.string pattern)) (op = .ilike) negated false none

namespace Grammar

theorem likeForm_pattern (inner : Level) (left : Expr) (anyCase negated : Bool) (pattern : String) :
    likeForm inner.above left anyCase negated [.constant (.string pattern)] =
      .ok (.like left (.constant (.string pattern)) anyCase negated false none, []) := by
  have any : keyword? "ANY" [.constant (.string pattern)] = .ok (false, [.constant (.string pattern)]) := rfl
  have read : inner.above.expression 60 [.constant (.string pattern)] = .ok (.constant (.string pattern), []) :=
    expression_constant inner 60 (.string pattern)
  have escape : behind "ESCAPE" constantText [] = .ok (none, []) := rfl
  simp only [likeForm, bind_run, any, ok_bind, read, escape]
  rfl

theorem testForm_pattern (wild : op ∈ patternOperators) (inner : Level) (left : Expr) (negated : Bool)
    (pattern : String) :
    testForm inner.above left negated [.word op.symbol false, .constant (.string pattern)] =
      .ok (.like left (.constant (.string pattern)) (op = .ilike) negated false none, []) := by
  rcases like_or_ilike wild with rfl | rfl
  · exact likeForm_pattern inner left false negated pattern
  · exact likeForm_pattern inner left true negated pattern

theorem infixForm_pattern (wild : op ∈ patternOperators) (inner : Level) (left : Expr) (power : Nat) (negated : Bool)
    (pattern : String) :
    infixForm inner.above left power (testTokens op negated pattern) =
      .ok (.like left (.constant (.string pattern)) (op = .ilike) negated false none, []) := by
  refine Eq.trans ?_ (testForm_pattern wild inner left negated pattern)
  rcases like_or_ilike wild with rfl | rfl <;> cases negated <;> rfl

theorem expression_pattern (held : IsFree formWords column) (wild : op ∈ patternOperators) (inner : Level)
    (negated : Bool) (pattern : String) :
    expression inner.above 0 (.word column false :: testTokens op negated pattern) =
      .ok (patternTree column op negated pattern, []) := by
  have strong : infixPower (testTokens op negated pattern) = 60 := by
    rcases like_or_ilike wild with rfl | rfl <;> cases negated <;> rfl
  obtain ⟨follower, rest, shape, ends⟩ : ∃ follower rest, testTokens op negated pattern = follower :: rest ∧
      EndsOperand follower := by
    rcases like_or_ilike wild with rfl | rfl <;> cases negated <;> exact ⟨_, _, rfl, .word (by decide)⟩
  have formed := infixForm_pattern wild inner (nameTree column) 60 negated pattern
  rw [← strong] at formed
  rw [shape] at strong formed ⊢
  rw [expression, bind_run, accessForm_column _ held ends, ok_bind, bind_run, get_run, ok_bind]
  exact infixUpTo_single _ (by rw [strong]; decide) formed

end Grammar

theorem conditions_pattern (wild : op ∈ patternOperators) (scope : Scope) :
    (patternTree column op negated pattern).conditions scope false =
      (Except.ok (patternFilter column op negated pattern) : Outcome Filter).map fun filter => [(none, filter)] := by
  rcases like_or_ilike wild with rfl | rfl <;> cases negated <;> rfl

theorem read_pattern (deep : 5 ≤ options.maxDepth) (named : Grammar.IsFree Grammar.tableWords table)
    (held : Grammar.IsFree Grammar.formWords column) (wild : op ∈ patternOperators)
    (small : (patternText table column op negated pattern).utf8ByteSize ≤ options.maxInputLength) :
    read options (patternText table column op negated pattern) =
      .ok { query := filtering table (patternFilter column op negated pattern) } :=
  read_filtered deep named (scan?_pattern held.bare wild)
    (fun inner => Grammar.expression_pattern held wild inner.above negated pattern) small
    fun scope => conditions_pattern wild scope

theorem conditionText_pattern (held : IsBare column) (wild : op ∈ patternOperators) :
    conditionText none (patternFilter column op negated pattern) =
      patternCondition column op negated (replaceChar '*' '%' pattern) := by
  have name : qualified none column = column := escapeName_bare held
  unfold conditionText patternCondition patternFilter
  rw [name]
  rcases like_or_ilike wild with rfl | rfl <;> cases negated <;> rfl

theorem patternText_injective : Function.Injective (patternText table column op negated) := by
  intro left right same
  unfold patternText filteredText patternCondition at same
  simp only [String.append_right_inj] at same
  exact quote_injective same

theorem replaceChar_eq_self_iff {old new : Char} (other : new ≠ old) {text : String} :
    replaceChar old new text = text ↔ old ∉ text.toList := by
  refine ⟨fun same member => ?_, replaceChar_of_absent⟩
  rw [← same, replaceChar, String.toList_ofList] at member
  obtain ⟨c, _, found⟩ := List.mem_map.mp member
  split at found
  · exact other found
  · next apart => exact apart found

/-- A pattern condition is written back with `%` in the place of each `*` of its pattern, and so as it
was read just when there is none. -/
theorem write_read_pattern (policy : KeyPolicy) (options : Options) (table column : String) (op : Operator)
    (negated : Bool) (pattern : String) (deep : 5 ≤ options.maxDepth)
    (named : Grammar.IsFree Grammar.tableWords table) (held : Grammar.IsFree Grammar.formWords column)
    (wild : op ∈ patternOperators)
    (small : (patternText table column op negated pattern).utf8ByteSize ≤ options.maxInputLength) :
    ∃ parsed written, read options (patternText table column op negated pattern) = .ok parsed ∧
      parsed.query.filters = [patternFilter column op negated pattern] ∧
      write policy parsed.query = .ok written ∧
      written.text = patternText table column op negated (replaceChar '*' '%' pattern) ∧
      (written.text = patternText table column op negated pattern ↔ '*' ∉ pattern.toList) := by
  refine ⟨_, _, read_pattern deep named held wild small, rfl, write_filtering named.bare rfl, ?_, ?_⟩
  · exact congrArg (filteredText table) (conditionText_pattern held.bare wild)
  · rw [← replaceChar_eq_self_iff (show '%' ≠ '*' by decide), conditionText_pattern held.bare wild]
    exact patternText_injective.eq_iff

/-- A star, which a statement's pattern means as it stands, is written as a wildcard. -/
theorem starPattern_widened :
    (read {} "SELECT * FROM t WHERE c LIKE 'a*b'" >>= fun parsed =>
      write (.ofOptions {}) parsed.query).map Written.text = .ok "SELECT * FROM t WHERE c LIKE 'a%b'" := by
  decide +kernel

theorem write_read_pattern_percent :
    Grammar.IsFree Grammar.tableWords "t" ∧ Grammar.IsFree Grammar.formWords "c" ∧
      ∃ parsed written, read {} (patternText "t" "c" .ilike true "50\\%_") = .ok parsed ∧
        write (.ofOptions {}) parsed.query = .ok written ∧
        written.text = patternText "t" "c" .ilike true "50\\%_" := by
  have named : Grammar.IsFree Grammar.tableWords "t" := by decide +kernel
  have held : Grammar.IsFree Grammar.formWords "c" := by decide +kernel
  obtain ⟨parsed, written, found, _, wrote, _, same⟩ := write_read_pattern (.ofOptions {}) {} "t" "c" .ilike true
    "50\\%_" (by decide) named held (by decide) (by decide +kernel)
  exact ⟨named, held, parsed, written, found, wrote, same.mpr (by decide)⟩

end Pattern

end QueryNotation.Sql
