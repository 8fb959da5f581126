import QueryNotation.Proofs.Sql.Qualifier
import QueryNotation.Sql.Reader.Condition

namespace QueryNotation.Sql

/-! # The meaning of conditions

A condition is given a truth value of three-valued logic from those of the positive
tests it makes.  What a leaf tests, and for what, is defined here on its own, and the reader
is shown to find the same.  The filters a condition is flattened into have its value, however its
negations, conjunctions and disjunctions nest, and a condition that is a disjunction
once its negations stand at the tests has no filters.
-/

/-- A truth value of three-valued logic. -/
inductive Kleene where
  | false
  | unknown
  | true
deriving DecidableEq, Repr

namespace Kleene

def not : Kleene → Kleene
  | .false => .true
  | .unknown => .unknown
  | .true => .false

def and : Kleene → Kleene → Kleene
  | .false, _ | _, .false => .false
  | .true, .true => .true
  | _, _ => .unknown

def or : Kleene → Kleene → Kleene
  | .true, _ | _, .true => .true
  | .false, .false => .false
  | _, _ => .unknown

def conj (values : List Kleene) : Kleene :=
  values.foldr and .true

def signed (negated : Bool) (value : Kleene) : Kleene :=
  if negated then value.not else value

variable (left right value : Kleene)

theorem not_not : value.not.not = value := by
  cases value <;> rfl

theorem not_and : (left.and right).not = left.not.or right.not := by
  cases left <;> cases right <;> rfl

theorem not_or : (left.or right).not = left.not.and right.not := by
  cases left <;> cases right <;> rfl

theorem true_and : Kleene.true.and value = value := by
  cases value <;> rfl

theorem and_true : value.and .true = value := by
  cases value <;> rfl

theorem and_assoc : (left.and right).and value = left.and (right.and value) := by
  cases left <;> cases right <;> cases value <;> rfl

theorem conj_singleton : conj [value] = value :=
  and_true value

theorem conj_append (front back : List Kleene) :
    conj (front ++ back) = (conj front).and (conj back) := by
  induction front with
  | nil => exact (true_and _).symm
  | cons value rest induction =>
      rw [List.cons_append, conj, List.foldr_cons, ← conj, induction, ← and_assoc]
      rfl

theorem signed_not (negated : Bool) : signed negated value.not = signed (!negated) value := by
  cases negated with
  | false => rfl
  | true => exact not_not value

theorem signed_signed (negated opposite : Bool) :
    signed negated (signed opposite value) = signed (negated != opposite) value := by
  cases opposite with
  | false => rw [Bool.bne_false]; rfl
  | true => rw [Bool.bne_true]; exact signed_not value negated

end Kleene

/-- A positive test of one column. -/
structure Test where
  target : Target
  column : String
  op : Operator
  value : Value
  config : Option String := none
deriving DecidableEq, Repr

def Test.filter (test : Test) (negated : Bool) : PlacedFilter :=
  (test.target,
    { column := test.column, op := test.op, value := test.value, negated, config := test.config })

def PlacedFilter.test (placed : PlacedFilter) : Test where
  target := placed.1
  column := placed.2.column
  op := placed.2.op
  value := placed.2.value
  config := placed.2.config

/-- The value of a filter when the positive tests have the values `assigned`. -/
def PlacedFilter.truth (assigned : Test → Kleene) (placed : PlacedFilter) : Kleene :=
  .signed placed.2.negated (assigned placed.test)

theorem Test.truth_filter (assigned : Test → Kleene) (test : Test) (negated : Bool) :
    PlacedFilter.truth assigned (test.filter negated) = .signed negated (assigned test) :=
  rfl

/-- What a constant stands for.  A literal of another kind stands for the whole of its text. -/
def Constant.literal? : Constant → Option Value
  | .number digits _ => some (.number digits)
  | .string text | .escaped text => some (.string text)
  | .bool value => some (.bool value)
  | .null => some .null
  | .parameter _ => none
  | other => some (.string other.text)

mutual

/-- What an expression stands for that is written out: a constant, a number behind a minus sign, or
an array of such expressions.  Parentheses and casts say nothing. -/
def Expr.literal? : Expr → Option Value
  | .constant value => value.literal?
  | .nested inner => inner.literal?
  | .cast operand _ _ => operand.literal?
  | .negative operand =>
    match operand.literal? with
    | some (.number digits) => some (.number ("-" ++ digits))
    | _ => none
  | .array items _ => (Expr.literals? items).map .list
  | _ => none

/-- What some expressions stand for, one by one. -/
def Expr.literals? : List Expr → Option (List Value)
  | [] => some []
  | item :: rest => do
    let value ← item.literal?
    return value :: (← Expr.literals? rest)

end

/-- What `IS` compares with; there is no value for unknown. -/
def Truth.literal? : Truth → Option Value
  | .null => some .null
  | .true => some (.bool Bool.true)
  | .false => some (.bool Bool.false)
  | .unknown => none

/-- The operators that symbols compare by.  A symbol that denies stands for what it denies, and the
keyword of an operator is a symbol too. -/
def symbolTable : List (String × Operator) :=
  [("=", .eq), ("<>", .neq), ("!=", .neq), (">", .gt), (">=", .gte), ("<", .lt), ("<=", .lte),
    ("~", .matches), ("!~", .matches), ("~*", .imatches), ("!~*", .imatches),
    ("@>", .contains), ("<@", .containedBy), ("&&", .overlaps),
    ("<<", .strictlyLeft), (">>", .strictlyRight), ("&<", .notExtendRight), ("&>", .notExtendLeft),
    ("-|-", .adjacent), ("LIKE", .like), ("ILIKE", .ilike), ("IS", .is), ("IN", .oneOf)]

/-- The operators that functions search a text by. -/
def searchTable : List (String × Operator) :=
  [("to_tsquery", .fullText), ("plainto_tsquery", .plainText), ("phraseto_tsquery", .phraseText),
    ("websearch_to_tsquery", .webText)]

/-- The value that an operator compares with.  An operator on arrays takes a string for the text of one. -/
def comparand (op : Operator) : Value → Value
  | .string text => if op ∈ [.contains, .containedBy, .overlaps] then Value.readArray text else .string text
  | value => value

def Expr.word? (argument : Expr) : Option String :=
  match argument.literal? with
  | some (.string text) | some (.number text) => some text
  | _ => none

/-- The configuration of a search, if it is given one, and its words. -/
def searched? : List (Argument Expr) → Option (Option String × String)
  | [.positional words] => words.word?.map (none, ·)
  | [.positional config, .positional words] => do return (some (← config.word?), ← words.word?)
  | _ => none

/-- What a symbol compares a column with: an operator, a value and the configuration
of a text search. -/
def comparedWith? (symbol : String) (right : Expr) :
    Option (Operator × Value × Option String) :=
  if symbol = "@@" then
    match right with
    | .call function arguments _ => do
      let op ← searchTable.lookup function.toLower
      let (config, words) ← searched? arguments
      return (op, .string words, config)
    | _ => none
  else do
    let op ← symbolTable.lookup symbol
    return (op, comparand op (← right.literal?), none)

def Expr.tested? : Expr → Option Expr
  | .binary operand _ _ | .isTest operand _ _ | .inList operand _ _ | .like operand _ _ _ _ _ => some operand
  | _ => none

/-- What a leaf of a condition tests its column for.  A pattern is taken as it stands, whichever
character escapes in it. -/
def Expr.testing? : Expr → Option (Operator × Value × Option String)
  | .binary _ symbol right => comparedWith? symbol right
  | .isTest _ what _ => what.literal?.map fun value => (.is, value, none)
  | .inList _ items _ => (Expr.literals? items).map fun values => (.oneOf, .list values, none)
  | .like _ pattern anyCase _ false _ => pattern.literal?.map fun value =>
    (if anyCase then .ilike else .like, value, none)
  | _ => none

/-- The positive test that a condition makes when it is no combination of others. -/
def Expr.test? (scope : Scope) (leaf : Expr) : Option Test := do
  let operand ← leaf.tested?
  let (target, column) ← operand.place? scope
  let (op, value, config) ← leaf.testing?
  return { target, column, op, value, config }

def Expr.opposes : Expr → Bool
  | .binary _ symbol _ => symbol = "!~" || symbol = "!~*"
  | .isTest _ _ opposite | .inList _ _ opposite | .like _ _ _ opposite _ _ => opposite
  | _ => false

/-- The filter of a leaf that is negated by what stands around it, or is not. -/
def Expr.filter? (scope : Scope) (negated : Bool) (leaf : Expr) : Option PlacedFilter :=
  (leaf.test? scope).map fun test => test.filter (negated != leaf.opposes)

/-- The value of a condition when the positive tests have the values `assigned`. -/
def Expr.truth (scope : Scope) (assigned : Test → Kleene) : Expr → Kleene
  | .and left right => (left.truth scope assigned).and (right.truth scope assigned)
  | .or left right => (left.truth scope assigned).or (right.truth scope assigned)
  | .not operand => (operand.truth scope assigned).not
  | .nested inner => inner.truth scope assigned
  | leaf =>
    match leaf.test? scope with
    | some test => .signed leaf.opposes (assigned test)
    | none => .unknown

/-- A condition whose negations stand at its tests. -/
inductive Pushed where
  | leaf (condition : Expr) (negated : Bool)
  | both (left right : Pushed)
  | either (left right : Pushed)

def Expr.pushed (negated : Bool) : Expr → Pushed
  | .and left right =>
    if negated then .either (left.pushed negated) (right.pushed negated)
    else .both (left.pushed negated) (right.pushed negated)
  | .or left right =>
    if negated then .both (left.pushed negated) (right.pushed negated)
    else .either (left.pushed negated) (right.pushed negated)
  | .not operand => operand.pushed (!negated)
  | .nested inner => inner.pushed negated
  | leaf => .leaf leaf negated

namespace Pushed

def truth (scope : Scope) (assigned : Test → Kleene) : Pushed → Kleene
  | .leaf condition negated => .signed negated (condition.truth scope assigned)
  | .both left right => (left.truth scope assigned).and (right.truth scope assigned)
  | .either left right => (left.truth scope assigned).or (right.truth scope assigned)

def hasEither : Pushed → Bool
  | .leaf _ _ => false
  | .both left right => left.hasEither || right.hasEither
  | .either _ _ => true

end Pushed

variable {scope : Scope} {assigned : Test → Kleene} {test : Test} {placed : PlacedFilter}
  {filters : List PlacedFilter} {negated : Bool}

theorem Expr.truth_of_test {condition : Expr} (found : condition.test? scope = some test) :
    condition.truth scope assigned = .signed condition.opposes (assigned test) := by
  cases condition with
  | and | or | not | nested => cases found
  | _ => simp only [Expr.truth, found]

theorem Expr.truth_pushed (negated : Bool) (condition : Expr) :
    (condition.pushed negated).truth scope assigned =
      .signed negated (condition.truth scope assigned) := by
  fun_induction Expr.pushed negated condition with
  | case1 left right leftInduction rightInduction =>
      rw [Pushed.truth, leftInduction, rightInduction, Expr.truth]
      exact (Kleene.not_and _ _).symm
  | case2 negated left right positive leftInduction rightInduction =>
      obtain rfl := eq_false_of_ne_true positive
      rw [Pushed.truth, leftInduction, rightInduction, Expr.truth]
      rfl
  | case3 left right leftInduction rightInduction =>
      rw [Pushed.truth, leftInduction, rightInduction, Expr.truth]
      exact (Kleene.not_or _ _).symm
  | case4 negated left right positive leftInduction rightInduction =>
      obtain rfl := eq_false_of_ne_true positive
      rw [Pushed.truth, leftInduction, rightInduction, Expr.truth]
      rfl
  | case5 negated operand induction =>
      rw [induction, Expr.truth, Kleene.signed_not]
  | case6 negated inner induction =>
      rw [induction, Expr.truth]
  | case7 => rfl

/-- The leaves of a condition, each with whether it is negated by what stands around it. -/
def Expr.leaves (negated : Bool) : Expr → List (Expr × Bool)
  | .and left right | .or left right => left.leaves negated ++ right.leaves negated
  | .not operand => operand.leaves (!negated)
  | .nested inner => inner.leaves negated
  | leaf => [(leaf, negated)]

namespace Pushed

def leaves : Pushed → List (Expr × Bool)
  | .leaf condition negated => [(condition, negated)]
  | .both left right | .either left right => left.leaves ++ right.leaves

/-- One filter for each test, and none for a disjunction. -/
def filters? (scope : Scope) : Pushed → Option (List PlacedFilter)
  | .leaf condition negated => (condition.filter? scope negated).map ([·])
  | .both left right => do
    let front ← left.filters? scope
    return front ++ (← right.filters? scope)
  | .either _ _ => none

variable {pushed : Pushed}

theorem truth_of_filters (found : pushed.filters? scope = some filters) :
    Kleene.conj (filters.map (PlacedFilter.truth assigned)) = pushed.truth scope assigned := by
  induction pushed generalizing filters with
  | leaf condition negated =>
      obtain ⟨placed, asked, rfl⟩ := Option.map_eq_some_iff.mp found
      obtain ⟨test, makes, rfl⟩ := Option.map_eq_some_iff.mp asked
      rw [List.map_singleton, Kleene.conj_singleton, Test.truth_filter, truth,
        Expr.truth_of_test makes, Kleene.signed_signed]
  | both left right first second =>
      obtain ⟨front, leading, found⟩ := Option.bind_eq_some_iff.mp found
      obtain ⟨back, behind, found⟩ := Option.bind_eq_some_iff.mp found
      obtain rfl := Option.some.inj found
      rw [List.map_append, Kleene.conj_append, first leading, second behind, truth]
  | either => cases found

/-- There are filters when no disjunction is left and every leaf makes a test. -/
theorem filters_iff : (∃ filters, pushed.filters? scope = some filters) ↔
    pushed.hasEither = false ∧ ∀ leaf ∈ pushed.leaves, ∃ test, leaf.1.test? scope = some test := by
  induction pushed with
  | leaf condition negated => simp [filters?, Expr.filter?, hasEither, leaves]
  | both left right first second =>
      have split : (∃ filters, (both left right).filters? scope = some filters) ↔
          (∃ filters, left.filters? scope = some filters) ∧ ∃ filters, right.filters? scope = some filters := by
        cases front : left.filters? scope <;> cases back : right.filters? scope <;> simp [filters?, front, back]
      rw [split, first, second, hasEither, leaves, List.forall_mem_append, Bool.or_eq_false_iff]
      exact and_and_and_comm
  | either => simp [filters?, hasEither]

end Pushed

theorem leaves_pushed (negated : Bool) (condition : Expr) :
    (condition.pushed negated).leaves = condition.leaves negated := by
  fun_induction Expr.pushed negated condition with
  | case1 left right first second => rw [Pushed.leaves, first, second, Expr.leaves]
  | case2 negated left right positive first second => rw [Pushed.leaves, first, second, Expr.leaves]
  | case3 left right first second => rw [Pushed.leaves, first, second, Expr.leaves]
  | case4 negated left right positive first second => rw [Pushed.leaves, first, second, Expr.leaves]
  | case5 negated operand induction => rw [induction, Expr.leaves]
  | case6 negated inner induction => rw [induction, Expr.leaves]
  | case7 negated leaf =>
    rw [Pushed.leaves, Expr.leaves] <;> assumption

mutual

/-- The reader takes an expression for what it stands for. -/
theorem toOption_value (literal : Expr) : literal.value.toOption = literal.literal? := by
  cases literal with
  | constant value => cases value <;> rfl
  | nested inner => exact toOption_value inner
  | cast operand type word => exact toOption_value operand
  | negative operand =>
      rw [Expr.value, Expr.literal?, toOption_bind, toOption_value operand]
      cases operand.literal? with
      | none => rfl
      | some value => cases value <;> rfl
  | array items named =>
      rw [Expr.value, Expr.literal?, toOption_bind, toOption_values items]
      cases Expr.literals? items <;> rfl
  | _ => rfl

theorem toOption_values (items : List Expr) : (Expr.values items).toOption = Expr.literals? items := by
  cases items with
  | nil => rfl
  | cons item rest =>
      rw [Expr.values, Expr.literals?, toOption_bind, toOption_value item]
      cases item.literal? with
      | none => rfl
      | some value =>
          rw [Option.bind_some, toOption_bind, toOption_values rest]
          rfl

end

theorem value_truth (what : Truth) : what.value? = what.literal? := by
  cases what <;> rfl

theorem toOption_comparedValue (op : Operator) (right : Expr) :
    (comparedValue op right).toOption = right.literal?.map (comparand op) := by
  rw [comparedValue, toOption_bind, toOption_value]
  cases right.literal? with
  | none => rfl
  | some value => cases op <;> cases value <;> rfl

/-- Every symbol of an operator that searches no text is listed with it. -/
theorem lookup_symbol {op : Operator} (compares : op.searchesText = false) :
    symbolTable.lookup op.symbol = some op := by
  cases op with
  | fullText | plainText | phraseText | webText => cases compares
  | _ => decide

theorem comparisonOperator?_eq (symbol : String) :
    comparisonOperator? symbol =
      (symbolTable.lookup symbol).map fun op => (op, decide (symbol = "!~") || decide (symbol = "!~*")) := by
  cases listed : symbolTable.lookup symbol with
  | some op =>
      obtain ⟨front, back, table, _⟩ := List.lookup_eq_some_iff.mp listed
      have member : (symbol, op) ∈ symbolTable := by simp [table]
      have each : ∀ entry ∈ symbolTable, comparisonOperator? entry.1 =
          some (entry.2, decide (entry.1 = "!~") || decide (entry.1 = "!~*")) := by decide
      exact each (symbol, op) member
  | none =>
      have absent : ∀ entry ∈ symbolTable, symbol ≠ entry.1 := fun entry member =>
        bne_iff_ne.mp (List.lookup_eq_none_iff.mp listed entry member)
      have unknown : Operator.ofSymbol? symbol = none := by
        rw [Operator.ofSymbol?, if_neg (absent ("<>", .neq) (by decide)), List.find?_eq_none]
        intro op _ same
        obtain ⟨rfl, compares⟩ : op.symbol = symbol ∧ op.searchesText = false := by simpa using same
        rw [lookup_symbol compares] at listed
        cases listed
      rw [comparisonOperator?, if_neg (absent ("!~", .matches) (by decide)),
        if_neg (absent ("!~*", .imatches) (by decide)), unknown]
      rfl

/-- Every function that searches a text is listed with its operator. -/
theorem lookup_function {op : Operator} {function : String} (searches : op.searchFunction = some function) :
    searchTable.lookup function.toLower = some op := by
  cases op with
  | fullText | plainText | phraseText | webText =>
      obtain rfl := Option.some.inj searches
      decide +kernel
  | _ => cases searches

theorem ofSearchFunction?_eq (name : String) :
    Operator.ofSearchFunction? name = searchTable.lookup name.toLower := by
  cases found : Operator.ofSearchFunction? name with
  | some op =>
      have same := List.find?_some found
      split at same
      · next function searches =>
        rw [← of_decide_eq_true same]
        exact (lookup_function searches).symm
      · cases same
  | none =>
      have unfound := List.find?_eq_none.mp found
      have each : ∀ entry ∈ searchTable, entry.2 ∈ Operator.all ∧ entry.2.searchFunction = some entry.1 ∧
          entry.1.toLower = entry.1 := by decide +kernel
      symm
      rw [List.lookup_eq_none_iff]
      intro entry member
      obtain ⟨listed, searches, lower⟩ := each entry member
      have apart := unfound entry.2 listed
      rw [searches, decide_eq_true_iff, lower] at apart
      simpa using Ne.symm apart

theorem toOption_searchText (argument : Expr) : (searchText argument).toOption = argument.word? := by
  rw [searchText, toOption_bind, toOption_value, Expr.word?]
  cases argument.literal? with
  | none => rfl
  | some value => cases value <;> rfl

theorem toOption_textSearch (function : String) (arguments : List (Argument Expr)) (whole : String) :
    (textSearch function arguments whole).toOption = do
      let op ← searchTable.lookup function.toLower
      let (config, words) ← searched? arguments
      return (op, config, words) := by
  rw [textSearch, ofSearchFunction?_eq]
  cases searchTable.lookup function.toLower with
  | none => rfl
  | some op =>
      match arguments with
      | [] | .other _ :: _ | .positional _ :: .other _ :: _ => rfl
      | [.positional words] =>
          change (searchText words >>= fun text => Except.ok (op, none, text)).toOption = _
          rw [toOption_bind, toOption_searchText, searched?]
          cases words.word? <;> rfl
      | [.positional config, .positional words] =>
          change (searchText config >>= fun config => searchText words >>= fun text =>
            Except.ok (op, some config, text)).toOption = _
          rw [toOption_bind, toOption_searchText, searched?]
          cases config.word? with
          | none => rfl
          | some text =>
              rw [Option.bind_some, toOption_bind, toOption_searchText]
              cases words.word? <;> rfl
      | .positional first :: .positional second :: .other text :: rest => rfl
      | .positional first :: .positional second :: .positional third :: rest =>
          cases given : positionalArguments rest <;> simp [positionalArguments, given, searched?] <;> rfl

/-- The filter of a text search. -/
theorem toOption_searchFilter (column : String) (negated : Bool) (right : Expr) :
    (searchFilter column negated right).toOption = (comparedWith? "@@" right).map fun (op, value, config) =>
      { column, op, value, negated, config } := by
  cases right with
  | call function arguments frame =>
      rw [searchFilter, toOption_bind, toOption_textSearch, comparedWith?, if_pos rfl]
      cases searchTable.lookup function.toLower with
      | none => rfl
      | some op => cases searched? arguments <;> rfl
  | _ => rfl

theorem Expr.filter?_of_tested {leaf operand : Expr} (tests : leaf.tested? = some operand) (negated : Bool) :
    leaf.filter? scope negated = do
      let (target, column) ← operand.place? scope
      let (op, value, config) ← leaf.testing?
      return (target, { column, op, value, negated := negated != leaf.opposes, config }) := by
  rw [Expr.filter?, Expr.test?, tests]
  cases place : operand.place? scope with
  | none => simp [place]
  | some place => cases leaf.testing? <;> simp [*, Test.filter]

theorem Expr.filter?_of_untested {leaf : Expr} (testing : leaf.testing? = none) (negated : Bool) :
    leaf.filter? scope negated = none := by
  rw [Expr.filter?, Expr.test?, testing]
  simp

theorem toOption_single (found : Outcome PlacedFilter) :
    (found >>= fun placed => .ok [placed] : Outcome (List PlacedFilter)).toOption = found.toOption.map ([·]) := by
  cases found <;> rfl

/-- A filter that is placed is that of a leaf which tests the same column for the same value. -/
theorem toOption_placedFilter {leaf operand : Expr} {op : Operator} {value : Outcome Value} {opposite : Bool}
    (tests : leaf.tested? = some operand)
    (testing : leaf.testing? = value.toOption.map fun given => (op, given, none))
    (opposes : leaf.opposes = opposite) (negated : Bool) :
    (placedFilter scope operand op (negated != opposite) value >>= fun placed => .ok [placed] :
      Outcome (List PlacedFilter)).toOption = (leaf.filter? scope negated).map ([·]) := by
  rw [toOption_single, Expr.filter?_of_tested tests, testing, opposes, placedFilter, toOption_bind, toOption_column]
  cases operand.place? scope with
  | none => rfl
  | some place => cases value <;> rfl

theorem toOption_comparison (negated : Bool) (left : Expr) (symbol : String) (right : Expr) :
    (comparison scope negated left symbol right).toOption =
      (Expr.binary left symbol right).filter? scope negated := by
  rw [Expr.filter?_of_tested rfl, Expr.testing?, comparison, toOption_bind, toOption_column]
  cases left.place? scope with
  | none => rfl
  | some place =>
      by_cases search : symbol = "@@"
      · subst search
        simp only [Option.bind_some, if_pos, toOption_bind, toOption_searchFilter]
        cases comparedWith? "@@" right with
        | none => rfl
        | some parts => simp [Expr.opposes, Except.toOption, pure, Except.pure]
      · simp only [Option.bind_some, if_neg search, comparisonOperator?_eq, comparedWith?]
        cases symbolTable.lookup symbol with
        | none => rfl
        | some op =>
            simp only [Option.map_some, toOption_bind, toOption_comparedValue]
            cases right.literal? <;> rfl

theorem toOption_append (front back : Outcome (List PlacedFilter)) :
    (front >>= fun first => back >>= fun second => .ok (first ++ second) : Outcome (List PlacedFilter)).toOption =
      do return (← front.toOption) ++ (← back.toOption) := by
  cases front with
  | error => rfl
  | ok => cases back <;> rfl

/-- The filters that are read are those of the condition with its negations pushed inward. -/
theorem toOption_conditions (negated : Bool) (condition : Expr) :
    (condition.conditions scope negated).toOption = (condition.pushed negated).filters? scope := by
  fun_induction Expr.conditions scope negated condition with
  | case1 => rfl
  -- A conjunction, and below a disjunction that a negation turns into one.
  | case2 negated left right again positive first second =>
      rw [Expr.pushed, if_neg positive, Pushed.filters?, ← first, ← second]
      exact toOption_append _ _
  | case3 negated left right again positive =>
      rw [Expr.pushed, if_neg (by simpa using positive)]
      rfl
  | case4 negated left right again negative first second =>
      rw [Expr.pushed, if_pos (by simpa using negative), Pushed.filters?, ← first, ← second]
      exact toOption_append _ _
  | case5 negated left symbol right =>
      exact (toOption_single _).trans (congrArg _ (toOption_comparison negated left symbol right))
  | case6 negated inner induction => exact induction
  | case7 negated operand induction => exact induction
  | case8 negated operand what opposite value known =>
      have testing : (Expr.isTest operand what opposite).testing? =
          (Except.ok value : Outcome Value).toOption.map fun given => (.is, given, none) := by
        rw [Expr.testing?, ← value_truth, known]
        rfl
      exact toOption_placedFilter rfl testing rfl negated
  -- `IS UNKNOWN` makes no test, and neither does `LIKE ANY` below.
  | case9 negated operand what opposite unknown =>
      have testing : (Expr.isTest operand what opposite).testing? = none := by
        rw [Expr.testing?, ← value_truth, unknown]
        rfl
      exact congrArg (Option.map ([·])) (Expr.filter?_of_untested testing negated).symm
  | case10 negated operand items opposite value =>
      have testing : (Expr.inList operand items opposite).testing? =
          value.toOption.map fun given => (.oneOf, given, none) := by
        rw [Expr.testing?, ← toOption_values]
        cases found : Expr.values items <;> simp [value, found, Except.map, Except.toOption]
      exact toOption_placedFilter rfl testing rfl negated
  | case11 negated operand pattern anyCase opposite escape =>
      exact congrArg (Option.map ([·])) (Expr.filter?_of_untested rfl negated).symm
  | case12 negated operand pattern anyCase opposite any escape single op =>
      obtain rfl := eq_false_of_ne_true single
      have testing : (Expr.like operand pattern anyCase opposite false escape).testing? =
          pattern.value.toOption.map fun given => (op, given, none) := by
        rw [Expr.testing?, toOption_value]
      exact toOption_placedFilter rfl testing rfl negated
  | case13 => rfl
  | case14 => rfl
  | case15 negated value both either compares nested not isTest inList like =>
      cases value with
      | and left right => exact (both left right rfl).elim
      | or left right => exact (either left right rfl).elim
      | binary left symbol right => exact (compares left symbol right rfl).elim
      | nested inner => exact (nested inner rfl).elim
      | not operand => exact (not operand rfl).elim
      | isTest operand what opposite => exact (isTest operand what opposite rfl).elim
      | inList operand items opposite => exact (inList operand items opposite rfl).elim
      | like operand pattern anyCase opposite any escape =>
          exact (like operand pattern anyCase opposite any escape rfl).elim
      | _ => rfl

/-- Flattening keeps the meaning of a condition, or of its negation: whatever the
positive tests of columns come out as, the filters together come out as the condition
does.  A condition with a disjunction in it, once the negations stand at the tests, is
refused; any other one is read just when each of its leaves makes a test. -/
theorem conditions_meaning (scope : Scope) (negated : Bool) (condition : Expr) :
    (∀ filters, condition.conditions scope negated = .ok filters →
      ∀ assigned : Test → Kleene,
        Kleene.conj (filters.map (PlacedFilter.truth assigned)) =
          .signed negated (condition.truth scope assigned)) ∧
    ((condition.pushed negated).hasEither = true →
      ∃ fault, condition.conditions scope negated = .error fault) ∧
    ((∃ filters, condition.conditions scope negated = .ok filters) ↔
      (condition.pushed negated).hasEither = false ∧
        ∀ leaf ∈ condition.leaves negated, ∃ test, leaf.1.test? scope = some test) := by
  have reads (filters : List PlacedFilter) : condition.conditions scope negated = .ok filters ↔
      (condition.pushed negated).filters? scope = some filters := by
    rw [← toOption_conditions]
    exact ⟨toOption_of_ok, ok_of_toOption⟩
  have accepted : (∃ filters, condition.conditions scope negated = .ok filters) ↔
      (condition.pushed negated).hasEither = false ∧
        ∀ leaf ∈ condition.leaves negated, ∃ test, leaf.1.test? scope = some test := by
    rw [exists_congr reads, Pushed.filters_iff, leaves_pushed]
  refine ⟨fun filters read assigned => ?_, fun disjunction => ?_, accepted⟩
  · rw [Pushed.truth_of_filters ((reads filters).mp read), Expr.truth_pushed]
  · cases read : condition.conditions scope negated with
    | error fault => exact ⟨fault, rfl⟩
    | ok filters =>
        obtain ⟨none, _⟩ := accepted.mp ⟨filters, read⟩
        rw [disjunction] at none
        cases none

/-- `role = 'admin' OR NOT (role !~ '^a' AND p.id IN (1, -2)) OR p.draft IS NOT TRUE OR name LIKE 'a%'`. -/
def sampleCondition : Expr :=
  .or (.binary (.name ⟨"role", none⟩) "=" (.constant (.string "admin")))
    (.or
      (.not (.nested (.and (.binary (.name ⟨"role", none⟩) "!~" (.constant (.string "^a")))
        (.inList (.path [⟨"p", none⟩, ⟨"id", none⟩])
          [.constant (.number "1" false), .negative (.constant (.number "2" false))] false))))
      (.or (.isTest (.path [⟨"p", none⟩, ⟨"draft", none⟩]) .true true)
        (.like (.name ⟨"name", none⟩) (.constant (.string "a%")) false false false none)))

/-- A table `users` that a table `posts` is joined to as `p`. -/
def sampleScope : Scope :=
  ⟨[("users", none), ("posts", some 0), ("p", some 0)]⟩

/-- The filters of the negation of `sampleCondition`. -/
def sampleFilters : List PlacedFilter :=
  [(none, { column := "role", op := .eq, value := .string "admin", negated := true }),
    (none, { column := "role", op := .matches, value := .string "^a", negated := true }),
    (some 0, { column := "id", op := .oneOf, value := .list [.number "1", .number "-2"] }),
    (some 0, { column := "draft", op := .is, value := .bool true }),
    (none, { column := "name", op := .like, value := .string "a%", negated := true })]

/-- The filters of a negated disjunction of all kinds of tests, which is refused when it is not negated. -/
theorem conditions_meaning_sample :
    sampleCondition.conditions sampleScope true = .ok sampleFilters ∧
    (∀ assigned, Kleene.conj (sampleFilters.map (PlacedFilter.truth assigned)) =
      .signed true (sampleCondition.truth sampleScope assigned)) ∧
    ((sampleCondition.pushed true).hasEither = false ∧
      ∀ leaf ∈ sampleCondition.leaves true, ∃ test, leaf.1.test? sampleScope = some test) ∧
    (sampleCondition.pushed false).hasEither = true ∧
    ∃ fault, sampleCondition.conditions sampleScope false = .error fault := by
  have read : sampleCondition.conditions sampleScope true = .ok sampleFilters := rfl
  have disjunction : (sampleCondition.pushed false).hasEither = true := rfl
  obtain ⟨kept, _, accepted⟩ := conditions_meaning sampleScope true sampleCondition
  obtain ⟨_, refused, _⟩ := conditions_meaning sampleScope false sampleCondition
  exact ⟨read, kept sampleFilters read, accepted.mp ⟨sampleFilters, read⟩, disjunction, refused disjunction⟩

end QueryNotation.Sql
