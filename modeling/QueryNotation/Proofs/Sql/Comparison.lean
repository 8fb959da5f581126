import QueryNotation.Proofs.Sql.Grammar
import QueryNotation.Proofs.Sql.Reading

namespace QueryNotation.Sql

/-! # Statements that compare

A statement with one condition is read as the query that filters by it, and is written for that
query.  So a statement that compares a column with a numeral is read as the query that does.
-/

open Value

variable {policy : KeyPolicy} {options : Options} {table column numeral : String} {op : Operator} {value : Value}
  {filter : Filter}

def filtering (table : String) (filter : Filter) : Query where
  table
  operation := .select
  columns := [.star]
  filters := [filter]

section Filtered

variable {condition : String} {tokens : List Token} {tree : Expr}

/-- A statement is read as its condition is. -/
theorem read_filtered (deep : 5 ≤ options.maxDepth) (named : Grammar.IsFree Grammar.tableWords table)
    (scanned : Token.scan? condition.toList = some tokens)
    (parsed : ∀ inner : Level, Grammar.expression inner.above.above 0 tokens = .ok (tree, []))
    (small : (filteredText table condition).utf8ByteSize ≤ options.maxInputLength) {found : Outcome Filter}
    (kept : ∀ scope, tree.conditions scope false = found.map fun filter => [(none, filter)]) :
    read options (filteredText table condition) = found.map fun filter => { query := filtering table filter } := by
  have source : (tableTree table).source.named = .ok { name := table, label := none, schema := none } := by
    rw [tableTree, TableSource.named, named.bare.splitTableName_eq]
    rfl
  have filters (scope : Scope) : conditionFilters scope (some tree) = _ := kept scope
  unfold read
  simp only [Options.checkSize_ok small, ok_bind, ofText_filtered deep named scanned parsed, Statement.read]
  unfold QueryTree.read
  simp only [Option.isSome_none, Bool.false_eq_true, if_false, SelectTree.checkFeatures, SelectTree.source,
    Bool.or_self, List.isEmpty_nil, Bool.not_true, ok_bind, pure_bind, source, filters]
  cases found <;> rfl

end Filtered

theorem read_comparison (deep : 5 ≤ options.maxDepth) (named : Grammar.IsFree Grammar.tableWords table)
    (held : Grammar.IsFree Grammar.formWords column) (compares : op ∈ comparisons)
    (number : IsNumeral numeral.toList)
    (small : (comparisonText table column op numeral).utf8ByteSize ≤ options.maxInputLength) :
    read options (comparisonText table column op numeral) =
      .ok { query := comparing table column op (.number numeral) } := by
  have scanned := scan?_numeral number
  rw [String.ofList_toList] at scanned
  have kept (scope : Scope) : (Expr.binary (nameTree column) (treeSymbol op) (numberTree numeral)).conditions scope
      false = (Except.ok { column, op, value := .number numeral } : Outcome Filter).map
        fun filter => [(none, filter)] := by
    simp only [Expr.conditions, comparison_tree compares (numberTree_value numeral), ok_bind]
    rfl
  rw [comparisonText_eq] at small ⊢
  exact read_filtered deep named (scan?_compared held.bare compares scanned)
    (fun inner => Grammar.expression_comparison compares held inner numeral) small kept

theorem escapeName_bare {name : String} (bare : IsBare name) : escapeName name = name := by
  have known : isBareName name.toList = true := bare
  rw [escapeName, if_pos known, ite_self]

theorem escapeIdentifier_bare {name : String} (bare : IsBare name) : escapeIdentifier name = name := by
  rw [escapeIdentifier_of_absent (bare.absent (by decide)), escapeName_bare bare]

/-- A numeral stands bare, whether it is held as a number or as a string. -/
theorem literal_spells (compares : op ∈ comparisons) (spells : value.Spells numeral) :
    literal op value none = numeral := by
  have plain : literal op value none = scalarLiteral value := by
    revert compares
    cases op <;> intro compares <;> first | rfl | exact absurd compares (by decide)
  rw [plain]
  cases spells with
  | number _ => rw [scalarLiteral]
  | string numeric =>
      have other : numeral ≠ "null" := by
        rintro rfl
        exact absurd numeric (by decide)
      rw [scalarLiteral, if_neg other, if_pos (.inr (.inr numeric))]

theorem write_filtering (named : IsBare table) (joined : filter.connective = .and) :
    write policy (filtering table filter) = .ok { text := filteredText table (conditionText none filter) } := by
  have found : conditions none (filtering table filter).filters = .ok [conditionText none filter] := by
    change [filter].mapM (condition none) = _
    rw [List.mapM_cons, List.mapM_nil, condition, joined]
    rfl
  have columns : selectColumns (filtering table filter) none [] = .ok ["*"] := by
    have star : columnText none Column.star = .ok "*" := by decide
    simp only [selectColumns, filtering, List.isEmpty_cons, Bool.false_and, Bool.false_eq_true, if_false,
      List.mapM_cons, List.mapM_nil, star, ok_bind]
    rfl
  have source : escapeIdentifier (filtering table filter).table = table := escapeIdentifier_bare named
  have alone : (filtering table filter).embeds = [] := rfl
  have paged : paging (filtering table filter) = .ok { limit := none, offset := none } := rfl
  have said : filteredText table (conditionText none filter) = "SELECT " ++ String.intercalate ", " ["*"] ++
      " FROM " ++ table ++ String.join [] ++ clause " WHERE " " AND " ([conditionText none filter] ++ []) ++
      clause " ORDER BY " ", " [] ++ "" ++ "" := by
    have filtered : clause " WHERE " " AND " ([conditionText none filter] ++ []) =
        " WHERE " ++ conditionText none filter := by
      simp [clause]
    have order : clause " ORDER BY " ", " [] = "" := rfl
    have star : String.intercalate ", " ["*"] = "*" := by decide
    have front : "SELECT * FROM " = "SELECT " ++ ("*" ++ " FROM ") := by decide
    unfold filteredText
    rw [filtered, order, star, front]
    simp only [String.join_nil, String.append_empty, String.append_assoc]
  rw [said]
  change writeSelect policy (filtering table filter) = _
  rw [writeSelect, alone]
  simp only [List.isEmpty_nil, if_true, List.mapM_nil, pure_bind, List.zip_nil_left, columns, ok_bind, found,
    paged, source]
  rfl

theorem write_comparison (named : IsBare table) (held : IsBare column) (compares : op ∈ comparisons)
    (spells : value.Spells numeral) :
    write policy (comparing table column op value) = .ok { text := comparisonText table column op numeral } := by
  have other : ¬ (op = .oneOf ∧ isEmptyList value) := by
    rintro ⟨rfl, _⟩
    exact absurd compares (by decide)
  have text : conditionText none { column, op, value } = column ++ " " ++ op.symbol ++ " " ++ numeral := by
    simp only [conditionText, if_neg other, qualified, escapeName_bare held, literal_spells compares spells]
    rfl
  rw [comparisonText_eq, ← text]
  exact write_filtering named rfl

end QueryNotation.Sql
