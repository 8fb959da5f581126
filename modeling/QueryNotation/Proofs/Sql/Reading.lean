import QueryNotation.Proofs.Column
import QueryNotation.Proofs.Json.Text
import QueryNotation.Proofs.Sql.Identifier
import QueryNotation.Proofs.Sql.Tree
import QueryNotation.Proofs.Text.Unsigned
import QueryNotation.Proofs.Value.Wire
import QueryNotation.Sql.Reader

namespace QueryNotation.Sql

/-! # Reading the trees of written statements

A statement that was written for a query over bare names says a query again: the same up to
what SQL does not tell apart, such as a string that spells a number and the number.
-/

open Value Text

variable {scope : Scope} {filter : Filter} {op : Operator} {value : Value}

theorem numberTree_value (text : String) : (numberTree text).value = .ok (.number text) := by
  unfold numberTree
  split
  · next digits shape =>
    have whole : "-" ++ String.ofList digits = text := by
      apply String.toList_injective
      simp [shape]
    simp only [Expr.value, ok_bind, whole]
    rfl
  · rfl

/-- A value that is no list is read back from its tree. -/
theorem valueTree_value (flat : ∀ items, value ≠ .list items) : (valueTree value).value = .ok value := by
  cases value with
  | number text => exact numberTree_value text
  | list items => exact absurd rfl (flat items)
  | _ => rfl

theorem settledScalar_flat (value : Value) (items : List Value) : settledScalar value ≠ .list items := by
  cases value with
  | string text =>
      rw [settledScalar, ofToken]
      repeat' split
      all_goals exact Value.noConfusion
  | _ => exact Value.noConfusion

theorem values_settled (items : List Value) :
    Expr.values ((items.map settledScalar).map valueTree) = .ok (items.map settledScalar) := by
  induction items with
  | nil => rfl
  | cons item rest induction =>
      rw [List.map_cons, List.map_cons, Expr.values, valueTree_value (settledScalar_flat item), ok_bind,
        induction]
      rfl

/-- The comparisons that every notation has. -/
inductive IsCommon : Operator → Value → Prop
  | compared {op : Operator} {value : Value} (compares : op ∈ [.eq, .neq, .gt, .gte, .lt, .lte])
    (numeric : ∀ text, value = .number text → isNumeric text = true) : IsCommon op value
  | pattern {op : Operator} {text : String} (wild : op = .like ∨ op = .ilike) :
    IsCommon op (.string text)
  | null : IsCommon .is .null
  | bool (value : Bool) : IsCommon .is (.bool value)
  | list {items : List Value} (full : items ≠ []) (scalars : ∀ item ∈ items, item.IsScalar) :
    IsCommon .oneOf (.list items)

def settledFilter (filter : Filter) : Filter where
  column := filter.column
  op := filter.op
  value := settledValue filter.op filter.value
  negated := filter.negated

theorem comparison_tree {column : String} {right : Expr} {negated : Bool}
    (compares : op ∈ [.eq, .neq, .gt, .gte, .lt, .lte]) (read : right.value = .ok value) :
    comparison scope negated (nameTree column) (treeSymbol op) right =
      .ok (none, { column, op, value, negated }) := by
  have known : ∀ op ∈ [Operator.eq, .neq, .gt, .gte, .lt, .lte],
      treeSymbol op ≠ "@@" ∧ comparisonOperator? (treeSymbol op) = some (op, false) := by
    decide
  have compared : comparedValue op right = .ok value := by
    unfold comparedValue
    rw [read, ok_bind]
    simp only [List.mem_cons, List.not_mem_nil, or_false] at compares
    rcases compares with rfl | rfl | rfl | rfl | rfl | rfl <;> rfl
  obtain ⟨search, found⟩ := known op compares
  unfold comparison
  simp only [nameTree, Expr.column, ok_bind, if_neg search, found, compared, Bool.bne_false]
  rfl

/-- The condition of a filter is read as a filter on the main table. -/
theorem conditionTree_conditions (common : IsCommon filter.op filter.value) :
    (conditionTree filter).conditions scope false = .ok [(none, settledFilter filter)] := by
  obtain ⟨column, op, value, negated, connective, config⟩ := filter
  unfold settledFilter
  cases common with
  | compared compares numeric =>
      have read := valueTree_value (settledScalar_flat value)
      have settled : settledValue op value = settledScalar value := by
        simp only [List.mem_cons, List.not_mem_nil, or_false] at compares
        rcases compares with rfl | rfl | rfl | rfl | rfl | rfl <;> rfl
      have tree : conditionTree ⟨column, op, value, negated, connective, config⟩ =
          if negated then
            .not (.nested (.binary (nameTree column) (treeSymbol op) (valueTree (settledScalar value))))
          else .binary (nameTree column) (treeSymbol op) (valueTree (settledScalar value)) := by
        simp only [List.mem_cons, List.not_mem_nil, or_false] at compares
        rcases compares with rfl | rfl | rfl | rfl | rfl | rfl <;> rfl
      simp only [tree, settled]
      cases negated <;>
        simp only [if_true, Bool.false_eq_true, if_false, Expr.conditions, Bool.not_false,
          comparison_tree compares read, ok_bind] <;> rfl
  | pattern wild =>
      rcases wild with rfl | rfl <;> cases negated <;> rfl
  | null => cases negated <;> rfl
  | bool value => cases value <;> cases negated <;> rfl
  | @list items full scalars =>
      have tree : conditionTree ⟨column, .oneOf, .list items, negated, connective, config⟩ =
          .inList (nameTree column) ((items.map settledScalar).map valueTree) negated := rfl
      rw [tree, Expr.conditions, values_settled]
      cases negated <;> rfl

/-- Conditions that are joined are read one after the other. -/
theorem foldl_conditions {filters : List Filter} (common : ∀ filter ∈ filters, IsCommon filter.op filter.value)
    {first : Expr} {found : List PlacedFilter} (read : first.conditions scope false = .ok found) :
    ((filters.map conditionTree).foldl Expr.and first).conditions scope false =
      .ok (found ++ filters.map fun filter => (none, settledFilter filter)) := by
  induction filters generalizing first found with
  | nil => rw [List.map_nil, List.map_nil, List.append_nil]; exact read
  | cons filter rest induction =>
      have both : (Expr.and first (conditionTree filter)).conditions scope false =
          .ok (found ++ [(none, settledFilter filter)]) := by
        rw [Expr.conditions, read, conditionTree_conditions (common filter (by simp))]
        rfl
      rw [List.map_cons, List.foldl_cons, induction (fun other member => common other (by simp [member])) both]
      simp

theorem conditionFilters_tree {filters : List Filter}
    (common : ∀ filter ∈ filters, IsCommon filter.op filter.value) :
    conditionFilters scope (conditionsTree filters) =
      .ok (filters.map fun filter => (none, settledFilter filter)) := by
  cases filters with
  | nil => rfl
  | cons filter rest =>
      have first := @conditionTree_conditions scope filter (common filter (by simp))
      exact foldl_conditions (fun other member => common other (by simp [member])) first

/-- What is read without the name of a table belongs to the main table. -/
theorem placedAt_none {α β : Type} (f : α → β) (items : List α) :
    placedAt none (items.map fun item => (none, f item)) = items.map f := by
  rw [placedAt, List.filterMap_map, ← List.filterMap_eq_map]
  exact List.filterMap_congr fun item _ => rfl

theorem placedAt_self {α : Type} (items : List α) :
    placedAt none (items.map fun item => (none, item)) = items :=
  (placedAt_none id items).trans (List.map_id items)

/-- The columns that statements put out as they are: all of them, or one by its name, perhaps
under another one. -/
inductive IsShown : Column → Prop
  | star : IsShown .star
  | named {name : String} {label : Option String} (bare : IsBare name)
    (labelled : ∀ text ∈ label, IsBare text) : IsShown { name, label }

theorem IsShown.isItem {column : Column} (shown : IsShown column) : column.IsItem := by
  cases shown with
  | star => exact Column.isItem_star
  | named bare labelled =>
      exact Column.isItem_named bare.isName (fun text given => (labelled text given).isName)
        (by simp) (by simp)

theorem columnTree_column {column : Column} (shown : IsShown column) :
    (columnTree column).column scope = .ok (none, column) := by
  cases shown with
  | star => rfl
  | @named name label bare labelled =>
      have other : ({ name, label } : Column).isStar = false := by
        refine decide_eq_false ?_
        rintro (rfl : name = "*")
        exact absurd bare (by decide)
      cases label <;> rw [columnTree, other] <;> rfl

theorem columns_tree {columns : List Column} (shown : ∀ column ∈ columns, IsShown column) :
    (columns.map columnTree).mapM (SelectItem.column scope) =
      .ok (columns.map fun column => (none, column)) := by
  rw [List.mapM_map]
  exact mapM_of_ok fun column listed => columnTree_column (shown column listed)

theorem sortTree_order (item : OrderItem) : (sortTree item).order scope = .ok (none, item) := by
  obtain ⟨column, descending, nulls⟩ := item
  cases descending <;> rcases nulls with _ | _ | _ <;> rfl

theorem orders_tree (order : List OrderItem) :
    (order.map sortTree).mapM (SortItem.order scope) = .ok (order.map fun item => (none, item)) := by
  rw [List.mapM_map]
  exact mapM_of_ok fun item _ => sortTree_order item

theorem countTree_count (clause : String) (count : UInt64) :
    (countTree count).count clause = .ok count := by
  unfold Expr.count countTree
  simp only [numberTree_value, unsigned?_toString]

theorem counts_tree (clause : String) (count : Option UInt64) :
    (count.map countTree).mapM (Expr.count clause) = .ok count := by
  cases count with
  | none => rfl
  | some count => simp [countTree_count]

end QueryNotation.Sql
