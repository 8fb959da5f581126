import QueryNotation.Proofs.Sql.Change
import QueryNotation.Proofs.Sql.Condition
import QueryNotation.Proofs.Sql.Parts
import QueryNotation.Proofs.Sql.Qualifier
import QueryNotation.Proofs.Value.Number

namespace QueryNotation.Sql

/-! # Numerals

A number of a statement is taken as it stands there, each minus sign in front of it included.  So
the numbers that are not decimal text are the numerals of its condition that are not.
-/

variable {scope : Scope} {negated : Bool} {text : String} {parsed : Parsed}

mutual

/-- The numerals of a literal, each behind its minus signs. -/
def Expr.numerals : Expr → List String
  | .constant (.number digits _) => [digits]
  | .negative operand => operand.numerals.map ("-" ++ ·)
  | .nested inner => inner.numerals
  | .cast operand _ _ => operand.numerals
  | .array items _ => Expr.numeralsOf items
  | _ => []

def Expr.numeralsOf : List Expr → List String
  | [] => []
  | item :: rest => item.numerals ++ Expr.numeralsOf rest

end

def Expr.comparedNumerals : Expr → List String
  | .and left right => left.comparedNumerals ++ right.comparedNumerals
  | .or left right => left.comparedNumerals ++ right.comparedNumerals
  | .not operand => operand.comparedNumerals
  | .nested inner => inner.comparedNumerals
  | .binary _ symbol right => if symbol = "@@" then [] else right.numerals
  | .inList _ items _ => Expr.numeralsOf items
  | .like _ pattern _ _ _ _ => pattern.numerals
  | _ => []

def Statement.numerals : Statement → List String
  | .query tree =>
      match tree.body with
      | .select selection => selection.condition.elim [] Expr.comparedNumerals
      | _ => []
  | .update tree => tree.condition.elim [] Expr.comparedNumerals
  | .delete tree => tree.condition.elim [] Expr.comparedNumerals
  | _ => []

mutual

theorem numbers_value (literal : Expr) (value : Value) (read : literal.value = .ok value) :
    value.numbers = literal.numerals := by
  cases literal with
  | constant constant =>
      cases constant with
      | parameter word => simp [Expr.value] at read
      | _ =>
          simp only [Expr.value, Except.ok.injEq] at read
          subst read
          simp [Value.numbers, Expr.numerals]
  | nested inner =>
      rw [Expr.value] at read
      rw [Expr.numerals]
      exact numbers_value inner value read
  | cast operand type word =>
      rw [Expr.value] at read
      rw [Expr.numerals]
      exact numbers_value operand value read
  | array items named =>
      rw [Expr.value] at read
      obtain ⟨values, each, read⟩ := ok_of_bind read
      obtain rfl := Except.ok.inj read
      rw [Value.numbers, Expr.numerals]
      exact numbersOf_values items values each
  | negative operand =>
      rw [Expr.value] at read
      obtain ⟨inner, below, read⟩ := ok_of_bind read
      have same := numbers_value operand inner below
      -- Only a number takes the minus sign into its token.
      cases inner with
      | number digits =>
          obtain rfl := Except.ok.inj read
          rw [Expr.numerals, ← same]
          rfl
      | _ => cases read
  | _ => simp [Expr.value] at read

theorem numbersOf_values (literals : List Expr) (values : List Value)
    (read : Expr.values literals = .ok values) : Value.numbersOf values = Expr.numeralsOf literals := by
  cases literals with
  | nil =>
      rw [Expr.values] at read
      obtain rfl := Except.ok.inj read
      rfl
  | cons item rest =>
      rw [Expr.values] at read
      obtain ⟨first, here, read⟩ := ok_of_bind read
      obtain ⟨others, behind, read⟩ := ok_of_bind read
      obtain rfl := Except.ok.inj read
      rw [Value.numbersOf, Expr.numeralsOf, numbers_value item first here, numbersOf_values rest others behind]

end

theorem mem_numbers_ofWire {op : Operator} {token : String} (broken : isNumeric text = false) :
    text ∉ (Value.ofWire op token).numbers := by
  intro member
  have numeric := Value.numeric_of_mem_numbers (Value.hasNumeric_ofWire op token) text member
  rw [broken] at numeric
  cases numeric

theorem mem_numbers_comparedValue {op : Operator} {right : Expr} {value : Value}
    (broken : isNumeric text = false) (read : comparedValue op right = .ok value) :
    text ∈ value.numbers ↔ text ∈ right.numerals := by
  obtain ⟨given, valued, read⟩ := ok_of_bind read
  have same := numbers_value right given valued
  rw [← same]
  split at read
  · obtain rfl := Except.ok.inj read
    simp [mem_numbers_ofWire broken, Value.numbers]
  · obtain rfl := Except.ok.inj read
    simp [mem_numbers_ofWire broken, Value.numbers]
  · obtain rfl := Except.ok.inj read
    simp [mem_numbers_ofWire broken, Value.numbers]
  · obtain rfl := Except.ok.inj read
    rfl

theorem numbers_searchFilter {column : String} {right : Expr} {filter : Filter}
    (read : searchFilter column negated right = .ok filter) : filter.value.numbers = [] := by
  cases right with
  | call function arguments frame =>
      obtain ⟨⟨op, config, words⟩, _, read⟩ := ok_of_bind read
      obtain rfl := Except.ok.inj read
      simp [Value.numbers]
  | _ => cases read

theorem mem_numbers_comparison {left right : Expr} {symbol : String} {placed : PlacedFilter}
    (broken : isNumeric text = false)
    (read : comparison scope negated left symbol right = .ok placed) :
    text ∈ placed.2.value.numbers ↔ text ∈ (Expr.binary left symbol right).comparedNumerals := by
  obtain ⟨⟨target, column⟩, _, read⟩ := ok_of_bind read
  rw [Expr.comparedNumerals]
  by_cases search : symbol = "@@"
  · simp only [if_pos search] at read ⊢
    obtain ⟨filter, searched, read⟩ := ok_of_bind read
    obtain rfl := Except.ok.inj read
    rw [numbers_searchFilter searched]
  · simp only [if_neg search] at read ⊢
    split at read
    · cases read
    · obtain ⟨value, compared, read⟩ := ok_of_bind read
      obtain rfl := Except.ok.inj read
      exact mem_numbers_comparedValue broken compared

theorem ok_of_placedFilter {operand : Expr} {op : Operator} {value : Outcome Value} {placed : PlacedFilter}
    (read : placedFilter scope operand op negated value = .ok placed) :
    operand.column scope = .ok (placed.1, placed.2.column) ∧ value = .ok placed.2.value := by
  obtain ⟨⟨target, column⟩, named, read⟩ := ok_of_bind read
  obtain ⟨given, valued, read⟩ := ok_of_bind read
  obtain rfl := Except.ok.inj read
  exact ⟨named, valued⟩

/-- A table that the columns of a scope may belong to. -/
def Scope.Reaches (scope : Scope) (target : Target) : Prop :=
  target = none ∨ ∃ name, (name, target) ∈ scope.names

theorem Scope.reaches_placeIn {qualifier : Option String} {target : Target}
    (found : placeIn scope.names qualifier = some target) : scope.Reaches target := by
  cases qualifier with
  | none => exact .inl (Option.some.inj found).symm
  | some name =>
      obtain ⟨⟨other, place⟩, listed, rfl⟩ := Option.map_eq_some_iff.mp found
      exact .inr ⟨other, List.mem_of_find?_eq_some listed⟩

theorem reaches_column {value : Expr} {target : Target} {column : String}
    (read : value.column scope = .ok (target, column)) : scope.Reaches target := by
  obtain ⟨qualifier, _, placed⟩ := ok_of_column read
  exact Scope.reaches_placeIn placed

theorem reaches_comparison {left right : Expr} {symbol : String} {placed : PlacedFilter}
    (read : comparison scope negated left symbol right = .ok placed) : scope.Reaches placed.1 := by
  obtain ⟨⟨target, column⟩, named, read⟩ := ok_of_bind read
  have reached := reaches_column named
  dsimp only at read
  split at read
  · obtain ⟨filter, _, read⟩ := ok_of_bind read
    obtain rfl := Except.ok.inj read
    exact reached
  · split at read
    · cases read
    · obtain ⟨value, _, read⟩ := ok_of_bind read
      obtain rfl := Except.ok.inj read
      exact reached

/-- Some filters belong to tables of a scope and have, of the numbers that are not decimal, just
some numerals. -/
structure HasNumerals (scope : Scope) (numerals : List String) (filters : List PlacedFilter) : Prop where
  reaches : ∀ placed ∈ filters, scope.Reaches placed.1
  numbers : ∀ text, isNumeric text = false →
    ((∃ placed ∈ filters, text ∈ placed.2.value.numbers) ↔ text ∈ numerals)

namespace HasNumerals

variable {numerals more : List String} {filters others : List PlacedFilter}

theorem append (first : HasNumerals scope numerals filters) (second : HasNumerals scope more others) :
    HasNumerals scope (numerals ++ more) (filters ++ others) where
  reaches placed member := (List.mem_append.mp member).elim (first.reaches placed) (second.reaches placed)
  numbers text broken := by
    rw [List.mem_append, ← first.numbers text broken, ← second.numbers text broken]
    simp only [List.mem_append, or_and_right, exists_or]

theorem single {placed : PlacedFilter} (reaches : scope.Reaches placed.1)
    (numbers : ∀ text, isNumeric text = false → (text ∈ placed.2.value.numbers ↔ text ∈ numerals)) :
    HasNumerals scope numerals [placed] where
  reaches := List.forall_mem_singleton.mpr reaches
  numbers text broken := by
    rw [← numbers text broken]
    simp only [List.mem_singleton, exists_eq_left]

end HasNumerals

theorem numbers_truth {what : Truth} {value : Value} (known : what.value? = some value) :
    value.numbers = [] := by
  cases what with
  | unknown => cases known
  | _ =>
      obtain rfl := Option.some.inj known
      simp [Value.numbers]

/-- The filters of a condition have its numerals. -/
theorem hasNumerals_conditions {condition : Expr} {filters : List PlacedFilter}
    (read : condition.conditions scope negated = .ok filters) :
    HasNumerals scope condition.comparedNumerals filters := by
  fun_induction Expr.conditions scope negated condition generalizing filters with
  | case1 => cases read
  | case3 => cases read
  | case2 =>
      next positive firstInduction secondInduction =>
      obtain ⟨front, first, read⟩ := ok_of_bind read
      obtain ⟨back, second, read⟩ := ok_of_bind read
      obtain rfl := Except.ok.inj read
      exact (firstInduction first).append (secondInduction second)
  | case4 =>
      next negative firstInduction secondInduction =>
      obtain ⟨front, first, read⟩ := ok_of_bind read
      obtain ⟨back, second, read⟩ := ok_of_bind read
      obtain rfl := Except.ok.inj read
      exact (firstInduction first).append (secondInduction second)
  -- The tests add the numerals of what they compare with; those above only join or negate.
  | case5 negated left symbol right =>
      obtain ⟨placed, compared, read⟩ := ok_of_bind read
      obtain rfl := Except.ok.inj read
      exact .single (reaches_comparison compared) fun text broken => mem_numbers_comparison broken compared
  | case6 negated inner induction => exact induction read
  | case7 negated operand induction => exact induction read
  | case8 negated operand what opposite value known =>
      obtain ⟨placed, compared, read⟩ := ok_of_bind read
      obtain rfl := Except.ok.inj read
      obtain ⟨named, valued⟩ := ok_of_placedFilter compared
      obtain rfl := Except.ok.inj valued
      refine .single (reaches_column named) fun text _ => ?_
      rw [numbers_truth known]
      rfl
  | case10 negated operand items opposite =>
      obtain ⟨placed, compared, read⟩ := ok_of_bind read
      obtain rfl := Except.ok.inj read
      obtain ⟨named, listed⟩ := ok_of_placedFilter compared
      obtain ⟨values, valued, same⟩ := ok_of_map listed
      refine .single (reaches_column named) fun text _ => ?_
      rw [Expr.comparedNumerals, ← numbersOf_values items values valued, ← same, Value.numbers]
  | case12 negated operand pattern anyCase opposite any escape =>
      obtain ⟨placed, compared, read⟩ := ok_of_bind read
      obtain rfl := Except.ok.inj read
      obtain ⟨named, valued⟩ := ok_of_placedFilter compared
      refine .single (reaches_column named) fun text _ => ?_
      rw [Expr.comparedNumerals, ← numbers_value pattern _ valued]
  | _ => cases read

theorem hasNumerals_conditionFilters {condition : Option Expr} {filters : List PlacedFilter}
    (read : conditionFilters scope condition = .ok filters) :
    HasNumerals scope (condition.elim [] Expr.comparedNumerals) filters := by
  cases condition with
  | none =>
      obtain rfl := Except.ok.inj read
      exact ⟨List.forall_mem_nil _, by simp⟩
  | some condition => exact hasNumerals_conditions read

theorem mem_placedAt {α : Type} {target : Target} {found : List (Target × α)} {item : α} :
    item ∈ placedAt target found ↔ (target, item) ∈ found := by
  unfold placedAt
  simp only [List.mem_filterMap, Option.ite_none_right_eq_some, Option.some.injEq, Prod.exists]
  constructor
  · rintro ⟨place, other, member, rfl, rfl⟩
    exact member
  · exact fun member => ⟨target, item, member, rfl, rfl⟩

theorem reaches_ofTable {table : String} {label : Option String} {target : Target}
    (reached : (Scope.ofTable table label).Reaches target) : target = none := by
  rcases reached with rfl | ⟨name, listed⟩
  · rfl
  · simp only [Scope.ofTable, Scope.tableNames, List.mem_cons, Prod.mk.injEq, Option.mem_toList,
      Option.map_eq_some_iff] at listed
    rcases listed with ⟨_, rfl⟩ | ⟨_, _, _, rfl⟩
    · rfl
    · rfl

/-- A query whose filters are those of the one table of a condition. -/
theorem numbers_ofTable {table : String} {label : Option String} {numerals : List String}
    {filters : List PlacedFilter} {query : Query}
    (numbered : HasNumerals (.ofTable table label) numerals filters)
    (main : query.filters = placedAt none filters) (alone : query.embeds = [])
    (broken : isNumeric text = false) : text ∈ query.numbers ↔ text ∈ numerals := by
  rw [Query.mem_numbers, ← numbered.numbers text broken, Query.allFilters, main, alone,
    Embed.filtersBelow, List.append_nil]
  constructor
  · rintro ⟨filter, member, inside⟩
    exact ⟨(none, filter), mem_placedAt.mp member, inside⟩
  · rintro ⟨⟨target, filter⟩, member, inside⟩
    obtain rfl := reaches_ofTable (numbered.reaches _ member)
    exact ⟨filter, mem_placedAt.mpr member, inside⟩

theorem reaches_join {table : String} {label : Option String} {number : Nat} {target : Target}
    (reached : (scope.join table label number).Reaches target) :
    scope.Reaches target ∨ target = some number := by
  rcases reached with rfl | ⟨name, listed⟩
  · exact .inl (.inl rfl)
  · rcases List.mem_append.mp listed with before | added
    · exact .inl (.inr ⟨name, before⟩)
    · simp only [Scope.tableNames, List.mem_cons, Prod.mk.injEq, Option.mem_toList,
        Option.map_eq_some_iff] at added
      rcases added with ⟨_, rfl⟩ | ⟨_, _, _, rfl⟩
      · exact .inr rfl
      · exact .inr rfl

theorem reaches_foldl_join {joined : List (JoinedEmbed × Nat)} {target : Target}
    (reached : Scope.Reaches (joined.foldl
      (fun scope item => scope.join item.1.table.name item.1.table.label item.2) scope) target) :
    scope.Reaches target ∨ ∃ item ∈ joined, target = some item.2 := by
  induction joined generalizing scope with
  | nil => exact .inl reached
  | cons first rest induction =>
      rcases induction reached with before | ⟨item, member, same⟩
      · rcases reaches_join before with earlier | same
        · exact .inl earlier
        · exact .inr ⟨first, List.mem_cons_self, same⟩
      · exact .inr ⟨item, List.mem_cons_of_mem _ member, same⟩

theorem reaches_selectionScope {table : NamedTable} {joined : List JoinedEmbed} {target : Target}
    (reached : (selectionScope table joined).Reaches target) :
    target = none ∨ ∃ item ∈ joined.zipIdx, target = some item.2 :=
  (reaches_foldl_join reached).imp_left reaches_ofTable

/-- A query whose embeds are the joined tables, each with its own filters. -/
theorem numbers_selection {table : NamedTable} {joined : List JoinedEmbed} {numerals : List String}
    {query : Query} (placed : Placed)
    (numbered : HasNumerals (selectionScope table joined) numerals placed.filters)
    (main : query.filters = placedAt none placed.filters)
    (embeds : query.embeds = joined.zipIdx.map fun (embed, number) => placed.embed embed number)
    (broken : isNumeric text = false) : text ∈ query.numbers ↔ text ∈ numerals := by
  have below : Embed.filtersBelow query.embeds =
      joined.zipIdx.flatMap fun (_, number) => placedAt (some number) placed.filters := by
    rw [embeds]
    generalize joined.zipIdx = rest
    induction rest with
    | nil => rfl
    | cons first rest induction =>
        rw [List.map_cons, Embed.filtersBelow, induction, List.flatMap_cons]
        simp only [Placed.embed, Embed.filtersFrom, Embed.filtersBelow, List.append_nil]
  rw [Query.mem_numbers, ← numbered.numbers text broken, Query.allFilters, main, below]
  constructor
  · rintro ⟨filter, member, inside⟩
    rcases List.mem_append.mp member with own | joinedTo
    · exact ⟨(none, filter), mem_placedAt.mp own, inside⟩
    · obtain ⟨⟨_, number⟩, _, there⟩ := List.mem_flatMap.mp joinedTo
      exact ⟨(some number, filter), mem_placedAt.mp there, inside⟩
  · rintro ⟨⟨target, filter⟩, member, inside⟩
    refine ⟨filter, List.mem_append.mpr ?_, inside⟩
    rcases reaches_selectionScope (numbered.reaches _ member) with rfl | ⟨item, listed, rfl⟩
    · exact .inl (mem_placedAt.mpr member)
    · exact .inr (List.mem_flatMap.mpr ⟨item, listed, mem_placedAt.mpr member⟩)

theorem QueryTree.numbers_read {tree : QueryTree} (read : tree.read = .ok parsed)
    (broken : isNumeric text = false) :
    text ∈ parsed.query.numbers ↔ text ∈ (Statement.query tree).numerals := by
  obtain ⟨selection, source, table, joined, placed, limit, offset, reads, rfl⟩ := tree.ok_of_read read
  have numbered := hasNumerals_conditionFilters reads.filters
  simp only [Statement.numerals, reads.body]
  exact numbers_selection placed numbered rfl rfl broken

theorem UpdateTree.numbers_read {tree : UpdateTree} (read : tree.read = .ok parsed)
    (broken : isNumeric text = false) :
    text ∈ parsed.query.numbers ↔ text ∈ (Statement.update tree).numerals := by
  obtain ⟨table, cells, filters, columns, reads, rfl⟩ := tree.ok_of_read read
  exact numbers_ofTable (hasNumerals_conditionFilters reads.filters) rfl rfl broken

theorem DeleteTree.numbers_read {tree : DeleteTree} (read : tree.read = .ok parsed)
    (broken : isNumeric text = false) :
    text ∈ parsed.query.numbers ↔ text ∈ (Statement.delete tree).numerals := by
  obtain ⟨source, table, filters, columns, reads, rfl⟩ := tree.ok_of_read read
  exact numbers_ofTable (hasNumerals_conditionFilters reads.filters) rfl rfl broken

theorem InsertTree.allFilters_read {tree : InsertTree} (read : tree.read = .ok parsed) :
    parsed.query.allFilters = [] := by
  obtain ⟨rows, before, columns, _, said, rfl⟩ := InsertTree.ok_of_read read
  cases said with
  | none _ => rfl
  | some _ conflict => cases conflict <;> rfl

theorem Statement.numbers_read {statement : Statement} (read : statement.read = .ok parsed)
    (broken : isNumeric text = false) : text ∈ parsed.query.numbers ↔ text ∈ statement.numerals := by
  cases statement with
  | query tree => exact QueryTree.numbers_read read broken
  | insert tree =>
      rw [Query.numbers, InsertTree.allFilters_read read]
      rfl
  | update tree => exact UpdateTree.numbers_read read broken
  | delete tree => exact DeleteTree.numbers_read read broken
  | other text => cases read

end QueryNotation.Sql
