import QueryNotation.Proofs.Sql.Parts

namespace QueryNotation.Sql

/-! # Clauses that are not read

A `FETCH` of a query, a `FROM` of an update, a `USING` of a delete and an `ESCAPE` of a pattern
belong to the tree of a statement, and no query can say them.  They are neither refused nor told
of: a statement is read as if it had none of them.
-/

variable {scope : Scope} {negated : Bool} {statement : Statement} {parsed : Parsed}

def Expr.withoutEscapes : Expr → Expr
  | .and left right => .and left.withoutEscapes right.withoutEscapes
  | .or left right => .or left.withoutEscapes right.withoutEscapes
  | .not operand => .not operand.withoutEscapes
  | .nested inner => .nested inner.withoutEscapes
  | .like operand pattern anyCase negated any _ => .like operand pattern anyCase negated any none
  | rest => rest

/-- Some pattern of a condition names its escape. -/
def Expr.hasEscape : Expr → Bool
  | .and left right => left.hasEscape || right.hasEscape
  | .or left right => left.hasEscape || right.hasEscape
  | .not operand => operand.hasEscape
  | .nested inner => inner.hasEscape
  | .like _ _ _ _ _ escape => escape.isSome
  | _ => false

def SelectTree.withoutEscapes (selection : SelectTree) : SelectTree :=
  { selection with condition := selection.condition.map Expr.withoutEscapes }

def QueryBody.withoutEscapes : QueryBody → QueryBody
  | .select selection => .select selection.withoutEscapes
  | rest => rest

def QueryBody.hasEscape : QueryBody → Bool
  | .select selection => selection.condition.any Expr.hasEscape
  | _ => false

def Statement.withoutClauses : Statement → Statement
  | .query tree => .query { tree with body := tree.body.withoutEscapes, fetch := none }
  | .update tree =>
      .update { tree with
        fromBefore := none, fromAfter := none, condition := tree.condition.map Expr.withoutEscapes }
  | .delete tree =>
      .delete { tree with helpers := none, condition := tree.condition.map Expr.withoutEscapes }
  | rest => rest

def Statement.hasClause : Statement → Bool
  | .query tree => tree.fetch.isSome || tree.body.hasEscape
  | .update tree =>
      tree.fromBefore.isSome || tree.fromAfter.isSome || tree.condition.any Expr.hasEscape
  | .delete tree => tree.helpers.isSome || tree.condition.any Expr.hasEscape
  | _ => false

theorem Expr.withoutEscapes_eq_self_iff (condition : Expr) :
    condition.withoutEscapes = condition ↔ condition.hasEscape = false := by
  fun_induction Expr.withoutEscapes condition with
  | case1 left right leftInduction rightInduction =>
      rw [Expr.and.injEq, leftInduction, rightInduction, Expr.hasEscape, Bool.or_eq_false_iff]
  | case2 left right leftInduction rightInduction =>
      rw [Expr.or.injEq, leftInduction, rightInduction, Expr.hasEscape, Bool.or_eq_false_iff]
  | case3 operand induction => rw [Expr.not.injEq, induction, Expr.hasEscape]
  | case4 inner induction => rw [Expr.nested.injEq, induction, Expr.hasEscape]
  | case5 operand pattern anyCase negated any escape =>
      cases escape <;> simp [Expr.hasEscape]
  | case6 => simp [Expr.hasEscape]

theorem withoutEscapes_condition_iff (condition : Option Expr) :
    condition.map Expr.withoutEscapes = condition ↔ condition.any Expr.hasEscape = false := by
  cases condition with
  | none => simp
  | some condition => simp [Expr.withoutEscapes_eq_self_iff]

theorem QueryBody.withoutEscapes_eq_self_iff (body : QueryBody) :
    body.withoutEscapes = body ↔ body.hasEscape = false := by
  cases body with
  | select selection =>
      obtain ⟨⟩ := selection
      simp [QueryBody.withoutEscapes, SelectTree.withoutEscapes, QueryBody.hasEscape,
        withoutEscapes_condition_iff]
  | values word rows => simp [QueryBody.withoutEscapes, QueryBody.hasEscape]
  | other text => simp [QueryBody.withoutEscapes, QueryBody.hasEscape]

/-- Exactly the statements without such a clause are left as they are. -/
theorem Statement.withoutClauses_eq_self_iff (statement : Statement) :
    statement.withoutClauses = statement ↔ statement.hasClause = false := by
  cases statement with
  | query tree =>
      obtain ⟨⟩ := tree
      simp [Statement.withoutClauses, Statement.hasClause, QueryBody.withoutEscapes_eq_self_iff,
        and_comm, @eq_comm _ none]
  | insert tree => simp [Statement.withoutClauses, Statement.hasClause]
  | update tree =>
      obtain ⟨⟩ := tree
      simp [Statement.withoutClauses, Statement.hasClause, withoutEscapes_condition_iff,
        and_assoc, @eq_comm _ none]
  | delete tree =>
      obtain ⟨⟩ := tree
      simp [Statement.withoutClauses, Statement.hasClause, withoutEscapes_condition_iff,
        @eq_comm _ none]
  | other text => simp [Statement.withoutClauses, Statement.hasClause]

theorem Expr.hasEscape_withoutEscapes (condition : Expr) : condition.withoutEscapes.hasEscape = false := by
  fun_induction Expr.withoutEscapes condition with
  | case1 left right leftInduction rightInduction =>
      rw [Expr.hasEscape, leftInduction, rightInduction, Bool.or_false]
  | case2 left right leftInduction rightInduction =>
      rw [Expr.hasEscape, leftInduction, rightInduction, Bool.or_false]
  | case3 operand induction => exact induction
  | case4 inner induction => exact induction
  | case5 => rfl
  | case6 => simp [Expr.hasEscape]

theorem hasEscape_condition (condition : Option Expr) :
    (condition.map Expr.withoutEscapes).any Expr.hasEscape = false := by
  cases condition with
  | none => rfl
  | some condition => exact condition.hasEscape_withoutEscapes

theorem Statement.hasClause_withoutClauses (statement : Statement) :
    statement.withoutClauses.hasClause = false := by
  cases statement with
  | query tree =>
      obtain ⟨common, body⟩ := tree
      cases body with
      | select selection => exact hasEscape_condition selection.condition
      | values word rows => rfl
      | other text => rfl
  | update tree => exact hasEscape_condition tree.condition
  | delete tree => exact hasEscape_condition tree.condition
  | insert tree => rfl
  | other text => rfl

theorem toOption_bind {ε α β : Type} (found : Except ε α) (next : α → Except ε β) :
    (found >>= next).toOption = found.toOption.bind fun value => (next value).toOption := by
  cases found <;> rfl

theorem toOption_error {ε α : Type} (fault : ε) : (Except.error fault : Except ε α).toOption = none :=
  rfl

theorem toOption_conditions_and (scope : Scope) (negated : Bool) (left right : Expr) :
    ((Expr.and left right).conditions scope negated).toOption =
      if negated then none
      else (left.conditions scope negated).toOption.bind fun first =>
        (right.conditions scope negated).toOption.map (first ++ ·) := by
  rw [Expr.conditions]
  cases negated with
  | true => rfl
  | false =>
      cases left.conditions scope false with
      | error fault => rfl
      | ok first => cases right.conditions scope false <;> rfl

theorem toOption_conditions_or (scope : Scope) (negated : Bool) (left right : Expr) :
    ((Expr.or left right).conditions scope negated).toOption =
      if negated then (left.conditions scope negated).toOption.bind fun first =>
        (right.conditions scope negated).toOption.map (first ++ ·)
      else none := by
  rw [Expr.conditions]
  cases negated with
  | false => rfl
  | true =>
      cases left.conditions scope true with
      | error fault => rfl
      | ok first => cases right.conditions scope true <;> rfl

theorem toOption_refuse {ε α : Type} (refused : Bool) (fault : ε) (next : Except ε α) :
    (if refused then (throw fault : Except ε Unit) >>= fun _ => next else next).toOption =
      if refused then none else next.toOption := by
  cases refused <;> rfl

/-- A condition says the same filters with escapes and without; what is refused may be shown
differently. -/
theorem toOption_conditions_withoutEscapes (scope : Scope) (negated : Bool) (condition : Expr) :
    (condition.withoutEscapes.conditions scope negated).toOption =
      (condition.conditions scope negated).toOption := by
  fun_induction Expr.withoutEscapes condition generalizing negated with
  | case1 left right leftInduction rightInduction =>
      rw [toOption_conditions_and, toOption_conditions_and, leftInduction, rightInduction]
  | case2 left right leftInduction rightInduction =>
      rw [toOption_conditions_or, toOption_conditions_or, leftInduction, rightInduction]
  | case3 operand induction =>
      rw [Expr.conditions, Expr.conditions, induction]
  | case4 inner induction =>
      rw [Expr.conditions, Expr.conditions, induction]
  | case5 operand pattern anyCase opposite any escape =>
      cases any with
      | false => rfl
      | true => rw [Expr.conditions, Expr.conditions, if_pos rfl, if_pos rfl, toOption_error, toOption_error]
  | case6 => rfl

theorem toOption_conditionFilters (scope : Scope) (condition : Option Expr) :
    (conditionFilters scope (condition.map Expr.withoutEscapes)).toOption =
      (conditionFilters scope condition).toOption := by
  cases condition with
  | none => rfl
  | some condition => exact toOption_conditions_withoutEscapes scope false condition

theorem SelectTree.checkFeatures_withoutEscapes (selection : SelectTree) :
    selection.withoutEscapes.checkFeatures.toOption = selection.checkFeatures.toOption := by
  have last (refused : Bool) (fault : Fault) :
      (if refused then throw fault else pure () : Outcome Unit).toOption =
        if refused then none else some () := by
    cases refused <;> rfl
  unfold SelectTree.checkFeatures
  rw [toOption_refuse, toOption_refuse, toOption_refuse, toOption_refuse, last, last]
  rfl

theorem SelectTree.source_withoutEscapes (selection : SelectTree) :
    selection.withoutEscapes.source.toOption = selection.source.toOption := by
  obtain ⟨distinct, top, items, into, sources⟩ := selection
  match sources with
  | [] => simp only [SelectTree.source, SelectTree.withoutEscapes, toOption_error]
  | [source] => rfl
  | first :: second :: rest =>
      simp only [SelectTree.source, SelectTree.withoutEscapes, toOption_error]

theorem QueryTree.read_withoutClauses (tree : QueryTree) :
    (QueryTree.read { tree with body := tree.body.withoutEscapes, fetch := none }).toOption =
      tree.read.toOption := by
  obtain ⟨common, body, order, limit, offset, fetch, locks⟩ := tree
  rw [QueryTree.read, QueryTree.read, toOption_refuse, toOption_refuse]
  cases common with
  | some text => rfl
  | none =>
      cases body with
      | select selection =>
          have features := selection.checkFeatures_withoutEscapes
          have source := selection.source_withoutEscapes
          have filters := fun scope => toOption_conditionFilters scope selection.condition
          simp only [QueryBody.withoutEscapes, toOption_bind, features, source]
          simp only [SelectTree.withoutEscapes, filters]
      | values word rows => rfl
      | other text => rfl

theorem UpdateTree.read_withoutClauses (tree : UpdateTree) :
    (UpdateTree.read { tree with
        fromBefore := none, fromAfter := none, condition := tree.condition.map Expr.withoutEscapes }).toOption =
      tree.read.toOption := by
  unfold UpdateTree.read
  simp only [apply_ite Except.toOption, toOption_bind, toOption_conditionFilters]

theorem DeleteTree.read_withoutClauses (tree : DeleteTree) :
    (DeleteTree.read { tree with
        helpers := none, condition := tree.condition.map Expr.withoutEscapes }).toOption =
      tree.read.toOption := by
  unfold DeleteTree.read
  simp only [toOption_bind, toOption_conditionFilters, DeleteTree.table]

theorem Statement.read_withoutClauses (statement : Statement) :
    statement.withoutClauses.read.toOption = statement.read.toOption := by
  cases statement with
  | query tree => exact tree.read_withoutClauses
  | update tree => exact tree.read_withoutClauses
  | delete tree => exact tree.read_withoutClauses
  | insert tree => rfl
  | other text => rfl

def TableSource.schema? : TableSource → Option String
  | .table path _ _ => (splitTableName (Name.path path)).2
  | .other _ => none

/-- Something else of a statement is told of: the schema of its table, a join or a lock. -/
def Statement.isTold : Statement → Bool
  | .query tree =>
      match tree.body with
      | .select selection =>
          selection.sources.any (fun table => table.source.schema?.isSome || !table.joins.isEmpty) ||
            !tree.locks.isEmpty
      | _ => false
  | .update tree => tree.table.source.schema?.isSome
  | .delete tree => tree.tables.any fun table => table.source.schema?.isSome
  | _ => false

theorem TableSource.schema_of_named {source : TableSource} {table : NamedTable}
    (named : source.named = .ok table) : table.schema = source.schema? := by
  cases source with
  | table path suffix label =>
      simp only [TableSource.named] at named
      rw [TableSource.schema?]
      cases parts : splitTableName (Name.path path) with
      | mk name schema =>
          rw [parts] at named
          obtain rfl := Except.ok.inj named
          rfl
  | other text => cases named

theorem schemaWarnings_eq_nil_iff (schema : Option String) :
    schemaWarnings schema = [] ↔ schema.isSome = false := by
  cases schema <;> simp [schemaWarnings]

theorem QueryTree.warnings_eq_nil_iff {tree : QueryTree} (read : tree.read = .ok parsed) :
    parsed.warnings = [] ↔ (Statement.query tree).isTold = false := by
  obtain ⟨selection, source, table, joined, placed, limit, offset, reads, rfl⟩ := tree.ok_of_read read
  have none : joined = [] ↔ source.joins = [] := by
    rw [← List.length_eq_zero_iff, ← List.length_eq_zero_iff, (forall₂_of_mapM reads.joins).length_eq]
  simp only [selectParsed, Statement.isTold, reads.body, reads.only, List.any_cons, List.any_nil, Bool.or_false,
    List.append_eq_nil_iff, schemaWarnings_eq_nil_iff, TableSource.schema_of_named reads.named,
    List.map_eq_nil_iff, none, Bool.or_eq_false_iff, Bool.not_eq_false', List.isEmpty_iff]
  cases tree.locks <;> simp

theorem UpdateTree.warnings_eq_nil_iff {tree : UpdateTree} (read : tree.read = .ok parsed) :
    parsed.warnings = [] ↔ (Statement.update tree).isTold = false := by
  obtain ⟨table, cells, filters, columns, reads, rfl⟩ := tree.ok_of_read read
  rw [schemaWarnings_eq_nil_iff, TableSource.schema_of_named reads.named, Statement.isTold]

theorem DeleteTree.warnings_eq_nil_iff {tree : DeleteTree} (read : tree.read = .ok parsed) :
    parsed.warnings = [] ↔ (Statement.delete tree).isTold = false := by
  obtain ⟨source, table, filters, columns, reads, rfl⟩ := tree.ok_of_read read
  rw [schemaWarnings_eq_nil_iff]
  simp [Statement.isTold, reads.only, TableSource.schema_of_named reads.named]

theorem Statement.warnings_eq_nil_iff (held : statement.hasClause = true)
    (read : statement.read = .ok parsed) : parsed.warnings = [] ↔ statement.isTold = false := by
  cases statement with
  | query tree => exact QueryTree.warnings_eq_nil_iff read
  | update tree => exact UpdateTree.warnings_eq_nil_iff read
  | delete tree => exact DeleteTree.warnings_eq_nil_iff read
  | insert tree => cases held
  | other text => cases held

theorem ok_iff_of_toOption {ε α : Type} {found other : Except ε α} (same : found.toOption = other.toOption)
    (value : α) : found = .ok value ↔ other = .ok value := by
  cases found <;> cases other <;> simp_all [Except.toOption]

/-- A statement is read as it is read without the clauses that no query can say, and refused if it
is refused without them.  Nothing is told of a statement that has such a clause, unless it names a
schema, a join or a lock. -/
theorem clauses_unread {options : Options} {text : String} {statement : Statement}
    (small : options.checkSize text.utf8ByteSize = .ok ())
    (tree : Statement.ofText options.maxDepth text.toList = .ok [statement]) :
    statement.withoutClauses.hasClause = false ∧
      (statement.withoutClauses = statement ↔ statement.hasClause = false) ∧
      ∀ parsed, (read options text = .ok parsed ↔ statement.withoutClauses.read = .ok parsed) ∧
        (read options text = .ok parsed → statement.hasClause = true →
          (parsed.warnings = [] ↔ statement.isTold = false)) := by
  have same : read options text = statement.read := by
    unfold read
    simp only [small, tree, ok_bind]
  rw [same]
  refine ⟨statement.hasClause_withoutClauses, statement.withoutClauses_eq_self_iff,
    fun parsed => ⟨?_, ?_⟩⟩
  · exact (ok_iff_of_toOption statement.read_withoutClauses parsed).symm
  · exact fun read held => Statement.warnings_eq_nil_iff held read

/-- Each of the clauses is passed over in silence. -/
theorem clauses_untold :
    (["SELECT * FROM t FETCH FIRST 5 ROWS ONLY", "UPDATE t SET a = 1 FROM u WHERE b = 2",
        "DELETE FROM t USING u WHERE b = 2", "SELECT * FROM t WHERE a LIKE 'x!%' ESCAPE '!'"].map fun text =>
      ((Statement.ofText 32 text.toList).map (List.map Statement.hasClause),
        (read {} text).map Parsed.warnings)) =
      List.replicate 4 (.ok [true], .ok []) := by
  decide +kernel

theorem clauses_unread_fetch :
    ∃ statement parsed,
      Statement.ofText 32 "SELECT * FROM t FETCH FIRST 5 ROWS ONLY".toList = .ok [statement] ∧
        statement.hasClause = true ∧ statement.withoutClauses.read = .ok parsed ∧
        read {} "SELECT * FROM t FETCH FIRST 5 ROWS ONLY" = .ok parsed ∧ parsed.warnings = [] := by
  have trees : (Statement.ofText 32 "SELECT * FROM t FETCH FIRST 5 ROWS ONLY".toList).map
      (List.map fun statement => (statement.hasClause, statement.isTold)) = .ok [(true, false)] := by
    decide +kernel
  have reads : (read {} "SELECT * FROM t FETCH FIRST 5 ROWS ONLY").map (·.query.limit) = .ok none := by
    decide +kernel
  obtain ⟨statements, found, said⟩ := ok_of_map trees
  obtain ⟨statement, rfl, both⟩ := List.map_eq_singleton_iff.mp said
  obtain ⟨held, silent⟩ := Prod.mk.inj both
  obtain ⟨parsed, read, _⟩ := ok_of_map reads
  have small : ({} : Options).checkSize
      "SELECT * FROM t FETCH FIRST 5 ROWS ONLY".utf8ByteSize = .ok () := by decide +kernel
  obtain ⟨_, _, each⟩ := @clauses_unread {} _ statement small found
  exact ⟨statement, parsed, found, held, (each parsed).1.mp read, read,
    ((each parsed).2 read held).mpr silent⟩

end QueryNotation.Sql
