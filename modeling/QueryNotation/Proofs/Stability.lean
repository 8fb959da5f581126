import QueryNotation.Proofs.Rest.Text
import QueryNotation.Proofs.Sql.Returned
import QueryNotation.Sql.Tree

namespace QueryNotation

/-! # Statements survive a conversion into a request

A statement over plain names is converted into a request, and the request back into the same
statement, letter by letter.

Whether two statements have the same tree is decided.  Expressions hold lists of expressions, so
that they are compared together with lists of them.
-/

namespace Sql

mutual

def Expr.same : Expr → Expr → Bool
  | .name a, right => match right with
    | .name b => a = b
    | _ => false
  | .path as, right => match right with
    | .path bs => as = bs
    | _ => false
  | .constant a, right => match right with
    | .constant b => a = b
    | _ => false
  | .nested a, right => match right with
    | .nested b => a.same b
    | _ => false
  | .not a, right => match right with
    | .not b => a.same b
    | _ => false
  | .negative a, right => match right with
    | .negative b => a.same b
    | _ => false
  | .and a c, right => match right with
    | .and b d => a.same b && c.same d
    | _ => false
  | .or a c, right => match right with
    | .or b d => a.same b && c.same d
    | _ => false
  | .binary a symbol c, right => match right with
    | .binary b mark d => a.same b && symbol = mark && c.same d
    | _ => false
  | .isTest a what negated, right => match right with
    | .isTest b truth opposite => a.same b && what = truth && negated = opposite
    | _ => false
  | .inList a items negated, right => match right with
    | .inList b others opposite => a.same b && Expr.sameItems items others && negated = opposite
    | _ => false
  | .like a pattern anyCase negated any escape, right => match right with
    | .like b shape eachCase opposite each mark =>
      a.same b && pattern.same shape && anyCase = eachCase && negated = opposite && any = each && escape = mark
    | _ => false
  | .cast a type word, right => match right with
    | .cast b kind lead => a.same b && type = kind && word = lead
    | _ => false
  | .call function arguments frame, right => match right with
    | .call symbol others outer =>
      function = symbol && Expr.sameArguments arguments others && frame = outer
    | _ => false
  | .bareCall function, right => match right with
    | .bareCall symbol => function = symbol
    | _ => false
  | .array items named, right => match right with
    | .array others worded => Expr.sameItems items others && named = worded
    | _ => false
  | .subquery text, right => match right with
    | .subquery words => text = words
    | _ => false
  | .subqueryTest text, right => match right with
    | .subqueryTest words => text = words
    | _ => false
  | .other text, right => match right with
    | .other words => text = words
    | _ => false
termination_by structural left => left

def Expr.sameItems : List Expr → List Expr → Bool
  | [], right => right.isEmpty
  | a :: as, right => match right with
    | b :: bs => a.same b && Expr.sameItems as bs
    | [] => false
termination_by structural left => left

def Expr.sameArgument : Argument Expr → Argument Expr → Bool
  | .positional a, right => match right with
    | .positional b => a.same b
    | _ => false
  | .other text, right => match right with
    | .other words => text = words
    | _ => false
termination_by structural left => left

def Expr.sameArguments : List (Argument Expr) → List (Argument Expr) → Bool
  | [], right => right.isEmpty
  | a :: as, right => match right with
    | b :: bs => Expr.sameArgument a b && Expr.sameArguments as bs
    | [] => false
termination_by structural left => left

end

mutual

theorem Expr.same_iff (left right : Expr) : left.same right = true ↔ left = right := by
  cases left with
  | nested a => cases right <;> simp [Expr.same, Expr.same_iff a]
  | not a => cases right <;> simp [Expr.same, Expr.same_iff a]
  | negative a => cases right <;> simp [Expr.same, Expr.same_iff a]
  | and a c => cases right <;> simp [Expr.same, Expr.same_iff a, Expr.same_iff c]
  | or a c => cases right <;> simp [Expr.same, Expr.same_iff a, Expr.same_iff c]
  | binary a symbol c =>
      cases right <;> simp [Expr.same, Expr.same_iff a, Expr.same_iff c, and_assoc]
  | isTest a what negated => cases right <;> simp [Expr.same, Expr.same_iff a, and_assoc]
  | inList a items negated =>
      cases right <;> simp [Expr.same, Expr.same_iff a, Expr.sameItems_iff items, and_assoc]
  | like a pattern anyCase negated any escape =>
      cases right <;> simp [Expr.same, Expr.same_iff a, Expr.same_iff pattern, and_assoc]
  | cast a type word => cases right <;> simp [Expr.same, Expr.same_iff a, and_assoc]
  | call function arguments frame =>
      cases right <;> simp [Expr.same, Expr.sameArguments_iff arguments, and_assoc]
  | array items named => cases right <;> simp [Expr.same, Expr.sameItems_iff items]
  | _ => cases right <;> simp [Expr.same]
termination_by structural left

theorem Expr.sameItems_iff (left right : List Expr) : Expr.sameItems left right = true ↔ left = right := by
  cases left with
  | nil => cases right <;> simp [Expr.sameItems]
  | cons a as => cases right <;> simp [Expr.sameItems, Expr.same_iff a, Expr.sameItems_iff as]
termination_by structural left

theorem Expr.sameArgument_iff (left right : Argument Expr) :
    Expr.sameArgument left right = true ↔ left = right := by
  cases left with
  | positional a => cases right <;> simp [Expr.sameArgument, Expr.same_iff a]
  | other text => cases right <;> simp [Expr.sameArgument]
termination_by structural left

theorem Expr.sameArguments_iff (left right : List (Argument Expr)) :
    Expr.sameArguments left right = true ↔ left = right := by
  cases left with
  | nil => cases right <;> simp [Expr.sameArguments]
  | cons a as =>
      cases right <;> simp [Expr.sameArguments, Expr.sameArgument_iff a, Expr.sameArguments_iff as]
termination_by structural left

end

instance : DecidableEq Expr := fun left right =>
  decidable_of_iff (left.same right = true) (Expr.same_iff left right)

deriving instance DecidableEq for SelectItem
deriving instance DecidableEq for SortItem
deriving instance DecidableEq for SelectTree
deriving instance DecidableEq for QueryBody
deriving instance DecidableEq for OffsetClause
deriving instance DecidableEq for QueryTree
deriving instance DecidableEq for Assignment
deriving instance DecidableEq for ConflictAction
deriving instance DecidableEq for InsertClause
deriving instance DecidableEq for InsertTree
deriving instance DecidableEq for UpdateTree
deriving instance DecidableEq for DeleteTree
deriving instance DecidableEq for Statement

end Sql

open Sql Rest

variable {policy : KeyPolicy} {query : Query} {options : Options}

theorem named_settled (fits : FitsStatement policy query) : Text.allBlank query.table.toList = false := by
  obtain ⟨first, rest, shape⟩ := List.exists_cons_of_ne_nil fits.table.isName.ne_nil
  have inside : first ∈ query.table.toList := by simp [shape]
  exact Text.allBlank_false inside (Text.isBlank_nameChar (fits.table.isName.plain first inside))

theorem filtered_settled (deletes : query.operation = .delete) (filtered : query.filters ≠ []) :
    (settled policy query).filters ≠ [] := by
  unfold settled
  rw [deletes]
  simpa using filtered

/-- The query that a statement says is valid for every notation. -/
theorem validate_settled (fits : FitsStatement policy query) (accepted : Accepted query .sql)
    (call : query.operation ≠ .call) (target : Form) : (settled policy query).validate target = .ok () := by
  refine validate_alone ?_ (settled_embeds fits) ?_ ?_ (checkBody_settled call accepted.body) ?_
  · rw [settled_table]
    exact named_settled fits
  · intro filter member
    obtain ⟨given, _, rfl⟩ := settled_filter call filter member
    rfl
  · rw [settled_operation]
    exact fun deletes => filtered_settled deletes (accepted.filtered deletes)
  · rwa [settled_operation]

/-- The query that its request says is valid for every notation, too. -/
theorem validate_returned (fits : FitsStatement policy query) (accepted : Accepted query .sql)
    (call : query.operation ≠ .call) (target : Form) : (returned policy query).validate target = .ok () := by
  have operation : (returned policy query).operation = query.operation := settled_operation
  have table : (returned policy query).table = query.table := settled_table
  refine validate_alone ?_ (settled_embeds fits) ?_ ?_ (checkBody_settled call accepted.body) ?_
  · rw [table]
    exact named_settled fits
  · intro filter member
    obtain ⟨sent, _, rfl⟩ := List.mem_map.mp member
    rfl
  · rw [operation]
    intro deletes none
    exact filtered_settled deletes (accepted.filtered deletes) (List.map_eq_nil_iff.mp none)
  · rwa [operation]

theorem not_call (accepted : Accepted query .sql) : query.operation ≠ .call := by
  intro call
  have checked := accepted.sql rfl
  rw [Query.checkSql, if_pos call] at checked
  cases checked

/-- A statement becomes the request of the query that it says. -/
theorem convert_statement {text : String} (fits : FitsStatement policy query) (accepted : Accepted query .sql)
    (parsed : Statement.ofText options.maxDepth text.toList = .ok [statementTree policy query])
    (small : text.utf8ByteSize ≤ options.maxInputLength) :
    convert options .sql .rest text = .ok (Conversion.toRest { query := settled policy query }) := by
  have call := not_call accepted
  have read : Sql.read options text = .ok { query := settled policy query } := by
    unfold Sql.read
    simp only [Options.checkSize_ok small, ok_bind, parsed]
    exact fits.statementTree_read call accepted.body
  unfold convert Conversion.ofParsed
  simp only [read, ok_bind, validate_settled fits accepted call]
  rfl

theorem output_toRest (call : query.operation ≠ .call) :
    (Conversion.toRest { query := settled policy query }).output =
      (Rest.write (settled policy query)).request.text := by
  unfold Conversion.toRest
  simp only [settled_operation, call, if_false]

/-- The request becomes the statement that was written first. -/
theorem convert_request {written : Sql.Written} (fits : FitsStatement policy query) (accepted : Accepted query .sql)
    (finished : Sql.write policy query = .ok written)
    (small : Rest.sizeOf (Rest.write (settled policy query)).request.raw ≤ options.maxInputLength) :
    ∃ last, convert options .rest .sql (Rest.write (settled policy query)).request.text = .ok last ∧
      last.output = written.text := by
  have call := not_call accepted
  have request := RawRequest.ofText_text (isSendable_write (settled policy query))
  obtain ⟨last, again, same⟩ := @write_returned policy (.ofOptions options) query fits accepted.filters
    accepted.body written finished
  obtain ⟨result, converted, output⟩ : ∃ result,
      Conversion.toSql options { query := returned policy query } = .ok result ∧ result.output = last.text := by
    rw [Conversion.toSql, again]
    exact ⟨_, rfl, rfl⟩
  refine ⟨result, ?_, output.trans same⟩
  unfold convert Conversion.ofRequest Conversion.ofParsed
  simp only [request, ok_bind, read_settled fits call accepted.body small,
    validate_returned fits accepted call]
  exact converted

/-- A statement is converted into a request, and the request into the same statement: for every
query over plain names that is valid and has a statement, whatever key either side assumes, when
the parser understands the statement and both texts are short enough. -/
theorem convert_stable {written : Sql.Written} (fits : FitsStatement policy query)
    (valid : query.validate .sql = .ok ()) (finished : Sql.write policy query = .ok written)
    (parsed : Statement.ofText options.maxDepth written.text.toList = .ok [statementTree policy query])
    (small : written.text.utf8ByteSize ≤ options.maxInputLength) :
    ∃ middle, convert options .sql .rest written.text = .ok middle ∧
      ((∀ request, RawRequest.ofText middle.output = .ok request →
          Rest.sizeOf request ≤ options.maxInputLength) →
        ∃ last, convert options .rest .sql middle.output = .ok last ∧ last.output = written.text) := by
  have accepted := accepted_of_validate valid
  refine ⟨_, convert_statement fits accepted parsed small, fun short => ?_⟩
  rw [output_toRest (not_call accepted)] at short ⊢
  have request := RawRequest.ofText_text (isSendable_write (settled policy query))
  exact convert_request fits accepted finished (short _ request)

def memberQuery : Query where
  table := "users"
  operation := .select
  columns := [{ name := "id" }, { name := "email", label := some "mail" }]
  filters := [{ column := "age", op := .gte, value := .number "18", negated := true },
    { column := "name", op := .ilike, value := .string "A%" },
    { column := "role", op := .oneOf, value := .list [.string "admin", .null] }]
  limit := some 10

def memberStatement : String :=
  "SELECT id, email AS mail FROM users WHERE NOT (age >= 18) AND name ILIKE 'A%' AND " ++
    "role IN ('admin', NULL) LIMIT 10"

def memberRequest : String :=
  "GET /users?select=id,mail:email&age=not.gte.18&name=ilike.A*&role=in.(admin,null)&limit=10"

theorem fitsStatement_memberQuery (policy : KeyPolicy) : FitsStatement policy memberQuery where
  alone := rfl
  table := by decide
  plain := by decide
  columns := by
    simp only [memberQuery, List.forall_mem_cons]
    exact ⟨.named (by decide) nofun, .named (by decide) (by rintro _ ⟨⟩; decide), List.forall_mem_nil _⟩
  filters := by
    simp only [memberQuery, List.forall_mem_cons]
    refine ⟨⟨by decide, .compared (by decide) ?_⟩, ⟨by decide, .pattern (.inr rfl)⟩,
      ⟨by decide, .list (by simp) ?_⟩, List.forall_mem_nil _⟩
    · rintro _ ⟨⟩
      decide
    · simp only [List.forall_mem_cons, Value.IsScalar]
      exact ⟨trivial, trivial, List.forall_mem_nil _⟩
  order := List.forall_mem_nil _
  rows := List.forall_mem_nil _
  target := nofun

theorem output_memberQuery :
    (Conversion.toRest { query := settled (.ofOptions {}) memberQuery }).output = memberRequest := by
  decide +kernel

theorem convert_stable_member :
    ∃ middle last, convert {} .sql .rest memberStatement = .ok middle ∧ middle.output = memberRequest ∧
      convert {} .rest .sql memberRequest = .ok last ∧ last.output = memberStatement := by
  -- The texts are computed; that they are stable is the general result.
  have writes : (Sql.write (.ofOptions {}) memberQuery).map Written.text = .ok memberStatement := by
    decide +kernel
  have sizes : (RawRequest.ofText memberRequest).map (fun request => decide (Rest.sizeOf request ≤ 1000)) =
      .ok true := by decide +kernel
  have parsed : Statement.ofText ({} : Options).maxDepth memberStatement.toList =
      .ok [statementTree (.ofOptions {}) memberQuery] := by decide +kernel
  have valid : memberQuery.validate .sql = .ok () := by decide
  have fits := fitsStatement_memberQuery (.ofOptions {})
  obtain ⟨written, finished, text⟩ := ok_of_map writes
  obtain ⟨found, request, size⟩ := ok_of_map sizes
  have small : written.text.utf8ByteSize ≤ ({} : Options).maxInputLength := by
    rw [text]
    decide +kernel
  rw [← text] at parsed
  obtain ⟨middle, first, back⟩ := convert_stable fits valid finished parsed small
  have output : middle.output = memberRequest := by
    have same := convert_statement fits (accepted_of_validate valid) parsed small
    rw [first] at same
    rw [Except.ok.inj same, output_memberQuery]
  rw [output, text] at back
  have short : ∀ request, RawRequest.ofText memberRequest = .ok request →
      Rest.sizeOf request ≤ ({} : Options).maxInputLength := by
    intro asked taken
    rw [request] at taken
    obtain rfl := Except.ok.inj taken
    exact (of_decide_eq_true size).trans (by decide)
  obtain ⟨last, again, same⟩ := back short
  exact ⟨middle, last, text ▸ first, output, again, same⟩

end QueryNotation
