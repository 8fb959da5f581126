import QueryNotation.Proofs.Rest.Grouped
import QueryNotation.Proofs.Sql.Change
import QueryNotation.Proofs.Sql.Parts

namespace QueryNotation.Sql

/-! # Joined tables and their requests

A joined table becomes an embed with what the statement says of it.  The embed goes by the name of the
table alone: where a table is joined more than once, under other names, the request of the statement
says of the first what belongs to all.
-/

open Rest (FitsLevel IsJoined regrouped ownConditions sentConditions)

variable {options : Options} {parsed : Parsed} {text : String}

theorem operation_insert {tree : InsertTree} (read : tree.read = .ok parsed) :
    parsed.query.operation = .insert ∨ parsed.query.operation = .upsert := by
  obtain ⟨rows, before, columns, _, said, rfl⟩ := InsertTree.ok_of_read read
  cases said with
  | none _ => exact .inl rfl
  | some _ conflict => cases conflict <;> exact .inr rfl

theorem operation_update {tree : UpdateTree} (read : tree.read = .ok parsed) :
    parsed.query.operation = .update := by
  obtain ⟨table, cells, filters, columns, _, rfl⟩ := tree.ok_of_read read
  rfl

theorem operation_delete {tree : DeleteTree} (read : tree.read = .ok parsed) :
    parsed.query.operation = .delete := by
  obtain ⟨source, table, filters, columns, _, rfl⟩ := tree.ok_of_read read
  rfl

theorem selects_query {tree : QueryTree} (read : tree.read = .ok parsed) :
    parsed.query.operation = .select ∧ IsJoined parsed.query := by
  obtain ⟨selection, source, table, joined, placed, limit, offset, _, rfl⟩ := tree.ok_of_read read
  have each {property : Embed → Prop} (every : ∀ join number, property (placed.embed join number)) :
      ∀ embed ∈ joined.zipIdx.map fun join => placed.embed join.1 join.2, property embed := by
    intro embed member
    obtain ⟨join, _, rfl⟩ := List.mem_map.mp member
    exact every join.1 join.2
  exact ⟨rfl, {
    labels := each fun _ _ => rfl
    limits := each fun _ _ => rfl
    flat := each fun _ _ => rfl
    range := rfl
    body := rfl
    single := rfl
    conflict := rfl
    ignores := rfl }⟩

theorem statement_of_read (reads : read options text = .ok parsed) :
    ∃ statement : Statement, statement.read = .ok parsed := by
  unfold read at reads
  obtain ⟨_, _, reads⟩ := ok_of_bind reads
  split at reads
  · cases reads
  · cases reads
  · cases reads
  · next statement _ => exact ⟨statement, reads⟩
  · cases reads

/-- No statement calls a function. -/
theorem not_call_read (reads : read options text = .ok parsed) : parsed.query.operation ≠ .call := by
  intro call
  obtain ⟨statement, reads⟩ := statement_of_read reads
  cases statement with
  | query tree => cases call.symm.trans (selects_query reads).1
  | insert tree =>
      rcases operation_insert reads with insert | upsert
      · cases call.symm.trans insert
      · cases call.symm.trans upsert
  | update tree => cases call.symm.trans (operation_update reads)
  | delete tree => cases call.symm.trans (operation_delete reads)
  | other text => cases reads

theorem isJoined_read (reads : read options text = .ok parsed) (selects : parsed.query.operation = .select) :
    IsJoined parsed.query := by
  obtain ⟨statement, reads⟩ := statement_of_read reads
  cases statement with
  | query tree => exact (selects_query reads).2
  | insert tree =>
      rcases operation_insert reads with insert | upsert
      · cases selects.symm.trans insert
      · cases selects.symm.trans upsert
  | update tree => cases selects.symm.trans (operation_update reads)
  | delete tree => cases selects.symm.trans (operation_delete reads)
  | other text => cases reads

/-- A statement with joins is read back from its request, each join at its place.  The first join of a
table has the filters and the orders of all joins of it, and every join has just its own when none has any
behind another join of the same table. -/
theorem joins_sent (reads : read options text = .ok parsed) (fits : FitsLevel parsed.query)
    (small : Rest.sizeOf (Rest.write parsed.query).request.raw ≤ options.maxInputLength)
    (shallow : Embed.greatestDepth parsed.query.embeds ≤ options.maxDepth) :
    ∃ back, Rest.read options (Rest.write parsed.query).request.raw = .ok back ∧
      back.query.filters = parsed.query.filters.map Rest.sentFilter ∧
      back.query.order = parsed.query.order ∧
      back.query.embeds = regrouped [] parsed.query.embeds ∧
      back.query.embeds.map Embed.relation = parsed.query.embeds.map Embed.relation ∧
      (back.query.embeds.map ownConditions = parsed.query.embeds.map sentConditions ↔
        parsed.query.embeds.Pairwise fun first later =>
          first.relation = later.relation → later.filters = [] ∧ later.order = []) := by
  have joined := isJoined_read reads fits.select
  have pairs : (parsed.query.embeds.Pairwise fun first later => first.name = later.name → Rest.IsFree later) ↔
      parsed.query.embeds.Pairwise fun first later =>
        first.relation = later.relation → later.filters = [] ∧ later.order = [] := by
    constructor
    · refine fun apart => apart.imp_of_mem fun {first later} front back free same => free ?_
      rw [joined.name_eq front, joined.name_eq back, same]
    · refine fun apart => apart.imp_of_mem fun {first later} front back free same => free ?_
      rw [← joined.name_eq front, ← joined.name_eq back, same]
  exact ⟨_, Rest.read_level fits joined small shallow, rfl, rfl, rfl,
    Rest.map_relation_regrouped [] parsed.query.embeds, (Rest.regrouped_kept _).trans pairs⟩

/-- A table that is joined twice: the first join is sorted by what the second was. -/
theorem joins_mixed :
    (do
      let parsed ← read {} "SELECT a.x,b.y FROM u JOIN p a ON 1 JOIN p b ON 1 ORDER BY a.x,b.y"
      let back ← Rest.read {} (Rest.write parsed.query).request.raw
      return (parsed.query.embeds.map ownConditions, back.query.embeds.map ownConditions)) =
      (.ok ([([], [{ column := "x" }]), ([], [{ column := "y" }])],
        [([], [{ column := "x" }, { column := "y" }]), ([], [])]) : Outcome _) := by
  decide +kernel

set_option synthInstance.maxSize 1000 in
/-- Two tables that are joined once each. -/
theorem sampleJoins_read :
    (read {} "SELECT a.x FROM u JOIN p a ON 1 JOIN q b ON 1 WHERE b.y=1").map (fun parsed : Parsed =>
      ((parsed.query.operation, parsed.query.table, parsed.query.columns),
        (parsed.query.filters, parsed.query.order),
        (parsed.query.embeds.map fun embed => (embed.relation, embed.columns, ownConditions embed)),
        decide (Rest.sizeOf (Rest.write parsed.query).request.raw ≤ 65536),
        decide (Embed.greatestDepth parsed.query.embeds ≤ 32))) =
      .ok ((.select, "u", []), ([], []),
        [("p", [{ name := "x" }], [], []),
          ("q", [], [{ column := "y", op := .eq, value := .number "1" }], [])], true, true) := by
  decide +kernel

theorem joins_sent_sample :
    ∃ parsed back, read {} "SELECT a.x FROM u JOIN p a ON 1 JOIN q b ON 1 WHERE b.y=1" = .ok parsed ∧
      Rest.read {} (Rest.write parsed.query).request.raw = .ok back ∧
      back.query.embeds.map ownConditions =
        [([], []), ([{ column := "y", op := .eq, value := .number "1" }], [])] := by
  obtain ⟨parsed, reads, same⟩ := ok_of_map sampleJoins_read
  simp only [Prod.mk.injEq, decide_eq_true_eq] at same
  obtain ⟨⟨select, table, columns⟩, ⟨filters, order⟩, embeds, small, shallow⟩ := same
  obtain ⟨first, more, listed, one, others⟩ := List.map_eq_cons_iff.mp embeds
  obtain ⟨second, none, rfl, two, ending⟩ := List.map_eq_cons_iff.mp others
  obtain rfl := List.map_eq_nil_iff.mp ending
  simp only [Prod.mk.injEq, ownConditions] at one two
  have both {property : Embed → Prop} (left : property first) (right : property second) :
      ∀ embed ∈ parsed.query.embeds, property embed := by
    rw [listed]
    exact List.forall_mem_cons.mpr ⟨left, List.forall_mem_singleton.mpr right⟩
  have fits : FitsLevel parsed.query := {
    select := select
    named := by rw [table]; decide
    plain := by rw [table]; decide
    columns := by rw [columns]; exact List.forall_mem_nil _
    words := both (by rw [one.1]; decide) (by rw [two.1]; decide)
    shown := by
      refine both ?_ (by rw [two.2.1]; exact List.forall_mem_nil _)
      rw [one.2.1]
      exact List.forall_mem_singleton.mpr (.named (by decide) (by simp) (by simp))
    filters := by rw [filters]; exact List.forall_mem_nil _
    order := by rw [order]; exact List.forall_mem_nil _
    embedFilters := by
      refine both (by rw [one.2.2.1]; exact List.forall_mem_nil _) ?_
      rw [two.2.2.1]
      exact List.forall_mem_singleton.mpr ⟨by decide, by decide, by simp⟩
    embedOrder := by
      refine both ?_ ?_
      · rw [one.2.2.2]
        exact List.forall_mem_nil _
      · rw [two.2.2.2]
        exact List.forall_mem_nil _ }
  obtain ⟨back, answered, _, _, _, _, kept⟩ := joins_sent reads fits small shallow
  refine ⟨parsed, back, reads, answered, (kept.mpr ?_).trans ?_⟩
  · rw [listed]
    simp [one.1, two.1]
  · rw [listed, List.map_cons, List.map_singleton, sentConditions, sentConditions, one.2.2.1, one.2.2.2,
      two.2.2.1, two.2.2.2]
    decide

end QueryNotation.Sql
