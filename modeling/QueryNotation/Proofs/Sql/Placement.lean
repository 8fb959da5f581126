import QueryNotation.Proofs.Sql.Condition
import QueryNotation.Proofs.Sql.Parts
import QueryNotation.Proofs.Sql.Qualifier

namespace QueryNotation.Sql

/-! # Where the parts of a selection go

Every item of a select list, every leaf of a condition and every item of an order belongs to the table
that its qualifier stands for.  It reaches that table, once and in its turn, and reaches no other; a
statement with a qualifier that stands for no table is refused.
-/

variable {α β : Type} {scope : Scope} {qualifier : Option String} {target : Target}
  {names : List (String × Target)} {count : Nat}

def Expr.output? : Expr → Option (Option String × Column)
  | .cast operand type _ => operand.output?.map fun (qualifier, column) =>
    (qualifier, { column with cast := some (String.ofList (type.toList.map Char.toLower)) })
  | .call .. | .bareCall _ => none
  | value => value.reference?.map fun (qualifier, column) => (qualifier, { name := column })

def SelectItem.output? : SelectItem → Option (Option String × Column)
  | .wildcard => some (none, .star)
  | .tableWildcard path => some (some (Name.last path), .star)
  | .plain value => value.output?
  | .labelled value label => value.output?.map fun (qualifier, column) =>
    (qualifier, { column with label := some label.value })

/-- What an item of `ORDER BY` asks for, behind its qualifier. -/
def SortItem.output? (item : SortItem) : Option (Option String × OrderItem) :=
  item.value.reference?.map fun (qualifier, column) => (qualifier, {
    column
    descending := item.descending == some true
    nulls := item.nullsFirst.map fun first => if first then NullsOrder.first else .last })

def leafOutput? (leaf : Expr × Bool) : Option (Option String × Filter) := do
  let (qualifier, column) ← leaf.1.tested?.bind Expr.reference?
  let (op, value, config) ← leaf.1.testing?
  return (qualifier, { column, op, value, negated := leaf.2 != leaf.1.opposes, config })

def SelectTree.leaves (selection : SelectTree) : List (Expr × Bool) :=
  selection.condition.elim [] (Expr.leaves false)

def SelectTree.qualifiers (selection : SelectTree) (order : List SortItem) : List String :=
  (selection.items.filterMap fun item => item.output?.bind Prod.fst) ++
    (selection.leaves.filterMap fun leaf => (leaf.1.tested?.bind Expr.reference?).bind Prod.fst) ++
    order.filterMap fun item => item.output?.bind Prod.fst

/-- The selections whose tables hold no marks in their names, nor do the wildcards that ask for all
columns of a table. -/
structure SelectTree.IsPlain (selection : SelectTree) : Prop where
  tables : ∀ source ∈ selection.sources, source.source.IsPlain ∧ ∀ join ∈ source.joins, join.source.IsPlain
  wildcards : ∀ path, SelectItem.tableWildcard path ∈ selection.items →
    IsPlainPath path ∧ ¬ ['.', '*'] <:+: (Name.path path).toList

theorem ok_of_outputColumn {value : Expr} {column : Column}
    (read : value.outputColumn scope = .ok (target, column)) :
    ∃ qualifier, value.output? = some (qualifier, column) ∧ placeIn scope.names qualifier = some target := by
  fun_induction Expr.outputColumn scope value generalizing column with
  | case1 operand type word induction =>
      obtain ⟨⟨place, inner⟩, found, read⟩ := ok_of_bind read
      obtain ⟨rfl, rfl⟩ := Prod.mk.inj (Except.ok.inj read)
      obtain ⟨qualifier, said, placed⟩ := induction found
      exact ⟨qualifier, by rw [Expr.output?, said]; rfl, placed⟩
  | case2 => cases read
  | case3 => cases read
  | case4 value cast call bare =>
      obtain ⟨⟨place, name⟩, found, read⟩ := ok_of_bind read
      obtain ⟨rfl, rfl⟩ := Prod.mk.inj (Except.ok.inj read)
      obtain ⟨qualifier, said, placed⟩ := ok_of_column found
      refine ⟨qualifier, ?_, placed⟩
      rw [Expr.output?, said]
      · rfl
      · exact cast
      · exact call
      · exact bare

theorem ok_of_item {item : SelectItem} {column : Column}
    (plain : ∀ path, item = .tableWildcard path →
      IsPlainPath path ∧ ¬ ['.', '*'] <:+: (Name.path path).toList)
    (read : item.column scope = .ok (target, column)) :
    ∃ qualifier, item.output? = some (qualifier, column) ∧ placeIn scope.names qualifier = some target := by
  cases item with
  | wildcard =>
      obtain ⟨rfl, rfl⟩ := Prod.mk.inj (Except.ok.inj read)
      exact ⟨none, rfl, rfl⟩
  | tableWildcard path =>
      obtain ⟨led, single⟩ := plain path rfl
      have mark : ".*".toList = ['.', '*'] := by decide
      have whole : Text.cutAtText ['.', '*'] (Name.path path ++ ".*").toList = some ((Name.path path).toList, []) := by
        rw [String.toList_append, mark]
        exact cutAtText_wildcard single
      simp only [SelectItem.column, mark, whole, Option.elim_some, String.ofList_toList, splitTableName_path led] at read
      obtain ⟨place, resolved, read⟩ := ok_of_bind read
      obtain ⟨rfl, rfl⟩ := Prod.mk.inj (Except.ok.inj read)
      exact ⟨some (Name.last path), rfl, ok_of_resolve resolved⟩
  | plain value => exact ok_of_outputColumn read
  | labelled value label =>
      obtain ⟨⟨place, inner⟩, found, read⟩ := ok_of_bind read
      obtain ⟨rfl, rfl⟩ := Prod.mk.inj (Except.ok.inj read)
      obtain ⟨qualifier, said, placed⟩ := ok_of_outputColumn found
      exact ⟨qualifier, by rw [SelectItem.output?, said]; rfl, placed⟩

theorem ok_of_sortItem {item : SortItem} {order : OrderItem} (read : item.order scope = .ok (target, order)) :
    ∃ qualifier, item.output? = some (qualifier, order) ∧ placeIn scope.names qualifier = some target := by
  obtain ⟨⟨place, column⟩, found, read⟩ := ok_of_bind read
  obtain ⟨rfl, rfl⟩ := Prod.mk.inj (Except.ok.inj read)
  obtain ⟨qualifier, said, placed⟩ := ok_of_column found
  exact ⟨qualifier, by rw [SortItem.output?, said]; rfl, placed⟩

/-- A leaf that asks for a filter has the qualifier of the column that it tests. -/
theorem ok_of_leaf {leaf : Expr × Bool} {placed : PlacedFilter}
    (asks : leaf.1.filter? scope leaf.2 = some placed) :
    ∃ qualifier, leafOutput? leaf = some (qualifier, placed.2) ∧
      placeIn scope.names qualifier = some placed.1 := by
  obtain ⟨test, found, rfl⟩ := Option.map_eq_some_iff.mp asks
  obtain ⟨operand, tested, found⟩ := Option.bind_eq_some_iff.mp found
  obtain ⟨⟨target, column⟩, place, found⟩ := Option.bind_eq_some_iff.mp found
  obtain ⟨⟨op, value, config⟩, testing, found⟩ := Option.bind_eq_some_iff.mp found
  obtain rfl := Option.some.inj found
  obtain ⟨qualifier, reference, placed⟩ := reference_of_place place
  refine ⟨qualifier, ?_, placed⟩
  rw [leafOutput?, tested, testing, Option.bind_some, reference]
  rfl

theorem outputs_of_filters {pushed : Pushed} {filters : List PlacedFilter} (found : pushed.filters? scope = some filters) :
    List.Forall₂ (fun leaf placed => ∃ qualifier, leafOutput? leaf = some (qualifier, placed.2) ∧
      placeIn scope.names qualifier = some placed.1) pushed.leaves filters := by
  induction pushed generalizing filters with
  | leaf condition negated =>
      obtain ⟨placed, asks, rfl⟩ := Option.map_eq_some_iff.mp found
      exact .cons (@ok_of_leaf _ (condition, negated) _ asks) .nil
  | both left right first second =>
      obtain ⟨front, leading, found⟩ := Option.bind_eq_some_iff.mp found
      obtain ⟨back, behind, found⟩ := Option.bind_eq_some_iff.mp found
      obtain rfl := Option.some.inj found
      exact List.rel_append (first leading) (second behind)
  | either => cases found

/-- The parts that belong to a table, in order. -/
def belonging (names : List (String × Target)) (target : Target) (said : List (Option String × α)) : List α :=
  (said.filter fun part => placeIn names part.1 = some target).map Prod.snd

/-- The parts that a statement says go to the tables that their qualifiers stand for: those of the main
table are `own`, those of every joined one are at its place in `joined`. -/
structure Distributed (source : JoinedTable) (said : List (Option String × α)) (own : List α)
    (joined : List (List α)) : Prop where
  placed : ∀ part ∈ said, ∃ target, placeIn source.names part.1 = some target
  main : own = belonging source.names none said
  each : joined = (List.range source.joins.length).map fun number => belonging source.names (some number) said
  once : (own ++ joined.flatten).Perm (said.map Prod.snd)

theorem placedAt_cons (target place : Target) (item : α) (found : List (Target × α)) :
    placedAt target ((place, item) :: found) =
      if place = target then item :: placedAt target found else placedAt target found := by
  rw [placedAt, List.filterMap_cons]
  by_cases same : place = target
  · simp only [if_pos same]
    rfl
  · simp only [if_neg same]
    rfl

theorem belonging_cons (target : Target) (part : Option String × α) (said : List (Option String × α)) :
    belonging names target (part :: said) =
      if placeIn names part.1 = some target then part.2 :: belonging names target said
      else belonging names target said := by
  rw [belonging, List.filter_cons]
  by_cases same : placeIn names part.1 = some target
  · rw [if_pos (decide_eq_true same), if_pos same, List.map_cons]
    rfl
  · rw [if_neg (by simpa using same), if_neg same]
    rfl

/-- What stands in front of one list of several stands in front of them all. -/
theorem perm_flatMap_cons {numbers : List Nat} {number : Nat} (distinct : numbers.Nodup) (inside : number ∈ numbers)
    (item : α) (lists : Nat → List α) :
    (numbers.flatMap fun other => if some number = some other then item :: lists other else lists other).Perm
      (item :: numbers.flatMap lists) := by
  induction numbers with
  | nil => cases inside
  | cons first rest induction =>
      obtain ⟨fresh, distinct⟩ := List.nodup_cons.mp distinct
      rw [List.flatMap_cons, List.flatMap_cons]
      by_cases same : number = first
      · subst same
        have others : (rest.flatMap fun other => if some number = some other then item :: lists other else lists other) =
            rest.flatMap lists := by
          refine List.flatMap_congr fun other member => if_neg fun equal => ?_
          obtain rfl := Option.some.inj equal
          exact fresh member
        rw [if_pos rfl, others, List.cons_append]
      · rw [if_neg fun equal => same (Option.some.inj equal)]
        have behind : number ∈ rest := (List.mem_cons.mp inside).resolve_left same
        exact ((induction distinct behind).append_left _).trans List.perm_middle

/-- Parts that are placed at the main table or at one of `count` joined ones are placed once. -/
theorem perm_placedAt {found : List (Target × α)}
    (bounded : ∀ part ∈ found, ∀ number, part.1 = some number → number < count) :
    (placedAt none found ++ ((List.range count).map fun number => placedAt (some number) found).flatten).Perm
      (found.map Prod.snd) := by
  rw [← List.flatMap_def]
  induction found with
  | nil => simp [placedAt]
  | cons first rest induction =>
      obtain ⟨place, item⟩ := first
      have behind := induction fun part member => bounded part (List.mem_cons_of_mem _ member)
      simp only [placedAt_cons, List.map_cons]
      cases place with
      | none => exact behind.cons item
      | some number =>
          have inside : number ∈ List.range count :=
            List.mem_range.mpr (bounded _ List.mem_cons_self number rfl)
          have moved := perm_flatMap_cons List.nodup_range inside item fun number => placedAt (some number) rest
          exact (moved.append_left _).trans (List.perm_middle.trans (behind.cons item))

/-- Each part, beside what is placed of it, at the table that its qualifier stands for. -/
abbrev Places (names : List (String × Target)) : List (Option String × α) → List (Target × α) → Prop :=
  List.Forall₂ fun part placed => part.2 = placed.2 ∧ placeIn names part.1 = some placed.1

namespace Places

variable {said : List (Option String × α)} {found : List (Target × α)}

theorem placedAt_eq (places : Places names said found) (target : Target) :
    placedAt target found = belonging names target said := by
  induction places with
  | nil => rfl
  | cons first _ induction =>
      rw [placedAt_cons, belonging_cons, induction, first.1, first.2]
      simp only [Option.some.injEq]

theorem parts (places : Places names said found) : found.map Prod.snd = said.map Prod.snd := by
  induction places with
  | nil => rfl
  | cons first _ induction => rw [List.map_cons, List.map_cons, induction, first.1]

theorem of_said (places : Places names said found) : ∀ part ∈ said, ∃ target, placeIn names part.1 = some target := by
  induction places with
  | nil => exact List.forall_mem_nil _
  | cons first _ induction => exact List.forall_mem_cons.mpr ⟨⟨_, first.2⟩, induction⟩

theorem of_found (places : Places names said found) :
    ∀ placed ∈ found, ∃ qualifier, placeIn names qualifier = some placed.1 := by
  induction places with
  | nil => exact List.forall_mem_nil _
  | cons first _ induction => exact List.forall_mem_cons.mpr ⟨⟨_, first.2⟩, induction⟩

/-- Parts that are each placed at the table of its qualifier are distributed. -/
theorem distributed {source : JoinedTable} (places : Places source.names said found) :
    Distributed source said (placedAt none found)
      ((List.range source.joins.length).map fun number => placedAt (some number) found) where
  placed := places.of_said
  main := places.placedAt_eq none
  each := List.map_congr_left fun number _ => places.placedAt_eq (some number)
  once := by
    rw [← places.parts]
    refine perm_placedAt fun part member number joined => ?_
    obtain ⟨qualifier, placed⟩ := places.of_found part member
    exact lt_of_placeIn (placed.trans (congrArg some joined))

end Places

/-- Items that are each read at the table of its qualifier are distributed. -/
theorem distributed_of_read {ι : Type} {source : JoinedTable} {output : ι → Option (Option String × α)}
    {items : List ι} {found : List (Target × α)}
    (read : List.Forall₂ (fun item placed => ∃ qualifier, output item = some (qualifier, placed.2) ∧
      placeIn source.names qualifier = some placed.1) items found) :
    ∃ said, List.Forall₂ (fun item part => output item = some part) items said ∧
      Distributed source said (placedAt none found)
        ((List.range source.joins.length).map fun number => placedAt (some number) found) := by
  suffices paired : ∃ said, List.Forall₂ (fun item part => output item = some part) items said ∧
      Places source.names said found by
    obtain ⟨said, outputs, places⟩ := paired
    exact ⟨said, outputs, places.distributed⟩
  induction read with
  | nil => exact ⟨[], .nil, .nil⟩
  | @cons item placed _ _ first _ induction =>
      obtain ⟨qualifier, names, place⟩ := first
      obtain ⟨said, outputs, places⟩ := induction
      exact ⟨(qualifier, placed.2) :: said, .cons names outputs, .cons ⟨rfl, place⟩ places⟩

/-- The filters of a condition are those of its leaves, in order. -/
theorem filters_leaves {condition : Option Expr} {filters : List PlacedFilter}
    (read : conditionFilters scope condition = .ok filters) :
    List.Forall₂ (fun leaf placed => ∃ qualifier, leafOutput? leaf = some (qualifier, placed.2) ∧
      placeIn scope.names qualifier = some placed.1) (condition.elim [] (Expr.leaves false)) filters := by
  cases condition with
  | none =>
      obtain rfl := Except.ok.inj read
      exact .nil
  | some condition =>
      have found : (condition.conditions scope false).toOption = some filters := toOption_of_ok read
      rw [toOption_conditions] at found
      have outputs := outputs_of_filters found
      rwa [leaves_pushed] at outputs

/-- What the embeds have of one kind is what is placed at each of their numbers. -/
theorem map_embeds {placed : Placed} {joined : List JoinedEmbed} {part : Embed → List α}
    {found : List (Target × α)} (same : ∀ joined number, part (placed.embed joined number) = placedAt (some number) found) :
    ((joined.zipIdx.map fun join => placed.embed join.1 join.2).map part) =
      (List.range joined.length).map fun number => placedAt (some number) found := by
  have numbers : joined.zipIdx.map Prod.snd = List.range joined.length := by
    rw [List.zipIdx_map_snd, List.range_eq_range']
  rw [← numbers, List.map_map, List.map_map]
  exact List.map_congr_left fun join _ => same join.1 join.2

/-- The query of a selection has what the selection says, each part once and at its table. -/
structure SelectTree.IsPlaced (selection : SelectTree) (order : List SortItem) (query : Query) (source : JoinedTable)
    (columns : List (Option String × Column)) (filters : List (Option String × Filter))
    (sorted : List (Option String × OrderItem)) : Prop where
  only : selection.sources = [source]
  items : List.Forall₂ (fun item column => item.output? = some column) selection.items columns
  leaves : List.Forall₂ (fun leaf filter => leafOutput? leaf = some filter) selection.leaves filters
  order : List.Forall₂ (fun item sort => item.output? = some sort) order sorted
  placedColumns : Distributed source columns query.columns (query.embeds.map Embed.columns)
  placedFilters : Distributed source filters query.filters (query.embeds.map Embed.filters)
  placedOrder : Distributed source sorted query.order (query.embeds.map Embed.order)

theorem placed_of_read {tree : QueryTree} {selection : SelectTree} {parsed : Parsed}
    (body : tree.body = .select selection) (plain : selection.IsPlain) (read : tree.read = .ok parsed) :
    ∃ source columns filters sorted,
      selection.IsPlaced tree.order parsed.query source columns filters sorted := by
  obtain ⟨other, source, table, joined, ⟨columns, filters, sorted⟩, limit, offset, reads, rfl⟩ := tree.ok_of_read read
  obtain rfl := QueryBody.select.inj (body.symm.trans reads.body)
  have tables := plain.tables source (reads.only ▸ List.mem_singleton_self source)
  have joins := forall₂_of_mapM reads.joins
  have names := names_selectionScope tables.1 tables.2 reads.named joins
  have count := joins.length_eq
  have marked : ∀ item ∈ selection.items, ∀ path, item = SelectItem.tableWildcard path →
      IsPlainPath path ∧ ¬ ['.', '*'] <:+: (Name.path path).toList := by
    rintro item member path rfl
    exact plain.wildcards path member
  have items := (List.forall₂_and_left _ _).mpr ⟨marked, forall₂_of_mapM reads.columns⟩
  have items := items.imp fun item placed both => ok_of_item both.1 both.2
  have leaves := filters_leaves reads.filters
  have sorts := (forall₂_of_mapM reads.order).imp fun item placed => ok_of_sortItem
  rw [names] at items leaves sorts
  -- Each list is split by the table that its items name.
  obtain ⟨columns, items, placedColumns⟩ := distributed_of_read items
  obtain ⟨filters, leaves, placedFilters⟩ := distributed_of_read leaves
  obtain ⟨sorted, sorts, placedOrder⟩ := distributed_of_read sorts
  rw [count] at placedColumns placedFilters placedOrder
  refine ⟨source, columns, filters, sorted, {
    only := reads.only
    items, leaves
    order := sorts
    placedColumns := ?_
    placedFilters := ?_
    placedOrder := ?_ }⟩
  · rwa [selectParsed, map_embeds fun _ _ => rfl]
  · rwa [selectParsed, map_embeds fun _ _ => rfl]
  · rwa [selectParsed, map_embeds fun _ _ => rfl]

theorem Distributed.reaches {ι : Type} {source : JoinedTable} {said : List (Option String × α)} {own : List α}
    {joined : List (List α)} {output : ι → Option (Option String × α)} {behind : ι → Option String} {items : List ι}
    (distributed : Distributed source said own joined)
    (outputs : List.Forall₂ (fun item part => output item = some part) items said)
    (qualified : ∀ item part, output item = some part → behind item = part.1) :
    ∀ name ∈ items.filterMap behind, ∃ target, placeIn source.names (some name) = some target := by
  intro name member
  have placed := distributed.placed
  clear distributed
  induction outputs with
  | nil => cases member
  | @cons item part _ _ first _ induction =>
      obtain ⟨place, placed⟩ := List.forall_mem_cons.mp placed
      obtain ⟨other, listed, named⟩ := List.mem_filterMap.mp member
      rcases List.mem_cons.mp listed with rfl | later
      · rw [qualified other part first] at named
        rwa [named] at place
      · exact induction (List.mem_filterMap.mpr ⟨other, later, named⟩) placed

theorem qualified_leaf {leaf : Expr × Bool} {part : Option String × Filter} (output : leafOutput? leaf = some part) :
    (leaf.1.tested?.bind Expr.reference?).bind Prod.fst = part.1 := by
  obtain ⟨⟨name, column⟩, reference, output⟩ := Option.bind_eq_some_iff.mp output
  obtain ⟨tested, _, output⟩ := Option.bind_eq_some_iff.mp output
  obtain rfl := Option.some.inj output
  rw [reference]
  rfl

/-- A selection that is read loses and moves nothing between its tables: every item of its list, every
leaf of its condition and every item of its order reaches, once and in its turn, the table that its
qualifier stands for.  A selection with a qualifier that stands for no table is refused. -/
theorem read_distributed (tree : QueryTree) (selection : SelectTree) (body : tree.body = .select selection)
    (plain : selection.IsPlain) :
    (∀ parsed, tree.read = .ok parsed → ∃ source columns filters sorted,
      selection.IsPlaced tree.order parsed.query source columns filters sorted) ∧
    ∀ qualifier ∈ selection.qualifiers tree.order,
      (∀ source ∈ selection.sources, placeIn source.names (some qualifier) = none) →
      ∃ fault, tree.read = .error fault := by
  refine ⟨fun parsed => placed_of_read body plain, fun qualifier said unknown => ?_⟩
  cases read : tree.read with
  | error fault => exact ⟨fault, rfl⟩
  | ok parsed =>
      obtain ⟨source, columns, filters, sorted, placed⟩ := placed_of_read body plain read
      have missing := unknown source (placed.only ▸ List.mem_singleton_self source)
      have output {α : Type} (found : Option (Option String × α)) (part : Option String × α) (same : found = some part) :
          found.bind Prod.fst = part.1 := by rw [same]; rfl
      have known : ∃ target, placeIn source.names (some qualifier) = some target := by
        rcases List.mem_append.mp said with said | sorts
        · rcases List.mem_append.mp said with items | leaves
          · exact placed.placedColumns.reaches placed.items (fun _ => output _) qualifier items
          · exact placed.placedFilters.reaches placed.leaves (fun _ _ => qualified_leaf) qualifier leaves
        · exact placed.placedOrder.reaches placed.order (fun _ => output _) qualifier sorts
      obtain ⟨target, place⟩ := known
      rw [missing] at place
      cases place

/-- `SELECT id, p.* FROM users LEFT JOIN posts p ON true WHERE NOT p.draft IS TRUE`. -/
def usersWithPosts : SelectTree where
  items := [.plain (.name { value := "id" }), .tableWildcard [{ value := "p" }]]
  sources := [{
    source := .table [{ value := "users" }] "" none
    joins := [{
      kind := .left false
      source := .table [{ value := "posts" }] "" (some { name := { value := "p" }, spelled := false })
      constraint := " ON true" }] }]
  condition := some (.not (.isTest (.path [{ value := "p" }, { value := "draft" }]) .true false))

theorem isPlain_usersWithPosts : usersWithPosts.IsPlain where
  tables := by
    rintro source member
    obtain rfl := List.mem_singleton.mp member
    refine ⟨⟨[], _, rfl, by decide⟩, fun join member => ?_⟩
    obtain rfl := List.mem_singleton.mp member
    exact ⟨[], _, rfl, by decide⟩
  wildcards := by
    rintro path member
    rcases List.mem_cons.mp member with same | member
    · cases same
    · obtain rfl := SelectItem.tableWildcard.inj (List.mem_singleton.mp member)
      exact ⟨⟨[], _, rfl, by decide⟩, by decide +kernel⟩

/-- The posts of users are read with all that belongs to them, and are not sorted by a third table. -/
theorem read_distributed_posts :
    (∃ parsed, QueryTree.read { body := .select usersWithPosts } = .ok parsed ∧
      ∃ source columns filters sorted,
        usersWithPosts.IsPlaced [] parsed.query source columns filters sorted) ∧
    ∃ fault, QueryTree.read {
      body := .select usersWithPosts
      order := [{ value := .path [{ value := "posts" }, { value := "id" }], descending := none, nullsFirst := none },
        { value := .path [{ value := "tags" }, { value := "id" }], descending := none, nullsFirst := none }] } =
      .error fault := by
  refine ⟨⟨_, rfl, ?_⟩, ?_⟩
  · exact (read_distributed { body := .select usersWithPosts } _ rfl isPlain_usersWithPosts).1 _ rfl
  · refine (read_distributed _ _ rfl isPlain_usersWithPosts).2 "tags" (by decide +kernel) fun source member => ?_
    obtain rfl := List.mem_singleton.mp member
    decide +kernel

/-- The qualifier of a wildcard is looked for in the text that it prints: the wildcard of `"a.users"`, which
is no table of this statement, has all columns of the table `users`, while a column of `"a.users"` is
refused. -/
theorem wildcard_misplaced :
    placeIn [("users", none)] (some "a.users") = none ∧
    (read {} "SELECT \"a.users\".* FROM users").map (fun parsed => parsed.query.columns) = .ok [.star] ∧
    (read {} "SELECT \"a.users\".id FROM users").map (fun parsed => parsed.query.columns) =
      .error (.sqlLimit .unknownQualifier "a.users") := by
  decide +kernel

end QueryNotation.Sql
