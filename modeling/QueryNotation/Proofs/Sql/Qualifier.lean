import QueryNotation.Proofs.Outcome
import QueryNotation.Proofs.Sql.Identifier
import QueryNotation.Sql.Reader.Select

namespace QueryNotation.Sql

/-! # Qualifiers

A statement introduces its tables one after the other, each by its name and perhaps by another one.
A qualifier stands for the first table that goes by it, and a column without one belongs to the main
table.
-/

open Text

variable {scope : Scope} {qualifier : Option String} {target : Target} {column : String}

/-- What a name is called by: what stands between its quotation marks, if it has any. -/
def Name.called (name : Name) : String :=
  if name.mark = some '"' then name.value else name.text

/-- The texts that hold no point and no quotation mark. -/
structure IsUnmarked (text : String) : Prop where
  point : '.' ∉ text.toList
  mark : '"' ∉ text.toList

instance (text : String) : Decidable (IsUnmarked text) :=
  decidable_of_iff ('.' ∉ text.toList ∧ '"' ∉ text.toList) ⟨fun both => ⟨both.1, both.2⟩, fun whole => ⟨whole.1, whole.2⟩⟩

/-- The paths of names whose last one holds no marks. -/
def IsPlainPath (path : List Name) : Prop :=
  ∃ front last, path = front ++ [last] ∧ IsUnmarked last.called

def Name.last (path : List Name) : String :=
  (path.getLast?.map Name.called).getD ""

theorem unquoted_called {name : Name} (unmarked : IsUnmarked name.called) : unquoted name.text = name.called := by
  unfold Name.called at unmarked ⊢
  split at unmarked
  · next quoted =>
    rw [if_pos quoted]
    exact unquoted_text (by simp [quoted]) unmarked.mark
  · next other =>
    rw [if_neg other]
    exact unquoted_of_absent unmarked.mark

theorem unquoted_append (front back : String) : unquoted (front ++ back) = unquoted front ++ unquoted back := by
  simp [unquoted]

/-- The name of the table that a path leads to is what its last name is called by. -/
theorem splitTableName_path {path : List Name} (plain : IsPlainPath path) :
    (splitTableName (Name.path path)).1 = Name.last path := by
  obtain ⟨front, last, rfl, unmarked⟩ := plain
  have called : Name.last (front ++ [last]) = last.called := by simp [Name.last]
  have kept := unquoted_called unmarked
  rw [called, splitTableName]
  by_cases single : front = []
  · have whole : Name.path (front ++ [last]) = last.text := by simp [single, Name.path]
    simp only [whole, kept, cutLast_of_absent unmarked.point]
  · have whole : Name.path (front ++ [last]) = Name.path front ++ "." ++ last.text := by
      rw [Name.path, List.map_append, String.intercalate_append_of_ne_nil (by simpa using single) (by simp)]
      simp [Name.path]
    have point : unquoted "." = "." := by decide
    have pieces : (unquoted (Name.path front ++ "." ++ last.text)).toList =
        (unquoted (Name.path front)).toList ++ '.' :: last.called.toList := by
      rw [unquoted_append, unquoted_append, kept, point]
      simp [show ".".toList = ['.'] by decide]
    simp only [whole, pieces, cutLast_append unmarked.point, String.ofList_toList]

/-- The text behind which a wildcard stands is cut off whole. -/
theorem cutAtText_wildcard {front : List Char} (single : ¬ ['.', '*'] <:+: front) :
    cutAtText ['.', '*'] (front ++ ['.', '*']) = some (front, []) := by
  refine cutAtText_last (List.cons_ne_nil _ _) fun lead back same => ?_
  rcases List.append_eq_append_iff.mp same with ⟨between, _, whole⟩ | ⟨between, rfl, whole⟩
  · have lengths := congrArg List.length whole
    simp only [List.length_append, List.length_cons, List.length_nil] at lengths
    exact List.length_eq_zero_iff.mp (by omega)
  · match between, whole with
    | [], whole => exact (List.cons.inj (List.cons.inj whole).2).2
    | [first], whole => exact absurd (List.cons.inj (List.cons.inj whole).2).1 (by decide)
    | first :: second :: more, whole =>
        obtain ⟨rfl, behind⟩ := List.cons.inj whole
        obtain ⟨rfl, _⟩ := List.cons.inj behind
        exact absurd ⟨lead, more, by simp⟩ single

/-- The names that a table goes by: the last one of its own, then its other one. -/
def TableSource.names : TableSource → List String
  | .table path _ label => Name.last path :: (label.map fun other => other.name.value).toList
  | .other _ => []

/-- The tables of a statement under the names that they go by. -/
def JoinedTable.names (source : JoinedTable) : List (String × Target) :=
  source.source.names.map (·, none) ++
    source.joins.zipIdx.flatMap fun (join, number) => join.source.names.map (·, some number)

/-- The table that a column belongs to: the main one, or the first that goes by its qualifier. -/
def placeIn (names : List (String × Target)) : Option String → Option Target
  | none => some none
  | some qualifier => (names.find? fun (name, _) => name = qualifier).map Prod.snd

/-- The tables whose names hold no marks. -/
def TableSource.IsPlain : TableSource → Prop
  | .table path _ _ => IsPlainPath path
  | .other _ => True

theorem toOption_resolve (name : String) : (scope.resolve name).toOption = placeIn scope.names (some name) := by
  unfold Scope.resolve
  split
  · next other target listed =>
    rw [placeIn, listed]
    rfl
  · next unlisted =>
    rw [placeIn, unlisted]
    rfl

theorem ok_of_resolve {name : String} (found : scope.resolve name = .ok target) :
    placeIn scope.names (some name) = some target := by
  rw [← toOption_resolve]
  exact toOption_of_ok found

theorem tableNames_named {source : TableSource} {table : NamedTable} (plain : source.IsPlain)
    (read : source.named = .ok table) (target : Target) :
    Scope.tableNames table.name table.label target = source.names.map (·, target) := by
  cases source with
  | other text => cases read
  | table path suffix label =>
      have name := splitTableName_path plain
      cases found : splitTableName (Name.path path) with
      | mk table schema =>
          rw [TableSource.named, found] at read
          obtain rfl := Except.ok.inj read
          rw [found] at name
          rw [Scope.tableNames, TableSource.names, ← name]
          cases label <;> rfl

theorem names_foldl_join (joined : List (JoinedEmbed × Nat)) (scope : Scope) :
    (joined.foldl (fun scope item => scope.join item.1.table.name item.1.table.label item.2) scope).names =
      scope.names ++ joined.flatMap fun item =>
        Scope.tableNames item.1.table.name item.1.table.label (some item.2) := by
  induction joined generalizing scope with
  | nil => simp
  | cons first rest induction => rw [List.foldl_cons, induction, Scope.join, List.flatMap_cons, List.append_assoc]

theorem flatMap_joins {joins : List JoinTree} {joined : List JoinedEmbed} (plain : ∀ join ∈ joins, join.source.IsPlain)
    (read : List.Forall₂ (fun join embed => join.embed = .ok embed) joins joined) (start : Nat) :
    (joined.zipIdx start).flatMap (fun item => Scope.tableNames item.1.table.name item.1.table.label (some item.2)) =
      (joins.zipIdx start).flatMap fun item => item.1.source.names.map (·, some item.2) := by
  induction read generalizing start with
  | nil => rfl
  | @cons join embed joins joined first _ induction =>
      obtain ⟨table, named, kind⟩ := ok_of_bind first
      have same : embed.table = table := by
        cases shape : join.kind with
        | inner spelled => rw [shape] at kind; exact congrArg JoinedEmbed.table (Except.ok.inj kind).symm
        | left spelled => rw [shape] at kind; exact congrArg JoinedEmbed.table (Except.ok.inj kind).symm
        | other words => rw [shape] at kind; cases kind
      rw [List.zipIdx_cons, List.zipIdx_cons, List.flatMap_cons, List.flatMap_cons,
        induction fun other member => plain other (List.mem_cons_of_mem _ member)]
      exact congrArg (· ++ _) (same ▸ tableNames_named (plain join List.mem_cons_self) named (some start))

/-- The scope of a selection lists its tables in order. -/
theorem names_selectionScope {source : JoinedTable} {table : NamedTable} {joined : List JoinedEmbed}
    (main : source.source.IsPlain) (plain : ∀ join ∈ source.joins, join.source.IsPlain)
    (named : source.source.named = .ok table)
    (read : List.Forall₂ (fun join embed => join.embed = .ok embed) source.joins joined) :
    (selectionScope table joined).names = source.names := by
  have front := tableNames_named main named none
  have behind := flatMap_joins plain read 0
  rw [selectionScope, names_foldl_join, JoinedTable.names]
  exact congr (congrArg HAppend.hAppend front) behind

theorem lt_of_placeIn {source : JoinedTable} {number : Nat} (found : placeIn source.names qualifier = some (some number)) :
    number < source.joins.length := by
  cases qualifier with
  | none => cases found
  | some name =>
      obtain ⟨⟨other, place⟩, listed, rfl⟩ := Option.map_eq_some_iff.mp found
      have member := List.mem_of_find?_eq_some listed
      rcases List.mem_append.mp member with main | joined
      · obtain ⟨_, _, same⟩ := List.mem_map.mp main
        cases (Prod.mk.inj same).2
      · obtain ⟨⟨join, index⟩, inside, named⟩ := List.mem_flatMap.mp joined
        obtain ⟨_, _, same⟩ := List.mem_map.mp named
        obtain rfl := Option.some.inj (Prod.mk.inj same).2
        simpa using (List.mem_zipIdx inside).2.1

def Expr.reference? : Expr → Option (Option String × String)
  | .name word => some (none, word.value)
  | .path [table, column] | .path [_, table, column] => some (some table.value, column.value)
  | .nested inner => inner.reference?
  | _ => none

/-- The table and the column that an expression refers to. -/
def Expr.place? (scope : Scope) (value : Expr) : Option (Target × String) := do
  let (qualifier, column) ← value.reference?
  return (← placeIn scope.names qualifier, column)

theorem toOption_column (value : Expr) : (value.column scope).toOption = value.place? scope := by
  fun_induction Expr.column scope value with
  | case1 => rfl
  | case2 table column =>
      rw [toOption_bind, toOption_resolve]
      rfl
  | case3 schema table column =>
      rw [toOption_bind, toOption_resolve]
      rfl
  | case4 words two three =>
      match words with
      | [] | [_] => rfl
      | [table, column] => exact (two table column rfl).elim
      | [schema, table, column] => exact (three schema table column rfl).elim
      | _ :: _ :: _ :: _ :: _ => rfl
  | case5 inner induction => exact induction
  | case6 value name two three path nested =>
      cases value with
      | name word => exact (name word rfl).elim
      | path words => exact (path words rfl).elim
      | nested inner => exact (nested inner rfl).elim
      | _ => rfl

theorem reference_of_place {value : Expr} (place : value.place? scope = some (target, column)) :
    ∃ qualifier, value.reference? = some (qualifier, column) ∧ placeIn scope.names qualifier = some target := by
  obtain ⟨⟨qualifier, name⟩, reference, place⟩ := Option.bind_eq_some_iff.mp place
  obtain ⟨found, placed, same⟩ := Option.bind_eq_some_iff.mp place
  obtain ⟨rfl, rfl⟩ := Prod.mk.inj (Option.some.inj same)
  exact ⟨qualifier, reference, placed⟩

theorem ok_of_column {value : Expr} (read : value.column scope = .ok (target, column)) :
    ∃ qualifier, value.reference? = some (qualifier, column) ∧ placeIn scope.names qualifier = some target := by
  apply reference_of_place
  rw [← toOption_column]
  exact toOption_of_ok read

end QueryNotation.Sql
