import QueryNotation.Proofs.Sql.Reading

namespace QueryNotation

/-! # Rows

The columns of some rows are all their keys, each once and in the order of their first
appearance.  The rows that are read from a statement all have these columns.
-/

namespace Body

def addName (names : List String) (name : String) : List String :=
  if names.contains name then names else names ++ [name]

theorem columnNames_eq (rows : List Json.Row) :
    columnNames rows = (rows.flatMap Json.Row.keys).foldl addName [] :=
  rfl

variable {known names : List String}

theorem nodup_foldl_addName (distinct : known.Nodup) : (names.foldl addName known).Nodup := by
  induction names generalizing known with
  | nil => exact distinct
  | cons name rest induction =>
      refine induction ?_
      rw [addName]
      split
      · exact distinct
      · next absent =>
        rw [List.contains_iff_mem] at absent
        refine List.nodup_append.mpr ⟨distinct, by simp, ?_⟩
        rintro other member last inside rfl
        exact absent (List.mem_singleton.mp inside ▸ member)

theorem mem_foldl_addName {name : String} :
    name ∈ names.foldl addName known ↔ name ∈ known ∨ name ∈ names := by
  induction names generalizing known with
  | nil => simp
  | cons first rest induction =>
      rw [List.foldl_cons, induction, addName]
      split
      · next present =>
        rw [List.contains_iff_mem] at present
        constructor
        · rintro (held | later)
          · exact .inl held
          · exact .inr (List.mem_cons_of_mem _ later)
        · rintro (held | member)
          · exact .inl held
          · rcases List.mem_cons.mp member with rfl | later
            · exact .inl present
            · exact .inr later
      · simp [or_assoc]

/-- The names stand in the order in which they are first seen. -/
theorem pairwise_foldl_addName {seen : List String} (same : ∀ name, name ∈ known ↔ name ∈ seen)
    (ordered : known.Pairwise fun first second => seen.idxOf first < seen.idxOf second) :
    (names.foldl addName known).Pairwise fun first second =>
      (seen ++ names).idxOf first < (seen ++ names).idxOf second := by
  induction names generalizing known seen with
  | nil => simpa using ordered
  | cons name rest induction =>
      have moved : seen ++ name :: rest = seen ++ [name] ++ rest := by simp
      -- Names that were seen keep their places when another name comes behind them.
      have kept : known.Pairwise fun first second =>
          (seen ++ [name]).idxOf first < (seen ++ [name]).idxOf second := by
        refine ordered.imp_of_mem fun first second less => ?_
        rwa [List.idxOf_append_of_mem ((same _).mp first), List.idxOf_append_of_mem ((same _).mp second)]
      rw [moved, List.foldl_cons]
      refine induction (fun other => ?_) ?_
      · rw [addName]
        split
        · next present =>
          rw [List.contains_iff_mem, same] at present
          rw [same, List.mem_append, List.mem_singleton]
          exact ⟨.inl, fun member => member.elim id fun last => last ▸ present⟩
        · simp [same]
      · rw [addName]
        split
        · exact kept
        · next absent =>
          rw [List.contains_iff_mem] at absent
          refine List.pairwise_append.mpr ⟨kept, List.pairwise_singleton _ _, ?_⟩
          intro other member last inside
          obtain rfl := List.mem_singleton.mp inside
          rw [List.idxOf_append_of_mem ((same _).mp member), List.idxOf_append_of_notMem (mt (same _).mpr absent)]
          exact Nat.lt_add_right _ (List.idxOf_lt_length_of_mem ((same _).mp member))

theorem nodup_columnNames (rows : List Json.Row) : (columnNames rows).Nodup :=
  nodup_foldl_addName List.nodup_nil

theorem mem_columnNames {rows : List Json.Row} {name : String} :
    name ∈ columnNames rows ↔ ∃ row ∈ rows, name ∈ row.keys := by
  rw [columnNames_eq, mem_foldl_addName, List.mem_flatMap]
  simp

theorem pairwise_columnNames (rows : List Json.Row) :
    (columnNames rows).Pairwise fun first second =>
      (rows.flatMap Json.Row.keys).idxOf first < (rows.flatMap Json.Row.keys).idxOf second :=
  @pairwise_foldl_addName [] _ [] (by simp) List.Pairwise.nil
theorem foldl_addName_distinct (distinct : (known ++ names).Nodup) :
    names.foldl addName known = known ++ names := by
  induction names generalizing known with
  | nil => rw [List.append_nil]; rfl
  | cons name rest induction =>
      have absent : name ∉ known := fun member =>
        (List.nodup_append.mp distinct).2.2 name member name (by simp) rfl
      have moved : known ++ name :: rest = known ++ [name] ++ rest := by simp
      rw [moved] at distinct ⊢
      rw [List.foldl_cons, addName, if_neg (by simpa using absent), induction distinct]

theorem foldl_addName_known (held : ∀ name ∈ names, name ∈ known) : names.foldl addName known = known := by
  induction names with
  | nil => rfl
  | cons name rest induction =>
      rw [List.foldl_cons, addName, if_pos (by simpa using held name (by simp)),
        induction fun other member => held other (by simp [member])]

/-- Rows that all have the same columns have these columns. -/
theorem columnNames_same {rows : List Json.Row} {columns : List String} (some : rows ≠ [])
    (distinct : columns.Nodup) (same : ∀ row ∈ rows, row.keys = columns) : columnNames rows = columns := by
  obtain ⟨first, rest, rfl⟩ := List.exists_cons_of_ne_nil some
  have here : first.keys.foldl addName [] = columns := by
    rw [same first (by simp)]
    exact foldl_addName_distinct distinct
  rw [columnNames_eq, List.flatMap_cons, List.foldl_append, here]
  refine foldl_addName_known fun name member => ?_
  obtain ⟨row, listed, inside⟩ := List.mem_flatMap.mp member
  rwa [same row (by simp [listed])] at inside

end Body

namespace Sql

theorem bodyOfRows_rows (rows : List Json.Row) :
    (bodyOfRows rows).insertedRows = rows ∧ ∀ params, bodyOfRows rows ≠ .arguments params := by
  unfold bodyOfRows
  split <;> exact ⟨rfl, fun params => Body.noConfusion⟩

theorem isEmpty_bodyOfRows {rows : List Json.Row} (some : Body.columnNames rows ≠ []) :
    (bodyOfRows rows).isEmpty = false := by
  obtain ⟨column, listed⟩ := List.exists_mem_of_ne_nil _ some
  obtain ⟨row, member, inside⟩ := Body.mem_columnNames.mp listed
  have full : row.isEmpty = false := by
    cases row with
    | nil => cases inside
    | cons field rest => rfl
  unfold bodyOfRows
  split
  · rwa [List.mem_singleton.mp member] at full
  · exact List.all_eq_false.mpr ⟨row, member, by simp [full]⟩

/-- A cell whose number, if it is one, is read back from its text. -/
def IsStable (cell : Json) : Prop :=
  ∀ number, cell = .number number → Json.Number.ofText? number.chars = some number

/-- The rows that a statement says: their keys stand bare and are different. -/
structure IsPlainRow (row : Json.Row) : Prop where
  distinct : row.keys.Nodup
  bare : ∀ key ∈ row.keys, IsBare key
  stable : ∀ field ∈ row, IsStable field.2

variable {row : Json.Row} {columns : List String} {column : String}

/-- The row that is read for a row: a cell for every column. -/
def settledRow (columns : List String) (row : Json.Row) : Json.Row :=
  columns.map fun column => (column, settledJson (cellOf row column))

theorem keys_settledRow (columns : List String) (row : Json.Row) :
    (settledRow columns row).keys = columns := by
  rw [Json.Row.keys, settledRow, List.map_map]
  exact List.map_id columns

theorem mem_of_get? {cell : Json} (found : row.get? column = some cell) : (column, cell) ∈ row := by
  induction row with
  | nil => cases found
  | cons field rest induction =>
      obtain ⟨key, held⟩ := field
      rw [Json.Row.get?] at found
      split at found
      · next here =>
        obtain rfl := Option.some.inj found
        exact here ▸ List.mem_cons_self
      · exact List.mem_cons_of_mem _ (induction found)

theorem isStable_cellOf (stable : ∀ field ∈ row, IsStable field.2) : IsStable (cellOf row column) := by
  unfold cellOf
  cases found : row.get? column with
  | none => exact fun number same => Json.noConfusion same
  | some cell => exact stable (column, cell) (mem_of_get? found)

theorem get?_settledRow (listed : column ∈ columns) :
    Json.Row.get? (settledRow columns row) column = some (settledJson (cellOf row column)) := by
  unfold settledRow
  induction columns with
  | nil => cases listed
  | cons first rest induction =>
      rw [List.map_cons, Json.Row.get?]
      split
      · next same => rw [same]
      · next other => exact induction ((List.mem_cons.mp listed).resolve_left (Ne.symm other))

/-- A cell is read back from its tree, as its text if it is an array or an object. -/
theorem cellTree_json {cell : Json} (stable : IsStable cell) : (cellTree cell).json = .ok (settledJson cell) := by
  cases cell with
  | number number =>
      have plain : (numberTree number.text).jsonText? = .ok none := by
        unfold numberTree
        split <;> rfl
      have same := stable number rfl
      rw [cellTree, Expr.json, plain, ok_bind, numberTree_value, ok_bind, Value.toJson, Json.Number.text,
        String.toList_ofList, same]
      rfl
  | _ => rfl

/-- The rows are read back, each with a cell for every column. -/
theorem rowsOfCells_tree {rows : List Json.Row} (distinct : columns.Nodup)
    (plain : ∀ row ∈ rows, IsPlainRow row) (whole : String) (number : Nat) :
    rowsOfCells columns whole number
      (rows.map fun row => columns.map fun column => cellTree (cellOf row column)) =
      .ok (rows.map (settledRow columns)) := by
  induction rows generalizing number with
  | nil => rfl
  | cons row rest induction =>
      have cells : (columns.map fun column => cellTree (cellOf row column)).mapM Expr.json =
          .ok (columns.map fun column => settledJson (cellOf row column)) := by
        rw [List.mapM_map]
        exact mapM_of_ok fun column _ => cellTree_json (isStable_cellOf (plain row (by simp)).stable)
      have zipped : columns.zip (columns.map fun column => settledJson (cellOf row column)) =
          settledRow columns row := by
        conv => lhs; rw [← List.map_id columns, List.map_map, List.zip_map']
        rfl
      have kept : Json.Row.ofList (settledRow columns row) = settledRow columns row :=
        Json.rowOfList_of_distinct (by rwa [keys_settledRow])
      rw [List.map_cons, rowsOfCells, List.length_map, if_neg (by simp), cells]
      simp only [ok_bind, zipped, kept, induction fun other member => plain other (by simp [member])]
      rfl

theorem mem_keys_insert {key other : String} {held : Json} :
    other ∈ Json.Row.keys (Json.Row.insert key held row) ↔ other = key ∨ other ∈ row.keys := by
  induction row with
  | nil => simp [Json.Row.insert, Json.Row.keys]
  | cons field rest induction =>
      obtain ⟨first, value⟩ := field
      rw [Json.Row.insert]
      split
      · next same => simp [Json.Row.keys, same]
      · simp only [Json.Row.keys, List.map_cons, List.mem_cons] at induction ⊢
        rw [induction]
        exact or_left_comm

theorem mem_keys_ofList {fields : List (String × Json)} :
    column ∈ (Json.Row.ofList fields).keys ↔ column ∈ fields.map Prod.fst := by
  have folded (row : Json.Row) :
      column ∈ Json.Row.keys (fields.foldl (fun row field => Json.Row.insert field.1 field.2 row) row) ↔
        column ∈ row.keys ∨ column ∈ fields.map Prod.fst := by
    induction fields generalizing row with
    | nil => simp
    | cons field rest induction =>
        rw [List.foldl_cons, induction, mem_keys_insert, List.map_cons, List.mem_cons]
        exact (or_congr_left or_comm).trans or_assoc
  exact (folded []).trans (by simp [Json.Row.keys])

variable {whole : String} {number : Nat} {cells : List (List Expr)} {rows : List Json.Row}

theorem keys_rowsOfCells (found : rowsOfCells columns whole number cells = .ok rows) :
    rows.length = cells.length ∧ ∀ row ∈ rows, ∀ column, column ∈ row.keys ↔ column ∈ columns := by
  induction cells generalizing number rows with
  | nil =>
      obtain rfl := Except.ok.inj found
      exact ⟨rfl, List.forall_mem_nil _⟩
  | cons first rest induction =>
      rw [rowsOfCells] at found
      split at found
      · cases found
      · next width =>
        obtain ⟨values, each, found⟩ := ok_of_bind found
        obtain ⟨more, behind, found⟩ := ok_of_bind found
        obtain rfl := Except.ok.inj found
        obtain ⟨length, further⟩ := induction behind
        refine ⟨congrArg (· + 1) length, List.forall_mem_cons.mpr ⟨fun column => ?_, further⟩⟩
        have same : columns.length ≤ values.length := by
          rw [← (forall₂_of_mapM each).length_eq]
          simpa using (of_not_not (mt bne_iff_ne.mpr width)).ge
        rw [mem_keys_ofList, List.map_fst_zip same]

theorem mem_columnNames_read (found : rowsOfCells columns whole number cells = .ok rows) (some : cells ≠ []) :
    column ∈ Body.columnNames rows ↔ column ∈ columns := by
  obtain ⟨length, keys⟩ := keys_rowsOfCells found
  obtain ⟨row, listed⟩ := List.exists_mem_of_length_pos (length ▸ List.length_pos_iff.mpr some)
  rw [Body.mem_columnNames]
  constructor
  · rintro ⟨row, listed, inside⟩
    exact (keys row listed column).mp inside
  · exact fun inside => ⟨row, listed, (keys row listed column).mpr inside⟩

end Sql

end QueryNotation
