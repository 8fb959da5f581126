import Mathlib.Algebra.Group.Nat.Defs
import QueryNotation.Proofs.Chain.Nested
import QueryNotation.Proofs.Sql.Dropped
import QueryNotation.Proofs.Sql.Deletion

namespace QueryNotation

/-! # Paging

A limit with an offset, a range, and the two calls of a chain are ways to ask for a run of rows.
Whichever a query uses, its statement takes just the rows that it asks for, and so does the statement
of the query that its chain is read as.
-/

variable {policy : Sql.KeyPolicy} {options : Options} {client : String} {query other : Query}

namespace Query

def unpaged (query : Query) : Query :=
  { query with limit := none, offset := none, range := none }

/-- The query asks for a row, counted from zero: a range counts only where neither a limit nor an
offset is set. -/
def Asks (query : Query) (row : Nat) : Prop :=
  if query.limit = none ∧ query.offset = none then
    ∀ range ∈ query.range, range.1.toNat ≤ row ∧ row ≤ range.2.toNat
  else
    (∀ offset ∈ query.offset, offset.toNat ≤ row) ∧
      ∀ limit ∈ query.limit, row < (query.offset.elim 0 UInt64.toNat) + limit.toNat

/-- The query asks for more rows than a limit can count. -/
def AsksAll (query : Query) : Prop :=
  query.limit = none ∧ query.offset = none ∧
    ∃ range ∈ query.range, range.2.toNat + 1 - range.1.toNat = 2 ^ 64

/-- What is counted on the way from a query to its statement and its chain is counted exactly. -/
structure CountsExactly (query : Query) : Prop where
  last : ∀ limit offset last, query.limit = some limit → query.offset = some offset →
    Chain.lastRow? limit offset = some last → last.toNat + 1 = offset.toNat + limit.toNat
  count : ∀ range rows, query.limit = none → query.offset = none → query.range = some range →
    Sql.paging query = .ok rows →
      ∃ count, rows.limit = some count ∧ count.toNat = range.2.toNat + 1 - range.1.toNat

end Query

/-- The reads of plain columns from one table, with or without paging. -/
structure IsFlat (query : Query) : Prop where
  select : query.operation = .select
  columns : ∀ column ∈ query.columns, column.IsPlain
  unfiltered : query.filters = []
  alone : query.embeds = []
  forward : ∀ range ∈ query.range, range.1 ≤ range.2

namespace Sql

/-- A limit and an offset take a row, counted from zero. -/
def Paging.Takes (rows : Paging) (row : Nat) : Prop :=
  rows.offset.elim 0 UInt64.toNat ≤ row ∧
    ∀ limit ∈ rows.limit, row < rows.offset.elim 0 UInt64.toNat + limit.toNat

/-- The statement of a query takes just the rows that another query asks for, or it is refused where
those are too many; but for its rows it reads like the frame. -/
structure Answers (policy : KeyPolicy) (frame : String) (query asking : Query) : Prop where
  refused : asking.AsksAll → ∃ fault, write policy query = .error fault ∧ fault.code = "INVALID_INTEGER"
  taken : ¬ asking.AsksAll → ∃ (rows : Paging) (written : Written), write policy query = .ok written ∧
    written.text = frame ++ rows.text ∧ ∀ row, rows.Takes row ↔ asking.Asks row

theorem toNat_span {first last : UInt64} (forward : first ≤ last) :
    (last - first).toNat = last.toNat - first.toNat :=
  UInt64.toNat_sub_of_le _ _ forward

theorem span_eq_greatest {first last : UInt64} (forward : first ≤ last) :
    last - first = greatestCount ↔ last.toNat + 1 - first.toNat = 2 ^ 64 := by
  have ordered := UInt64.le_iff_toNat_le.mp forward
  have greatest : greatestCount.toNat = 18446744073709551615 := rfl
  rw [← UInt64.toNat_inj, toNat_span forward, greatest]
  omega

theorem toNat_count {first last : UInt64} (forward : first ≤ last) (few : last - first ≠ greatestCount) :
    (last - first + 1).toNat = last.toNat + 1 - first.toNat := by
  have ordered := UInt64.le_iff_toNat_le.mp forward
  have bounded := last.toNat_lt
  have fits : last.toNat + 1 - first.toNat ≠ 2 ^ 64 := fun full => few ((span_eq_greatest forward).mpr full)
  rw [UInt64.toNat_add, toNat_span forward, show (1 : UInt64).toNat = 1 from rfl, Nat.mod_eq_of_lt]
  · omega
  · omega

theorem offset_eq {first : UInt64} :
    (if first > 0 then some first else none : Option UInt64).elim 0 UInt64.toNat = first.toNat := by
  split
  · rfl
  · next none =>
    have least : ¬ 0 < first.toNat := fun positive => none (UInt64.lt_iff_toNat_lt.mpr positive)
    change 0 = first.toNat
    omega

/-- A range that counts is a limit, behind an offset unless it begins with the first row. -/
theorem paging_counted {first last : UInt64} (limit : query.limit = none) (offset : query.offset = none)
    (range : query.range = some (first, last)) (forward : first ≤ last) :
    paging query = if last - first = greatestCount then .error (.rangeTooLong first last) else
      .ok { limit := some (last - first + 1), offset := if first > 0 then some first else none } := by
  unfold paging
  simp only [range, limit, offset, Option.isNone_none, Bool.and_self, if_true, if_pos forward]

/-- What a query asks for is what the end of its statement takes. -/
theorem paging_takes (forward : ∀ range ∈ query.range, range.1 ≤ range.2) (few : ¬ query.AsksAll) :
    ∃ rows, paging query = .ok rows ∧ ∀ row, rows.Takes row ↔ query.Asks row := by
  by_cases counts : query.limit = none ∧ query.offset = none
  · obtain ⟨limit, offset⟩ := counts
    unfold Query.Asks
    simp only [limit, offset, and_self, if_true]
    cases range : query.range with
    | none =>
        refine ⟨_, paging_plain (.inl range), fun row => ?_⟩
        simp [Paging.Takes, limit, offset]
    | some bounds =>
        obtain ⟨first, last⟩ := bounds
        have ordered : first ≤ last := forward _ range
        have short : last - first ≠ greatestCount := fun full =>
          few ⟨limit, offset, _, range, (span_eq_greatest ordered).mp full⟩
        rw [paging_counted limit offset range ordered, if_neg short]
        refine ⟨_, rfl, fun row => ?_⟩
        have below := UInt64.le_iff_toNat_le.mp ordered
        simp only [Paging.Takes, offset_eq, Option.mem_def, Option.some.injEq, forall_eq',
          toNat_count ordered short]
        omega
  · refine ⟨_, paging_plain (.inr (not_and_or.mp counts)), fun row => ?_⟩
    rw [Query.Asks, if_neg counts, Paging.Takes]
    cases query.offset <;> simp

theorem paging_refused (forward : ∀ range ∈ query.range, range.1 ≤ range.2) (full : query.AsksAll) :
    ∃ first last, paging query = .error (.rangeTooLong first last) := by
  obtain ⟨limit, offset, ⟨first, last⟩, range, long⟩ := full
  have ordered : first ≤ last := forward _ range
  refine ⟨first, last, ?_⟩
  rw [paging_counted limit offset range ordered, if_pos ((span_eq_greatest ordered).mpr long)]

/-- The statement of a read from one table, up to its paging. -/
def flatText (shown : List String) (query : Query) : String :=
  "SELECT " ++ String.intercalate ", " shown ++ " FROM " ++ escapeIdentifier query.table ++
    clause " ORDER BY " ", " (query.order.map (orderText none))

theorem text_writeSelect (alone : query.embeds = []) (unfiltered : query.filters = []) {shown : List String}
    (listed : selectColumns query none [] = .ok shown) :
    (writeSelect policy query).map Written.text =
      (paging query).map fun rows => flatText shown query ++ rows.text := by
  unfold writeSelect
  simp only [alone, unfiltered, List.isEmpty_nil, if_true, List.mapM_nil, pure_bind, List.zip_nil_left, listed,
    ok_bind, conditions, List.flatMap_nil]
  cases paging query with
  | error fault => rfl
  | ok rows =>
      obtain ⟨limit, offset⟩ := rows
      refine congrArg Except.ok ?_
      cases limit <;> cases offset <;>
        simp only [flatText, Paging.text, clause, List.map_nil, String.join_nil, String.append_empty, String.empty_append,
          List.flatten_nil, List.append_nil, List.isEmpty_nil, if_true, String.append_assoc]

/-- A read names its columns in its statement, and so does any query of the columns that its chain is
read with. -/
theorem selectColumns_flat (flat : IsFlat query) :
    ∃ shown, selectColumns query none [] = .ok shown ∧ ∀ other : Query,
      other.columns = query.columns ∨ other.columns = Embed.shown query.columns [] →
        selectColumns other none [] = .ok shown := by
  have same (other : Query) (columns : other.columns = query.columns) :
      selectColumns other none [] = selectColumns query none [] := by
    unfold selectColumns
    rw [columns]
  cases columns : query.columns with
  | nil =>
      -- No columns and the star are shown in the same way.
      have bare (other : Query) (none : other.columns = []) : selectColumns other Option.none [] = .ok ["*"] := by
        unfold selectColumns
        rw [none]
        rfl
      refine ⟨["*"], bare query columns, ?_⟩
      rintro other (none | star)
      · exact bare other none
      · have text : columnText none Column.star = .ok "*" := by decide
        have whole : other.columns = [.star] := star
        simp only [selectColumns, whole, List.isEmpty_cons, Bool.false_and, Bool.false_eq_true, if_false,
          List.mapM_cons, List.mapM_nil, text, ok_bind]
        rfl
  | cons column rest =>
      have texts : ∃ shown, query.columns.mapM (columnText none) = .ok shown := by
        cases listed : query.columns.mapM (columnText none) with
        | ok shown => exact ⟨shown, rfl⟩
        | error fault =>
            obtain ⟨broken, member, failed⟩ := error_of_mapM listed
            rw [columnText, (flat.columns broken member).isItem.castable] at failed
            cases failed
      obtain ⟨texts, listed⟩ := texts
      have found : ∃ shown, selectColumns query none [] = .ok shown := by
        rw [columns] at listed
        simp only [selectColumns, columns, List.isEmpty_cons, Bool.false_and, Bool.false_eq_true, if_false, listed,
          ok_bind, List.mapM_nil]
        exact ⟨_, rfl⟩
      obtain ⟨shown, found⟩ := found
      refine ⟨shown, found, ?_⟩
      rintro other (kept | kept)
      · rw [same other (kept.trans columns.symm), found]
      · rw [same other (kept.trans columns.symm), found]

/-- A statement takes what its query asks for. -/
theorem answers_self {shown : List String} (selects : query.operation = .select) (alone : query.embeds = [])
    (unfiltered : query.filters = []) (forward : ∀ range ∈ query.range, range.1 ≤ range.2)
    (listed : selectColumns query none [] = .ok shown) :
    Answers policy (flatText shown query) query query := by
  have text := @text_writeSelect policy query alone unfiltered shown listed
  have chosen : write policy query = writeSelect policy query := by
    unfold write
    rw [selects]
  constructor
  · intro full
    obtain ⟨first, last, paged⟩ := paging_refused forward full
    rw [paged, ← chosen] at text
    cases wrote : write policy query with
    | ok written =>
        rw [wrote] at text
        cases text
    | error fault =>
        rw [wrote] at text
        obtain rfl := Except.error.inj text
        exact ⟨_, rfl, rfl⟩
  · intro few
    obtain ⟨rows, paged, takes⟩ := paging_takes forward few
    rw [paged, ← chosen] at text
    obtain ⟨written, wrote, same⟩ := ok_of_map text
    exact ⟨rows, written, wrote, same, takes⟩

end Sql

theorem countsExactly (forward : ∀ range ∈ query.range, range.1 ≤ range.2) : query.CountsExactly where
  last _ _ _ _ _ found := Chain.toNat_lastRow found
  count range rows limit offset given paged := by
    have ordered := forward range given
    rw [Sql.paging_counted limit offset given ordered] at paged
    split at paged
    · cases paged
    · next few =>
      obtain rfl := Except.ok.inj paged
      exact ⟨_, rfl, Sql.toNat_count ordered few⟩

theorem IsFlat.fitsNested (flat : IsFlat query) : Chain.FitsNested query where
  select := flat.select
  columns := flat.columns
  embeds := by rw [flat.alone]; exact List.forall_mem_nil _
  distinct := by rw [flat.alone]; exact .nil
  filters := by rw [flat.unfiltered]; exact List.forall_mem_nil _
  embedFilters := by rw [flat.alone]; exact List.forall_mem_nil _
  range := flat.forward

/-- The paging of a chain asks for the same rows, unless it loses an offset. -/
theorem asks_readPaging (partly : query.limit = none ∨ query.offset = none ∨ query.range = none)
    (carried : ¬ LosesOffset query) (limit : other.limit = (Chain.readPaging query).1)
    (range : other.range = (Chain.readPaging query).2) (offset : other.offset = none) :
    (other.AsksAll ↔ query.AsksAll) ∧ ∀ row, other.Asks row ↔ query.Asks row := by
  cases skipped : query.offset with
  | none =>
      rw [Chain.readPaging_plain skipped] at limit range
      simp only [Query.AsksAll, Query.Asks, limit, range, offset, skipped, implies_true, and_self]
  | some first =>
      -- The offset is carried, so it came with a limit and the last row fits into a word.
      obtain ⟨count, limited, last, found⟩ : ∃ count, query.limit = some count ∧
          ∃ last, Chain.lastRow? count first = some last := by
        by_contra none
        refine carried ⟨first, skipped, fun count limited => ?_⟩
        cases found : Chain.lastRow? count first with
        | none => rfl
        | some last => exact absurd ⟨count, limited, last, found⟩ none
      have whole : query.range = none := by
        rcases partly with none | none | whole
        · rw [none] at limited
          cases limited
        · rw [none] at skipped
          cases skipped
        · exact whole
      have counted := Chain.toNat_lastRow found
      have bounded := count.toNat_lt
      simp only [Chain.readPaging, limited, skipped, found, whole, Option.none_or] at limit range
      constructor
      · simp only [Query.AsksAll, limit, range, offset, limited, Option.mem_def, Option.some.injEq,
          exists_eq_left', true_and, reduceCtorEq, false_and, iff_false]
        omega
      · intro row
        simp only [Query.Asks, limit, range, offset, limited, skipped, and_self, if_true, reduceCtorEq, if_false,
          Option.mem_def, Option.some.injEq, forall_eq', Option.elim_some]
        omega

theorem Sql.Answers.congr {frame : String} {asking : Query} (answers : Sql.Answers policy frame query query)
    (all : query.AsksAll ↔ asking.AsksAll) (each : ∀ row, query.Asks row ↔ asking.Asks row) :
    Sql.Answers policy frame query asking where
  refused full := answers.refused (all.mpr full)
  taken few := by
    obtain ⟨rows, written, wrote, text, takes⟩ := answers.taken fun full => few (all.mp full)
    exact ⟨rows, written, wrote, text, fun row => (takes row).trans (each row)⟩

/-- However a query asks for a run of rows, its statement takes just these rows, unless there are too
many for a limit.  A chain that says nothing of a dropped offset is read back as a query whose statement
takes the same rows. -/
theorem paging_kept (policy : Sql.KeyPolicy) (options : Options) (client : String) (query : Query)
    (name : Chain.IsClient client) (free : client ∉ ["auth", "storage"]) (flat : IsFlat query)
    (partly : query.limit = none ∨ query.offset = none ∨ query.range = none) :
    query.CountsExactly ∧ ∃ frame written,
      (Sql.write policy query.unpaged).map Sql.Written.text = .ok frame ∧
      Sql.Answers policy frame query query ∧
      Chain.write client query = .ok written ∧
      (written.warnings = [] → written.code.utf8ByteSize ≤ options.maxInputLength →
        Text.bracketDepth .outside 0 written.code.toList ≤ options.maxDepth →
        ∃ read, Chain.readQuery options written.code = .ok { query := read } ∧ read.CountsExactly ∧
          Sql.Answers policy frame read query) := by
  obtain ⟨shown, listed, same⟩ := Sql.selectColumns_flat flat
  obtain ⟨warnings, wrote⟩ := @Chain.write_nested client query flat.fitsNested
  have answers {other : Query} (selects : other.operation = .select) (alone : other.embeds = [])
      (unfiltered : other.filters = []) (forward : ∀ range ∈ other.range, range.1 ≤ range.2)
      (columns : other.columns = query.columns ∨ other.columns = Embed.shown query.columns [])
      (table : other.table = query.table) (order : other.order = query.order) :
      Sql.Answers policy (Sql.flatText shown query) other other := by
    have frame : Sql.flatText shown other = Sql.flatText shown query := by
      rw [Sql.flatText, Sql.flatText, table, order]
    rw [← frame]
    exact Sql.answers_self selects alone unfiltered forward (same other columns)
  have own := answers flat.select flat.alone flat.unfiltered flat.forward (.inl rfl) rfl rfl
  have frame : (Sql.write policy query.unpaged).map Sql.Written.text = .ok (Sql.flatText shown query) := by
    have bare : query.unpaged.operation = .select := flat.select
    have text := @Sql.text_writeSelect policy query.unpaged flat.alone flat.unfiltered shown (same _ (.inl rfl))
    rw [show Sql.paging query.unpaged = .ok ⟨none, none⟩ from rfl] at text
    rw [Sql.write, bare]
    exact text.trans (congrArg Except.ok String.append_empty)
  refine ⟨countsExactly flat.forward, _, _, frame, own, wrote, fun silent small room => ?_⟩
  let read : Query :=
    { Chain.asRead query with limit := (Chain.readPaging query).1, range := (Chain.readPaging query).2 }
  have carried : ¬ LosesOffset query := by
    rw [chain_warnings wrote] at silent
    exact pagingCalls_silent.mp (List.append_eq_nil_iff.mp silent).2
  have found := Chain.readQuery_received name free flat.fitsNested wrote small room
    (by rw [flat.alone]; exact Nat.zero_le _)
  rw [flat.alone] at found
  have forward : ∀ range ∈ read.range, range.1 ≤ range.2 := Chain.forward_readPaging flat.forward
  have alone : read.embeds = [] := by
    change query.embeds.map _ = []
    rw [flat.alone, List.map_nil]
  have columns : read.columns = Embed.shown query.columns [] := by
    change Embed.shown query.columns query.embeds = _
    rw [flat.alone]
  obtain ⟨all, each⟩ := @asks_readPaging query read partly carried rfl rfl rfl
  have kept := @answers read rfl alone flat.unfiltered forward (.inr columns) rfl rfl
  exact ⟨read, found, countsExactly forward, kept.congr all each⟩

/-- A read of ten rows behind twenty. -/
def pagedQuery : Query :=
  { table := "t", operation := .select, order := [{ column := "a" }], limit := some 10, offset := some 20 }

def pagedCode : String :=
  "db.from('t').select().order('a').range(20, 29)"

theorem paging_kept_range :
    Chain.write "db" pagedQuery = .ok { code := pagedCode, warnings := [] } ∧
      ∃ read, Chain.readQuery {} pagedCode = .ok { query := read } ∧
        ∃ rows : Sql.Paging, ∃ written, Sql.write (.ofOptions {}) read = .ok written ∧
          written.text = "SELECT * FROM t ORDER BY a ASC" ++ rows.text ∧
          ∀ row, rows.Takes row ↔ 20 ≤ row ∧ row < 30 := by
  have flat : IsFlat pagedQuery := ⟨rfl, List.forall_mem_nil _, rfl, rfl, by simp [pagedQuery]⟩
  have called : Chain.write "db" pagedQuery = .ok { code := pagedCode, warnings := [] } := by decide +kernel
  have room : Text.bracketDepth .outside 0 pagedCode.toList ≤ 32 := by
    rw [pagedCode, show String.toList _ = _ from String.toList_ofList]
    decide +kernel
  obtain ⟨_, frame, written, text, _, wrote, reads⟩ :=
    paging_kept (.ofOptions {}) {} "db" pagedQuery ⟨by decide, by decide⟩ (by decide) flat (.inr (.inr rfl))
  rw [called] at wrote
  obtain rfl := Except.ok.inj wrote
  obtain ⟨read, found, _, answers⟩ := reads rfl (by decide +kernel) room
  have shape : (Sql.write (.ofOptions {}) pagedQuery.unpaged).map Sql.Written.text =
      .ok "SELECT * FROM t ORDER BY a ASC" := by
    decide +kernel
  obtain rfl := Except.ok.inj (text.symm.trans shape)
  obtain ⟨rows, selected, wrote, same, takes⟩ := answers.taken fun all => by simp [Query.AsksAll, pagedQuery] at all
  refine ⟨called, read, found, rows, selected, wrote, same, fun row => ?_⟩
  simpa [Query.Asks, pagedQuery] using takes row

end QueryNotation
