import QueryNotation.Proofs.Sql.Change
import QueryNotation.Proofs.Sql.Mention

namespace QueryNotation.Sql

/-! # How a column is spelled

A statement writes a column as one name where it reads it, and part by part where it sets it.  The two
spellings are one exactly if the name holds no dot.
-/

open Text

variable {policy : KeyPolicy} {query : Query} {column : String}

/-- A name with a dot in it stands between marks. -/
theorem toList_escapeName_dotted (dotted : '.' ∈ column.toList) :
    (escapeName column).toList = '"' :: substitute '"' ['"', '"'] column.toList ++ ['"'] := by
  have named : column ≠ "*" := by
    intro star
    rw [star] at dotted
    exact absurd dotted (by decide)
  have marked : ¬ isBareName column.toList = true := by
    intro bare
    exact (show IsBare column from bare).absent (by decide) dotted
  rw [escapeName, if_neg named, if_neg marked, String.toList_ofList]

theorem not_mem_substitute {first : List Char} (plain : '.' ∉ first) : '.' ∉ substitute '"' ['"', '"'] first := by
  intro member
  obtain ⟨c, inside, member⟩ := List.mem_flatMap.mp member
  split at member
  · simp at member
  · exact plain (List.mem_singleton.mp member ▸ inside)

/-- Up to its first dot, a name that stands between marks has no mark behind it. -/
theorem escapeName_front (first : List Char) :
    '"' :: substitute '"' ['"', '"'] first ≠ (escapeName (String.ofList first)).toList := by
  intro same
  obtain ⟨bare, absent⟩ | quoted := escapeName_cases (String.ofList first)
  · apply absent
    rw [← bare, ← same]
    exact List.mem_cons_self
  · have lengths := congrArg List.length same
    rw [quoted] at lengths
    simp only [String.toList_ofList, List.length_append, List.length_cons] at lengths
    omega

theorem escapeName_eq_escapeIdentifier_iff :
    escapeName column = escapeIdentifier column ↔ '.' ∉ column.toList := by
  refine ⟨fun same dotted => ?_, fun plain => (escapeIdentifier_of_absent plain).symm⟩
  obtain ⟨first, rest, shape, plain⟩ := List.eq_append_cons_of_mem dotted
  have written : (escapeName column).toList = ('"' :: substitute '"' ['"', '"'] first) ++
      '.' :: (substitute '"' ['"', '"'] rest ++ ['"']) := by
    rw [toList_escapeName_dotted dotted, shape]
    simp [substitute]
  have absent : ∀ c ∈ '"' :: substitute '"' ['"', '"'] first, (c == '.') = false := by
    intro c member
    rw [beq_eq_false_iff_ne]
    intro point
    obtain mark | inside := List.mem_cons.mp (point ▸ member)
    · exact absurd mark (by decide)
    · exact not_mem_substitute plain inside
  have parts := pieces_escapeIdentifier column
  have split : pieces (· == '.') column.toList = first :: pieces (· == '.') rest := by
    rw [shape]
    refine pieces_append (fun c member => beq_eq_false_iff_ne.mpr fun point => ?_) rfl rest
    exact plain (point ▸ member)
  rw [← same, written, pieces_append absent rfl, split, List.map_cons] at parts
  exact escapeName_front first (List.cons.inj parts).1

theorem spell_eq_iff (place other : Place) (column : String) :
    place.spell column = other.spell column ↔ place.splits = other.splits ∨ '.' ∉ column.toList := by
  unfold Place.spell
  cases place.splits <;> cases other.splits
  · exact iff_of_true rfl (.inl rfl)
  · exact escapeName_eq_escapeIdentifier_iff.trans (by simp)
  · exact eq_comm.trans (escapeName_eq_escapeIdentifier_iff.trans (by simp))
  · exact iff_of_true rfl (.inl rfl)

/-- A column is written alike wherever a statement mentions it without its table. -/
def SpelledAlike (column : String) : Prop :=
  ∀ (policy other : KeyPolicy) (query again : Query) (written rewritten : Written),
    write policy query = .ok written → write other again = .ok rewritten →
    ∀ mention ∈ mentions (statementPieces policy query), ∀ second ∈ mentions (statementPieces other again),
      mention.table = none → second.table = none → mention.column = column → second.column = column →
      mention.text = second.text

/-- The insert of a row with one column, which is put out again. -/
def insertShown (column : String) : Query where
  table := "t"
  operation := .insert
  body := some (.single [(column, .number (.integer 1))])
  columns := [{ name := column }]
  returning := true

theorem mentions_insertShown (policy : KeyPolicy) (named : column ≠ "*") :
    mentions (statementPieces policy (insertShown column)) = [⟨.inserted, none, column⟩, ⟨.output, none, column⟩] := by
  have some : (insertShown column).selectsAll = false := by simpa [Query.selectsAll, insertShown, Column.isStar] using named
  have columns : Body.columnNames (rowsOf (insertShown column)) = [column] := rfl
  have operation : (insertShown column).operation = .insert := rfl
  have returning : (insertShown column).returning = true := rfl
  simp only [statementPieces, operation, insertPieces, columns, returningPieces, returning, some]
  rfl

theorem write_insertShown (policy : KeyPolicy) (column : String) :
    ∃ written, write policy (insertShown column) = .ok written := by
  have answered : ∃ text, returningClause (insertShown column) = .ok text := by
    have returning : (insertShown column).returning = true := rfl
    simp only [returningClause, returning]
    cases (insertShown column).selectsAll with
    | true => exact ⟨_, rfl⟩
    | false => exact ⟨_, rfl⟩
  obtain ⟨text, answered⟩ := answered
  have wrote := @writeInsert_eq policy (insertShown column) _ rfl (fun _ => Body.noConfusion) rfl
  rw [answered] at wrote
  exact ⟨_, wrote⟩

theorem spelledAlike_of_plain (plain : '.' ∉ column.toList) : SpelledAlike column := by
  intro policy other query again written rewritten wrote rewrote mention _ second _ bare bare' here there
  have first : mention.text = mention.place.spell column := by rw [Mention.text, bare, here]
  have next : second.text = second.place.spell column := by rw [Mention.text, bare', there]
  rw [first, next, spell_eq_iff]
  exact .inr plain

theorem plain_of_spelledAlike (alike : SpelledAlike column) : '.' ∉ column.toList := by
  intro dotted
  have named : column ≠ "*" := by
    intro star
    rw [star] at dotted
    exact absurd dotted (by decide)
  let policy : KeyPolicy := .ofOptions {}
  obtain ⟨written, wrote⟩ := write_insertShown policy column
  have listed := mentions_insertShown policy named
  have same := alike policy policy _ _ written written wrote wrote ⟨.inserted, none, column⟩
    (by rw [listed]; simp) ⟨.output, none, column⟩ (by rw [listed]; simp) rfl rfl rfl rfl
  have spelled : Place.inserted.spell column = Place.output.spell column := same
  obtain one | absent := (spell_eq_iff _ _ column).mp spelled
  · cases one
  · exact absent dotted

/-- The columns that the target of an upsert mentions are those that it names. -/
theorem conflict_mentioned {names : List String} (upserts : query.operation = .upsert)
    (separable : AreSeparable names) (given : query.onConflict = some (String.intercalate "," names)) :
    ⟨.conflict, none, column⟩ ∈ mentions (statementPieces policy query) ↔ column ∈ names ∧ column ≠ "" := by
  have targets : conflictColumns policy query = names.filter (· ≠ "") := separable.conflictColumns given
  have answered : (⟨.conflict, none, column⟩ : Mention) ∉ mentions (returningPieces query) := by
    unfold returningPieces
    split
    · simp
    · split <;> simp [allPieces, columnPieces]
  simp only [statementPieces, upserts, insertPieces, conflictPieces, if_true, targets]
  split <;> simp [answered]

/-- A statement is the text of its pieces, and a column is written alike wherever statements mention it
without its table exactly if its name holds no dot.  Otherwise the places where it is set, part by part,
write it unlike those where it is read.  The target of an upsert mentions the columns that it names. -/
theorem spelledAlike_iff (column : String) :
    (∀ (policy : KeyPolicy) (query : Query) (written : Written), write policy query = .ok written →
      written.text = Piece.join (statementPieces policy query)) ∧
    (SpelledAlike column ↔ '.' ∉ column.toList) ∧
    (∀ place other : Place, place.spell column = other.spell column ↔
      place.splits = other.splits ∨ '.' ∉ column.toList) ∧
    ∀ (policy : KeyPolicy) (query : Query) (names : List String), query.operation = .upsert → AreSeparable names →
      query.onConflict = some (String.intercalate "," names) →
      (⟨.conflict, none, column⟩ ∈ mentions (statementPieces policy query) ↔ column ∈ names ∧ column ≠ "") := by
  refine ⟨fun _ _ _ => join_statementPieces, ⟨plain_of_spelledAlike, spelledAlike_of_plain⟩, ?_, ?_⟩
  · exact fun place other => spell_eq_iff place other column
  · exact fun _ _ _ upserts separable given => conflict_mentioned upserts separable given

/-- A column that stands between marks, in the target of an upsert and outside of it. -/
def upsertUser : Query where
  table := "t"
  operation := .upsert
  body := some (.single [("user", .number (.integer 1)), ("n", .number (.integer 2))])
  columns := [{ name := "user" }]
  onConflict := some "user"
  returning := true

theorem spelledAlike_iff_user :
    write (.ofOptions {}) upsertUser = .ok {
        text := "INSERT INTO t (\"user\", n) VALUES (1, 2) ON CONFLICT (\"user\") " ++
          "DO UPDATE SET n = EXCLUDED.n RETURNING \"user\"" } ∧
      SpelledAlike "user" ∧
      ⟨.conflict, none, "user"⟩ ∈ mentions (statementPieces (.ofOptions {}) upsertUser) := by
  obtain ⟨-, alike, -, targets⟩ := spelledAlike_iff "user"
  have separable : AreSeparable ["user"] := ⟨by decide, by decide, by decide⟩
  have mentioned := targets (.ofOptions {}) upsertUser ["user"] rfl separable (by decide)
  exact ⟨by decide +kernel, alike.mpr (by decide), mentioned.mpr (by decide)⟩

/-- A column with a dot in its name is inserted as two names and put out as one. -/
theorem dotted_split :
    write (.ofOptions {}) (insertShown "a.b") = .ok { text := "INSERT INTO t (a.b) VALUES (1) RETURNING \"a.b\"" } ∧
      mentions (statementPieces (.ofOptions {}) (insertShown "a.b")) =
        [⟨.inserted, none, "a.b"⟩, ⟨.output, none, "a.b"⟩] ∧
      Mention.text ⟨.inserted, none, "a.b"⟩ = "a.b" ∧ Mention.text ⟨.output, none, "a.b"⟩ = "\"a.b\"" ∧
      ¬ SpelledAlike "a.b" :=
  ⟨by decide +kernel, by decide +kernel, by decide +kernel, by decide +kernel,
    fun alike => plain_of_spelledAlike alike (by decide)⟩

end QueryNotation.Sql
