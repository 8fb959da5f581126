import QueryNotation.Chain.Call
import QueryNotation.Chain.Writer
import QueryNotation.Proofs.Chain.Segment
import QueryNotation.Proofs.Value.Json

namespace QueryNotation.Chain

/-! # The meaning of written calls

A written call is read back with the values that its literals were written for, and these
values give it its meaning.
-/

variable {call : MethodCall} {values : List Json} {meaning : Call}

/-- A written call is read back with some values. -/
structure Denotes (call : MethodCall) (values : List Json) : Prop where
  full : call.method ≠ ""
  named : ∀ c ∈ call.method.toList, isNameCharacter c = true
  texts : call.arguments = values.map literal
  stable : ∀ value ∈ values, ∃ depth, Json.ReadsBack depth value

/-- A written call is read back and means something. -/
def Means (call : MethodCall) (meaning : Call) : Prop :=
  ∃ values, Denotes call values ∧ Call.classify call.method values = .ok meaning

theorem Denotes.isWritten (denotes : Denotes call values) :
    Arguments.IsWritten { method := call.method, values } :=
  ⟨denotes.full, denotes.named, denotes.stable⟩

theorem toList_text (denotes : Denotes call values) :
    call.text.toList = '.' :: callChars { method := call.method, values } := by
  have parts : values.map literalChars = (values.map literal).map String.toList := by
    rw [List.map_map]
    rfl
  rw [MethodCall.text, denotes.texts, callChars, argumentChars, parts, listed]
  simp [String.toList_intercalate]

theorem stable_string (text : String) : ∃ depth, Json.ReadsBack depth (.string text) :=
  ⟨0, .string text⟩

def countValue (count : UInt64) : Json :=
  .number (.integer count.toNat)

theorem literal_countValue (count : UInt64) : literal (countValue count) = toString count := by
  rw [countValue, literal, Json.Number.text, Json.Number.chars, ← String.toList_inj, String.toList_ofList,
    Text.toList_count]
  rfl

theorem stable_countValue (count : UInt64) : ∃ depth, Json.ReadsBack depth (countValue count) := by
  have small : count.toNat ≤ Json.greatestWord := Nat.le_of_lt_succ (UInt64.toNat_lt_size count)
  exact ⟨0, .number (Json.ofText?_toDigits small)⟩

/-- The last argument for some options; none when there are none. -/
def optionValues (options : List (String × Json)) : List Json :=
  if options.isEmpty then [] else [.object options]

theorem optionsArgument_literals {options : List (String × Json)}
    (plain : ∀ option ∈ options, isPlainKey option.1 = true) :
    optionsArgument (options.map fun option => (option.1, literal option.2)) =
      (optionValues options).map literal := by
  have texts : ∀ option ∈ options, keyLiteral option.1 = option.1 := fun option member => by
    rw [keyLiteral, if_pos (plain option member)]
  have fields : fieldLiterals options = options.map fun option => option.1 ++ ": " ++ literal option.2 := by
    clear plain
    induction options with
    | nil => rw [fieldLiterals]; rfl
    | cons option rest induction =>
        obtain ⟨key, value⟩ := option
        rw [fieldLiterals, texts (key, value) (by simp), induction fun other member => texts other (by simp [member])]
        rfl
  cases options with
  | nil => rfl
  | cons option rest =>
      rw [optionsArgument, optionValues, if_neg (by simp), if_neg (by simp), List.map_singleton, literal,
        fields, List.map_map]
      rfl

def isOptionValue : Json → Bool
  | .bool _ | .string _ => true
  | _ => false

theorem stable_optionValue {value : Json} (simple : isOptionValue value = true) :
    ∃ depth, Json.ReadsBack depth value := by
  cases value with
  | bool value => exact ⟨0, .bool value⟩
  | string text => exact stable_string text
  | _ => cases simple

/-- Options that are read back as they are written. -/
structure AreOptions (options : List (String × Json)) : Prop where
  plain : ∀ option ∈ options, isPlainKey option.1 = true
  distinct : (Json.Row.keys options).Nodup
  simple : ∀ option ∈ options, isOptionValue option.2 = true

theorem AreOptions.stable_values {options : List (String × Json)} (known : AreOptions options) :
    ∀ value ∈ optionValues options, ∃ depth, Json.ReadsBack depth value := by
  intro value member
  rw [optionValues] at member
  split at member
  · cases member
  · have some : ∀ item ∈ options.map Prod.snd, ∃ depth, Json.ReadsBack depth item := by
      intro item listed
      obtain ⟨option, inside, rfl⟩ := List.mem_map.mp listed
      exact stable_optionValue (known.simple option inside)
    obtain ⟨depth, common⟩ := Json.ReadsBack.common some
    rw [List.mem_singleton.mp member]
    exact ⟨depth + 1, .object known.distinct fun option listed => common option.2 (List.mem_map_of_mem listed)⟩

theorem classify_method {method : String} (other : Operator.ofMethod? method = none) (values : List Json) :
    Call.classify method values = Call.ofMethod method { method, values } := by
  rw [Call.classify, other]

theorem means_of_values {method : String} (values : List Json) (full : method ≠ "")
    (named : ∀ c ∈ method.toList, isNameCharacter c = true)
    (stable : ∀ value ∈ values, ∃ depth, Json.ReadsBack depth value)
    (classified : Call.classify method values = .ok meaning) :
    Means { method, arguments := values.map literal } meaning :=
  ⟨values, ⟨full, named, rfl, stable⟩, classified⟩

/-- A call with options behind its first arguments means what its values mean. -/
theorem means_of_options {method : String} {options : List (String × Json)}
    (full : method ≠ "") (named : ∀ c ∈ method.toList, isNameCharacter c = true)
    (stable : ∀ value ∈ values, ∃ depth, Json.ReadsBack depth value) (known : AreOptions options)
    (classified : Call.classify method (values ++ optionValues options) = .ok meaning) :
    Means { method, arguments := values.map literal ++
      optionsArgument (options.map fun option => (option.1, literal option.2)) } meaning := by
  refine ⟨values ++ optionValues options, ⟨full, named, ?_, ?_⟩, classified⟩
  · rw [List.map_append, optionsArgument_literals known.plain]
  · intro value member
    rcases List.mem_append.mp member with front | back
    · exact stable value front
    · exact known.stable_values value back

def orderOptions (table : Option String) (item : OrderItem) : List (String × Json) :=
  (if item.descending then [("ascending", .bool false)] else []) ++
    (match item.nulls with
      | some .first => [("nullsFirst", .bool true)]
      | some .last => [("nullsFirst", .bool false)]
      | none => []) ++
    (table.map fun name => ("referencedTable", Json.string name)).toList

theorem orderOptions_known (table : Option String) (item : OrderItem) :
    AreOptions (orderOptions table item) := by
  obtain ⟨column, descending, nulls⟩ := item
  refine ⟨?_, ?_, ?_⟩ <;> rcases descending with _ | _ <;> rcases nulls with _ | _ | _ <;>
    rcases table with _ | name <;> simp [orderOptions, Json.Row.keys, isOptionValue] <;> decide

theorem means_order (table : Option String) (item : OrderItem) :
    Means (orderCall table item) (.order item.column (!item.descending)
      (item.nulls.map fun nulls => nulls == .first) table) := by
  have written : orderCall table item = {
      method := "order"
      arguments := [Json.string item.column].map literal ++
        optionsArgument ((orderOptions table item).map fun option => (option.1, literal option.2)) } := by
    obtain ⟨column, descending, nulls⟩ := item
    rcases descending with _ | _ <;> rcases nulls with _ | _ | _ <;> rcases table with _ | name <;>
      simp [orderCall, orderOptions, literal]
  rw [written]
  refine means_of_options (by decide) (by decide) ?_ (orderOptions_known table item) ?_
  · intro value member
    rw [List.mem_singleton.mp member]
    exact stable_string item.column
  · rw [classify_method (by decide)]
    obtain ⟨column, descending, nulls⟩ := item
    rcases descending with _ | _ <;> rcases nulls with _ | _ | _ <;> rcases table with _ | name <;> rfl

theorem toUnsigned?_count (count : UInt64) :
    Json.Number.toUnsigned? (.integer count.toNat) = some count := by
  have small : (count.toNat : Int).toNat < UInt64.size := UInt64.toNat_lt_size count
  rw [Json.Number.toUnsigned?, if_pos ⟨Int.natCast_nonneg _, small⟩, Int.toNat_natCast, UInt64.ofNat_toNat]

theorem count_number {arguments : Arguments} {index : Nat} {value : Json.Number} {count : UInt64}
    (whole : value.toUnsigned? = some count) (found : arguments.values[index]? = some (.number value)) :
    arguments.count index = .ok count := by
  rw [Arguments.count, Arguments.value, found]
  simp only [ok_bind, whole]
  rfl

theorem count_countValue {arguments : Arguments} {index : Nat} {count : UInt64}
    (found : arguments.values[index]? = some (countValue count)) : arguments.count index = .ok count :=
  count_number (toUnsigned?_count count) found

def tableOptions (table : Option String) : List (String × Json) :=
  (table.map fun name => ("referencedTable", Json.string name)).toList

theorem tableOptions_known (table : Option String) : AreOptions (tableOptions table) := by
  refine ⟨?_, ?_, ?_⟩ <;> rcases table with _ | name <;>
    simp [tableOptions, Json.Row.keys, isOptionValue]
  decide

theorem means_limit (limit : UInt64) (table : Option String) :
    Means { method := "limit", arguments := toString limit ::
      optionsArgument (table.map fun name => ("referencedTable", stringLiteral name)).toList }
      (.limit limit table) := by
  have written : toString limit ::
      optionsArgument (table.map fun name => ("referencedTable", stringLiteral name)).toList =
      [countValue limit].map literal ++
        optionsArgument ((tableOptions table).map fun option => (option.1, literal option.2)) := by
    rw [List.map_singleton, literal_countValue]
    rcases table with _ | name
    · rfl
    · change _ = [toString limit] ++ optionsArgument [("referencedTable", literal (.string name))]
      rw [literal]
      rfl
  rw [written]
  refine means_of_options (by decide) (by decide) ?_ (tableOptions_known table) ?_
  · intro value member
    rw [List.mem_singleton.mp member]
    exact stable_countValue limit
  · have counted : Arguments.count
        { method := "limit", values := [countValue limit] ++ optionValues (tableOptions table) } 0 =
          .ok limit := count_countValue rfl
    rw [classify_method (by decide)]
    change (Arguments.count _ 0 >>= fun _ => _) = _
    rw [counted, ok_bind]
    rcases table with _ | name <;> rfl

theorem means_range (first last : UInt64) : Means (rangeCall first last) (.range first last none) := by
  have written : rangeCall first last =
      { method := "range", arguments := [countValue first, countValue last].map literal } := by
    rw [List.map_cons, List.map_singleton, literal_countValue, literal_countValue]
    rfl
  rw [written]
  refine means_of_values _ (by decide) (by decide) ?_ ?_
  · intro value member
    simp only [List.mem_cons, List.not_mem_nil, or_false] at member
    rcases member with rfl | rfl
    · exact stable_countValue first
    · exact stable_countValue last
  · have firstCount : Arguments.count
        { method := "range", values := [countValue first, countValue last] } 0 = .ok first :=
      count_countValue rfl
    have lastCount : Arguments.count
        { method := "range", values := [countValue first, countValue last] } 1 = .ok last :=
      count_countValue rfl
    rw [classify_method (by decide)]
    change (Arguments.count _ 0 >>= fun _ => Arguments.count _ 1 >>= fun _ => _) = _
    rw [firstCount, ok_bind, lastCount, ok_bind]
    rfl

theorem means_single : Means { method := "single" } .single :=
  means_of_values [] (by decide) (by decide) (List.forall_mem_nil _) rfl

theorem means_maybeSingle : Means { method := "maybeSingle" } .maybeSingle :=
  means_of_values [] (by decide) (by decide) (List.forall_mem_nil _) rfl

theorem means_delete : Means { method := "delete" } .delete :=
  means_of_values [] (by decide) (by decide) (List.forall_mem_nil _) rfl

/-- The bodies that hold rows. -/
inductive IsRows : Body → Prop where
  | single (row : Json.Row) : IsRows (.single row)
  | bulk (rows : List Json.Row) : IsRows (.bulk rows)

theorem mapM_rows (arguments : Arguments) (rows : List Json.Row) :
    (rows.map Json.object).mapM (fun
      | .object row => .ok row
      | other => arguments.wrong 0 "an object or an array of objects" other : Json → Outcome Json.Row) =
      .ok rows :=
  mapM_ok fun _ _ => rfl

theorem rowsArgument_toJson {arguments : Arguments} {body : Body} (rows : IsRows body)
    (found : arguments.values[0]? = some body.toJson) : Call.rowsArgument arguments = .ok body := by
  cases rows with
  | single row =>
      rw [Call.rowsArgument, Arguments.value, found]
      rfl
  | bulk rows =>
      rw [Call.rowsArgument, Arguments.value, found]
      exact congrArg (· >>= fun rows => pure (Body.bulk rows)) (mapM_rows arguments rows)

theorem means_insert {body : Body} (rows : IsRows body)
    (stable : ∃ depth, Json.ReadsBack depth body.toJson) :
    Means { method := "insert", arguments := [literal body.toJson] } (.insert body) := by
  refine means_of_values [body.toJson] (by decide) (by decide) ?_ ?_
  · intro value member
    rw [List.mem_singleton.mp member]
    exact stable
  · have found : Call.rowsArgument { method := "insert", values := [body.toJson] } = .ok body :=
      rowsArgument_toJson rows rfl
    rw [classify_method (by decide)]
    change (Call.rowsArgument _ >>= fun _ => _) = _
    rw [found, ok_bind]
    rfl

def conflictOptions (query : Query) : List (String × Json) :=
  (query.onConflict.map fun target => ("onConflict", Json.string target)).toList ++
    if query.ignoreDuplicates then [("ignoreDuplicates", .bool true)] else []

theorem means_upsert {query : Query} {body : Body} (rows : IsRows body)
    (stable : ∃ depth, Json.ReadsBack depth body.toJson) :
    Means { method := "upsert", arguments := literal body.toJson :: optionsArgument (upsertOptions query) }
      (.upsert body query.onConflict query.ignoreDuplicates) := by
  have written : literal body.toJson :: optionsArgument (upsertOptions query) =
      [body.toJson].map literal ++
        optionsArgument ((conflictOptions query).map fun option => (option.1, literal option.2)) := by
    rw [List.map_singleton, upsertOptions, conflictOptions]
    cases query.onConflict <;> cases query.ignoreDuplicates <;> simp [literal]
  have known : AreOptions (conflictOptions query) := by
    unfold conflictOptions
    refine ⟨?_, ?_, ?_⟩ <;> cases query.onConflict <;> cases query.ignoreDuplicates <;>
      simp [Json.Row.keys, isOptionValue] <;> decide
  rw [written]
  refine means_of_options (by decide) (by decide) ?_ known ?_
  · intro value member
    rw [List.mem_singleton.mp member]
    exact stable
  · have found : Call.rowsArgument
        { method := "upsert", values := [body.toJson] ++ optionValues (conflictOptions query) } = .ok body :=
      rowsArgument_toJson rows rfl
    rw [classify_method (by decide)]
    change (Call.rowsArgument _ >>= fun _ => _) = _
    rw [found, ok_bind]
    unfold conflictOptions
    cases query.onConflict <;> cases query.ignoreDuplicates <;> rfl

theorem means_update {row : Json.Row} (stable : ∃ depth, Json.ReadsBack depth (.object row)) :
    Means { method := "update", arguments := [literal (.object row)] } (.update row) := by
  refine means_of_values [.object row] (by decide) (by decide) ?_ rfl
  intro value member
  rw [List.mem_singleton.mp member]
  exact stable

def readList (query : Query) : String :=
  if selectsOnlyAll query then "*" else query.selectList

def countOptions (query : Query) : List (String × Json) :=
  (query.count.map fun mode => ("count", Json.string mode.word)).toList ++
    if query.head then [("head", .bool true)] else []

theorem countOptions_known (query : Query) : AreOptions (countOptions query) := by
  unfold countOptions
  refine ⟨?_, ?_, ?_⟩ <;> cases query.count <;> cases query.head <;>
    simp [Json.Row.keys, isOptionValue] <;> decide

theorem classify_selectAll : Call.classify "select" [] = .ok (.select "*" none false) :=
  rfl

theorem means_selectList (query : Query) (list : String) :
    Means { method := "select", arguments := stringLiteral list ::
      optionsArgument ((countOptions query).map fun option => (option.1, literal option.2)) }
      (.select list query.count query.head) := by
  have written : stringLiteral list ::
      optionsArgument ((countOptions query).map fun option => (option.1, literal option.2)) =
      [Json.string list].map literal ++
        optionsArgument ((countOptions query).map fun option => (option.1, literal option.2)) := by
    rw [List.map_singleton, literal]
    rfl
  rw [written]
  refine means_of_options (by decide) (by decide) ?_ (countOptions_known query) ?_
  · intro value member
    rw [List.mem_singleton.mp member]
    exact stable_string list
  · unfold countOptions
    rw [classify_method (by decide)]
    rcases query.count with _ | mode
    · cases query.head <;> rfl
    · cases mode <;> cases query.head <;> rfl

theorem means_select (query : Query) :
    Means (selectCall query) (.select (readList query) query.count query.head) := by
  have options : countOption query ++ headOption query =
      (countOptions query).map fun option => (option.1, literal option.2) := by
    unfold countOption headOption countOptions
    cases query.count <;> cases query.head <;> simp [literal]
  rw [selectCall]
  simp only [options]
  split
  · next bare =>
    obtain ⟨all, none⟩ := Bool.and_eq_true_iff.mp bare
    have uncounted : query.count = .none ∧ query.head = false := by
      revert none
      unfold countOptions
      cases query.count <;> cases query.head <;> simp
    rw [readList, if_pos all, uncounted.1, uncounted.2]
    exact means_of_values [] (by decide) (by decide) (List.forall_mem_nil _) classify_selectAll
  · exact means_selectList query (readList query)

theorem means_returning (query : Query) : Means (returningCall query) (.select (readList query) none false) := by
  rw [returningCall, readList]
  split
  · exact means_of_values [] (by decide) (by decide) (List.forall_mem_nil _) classify_selectAll
  · have written : [stringLiteral query.selectList] = [Json.string query.selectList].map literal := by
      rw [List.map_singleton, literal]
    rw [written]
    refine means_of_values _ (by decide) (by decide) ?_ rfl
    intro value member
    rw [List.mem_singleton.mp member]
    exact stable_string query.selectList

end QueryNotation.Chain
