import QueryNotation.Proofs.Rest.Roundtrip
import QueryNotation.Proofs.Rest.Routing

namespace QueryNotation.Rest

/-! # Reading back response modifiers

What answer a query wants stands in the method and in the headers.  The parameters neither look at
it nor change it, so a request with such modifiers is read as the one without them is, and the
modifiers are put in afterwards.
-/

open Text

variable {query line : Query} {parsed : Parsed} {bound : Nat} {options : Options}

/-- Take over from a query what only a request line and headers can say. -/
def answering (line : Query) (parsed : Parsed) : Parsed :=
  { parsed with query := { parsed.query with
    operation := line.operation
    range := line.range
    count := line.count
    head := line.head
    single := line.single
    ignoreDuplicates := line.ignoreDuplicates
    returning := line.returning } }

theorem changeEmbed_answering (path : String) (change : Embed → Embed) :
    changeEmbed path change (answering line parsed) = answering line (changeEmbed path change parsed) := by
  unfold changeEmbed answering
  dsimp only
  cases Embed.updateAt? change (Embed.pathNames path) parsed.query.embeds <;> rfl

theorem applyEmbedParam_answering (key path rest value : String) :
    applyEmbedParam bound key path rest value (answering line parsed) =
      (applyEmbedParam bound key path rest value parsed).map (answering line) := by
  unfold applyEmbedParam
  split
  · cases readOrder bound value with
    | error fault => rfl
    | ok items => exact congrArg Except.ok (changeEmbed_answering path _)
  · split
    · cases readCount key value with
      | error fault => rfl
      | ok count => exact congrArg Except.ok (changeEmbed_answering path _)
    · split
      · rfl
      · split
        · rfl
        · cases readFilter rest value with
          | error fault => rfl
          | ok filter => exact congrArg Except.ok (changeEmbed_answering path _)

theorem applyPlainParam_answering (key value : String) :
    applyPlainParam bound key value (answering line parsed) =
      (applyPlainParam bound key value parsed).map (answering line) := by
  -- The reserved keys one by one; any other key goes to a filter, and filters look at the embeds only.
  by_cases reserved : key ∈ reservedKeys
  · simp only [reservedKeys, List.mem_cons, List.not_mem_nil, or_false] at reserved
    rcases reserved with rfl | rfl | rfl | rfl | rfl | rfl
    · rw [applyPlainParam, applyPlainParam]
      cases readCount "limit" value <;> rfl
    · rw [applyPlainParam, applyPlainParam]
      cases readCount "offset" value <;> rfl
    · rw [applyPlainParam, applyPlainParam]
      cases readOrder bound value <;> rfl
    · rfl
    · rfl
    · rfl
  · cases logic : isLogicKey key with
    | true =>
        rw [applyPlainParam_logic logic, applyPlainParam_logic logic]
        rfl
    | false =>
        cases found : embedPath? parsed.query.embeds key with
        | some both =>
            have same : embedPath? (answering line parsed).query.embeds key = some both := found
            rw [applyPlainParam_embed reserved logic found, applyPlainParam_embed reserved logic same,
              applyEmbedParam_answering]
        | none =>
            have same : embedPath? (answering line parsed).query.embeds key = none := found
            rw [applyPlainParam_alone reserved logic found, applyPlainParam_alone reserved logic same]
            cases readFilter key value <;> rfl

theorem applyParam_answering (line : Query) (parsed : Parsed) (pair : String × String) :
    applyParam bound (answering line parsed) pair = (applyParam bound parsed pair).map (answering line) := by
  unfold applyParam
  cases reservedFilter? bound pair.1 pair.2 with
  | some filter => rfl
  | none => exact applyPlainParam_answering pair.1 pair.2

/-- Parameters neither look at what the request line and the headers say nor change it. -/
theorem foldlM_answering (line : Query) (parsed : Parsed) (pairs : List (String × String)) :
    pairs.foldlM (applyParam bound) (answering line parsed) =
      (pairs.foldlM (applyParam bound) parsed).map (answering line) := by
  induction pairs generalizing parsed with
  | nil => rfl
  | cons pair rest induction =>
      rw [List.foldlM_cons, List.foldlM_cons, applyParam_answering]
      cases applyParam bound parsed pair with
      | error fault => rfl
      | ok next => exact induction next

def lineOf (query : Query) : Query :=
  { table := query.table, operation := lineOperation query.operation, head := query.head }

def unmodified (query : Query) : Query :=
  { query with count := none, head := false, single := none }

/-- The wish for a single object as a request tells it.  A mutation that may answer with no row says
the same as one that answers with one. -/
def heardSingle (query : Query) : Option SingleMode :=
  if query.operation.isMutation then query.single.map fun _ => .one else query.single

/-- What was read without modifiers, with the count and the head of a query and with a wish for a single
object and for rows. -/
def modifiedAs (query : Query) (single : Option SingleMode) (returning : Bool) (parsed : Parsed) : Parsed :=
  { parsed with query := { parsed.query with count := query.count, head := query.head, single, returning } }

/-- The response modifiers that stand beside an operation: only a read counts without rows, only a
mutation answers with the rows it changed, and one that wishes for a single object does so. -/
structure FitsModifiers (query : Query) : Prop where
  call : query.operation ≠ .call
  counted : query.head = true → query.operation = .select
  answers : query.returning = true → query.operation.isMutation = true
  single : query.single.isSome = true → query.operation.isMutation = true → query.returning = true

theorem target_unnamed (unnamed : query.table = "" ∨ query.table = "rpc")
    (call : query.operation ≠ .call) :
    target (write query).request.raw = .error (.pathWithoutTable (pathOf query)) := by
  unfold target
  simp only [write, Request.raw, pathOf_table call, localPath_path, ok_bind]
  rcases unnamed with empty | reserved
  · have none : segments ('/' :: percentEncode isEscapedInPath query.table.toList) = [] := by
      rw [empty]
      decide
    simp only [none]
  · rw [segments_path (by rw [reserved]; decide), reserved]
    rfl

/-- The request line of a query is read as it is without the modifiers, but for the method of a read. -/
theorem target_modifiers (fits : FitsModifiers query) :
    (target (write query).request.raw = .ok ⟨lineOperation query.operation, query.table, query.head⟩ ∧
      target (write (unmodified query)).request.raw =
        .ok ⟨lineOperation query.operation, query.table, false⟩) ∨
      ∃ fault, target (write query).request.raw = .error fault ∧
        target (write (unmodified query)).request.raw = .error fault := by
  by_cases unnamed : query.table = "" ∨ query.table = "rpc"
  · exact .inr ⟨_, target_unnamed unnamed fits.call, @target_unnamed (unmodified query) unnamed fits.call⟩
  · rw [not_or] at unnamed
    exact .inl ⟨target_write fits.call unnamed.1 unnamed.2 fits.counted,
      @target_write (unmodified query) fits.call unnamed.1 unnamed.2 (by simp [unmodified])⟩

theorem start_lineOf (query : Query) (pairs : List (String × String)) (head : Bool) :
    start options ⟨lineOperation query.operation, query.table, query.head⟩ pairs =
      (start options ⟨lineOperation query.operation, query.table, head⟩ pairs).map
        (answering (lineOf query)) := by
  unfold start
  cases selectOf? options.maxDepth pairs with
  | some list =>
      dsimp only
      cases Selection.ofText options.maxDepth list <;> rfl
  | none =>
      dsimp only
      split <;> rfl

/-- The headers of a range that runs backwards are refused. -/
theorem applyHeaders_backward {first last : UInt64} (range : query.range = some (first, last))
    (backward : ¬ first ≤ last) :
    applyHeaders (write query).request.raw parsed =
      .error (.invalidRange (toString first ++ "-" ++ toString last)) := by
  have header : (write query).request.raw.header? "Range" =
      some (toString first ++ "-" ++ toString last) := by
    have sent := header_range query
    rw [range] at sent
    exact sent
  unfold applyHeaders
  simp only [header, readRange_bounds, if_neg backward]
  rfl

theorem bodyOf_unmodified (call : query.operation ≠ .call) : bodyOf (unmodified query) = bodyOf query := by
  unfold bodyOf unmodified
  cases operation : query.operation <;> first | rfl | exact absurd operation call

theorem sizeOf_unmodified (call : query.operation ≠ .call) :
    sizeOf (write (unmodified query)).request.raw = sizeOf (write query).request.raw := by
  unfold sizeOf
  simp only [write, Request.raw, bodyOf_unmodified call]
  rfl

theorem applyBody_modifiedAs {single : Option SingleMode} {returning : Bool} (request : RawRequest)
    (parsed : Parsed) : applyBody request (modifiedAs query single returning parsed) =
      (applyBody request parsed).map (modifiedAs query single returning) := by
  have kept : (modifiedAs query single returning parsed).query.operation = parsed.query.operation := rfl
  unfold applyBody
  rw [kept]
  cases request.body with
  | none => rfl
  | some text =>
      dsimp only
      split
      · rfl
      · cases acceptsBody parsed.query.operation (decide (request.method.toUpper = "POST")) with
        | false => rfl
        | true =>
            rw [if_neg (by decide), if_neg (by decide)]
            cases Json.read text.toList with
            | error failure => rfl
            | ok json =>
                dsimp only
                cases readBody parsed.query.operation json <;> rfl

/-- The body of a query is read as it is without the modifiers. -/
theorem applyBody_modifiers {single : Option SingleMode} {returning : Bool} (fits : FitsModifiers query)
    (parsed : Parsed) : applyBody (write query).request.raw (modifiedAs query single returning parsed) =
      (applyBody (write (unmodified query)).request.raw parsed).map (modifiedAs query single returning) := by
  rw [applyBody_modifiedAs]
  refine congrArg (Except.map _) ?_
  have body := bodyOf_unmodified fits.call
  unfold applyBody
  simp only [write, Request.raw, body]
  by_cases select : query.operation = .select
  · rw [show bodyOf query = none by rw [bodyOf, select]]
    rfl
  · have method : methodOf (unmodified query) = methodOf query := by
      unfold methodOf unmodified
      cases operation : query.operation <;>
        first | rfl | exact absurd operation select | exact absurd operation fits.call
    rw [method]
    rfl

/-- A query as its request tells of it.  Where there is no row to answer with, a wish for one or none is
told as one for a single row that is answered with, and only an upsert leaves rows alone. -/
def told (query : Query) : Query :=
  { query with
    single := if query.head then query.single.map fun _ => .one else heardSingle query
    returning := query.returning || (query.head && query.single = some .maybeOne)
    ignoreDuplicates := query.ignoreDuplicates && query.operation = .upsert }

theorem told_of_rows (rows : query.head = true → query.single ≠ some .maybeOne) :
    (told query).single = heardSingle query ∧ (told query).returning = query.returning := by
  cases head : query.head with
  | false => simp [told, head]
  | true =>
      have single := rows head
      cases shape : query.single with
      | none => simp [told, heardSingle, head, shape]
      | some mode =>
          rw [shape] at single
          cases mode with
          | one => simp [told, heardSingle, head, shape]
          | maybeOne => exact absurd rfl single

theorem preferences_told (fits : FitsModifiers query) : preferences (told query) = preferences query := by
  have resolution : (if query.operation = .upsert then
      [if (told query).ignoreDuplicates then "resolution=ignore-duplicates"
        else "resolution=merge-duplicates"] else []) =
      if query.operation = .upsert then
        [if query.ignoreDuplicates then "resolution=ignore-duplicates"
          else "resolution=merge-duplicates"] else [] := by
    split
    · next upsert => simp [told, upsert]
    · rfl
  have answer : ((told query).returning || decide ((told query).single = some .maybeOne)) =
      (query.returning || decide (query.single = some .maybeOne)) := by
    cases shape : query.single with
    | none => simp [told, heardSingle, shape]
    | some mode =>
        cases mutates : query.operation.isMutation with
        | true => simp [told, fits.single (by rw [shape]; rfl) mutates]
        | false => cases head : query.head <;> cases mode <;> simp [told, heardSingle, shape, mutates, head]
  unfold preferences
  show _ ++ (if ((told query).returning || decide ((told query).single = some .maybeOne)) = true then
    ["return=representation"] else []) ++ _ = _
  rw [answer]
  exact congrArg (fun front => front ++ _ ++ _) resolution

theorem request_told (fits : FitsModifiers query) : (write (told query)).request = (write query).request := by
  have wished : (told query).single.isSome = query.single.isSome := by
    unfold told heardSingle
    cases query.single with
    | none => simp
    | some mode => cases query.head <;> cases query.operation.isMutation <;> rfl
  have sends : sendsSelect (told query) = sendsSelect query := by
    unfold sendsSelect
    by_cases select : query.operation = .select
    · rw [show (told query).operation = .select from select, select]
      rfl
    · -- Only a mutation looks at what it answers with, and no mutation is sent without rows.
      have head : query.head = false := by
        cases head : query.head with
        | false => rfl
        | true => exact absurd (fits.counted head) select
      rw [show (told query).returning = query.returning by simp [told, head]]
      rfl
  have parameters : params (told query) = params query := by
    unfold params
    rw [sends]
    rfl
  have header : headers (told query) = headers query := by
    unfold headers
    rw [preferences_told fits, wished]
    rfl
  unfold write
  rw [header, parameters]
  rfl

theorem fitsSingle_told (fits : FitsModifiers query) : FitsSingle (told query) where
  one _ := by
    rintro ⟨select, head, returning⟩
    have head : query.head = false := head
    have mutates := fits.answers (by simpa [told, head] using returning)
    rw [show query.operation = .select from select] at mutates
    cases mutates
  maybeOne wished := by
    have head : query.head = false := by
      cases head : query.head with
      | false => rfl
      | true => cases shape : query.single <;> simp [told, head, shape] at wished
    have reads : query.operation.isMutation = false := by
      cases mutates : query.operation.isMutation with
      | false => rfl
      | true => cases shape : query.single <;> simp [told, heardSingle, head, mutates, shape] at wished
    have select : query.operation = .select := by
      have call := fits.call
      cases operation : query.operation <;>
        first | rfl | exact absurd operation call | (rw [operation] at reads; cases reads)
    refine ⟨select, head, ?_⟩
    cases returning : query.returning with
    | false => simp [told, returning, head]
    | true => rw [fits.answers returning] at reads; cases reads

/-- The headers are read back over whatever the parameters gave. -/
theorem applyHeaders_answering (fits : FitsModifiers query)
    (ordered : ∀ range ∈ query.range, range.1 ≤ range.2) (parsed : Parsed) :
    applyHeaders (write query).request.raw (answering (lineOf query) parsed) =
      .ok (answering (told query) parsed) := by
  rw [← request_told fits]
  refine applyHeaders_write (fitsSingle_told fits) ?_ ordered rfl rfl rfl rfl rfl rfl
  intro ignoring
  simp only [told, Bool.and_eq_true, decide_eq_true_eq] at ignoring
  exact ignoring.2

theorem fits_unmodified (fits : FitsModifiers query) : FitsModifiers (unmodified query) where
  call := fits.call
  counted := by simp [unmodified]
  answers := fits.answers
  single := by simp [unmodified]

/-- The headers and the body of a query are read as they are without the modifiers. -/
theorem applyRest_modifiers (fits : FitsModifiers query) (parsed : Parsed) :
    (applyHeaders (write query).request.raw (answering (lineOf query) parsed) >>=
        applyBody (write query).request.raw) =
      (applyHeaders (write (unmodified query)).request.raw
        (answering (lineOf (unmodified query)) parsed) >>=
          applyBody (write (unmodified query)).request.raw).map
            (modifiedAs query (told query).single (told query).returning) := by
  by_cases ordered : ∀ range ∈ query.range, range.1 ≤ range.2
  · rw [applyHeaders_answering fits ordered, applyHeaders_answering (fits_unmodified fits) ordered,
      ok_bind, ok_bind, ← applyBody_modifiers fits]
    rfl
  · push Not at ordered
    obtain ⟨⟨first, last⟩, range, backward⟩ := ordered
    rw [applyHeaders_backward range backward, @applyHeaders_backward (unmodified query) _ _ _ range backward]
    rfl

/-- A request with modifiers is read as the one without them is, and refused when that is. -/
theorem read_unmodified (options : Options) (fits : FitsModifiers query) :
    read options (write query).request.raw =
      (read options (write (unmodified query)).request.raw).map
        (modifiedAs query (told query).single (told query).returning) := by
  have same : params (unmodified query) = params query := rfl
  unfold read
  rw [sizeOf_unmodified fits.call, decode_write, decode_write, same]
  cases options.checkSize (sizeOf (write query).request.raw) with
  | error fault => rfl
  | ok small =>
      rcases target_modifiers fits with ⟨asked, wanted⟩ | ⟨fault, asked, wanted⟩
      · have line := @start_lineOf options query (params query) false
        have plain := @start_lineOf options (unmodified query) (params query) false
        simp only [ok_bind, asked, wanted, line]
        cases started : start options ⟨lineOperation query.operation, query.table, false⟩
            (params query) with
        | error fault => rfl
        | ok parsed =>
            -- Without modifiers, what the request line says is what was there before.
            have kept : parsed = answering (lineOf (unmodified query)) parsed :=
              Except.ok.inj (started.symm.trans (plain.trans (congrArg (Except.map _) started)))
            have folded := @foldlM_answering options.maxDepth (lineOf (unmodified query)) parsed
              (params query)
            rw [← kept] at folded
            show ((params query).foldlM (applyParam options.maxDepth) (answering (lineOf query) parsed) >>=
              _) = _
            rw [foldlM_answering, ok_bind]
            cases settled : (params query).foldlM (applyParam options.maxDepth) parsed with
            | error fault => rfl
            | ok next =>
                rw [settled] at folded
                have same : next = answering (lineOf (unmodified query)) next := Except.ok.inj folded
                have finished := applyRest_modifiers fits next
                rw [← same] at finished
                exact finished
      · rw [asked, wanted]
        rfl

/-- The count and the head of a query come back from every request that is accepted without them,
whatever else it says.  So do the single object and whether it answers with rows, unless it is a read
without rows that wishes for one row or none; only a mutation that may answer with no row comes back as
one that answers with one.  What a request says in full is accepted. -/
theorem read_modifiers (options : Options) (fits : FitsModifiers query) :
    ∃ single returning,
      ((query.head = true → query.single ≠ some .maybeOne) →
        single = heardSingle query ∧ returning = query.returning) ∧
      read options (write query).request.raw =
        (read options (write (unmodified query)).request.raw).map (modifiedAs query single returning) ∧
      (FitsRequest (unmodified query) → sizeOf (write query).request.raw ≤ options.maxInputLength →
        Embed.greatestDepth query.embeds ≤ options.maxDepth →
        read options (write query).request.raw = .ok { query := { query with single, returning } }) := by
  have same := read_unmodified options fits
  refine ⟨(told query).single, (told query).returning, told_of_rows, same, fun full small shallow => ?_⟩
  rw [← sizeOf_unmodified fits.call] at small
  rw [same, read_write full small shallow]
  rfl

/-- The deletion of one row, which may not be there. -/
def deletedRow : Query := {
  table := "users"
  operation := .delete
  filters := [{ column := "id", op := .eq, value := .number "1" }]
  count := some .exact
  single := some .maybeOne
  returning := true }

theorem deletedRow_modifiers : FitsModifiers deletedRow :=
  ⟨by decide, by decide, by decide, by decide⟩

/-- The count of the rows of a table, which may be none. -/
def countedRows : Query := {
  table := "users"
  operation := .select
  columns := [.star]
  count := some .exact
  head := true
  single := some .maybeOne }

theorem countedRows_modifiers : FitsModifiers countedRows :=
  ⟨by decide, by decide, by decide, by decide⟩

/-- A mutation that may answer with no row comes back as one that answers with one, and so does a read
without rows. -/
theorem maybeOne_unheard :
    (deletedRow.operation, deletedRow.head, deletedRow.returning, deletedRow.single) =
        (.delete, false, true, some .maybeOne) ∧
      (read {} (write deletedRow).request.raw).map (fun parsed =>
        (parsed.query.single, parsed.query.returning)) = .ok (some .one, true) ∧
      (countedRows.operation, countedRows.head, countedRows.returning, countedRows.single) =
        (.select, true, false, some .maybeOne) ∧
      (read {} (write countedRows).request.raw).map (fun parsed =>
        (parsed.query.single, parsed.query.returning)) = .ok (some .one, true) := by
  refine ⟨rfl, ?_, rfl, ?_⟩ <;> decide +kernel

/-- The deletion of a row comes back as the one that answers with a row, and a count without rows comes back
as a count. -/
theorem read_modifiers_deletion : FitsModifiers deletedRow ∧
    sizeOf (write deletedRow).request.raw ≤ 65536 ∧
    read {} (write deletedRow).request.raw =
      .ok { query := { deletedRow with single := some .one } } ∧
    FitsModifiers countedRows ∧
    (read {} (write countedRows).request.raw).map (fun parsed => (parsed.query.count, parsed.query.head)) =
      .ok (some .exact, true) := by
  have full : FitsRequest (unmodified deletedRow) := {
    call := by decide
    named := by decide
    plain := by decide
    columns := List.forall_mem_nil _
    embeds := List.forall_mem_nil _
    distinct := by decide
    below := List.forall_mem_nil _
    filters := by
      intro filter member
      rw [List.mem_singleton.mp member]
      exact ⟨⟨rfl, show isNumeric "1" = true by decide, by simp⟩, by decide, by decide⟩
    order := List.forall_mem_nil _
    range := by simp [unmodified, deletedRow]
    body := .none
    counted := by decide
    single := ⟨by decide, by decide⟩
    full := by decide
    silent := by decide
    whole := by decide
    target := by decide
    unread := by simp [unmodified, deletedRow]
    upserts := by decide }
  have small : sizeOf (write deletedRow).request.raw ≤ 65536 := by decide +kernel
  have plain : (read {} (write (unmodified countedRows)).request.raw).map (fun _ => ()) = .ok () := by decide +kernel
  obtain ⟨single, returning, heard, _, accepted⟩ := read_modifiers {} deletedRow_modifiers
  obtain ⟨rfl, rfl⟩ := heard (by decide)
  obtain ⟨_, _, _, counted, _⟩ := read_modifiers {} countedRows_modifiers
  obtain ⟨parsed, read, _⟩ := ok_of_map plain
  refine ⟨deletedRow_modifiers, small, accepted full small (by decide), countedRows_modifiers, ?_⟩
  rw [counted, read]
  rfl

end QueryNotation.Rest
