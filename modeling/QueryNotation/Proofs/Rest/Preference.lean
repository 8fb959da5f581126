import QueryNotation.Proofs.Rest.Edit
import QueryNotation.Proofs.Rest.Frame
import QueryNotation.Proofs.Rest.Header

namespace QueryNotation

/-! # Preferences in several headers

What a request prefers may stand in one header, or in several with the same name, which say the same as
one with their values between commas.  Only the first of them is looked at.  So the preferences behind it
are heard exactly if they ask for nothing that the first does not say.
-/

open Text

namespace Headers

variable {headers : Headers} {key name other : String}

def without (name : String) (headers : Headers) : Headers :=
  headers.filter fun (key, _) => !sameName key name

def joined (name : String) : Headers → Headers
  | [] => []
  | (key, value) :: rest =>
    if sameName key name then (key, String.intercalate "," (value :: values name rest)) :: without name rest
    else (key, value) :: joined name rest

def single (name : String) : Headers → Headers
  | [] => []
  | (key, value) :: rest =>
    if sameName key name then (key, value) :: without name rest else (key, value) :: single name rest

theorem without_cons (key value : String) (rest : Headers) (name : String) :
    without name ((key, value) :: rest) =
      if sameName key name then without name rest else (key, value) :: without name rest := by
  cases same : sameName key name <;> simp [without, same]

theorem get?_without (apart : sameName name other = false) (headers : Headers) :
    (headers.without name).get? other = headers.get? other := by
  induction headers with
  | nil => rfl
  | cons header rest induction =>
      obtain ⟨key, value⟩ := header
      rw [without_cons, get?_cons]
      split
      · next same => rw [induction, sameName_congr same, apart, if_neg Bool.false_ne_true]
      · rw [get?_cons, induction]

theorem get?_joined_other (apart : sameName name other = false) (headers : Headers) :
    (headers.joined name).get? other = headers.get? other := by
  induction headers with
  | nil => rfl
  | cons header rest induction =>
      obtain ⟨key, value⟩ := header
      rw [joined, get?_cons]
      split
      · next same => rw [get?_cons, get?_without apart, sameName_congr same, apart]; rfl
      · rw [get?_cons, induction]

theorem get?_joined (name : String) (headers : Headers) :
    (headers.joined name).get? name =
      if headers.values name = [] then none else some (String.intercalate "," (headers.values name)) := by
  induction headers with
  | nil => rfl
  | cons header rest induction =>
      obtain ⟨key, value⟩ := header
      rw [joined, values_cons]
      split
      · next same => rw [get?_cons, same, if_pos rfl, if_neg (List.cons_ne_nil _ _)]
      · next apart => rw [get?_cons, if_neg apart, induction]

/-- The headers behind the first one of a name are not looked at. -/
theorem get?_single (name other : String) (headers : Headers) :
    (headers.single name).get? other = headers.get? other := by
  induction headers with
  | nil => rfl
  | cons header rest induction =>
      obtain ⟨key, value⟩ := header
      rw [single, get?_cons]
      split
      · next same =>
        rw [get?_cons]
        cases here : sameName key other with
        | true => rfl
        | false => exact get?_without (sameName_congr same other ▸ here) rest
      · rw [get?_cons, induction]

end Headers

namespace Rest

variable {preference : List Char} {preferences first later : List (List Char)} {isPost : Bool}
  {one two before after : Parsed}

/-- What a preference asks for. -/
inductive Wish where
  /-- Rows that are there already are merged, or ignored. -/
  | resolution (ignoring : Bool)
  | count (mode : CountMode)
  /-- The answer has the rows. -/
  | rows
  /-- Nothing that a query can say. -/
  | usual
  /-- Nothing that is known; this is said of it. -/
  | unknown (said : String)
deriving DecidableEq, Repr

namespace Wish

def ofText (preference : List Char) : Wish :=
  let (name, value) := (cutFirst '=' preference).getD (preference, [])
  match String.ofList (trim name), String.ofList (trim value) with
  | "resolution", "merge-duplicates" => .resolution false
  | "resolution", "ignore-duplicates" => .resolution true
  | "count", word =>
    match CountMode.ofWord? word with
    | some mode => .count mode
    | none => .unknown ("unknown count mode '" ++ word ++ "'")
  | "return", "representation" => .rows
  | "return", "minimal" | "return", "headers-only" | "missing", _ | "tx", _ => .usual
  | _, _ => .unknown ("Prefer: " ++ String.ofList preference ++ " ignored")

def apply (isPost : Bool) (preference : List Char) (parsed : Parsed) : Wish → Parsed
  | .resolution ignoring =>
    if isPost && parsed.query.operation = .insert then
      { parsed with query := { parsed.query with operation := .upsert, ignoreDuplicates := ignoring } }
    else parsed.warn ("Prefer: " ++ String.ofList preference ++ " ignored: only POST can upsert")
  | .count mode => { parsed with query := { parsed.query with count := some mode } }
  | .rows => { parsed with query := { parsed.query with returning := true } }
  | .usual => parsed
  | .unknown said => parsed.warn said

def mode? : Wish → Option CountMode
  | .count mode => some mode
  | _ => none

/-- True for a wish that changes the operation or is warned of. -/
def isLoud : Wish → Bool
  | .resolution _ | .unknown _ => true
  | .count _ | .rows | .usual => false

end Wish

theorem applyPreference_eq (isPost : Bool) (parsed : Parsed) (preference : List Char) :
    applyPreference isPost parsed preference = (Wish.ofText preference).apply isPost preference parsed := by
  obtain ⟨⟨name, value⟩, parts⟩ : ∃ cut, cut = (cutFirst '=' preference).getD (preference, []) := ⟨_, rfl⟩
  rw [Wish.ofText, ← parts]
  dsimp only
  -- The wish is told apart first; what each wish says of the texts then picks the step.
  split <;> rw [applyPreference, ← parts] <;> simp only [*]
  · rfl
  · rfl
  · cases CountMode.ofWord? (String.ofList (trim value)) <;> rfl
  all_goals rfl

def asksRows (preferences : List (List Char)) : Bool :=
  preferences.any fun preference => Wish.ofText preference = .rows

def countAsked (preferences : List (List Char)) : Option CountMode :=
  (preferences.filterMap fun preference => (Wish.ofText preference).mode?).getLast?

theorem asksRows_append (first later : List (List Char)) :
    asksRows (first ++ later) = (asksRows first || asksRows later) :=
  List.any_append

theorem countAsked_append (first later : List (List Char)) :
    countAsked (first ++ later) = (countAsked later).or (countAsked first) := by
  rw [countAsked, List.filterMap_append, List.getLast?_append]
  rfl

/-- How much has been warned of, an upsert counted like a warning. -/
def loudness (parsed : Parsed) : Nat :=
  parsed.warnings.length + if parsed.query.operation = .upsert then 1 else 0

theorem loudness_warn (parsed : Parsed) (said : String) : loudness (parsed.warn said) = loudness parsed + 1 := by
  have length : (parsed.warn said).warnings.length = parsed.warnings.length + 1 := List.length_append
  have same : (parsed.warn said).query = parsed.query := rfl
  rw [loudness, loudness, length, same, Nat.add_right_comm]

/-- What some preferences make of what was read before. -/
structure Heard (preferences : List (List Char)) (before after : Parsed) : Prop where
  query : after.query = { before.query with
    operation := after.query.operation
    ignoreDuplicates := after.query.ignoreDuplicates
    returning := before.query.returning || asksRows preferences
    count := (countAsked preferences).or before.query.count }
  operation : after.query.operation = before.query.operation ∨
    before.query.operation = .insert ∧ after.query.operation = .upsert
  loud : loudness after = loudness before + preferences.countP fun preference => (Wish.ofText preference).isLoud
  quiet : (∀ preference ∈ preferences, (Wish.ofText preference).isLoud = false) →
    after.warnings = before.warnings ∧ after.query.operation = before.query.operation ∧
      after.query.ignoreDuplicates = before.query.ignoreDuplicates

theorem Heard.nil (parsed : Parsed) : Heard [] parsed parsed where
  query := by simp [asksRows, countAsked]
  operation := .inl rfl
  loud := rfl
  quiet _ := ⟨rfl, rfl, rfl⟩

theorem Heard.append {between : Parsed} (front : Heard first before between) (back : Heard later between after) :
    Heard (first ++ later) before after where
  query := by
    rw [back.query, front.query, asksRows_append, countAsked_append, Bool.or_assoc, Option.or_assoc]
  operation := by
    rcases back.operation with same | ⟨inserts, upserts⟩
    · rw [same]
      exact front.operation
    · rcases front.operation with kept | ⟨_, other⟩
      · exact .inr ⟨kept ▸ inserts, upserts⟩
      · rw [other] at inserts
        cases inserts
  loud := by rw [back.loud, front.loud, List.countP_append, Nat.add_assoc]
  quiet silent := by
    obtain ⟨warnings, operation, ignoring⟩ := front.quiet fun preference listed =>
      silent preference (List.mem_append_left later listed)
    obtain ⟨warnings', operation', ignoring'⟩ := back.quiet fun preference listed =>
      silent preference (List.mem_append_right first listed)
    exact ⟨warnings'.trans warnings, operation'.trans operation, ignoring'.trans ignoring⟩

theorem heard_applyPreference (isPost : Bool) (parsed : Parsed) (preference : List Char) :
    Heard [preference] parsed (applyPreference isPost parsed preference) := by
  have rows : asksRows [preference] = decide (Wish.ofText preference = .rows) := Bool.or_false _
  have count : countAsked [preference] = (Wish.ofText preference).mode? := by
    cases mode : (Wish.ofText preference).mode? <;> simp [countAsked, mode]
  have loud : ([preference].countP fun preference => (Wish.ofText preference).isLoud) =
      if (Wish.ofText preference).isLoud then 1 else 0 := by
    rw [List.countP_singleton]
  rw [applyPreference_eq]
  cases wish : Wish.ofText preference with
  | resolution ignoring =>
      rw [wish] at rows count loud
      have noisy : ¬ ∀ other ∈ [preference], (Wish.ofText other).isLoud = false := by
        simp [wish, Wish.isLoud]
      rw [Wish.apply]
      split
      · next posts =>
        have inserts : parsed.query.operation = .insert := by simpa using (Bool.and_eq_true_iff.mp posts).2
        refine ⟨?_, .inr ⟨inserts, rfl⟩, ?_, fun silent => absurd silent noisy⟩
        · simp [rows, count, Wish.mode?]
        · rw [loud]
          simp [loudness, inserts, Wish.isLoud]
      · refine ⟨?_, .inl rfl, ?_, fun silent => absurd silent noisy⟩
        · simp [rows, count, Wish.mode?, Parsed.warn]
        · rw [loudness_warn, loud]
          rfl
  | unknown said =>
      rw [wish] at rows count loud
      refine ⟨?_, .inl rfl, ?_, fun silent => ?_⟩
      · simp [rows, count, Wish.mode?, Wish.apply, Parsed.warn]
      · rw [Wish.apply, loudness_warn, loud]
        rfl
      · have quiet := silent preference (List.mem_singleton_self _)
        rw [wish] at quiet
        cases quiet
  | count mode =>
      rw [wish] at rows count loud
      exact ⟨by simp [rows, count, Wish.mode?, Wish.apply], .inl rfl, by rw [loud]; rfl, fun _ => ⟨rfl, rfl, rfl⟩⟩
  | rows =>
      rw [wish] at rows count loud
      exact ⟨by simp [rows, count, Wish.mode?, Wish.apply], .inl rfl, by rw [loud]; rfl, fun _ => ⟨rfl, rfl, rfl⟩⟩
  | usual =>
      rw [wish] at rows count loud
      exact ⟨by simp [rows, count, Wish.mode?, Wish.apply], .inl rfl, by rw [loud]; rfl, fun _ => ⟨rfl, rfl, rfl⟩⟩

theorem heard_foldl (isPost : Bool) (preferences : List (List Char)) (parsed : Parsed) :
    Heard preferences parsed (preferences.foldl (applyPreference isPost) parsed) := by
  induction preferences generalizing parsed with
  | nil => exact .nil parsed
  | cons preference rest induction => exact (heard_applyPreference isPost parsed preference).append (induction _)

/-- Some preferences ask for nothing that others before them do not ask for: no wish of theirs is loud, they
ask for the rows only if the others do, and for a count only if it is that of the others. -/
structure AddsNothing (first later : List (List Char)) : Prop where
  quiet : ∀ preference ∈ later, (Wish.ofText preference).isLoud = false
  rows : asksRows later = true → asksRows first = true
  count : ∀ mode, countAsked later = some mode → countAsked first = some mode

/-- Preferences change nothing exactly if they add nothing to those that were heard before. -/
theorem Heard.unchanged_iff {start heard whole : Parsed} (front : Heard first start heard)
    (back : Heard later heard whole) (silent : start.query.returning = false) (uncounted : start.query.count = none) :
    whole = heard ↔ AddsNothing first later := by
  have rows : heard.query.returning = asksRows first := by
    rw [front.query, silent, Bool.false_or]
  have count : heard.query.count = countAsked first := by
    rw [front.query, uncounted, Option.or_none]
  constructor
  · rintro rfl
    have loud := back.loud
    have same := back.query
    have answered := congrArg Query.returning same
    have counted := congrArg Query.count same
    simp only [rows, count] at answered counted
    refine ⟨fun preference listed => ?_, fun asked => ?_, fun mode asked => ?_⟩
    -- The counts of what is loud agree, so the later preferences have none.
    · have none : later.countP (fun preference => (Wish.ofText preference).isLoud) = 0 := by omega
      simpa using List.countP_eq_zero.mp none preference listed
    · rw [answered, asked, Bool.or_true]
    · rw [counted, asked, Option.some_or]
  · intro adds
    obtain ⟨warnings, operation, ignoring⟩ := back.quiet adds.quiet
    have answered : (heard.query.returning || asksRows later) = heard.query.returning := by
      cases asked : asksRows later with
      | false => exact Bool.or_false _
      | true => rw [rows, adds.rows asked]; rfl
    have counted : (countAsked later).or heard.query.count = heard.query.count := by
      cases asked : countAsked later with
      | none => exact Option.none_or
      | some mode => rw [count, adds.count mode asked]; rfl
    have same := back.query
    rw [operation, ignoring, answered, counted] at same
    obtain ⟨query, said⟩ := whole
    obtain rfl : query = heard.query := same
    obtain rfl : said = heard.warnings := warnings
    rfl

def readLine (options : Options) (request : RawRequest) : Outcome Parsed := do
  options.checkSize (sizeOf request)
  let asked ← target request
  let pairs := QueryString.decode request.query
  let parsed ← start options asked pairs
  pairs.foldlM (applyParam options.maxDepth) parsed

/-- Read the range, the wish for a single object and the body. -/
def finish (request : RawRequest) (preferred : Parsed) : Outcome Parsed :=
  match request.header? "Range" with
  | some text => do
    let range ← readRange text
    applyBody request (accept request { preferred with query := { preferred.query with range := some range } })
  | none => applyBody request (accept request preferred)

theorem finish_prefer (request : RawRequest) (parsed : Parsed) :
    (applyHeaders request parsed >>= applyBody request) = finish request (prefer request parsed) := by
  rw [applyHeaders_eq]
  unfold putRange finish
  cases request.header? "Range" with
  | none => rfl
  | some text =>
      dsimp only
      cases readRange text <;> rfl

theorem read_eq (options : Options) (request : RawRequest) :
    read options request = readLine options request >>= fun parsed => finish request (prefer request parsed) := by
  simp only [read, readLine, bind_assoc, finish_prefer]

/-- Two readings that differ in nothing but what preferences and the wish for a single object say. -/
structure Alike (one two : Parsed) : Prop where
  query : two.query = { one.query with
    operation := two.query.operation
    ignoreDuplicates := two.query.ignoreDuplicates
    returning := two.query.returning
    count := two.query.count
    single := two.query.single }
  operation : two.query.operation = one.query.operation ∨
    one.query.operation = .insert ∧ two.query.operation = .upsert

theorem Heard.alike (heard : Heard preferences before after) : Alike before after where
  query := by
    have same := heard.query
    rw [same]
  operation := heard.operation

/-- Two readings come out alike: with one fault, or with results that are the same exactly if the readings
are. -/
def ComeOutAlike (one two : Parsed) (first second : Outcome Parsed) : Prop :=
  (∃ fault, first = .error fault ∧ second = .error fault) ∨
    ∃ left right, first = .ok left ∧ second = .ok right ∧ (left = right ↔ one = two)

theorem ComeOutAlike.congr {three four : Parsed} {left right : Outcome Parsed}
    (out : ComeOutAlike one two left right) (same : one = two ↔ three = four) : ComeOutAlike three four left right := by
  rcases out with failed | ⟨first, second, here, there, apart⟩
  · exact .inl failed
  · exact .inr ⟨first, second, here, there, apart.trans same⟩

theorem ComeOutAlike.error_iff {left right : Outcome Parsed} (out : ComeOutAlike one two left right) (fault : Fault) :
    right = .error fault ↔ left = .error fault := by
  rcases out with ⟨other, here, there⟩ | ⟨first, second, here, there, _⟩
  · rw [here, there]
  · rw [here, there]
    exact iff_of_false nofun nofun

theorem ComeOutAlike.eq_iff {left right : Outcome Parsed} (out : ComeOutAlike one two left right) :
    right = left ↔ (∃ fault, left = .error fault) ∨ one = two := by
  rcases out with ⟨other, here, there⟩ | ⟨first, second, here, there, apart⟩
  · rw [here, there]
    exact iff_of_true rfl (.inl ⟨other, rfl⟩)
  · rw [here, there, Except.ok.injEq, eq_comm, apart]
    exact ⟨.inr, fun either => either.resolve_left nofun⟩

namespace Alike

theorem eq_iff (alike : Alike one two) : one = two ↔
    one.query.operation = two.query.operation ∧ one.query.ignoreDuplicates = two.query.ignoreDuplicates ∧
      one.query.returning = two.query.returning ∧ one.query.count = two.query.count ∧
      one.query.single = two.query.single ∧ one.warnings = two.warnings := by
  constructor
  · rintro rfl
    exact ⟨rfl, rfl, rfl, rfl, rfl, rfl⟩
  · intro ⟨operation, ignoring, returning, count, single, warnings⟩
    have same := alike.query
    rw [← operation, ← ignoring, ← returning, ← count, ← single] at same
    obtain ⟨query, said⟩ := two
    obtain rfl : query = one.query := same
    obtain rfl : one.warnings = said := warnings
    rfl

theorem range (alike : Alike one two) (range : Option RowRange) :
    Alike { one with query := { one.query with range } } { two with query := { two.query with range } } where
  query := by
    have same := alike.query
    rw [same]
  operation := alike.operation

theorem body (alike : Alike one two) (body : Option Body) :
    Alike { one with query := { one.query with body } } { two with query := { two.query with body } } where
  query := by
    have same := alike.query
    rw [same]
  operation := alike.operation

theorem warn (alike : Alike one two) (said : String) : Alike (one.warn said) (two.warn said) :=
  ⟨alike.query, alike.operation⟩

theorem applySingle (alike : Alike one two) (isGet : Bool) :
    Alike (applySingle isGet one) (applySingle isGet two) where
  query := by
    have same := alike.query
    unfold Rest.applySingle
    dsimp only
    split <;> split <;> (rw [same])
  operation := by
    unfold Rest.applySingle
    dsimp only
    split <;> split <;> exact alike.operation

/-- A wish for a single object keeps apart what it finds apart. -/
theorem applySingle_eq_iff (alike : Alike one two) (isGet : Bool) (alone : one.query.single = none)
    (alone' : two.query.single = none) : Rest.applySingle isGet one = Rest.applySingle isGet two ↔ one = two := by
  rw [(alike.applySingle isGet).eq_iff, alike.eq_iff, alone, alone']
  cases asked : one.query.returning <;> cases asked' : two.query.returning <;> cases isGet <;>
    simp [Rest.applySingle, asked, asked']

theorem warn_eq_iff (alike : Alike one two) (said : String) : one.warn said = two.warn said ↔ one = two := by
  rw [(alike.warn said).eq_iff, alike.eq_iff]
  simp [Parsed.warn]

theorem acceptsBody_eq (alike : Alike one two) (isPost : Bool) :
    acceptsBody two.query.operation isPost = acceptsBody one.query.operation isPost := by
  rcases alike.operation with same | ⟨inserts, upserts⟩
  · rw [same]
  · rw [inserts, upserts]
    rfl

theorem readBody_eq (alike : Alike one two) (json : Json) :
    readBody two.query.operation json = readBody one.query.operation json := by
  rcases alike.operation with same | ⟨inserts, upserts⟩
  · rw [same]
  · rw [inserts, upserts]
    cases json <;> rfl

theorem applyBody (alike : Alike one two) (request : RawRequest) :
    ComeOutAlike one two (applyBody request one) (applyBody request two) := by
  unfold Rest.applyBody
  rw [alike.acceptsBody_eq]
  split
  · exact .inr ⟨one, two, rfl, rfl, .rfl⟩
  · dsimp only
    split
    · exact .inr ⟨one, two, rfl, rfl, .rfl⟩
    · split
      · exact .inr ⟨_, _, rfl, rfl, alike.warn_eq_iff _⟩
      · split
        · next failure _ => exact .inl ⟨_, rfl, rfl⟩
        · next json _ =>
          rw [alike.readBody_eq]
          cases readBody one.query.operation json with
          | error fault => exact .inl ⟨fault, rfl, rfl⟩
          | ok found =>
              exact .inr ⟨_, _, rfl, rfl, (alike.body (some found)).eq_iff.trans alike.eq_iff.symm⟩

theorem accept (alike : Alike one two) (request : RawRequest) (alone : one.query.single = none)
    (alone' : two.query.single = none) : ComeOutAlike one two
      (Rest.applyBody request (accept request one)) (Rest.applyBody request (accept request two)) := by
  unfold Rest.accept
  cases request.header? "Accept" with
  | none => exact alike.applyBody request
  | some accept =>
      dsimp only
      split
      · exact ((alike.applySingle _).applyBody request).congr (alike.applySingle_eq_iff _ alone alone')
      · exact alike.applyBody request

theorem finish (alike : Alike one two) (request : RawRequest) (alone : one.query.single = none)
    (alone' : two.query.single = none) : ComeOutAlike one two (finish request one) (finish request two) := by
  unfold Rest.finish
  cases request.header? "Range" with
  | none => exact alike.accept request alone alone'
  | some text =>
      dsimp only
      cases readRange text with
      | error fault => exact .inl ⟨fault, rfl, rfl⟩
      | ok bounds =>
          have ranged := alike.range (some bounds)
          exact (ranged.accept request alone alone').congr (ranged.eq_iff.trans alike.eq_iff.symm)

end Alike

/-- A query that no header has said anything of. -/
structure IsUnasked (query : Query) : Prop where
  returning : query.returning = false
  count : query.count = none
  single : query.single = none

theorem IsUnasked.apply {query : Query} (plain : IsUnasked query) (edit : Edit) : IsUnasked (edit.apply query) := by
  cases edit <;> exact ⟨plain.returning, plain.count, plain.single⟩

theorem isUnasked_start {options : Options} {asked : Target} {pairs : List (String × String)} {parsed : Parsed}
    (started : start options asked pairs = .ok parsed) : IsUnasked parsed.query := by
  obtain ⟨columns, embeds, same⟩ := start_ok started
  rw [same]
  exact ⟨rfl, rfl, rfl⟩

theorem isUnasked_readLine {options : Options} {request : RawRequest} {parsed : Parsed}
    (read : readLine options request = .ok parsed) : IsUnasked parsed.query := by
  obtain ⟨_, _, read⟩ := ok_of_bind read
  obtain ⟨asked, _, read⟩ := ok_of_bind read
  obtain ⟨started, begun, run⟩ := ok_of_bind read
  refine foldlM_invariant (fun between => IsUnasked between.query) (fun plain applied => ?_) (isUnasked_start begun) run
  obtain ⟨edit, _, same⟩ := applyParam_ok applied
  exact same ▸ plain.apply edit

def firstPreferences (headers : Headers) : List (List Char) :=
  ((headers.values "Prefer").take 1).flatMap preferencesIn

def laterPreferences (headers : Headers) : List (List Char) :=
  ((headers.values "Prefer").drop 1).flatMap preferencesIn

theorem preferencesIn_joined {values : List String} (some : values ≠ []) :
    preferencesIn (String.intercalate "," values) = values.flatMap preferencesIn := by
  have comma : (',' == ',') = true := rfl
  have cut := @pieces_joined (· == ',') ',' comma (values.map String.toList) (by simpa using some)
  rw [preferencesIn, String.toList_intercalate, show ",".toList = [','] from rfl, cut, List.flatMap_map,
    List.map_flatMap, List.filter_flatMap]
  rfl

theorem prefer_eq (request : RawRequest) (parsed : Parsed) : prefer request parsed =
    (firstPreferences request.headers).foldl (applyPreference (request.method.toUpper = "POST")) parsed := by
  rw [prefer, RawRequest.header?, Headers.get?_eq_head?, firstPreferences]
  cases request.headers.values "Prefer" with
  | nil => rfl
  | cons value rest => simp

/-- All preferences are heard when they stand in one header. -/
theorem prefer_joined (request : RawRequest) (parsed : Parsed) :
    prefer { request with headers := request.headers.joined "Prefer" } parsed =
      (laterPreferences request.headers).foldl (applyPreference (request.method.toUpper = "POST"))
        (prefer request parsed) := by
  have all : firstPreferences request.headers ++ laterPreferences request.headers =
      (request.headers.values "Prefer").flatMap preferencesIn := by
    rw [firstPreferences, laterPreferences, ← List.flatMap_append, List.take_append_drop]
  rw [prefer_eq request, ← List.foldl_append, all, prefer, RawRequest.header?, Headers.get?_joined]
  by_cases none : request.headers.values "Prefer" = []
  · rw [if_pos none, none]
    rfl
  · rw [if_neg none]
    dsimp only
    rw [preferencesIn_joined none]

theorem finish_joined (request : RawRequest) :
    finish { request with headers := request.headers.joined "Prefer" } = finish request := by
  have other {name : String} (apart : Headers.sameName "Prefer" name = false) :
      RawRequest.header? { request with headers := request.headers.joined "Prefer" } name = request.header? name :=
    Headers.get?_joined_other apart request.headers
  funext preferred
  unfold finish accept
  rw [other (by decide +kernel), other (by decide +kernel)]
  rfl

theorem read_single (options : Options) (request : RawRequest) :
    read options { request with headers := request.headers.single "Prefer" } = read options request := by
  have same (name : String) :
      RawRequest.header? { request with headers := request.headers.single "Prefer" } name = request.header? name :=
    Headers.get?_single "Prefer" name request.headers
  rw [read_eq, read_eq]
  simp only [prefer, finish, accept, same]
  rfl

theorem Heard.single_eq (heard : Heard preferences before after) : after.query.single = before.query.single := by
  rw [heard.query]

theorem comeOutAlike_joined (options : Options) (request : RawRequest) :
    (∃ fault, read options { request with headers := request.headers.joined "Prefer" } = .error fault ∧
        read options request = .error fault) ∨
      ∃ heard whole, ComeOutAlike heard whole (read options request)
          (read options { request with headers := request.headers.joined "Prefer" }) ∧
        (whole = heard ↔ AddsNothing (firstPreferences request.headers) (laterPreferences request.headers)) := by
  have line : readLine options { request with headers := request.headers.joined "Prefer" } = readLine options request :=
    rfl
  rw [read_eq, read_eq, line]
  cases found : readLine options request with
  | error fault => exact .inl ⟨fault, rfl, rfl⟩
  | ok parsed =>
      have plain := isUnasked_readLine found
      have front := heard_foldl (request.method.toUpper = "POST") (firstPreferences request.headers) parsed
      rw [← prefer_eq] at front
      have back := heard_foldl (request.method.toUpper = "POST") (laterPreferences request.headers)
        (prefer request parsed)
      rw [← prefer_joined] at back
      have alone := front.single_eq.trans plain.single
      refine .inr ⟨_, _, ?_, front.unchanged_iff back plain.returning plain.count⟩
      rw [ok_bind, ok_bind, finish_joined]
      exact back.alike.finish request alone (back.single_eq.trans alone)

/-- A request whose preferences stand in several headers is read like one with the first of them alone.  It is
refused exactly as the one that has all of them in one header, and where it is read the two say the same
exactly if the preferences behind the first header add nothing to it. -/
theorem read_preferences (options : Options) (request : RawRequest) :
    read options { request with headers := request.headers.single "Prefer" } = read options request ∧
      (∀ fault, read options { request with headers := request.headers.joined "Prefer" } = .error fault ↔
        read options request = .error fault) ∧
      (read options { request with headers := request.headers.joined "Prefer" } = read options request ↔
        (∃ fault, read options request = .error fault) ∨
          AddsNothing (firstPreferences request.headers) (laterPreferences request.headers)) := by
  refine ⟨read_single options request, ?_⟩
  rcases comeOutAlike_joined options request with ⟨fault, joined, plain⟩ | ⟨heard, whole, out, adds⟩
  · rw [joined, plain]
    exact ⟨fun _ => .rfl, iff_of_true rfl (.inl ⟨fault, rfl⟩)⟩
  · exact ⟨out.error_iff, out.eq_iff.trans (or_congr_right (eq_comm.trans adds))⟩

/-- An insert that asks for its rows, and in a second header for a count. -/
def splitPreferences : RawRequest where
  method := "POST"
  path := "/t"
  headers := [("Prefer", "return=representation"), ("Prefer", "count=exact")]

/-- The count is heard in one header with the rows, and is lost behind it. -/
theorem splitPreferences_lost :
    splitPreferences.headers.joined "Prefer" = [("Prefer", "return=representation,count=exact")] ∧
      (read {} splitPreferences).map (fun parsed => (parsed.query.returning, parsed.query.count, parsed.warnings)) =
        .ok (true, none, []) ∧
      (read {} { splitPreferences with headers := splitPreferences.headers.joined "Prefer" }).map
          (fun parsed => (parsed.query.returning, parsed.query.count, parsed.warnings)) =
        .ok (true, some .exact, []) := by
  decide +kernel

end Rest

end QueryNotation
