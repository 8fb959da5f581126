import QueryNotation.Proofs.Outcome
import QueryNotation.Proofs.Request.Headers
import QueryNotation.Proofs.Text.Blank
import QueryNotation.Proofs.Text.Cut
import QueryNotation.Proofs.Text.Percent
import QueryNotation.Proofs.Text.Unsigned
import QueryNotation.Rest.Reader

namespace QueryNotation

/-! # Reading back request lines and headers

The line of a request says what is asked for and how.  What a query prefers stands in one
header, in a fixed order, and each preference puts back what it was written for.

The path of a table is one segment, whatever the table is called: a slash in its name
is escaped.
-/

open Text

namespace Rest

/-- An escaped segment has no blanks. -/
theorem segment_solid (text : List Char) :
    ∀ c ∈ percentEncode isEscapedInPath text, isBlank c = false :=
  percentEncode_solid (by decide +kernel) text

/-- An escaped segment has no slashes. -/
theorem segment_whole (text : List Char) : '/' ∉ percentEncode isEscapedInPath text :=
  not_mem_percentEncode (by decide) (by decide) text

theorem segment_full {text : List Char} (full : text ≠ []) :
    percentEncode isEscapedInPath text ≠ [] := by
  intro none
  have decoded := decode_percentEncode (show isEscapedInPath '%' = true by decide) text
  rw [none] at decoded
  exact full decoded.symm

theorem segments_path {table : String} (full : table ≠ "") :
    segments ('/' :: percentEncode isEscapedInPath table.toList) = [table] := by
  have absent : ∀ c ∈ percentEncode isEscapedInPath table.toList, (c == '/') = false := by
    intro c member
    rw [beq_eq_false_iff_ne]
    rintro rfl
    exact segment_whole _ member
  have cut : words (· == '/') ('/' :: percentEncode isEscapedInPath table.toList) =
      [percentEncode isEscapedInPath table.toList] := by
    have first : pieces (· == '/') ([] ++ '/' :: percentEncode isEscapedInPath table.toList) =
        [] :: pieces (· == '/') (percentEncode isEscapedInPath table.toList) :=
      pieces_append (by simp) rfl _
    rw [List.nil_append] at first
    rw [words, first, pieces_of_absent absent]
    simp [segment_full (show table.toList ≠ [] by simpa using full)]
  rw [segments, cut, List.map_singleton, decode_percentEncode (by decide), String.ofList_toList]

theorem localPath_path (table : String) :
    localPath (String.ofList ('/' :: percentEncode isEscapedInPath table.toList)) =
      .ok ('/' :: percentEncode isEscapedInPath table.toList) := by
  have trimmed : trim ('/' :: percentEncode isEscapedInPath table.toList) =
      '/' :: percentEncode isEscapedInPath table.toList := by
    refine trim_of_solid fun c member => ?_
    rcases List.mem_cons.mp member with rfl | inside
    · decide
    · exact segment_solid _ c inside
  have relative : Address.isAbsolute ('/' :: percentEncode isEscapedInPath table.toList) = false := by
    simp [Address.isAbsolute, List.isPrefixOf]
  have lead : dropLead? "/rest/v1".toList ('/' :: percentEncode isEscapedInPath table.toList) =
      none := by
    refine dropLead?_eq_none ?_
    rintro ⟨rest, shape⟩
    have inside : '/' ∈ percentEncode isEscapedInPath table.toList := by
      rw [show "/rest/v1".toList = '/' :: "rest/v1".toList from rfl, List.cons_append] at shape
      rw [← (List.cons.inj shape).2]
      simp
    exact segment_whole _ inside
  unfold localPath
  simp only [String.toList_ofList, trimmed, relative, Bool.false_eq_true, if_false, pure_bind, lead]
  rfl

/-- The operation that a request line says: an upsert looks like an insert. -/
def lineOperation : Operation → Operation
  | .upsert => .insert
  | operation => operation

theorem tableTarget_method {query : Query} (call : query.operation ≠ .call)
    (counts : query.head = true → query.operation = .select) (table : String) (request : RawRequest) :
    tableTarget (String.ofList (trim (methodOf query).word.toList)).toUpper table request =
      .ok ⟨lineOperation query.operation, table, query.head⟩ := by
  have read (method : Method) :
      Method.ofWord? (String.ofList (trim method.word.toList)).toUpper = some method := by
    cases method <;> decide +kernel
  unfold tableTarget methodOf
  rw [read]
  cases head : query.head with
  | true => rw [counts head]; rfl
  | false => cases operation : query.operation <;> first | rfl | exact absurd operation call

theorem pathOf_table {query : Query} (call : query.operation ≠ .call) :
    pathOf query = String.ofList ('/' :: percentEncode isEscapedInPath query.table.toList) := by
  unfold pathOf
  apply String.toList_injective
  cases operation : query.operation <;> first | exact absurd operation call | simp

/-- A request line is read back. -/
theorem target_write {query : Query} (call : query.operation ≠ .call) (full : query.table ≠ "")
    (plain : query.table ≠ "rpc") (counts : query.head = true → query.operation = .select) :
    target (write query).request.raw =
      .ok ⟨lineOperation query.operation, query.table, query.head⟩ := by
  unfold target
  simp only [write, Request.raw, pathOf_table call, localPath_path, ok_bind, segments_path full]
  exact tableTarget_method call counts query.table _

variable {query : Query} {parsed : Parsed}

def preferring (query : Query) : Headers :=
  (preferences query).foldl (fun headers preference => Headers.append "Prefer" preference headers)
    (if query.single.isSome then [("Accept", singleObject)] else [])

theorem get?_headers_body {name : String} (apart : Headers.sameName "Content-Type" name = false) :
    (headers query).get? name =
      (match query.range with
        | some (first, last) =>
          ((preferring query).append "Range" (toString first ++ "-" ++ toString last)).append
            "Range-Unit" "items"
        | none => preferring query).get? name := by
  unfold headers
  cases bodyOf query with
  | none => rfl
  | some body => exact Headers.get?_append_other apart _ _

theorem get?_headers_range {name : String} (body : Headers.sameName "Content-Type" name = false)
    (range : Headers.sameName "Range" name = false)
    (unit : Headers.sameName "Range-Unit" name = false) :
    (headers query).get? name = (preferring query).get? name := by
  rw [get?_headers_body body]
  cases query.range with
  | none => rfl
  | some bounds => rw [Headers.get?_append_other unit, Headers.get?_append_other range]

theorem header_accept (query : Query) :
    (headers query).get? "Accept" = query.single.map fun _ => singleObject := by
  have same : Headers.sameName "Accept" "Accept" = true := by decide +kernel
  rw [get?_headers_range (by decide +kernel) (by decide +kernel) (by decide +kernel), preferring,
    Headers.get?_foldl_other (by decide +kernel)]
  cases query.single with
  | none => rfl
  | some mode =>
      rw [Option.isSome_some, if_pos rfl, Headers.get?_cons, same]
      rfl

theorem header_prefer (query : Query) :
    (headers query).get? "Prefer" =
      match preferences query with
      | [] => none
      | first :: rest => some (String.intercalate "," (first :: rest)) := by
  have other : Headers.sameName "Accept" "Prefer" = false := by decide +kernel
  have unset : Headers.get? (if query.single.isSome then [("Accept", singleObject)] else [])
      "Prefer" = none := by
    split
    · rw [Headers.get?_cons, other]
      rfl
    · rfl
  rw [get?_headers_range (by decide +kernel) (by decide +kernel) (by decide +kernel), preferring,
    Headers.get?_foldl_same, unset]
  rfl

theorem header_range (query : Query) :
    (headers query).get? "Range" =
      query.range.map fun range => toString range.1 ++ "-" ++ toString range.2 := by
  have other : Headers.sameName "Accept" "Range" = false := by decide +kernel
  have unset : (preferring query).get? "Range" = none := by
    rw [preferring, Headers.get?_foldl_other (by decide +kernel)]
    split
    · rw [Headers.get?_cons, other]
      rfl
    · rfl
  rw [get?_headers_body (by decide +kernel)]
  cases query.range with
  | none => exact unset
  | some bounds =>
      rw [Headers.get?_append_other (by decide +kernel), Headers.get?_append_same, unset]
      rfl

def preferenceTexts : List String :=
  ["resolution=ignore-duplicates", "resolution=merge-duplicates", "return=representation",
    "count=exact", "count=planned", "count=estimated"]

theorem mem_preferenceTexts {preference : String} (member : preference ∈ preferences query) :
    preference ∈ preferenceTexts := by
  unfold preferences at member
  rcases List.mem_append.mp member with front | count
  · rcases List.mem_append.mp front with resolution | answer
    · split at resolution
      · rw [List.mem_singleton.mp resolution]
        cases query.ignoreDuplicates <;> simp [preferenceTexts]
      · cases resolution
    · split at answer
      · rw [List.mem_singleton.mp answer]
        simp [preferenceTexts]
      · cases answer
  · cases shape : query.count with
    | none => simp [shape] at count
    | some mode =>
        simp only [shape, Option.map_some, Option.toList_some, List.mem_singleton] at count
        rw [count]
        cases mode <;> decide

theorem preference_plain {preference : String} (member : preference ∈ preferences query) :
    (∀ c ∈ preference.toList, (c == ',') = false) ∧ trim preference.toList = preference.toList ∧
      preference.toList ≠ [] := by
  have all : ∀ word ∈ preferenceTexts, (∀ c ∈ word.toList, (c == ',') = false) ∧
      trim word.toList = word.toList ∧ word.toList ≠ [] := by
    decide +kernel
  exact all preference (mem_preferenceTexts member)

theorem preferencesIn_join (query : Query) (some : preferences query ≠ []) :
    preferencesIn (String.intercalate "," (preferences query)) =
      (preferences query).map String.toList := by
  have cut : pieces (· == ',') (String.intercalate "," (preferences query)).toList =
      (preferences query).map String.toList := by
    rw [String.toList_intercalate]
    refine pieces_intercalate (by decide) (by simpa using some) ?_
    intro part member
    obtain ⟨preference, listed, rfl⟩ := List.mem_map.mp member
    exact (preference_plain listed).1
  have trimmed : ((preferences query).map String.toList).map trim =
      (preferences query).map String.toList := by
    rw [List.map_map]
    exact List.map_congr_left fun preference listed => (preference_plain listed).2.1
  rw [preferencesIn, cut, trimmed, List.filter_eq_self]
  intro part member
  obtain ⟨preference, listed, rfl⟩ := List.mem_map.mp member
  simpa using (preference_plain listed).2.2

theorem applyPreference_resolution (inserts : parsed.query.operation = .insert) (ignoring : Bool) :
    applyPreference true parsed (if ignoring then "resolution=ignore-duplicates"
      else "resolution=merge-duplicates").toList =
      { parsed with query := { parsed.query with operation := .upsert, ignoreDuplicates := ignoring } } := by
  cases ignoring with
  | true =>
      have cut : cutFirst '=' "resolution=ignore-duplicates".toList =
          some ("resolution".toList, "ignore-duplicates".toList) := by decide
      have name : String.ofList (trim "resolution".toList) = "resolution" := by decide
      have value : String.ofList (trim "ignore-duplicates".toList) = "ignore-duplicates" := by decide
      simp only [applyPreference, if_true, cut, Option.getD_some, name, value, inserts]
      rfl
  | false =>
      have cut : cutFirst '=' "resolution=merge-duplicates".toList =
          some ("resolution".toList, "merge-duplicates".toList) := by decide
      have name : String.ofList (trim "resolution".toList) = "resolution" := by decide
      have value : String.ofList (trim "merge-duplicates".toList) = "merge-duplicates" := by decide
      simp only [applyPreference, if_false, Bool.false_eq_true, cut, Option.getD_some, name, value,
        inserts]
      rfl

theorem applyPreference_return (isPost : Bool) :
    applyPreference isPost parsed "return=representation".toList =
      { parsed with query := { parsed.query with returning := true } } := by
  have cut : cutFirst '=' "return=representation".toList =
      some ("return".toList, "representation".toList) := by decide
  have name : String.ofList (trim "return".toList) = "return" := by decide
  have value : String.ofList (trim "representation".toList) = "representation" := by decide
  simp only [applyPreference, cut, Option.getD_some, name, value]

theorem applyPreference_count (isPost : Bool) (mode : CountMode) :
    applyPreference isPost parsed ("count=" ++ mode.word).toList =
      { parsed with query := { parsed.query with count := some mode } } := by
  have cut : cutFirst '=' ("count=" ++ mode.word).toList =
      some ("count".toList, mode.word.toList) := by cases mode <;> decide
  have name : String.ofList (trim "count".toList) = "count" := by decide
  have value : String.ofList (trim mode.word.toList) = mode.word := by cases mode <;> decide
  have read : CountMode.ofWord? mode.word = some mode := by cases mode <;> decide
  simp only [applyPreference, cut, Option.getD_some, name, value, read]

/-- What a query prefers, put into the query that the request line and the parameters give. -/
def withPreferences (query : Query) (parsed : Parsed) : Parsed :=
  { parsed with
    query := { parsed.query with
      operation := query.operation
      ignoreDuplicates := query.ignoreDuplicates
      returning := query.returning || query.single = some .maybeOne
      count := query.count } }

theorem foldl_resolution {isPost : Bool} (post : query.operation = .upsert → isPost = true)
    (upserts : query.ignoreDuplicates = true → query.operation = .upsert)
    (line : parsed.query.operation = lineOperation query.operation)
    (resolved : parsed.query.ignoreDuplicates = false) :
    ((if query.operation = .upsert then
      [if query.ignoreDuplicates then "resolution=ignore-duplicates"
        else "resolution=merge-duplicates"] else []).map String.toList).foldl (applyPreference isPost) parsed =
      { parsed with query := { parsed.query with
        operation := query.operation, ignoreDuplicates := query.ignoreDuplicates } } := by
  by_cases upsert : query.operation = .upsert
  · have inserts : parsed.query.operation = .insert := by rw [line, upsert]; rfl
    rw [if_pos upsert, post upsert, upsert, List.map_singleton, List.foldl_cons, List.foldl_nil,
      applyPreference_resolution inserts]
  · have keeps : query.ignoreDuplicates = false := by
      cases shape : query.ignoreDuplicates with
      | true => exact absurd (upserts shape) upsert
      | false => rfl
    have same : query.operation = parsed.query.operation := by
      rw [line]
      cases operation : query.operation <;> first | rfl | exact absurd operation upsert
    rw [if_neg upsert, keeps, same, ← resolved]
    rfl

theorem foldl_return {isPost : Bool} (silent : parsed.query.returning = false) :
    ((if query.returning || query.single = some .maybeOne then ["return=representation"]
      else []).map String.toList).foldl (applyPreference isPost) parsed =
      { parsed with query := { parsed.query with
        returning := query.returning || query.single = some .maybeOne } } := by
  cases asked : query.returning || decide (query.single = some .maybeOne) with
  | true => rw [if_pos rfl, List.map_singleton, List.foldl_cons, List.foldl_nil, applyPreference_return]
  | false =>
      have kept : parsed = { parsed with query := { parsed.query with returning := false } } := by rw [← silent]
      exact kept

theorem foldl_count {isPost : Bool} (uncounted : parsed.query.count = none) :
    (((query.count.map fun mode => "count=" ++ mode.word).toList).map String.toList).foldl
      (applyPreference isPost) parsed =
      { parsed with query := { parsed.query with count := query.count } } := by
  cases query.count with
  | some mode =>
      rw [Option.map_some, Option.toList_some, List.map_singleton, List.foldl_cons, List.foldl_nil,
        applyPreference_count]
  | none =>
      have kept : parsed = { parsed with query := { parsed.query with count := none } } := by rw [← uncounted]
      exact kept

/-- The preferences put back what the request line could not say. -/
theorem foldl_preferences {isPost : Bool} (post : query.operation = .upsert → isPost = true)
    (upserts : query.ignoreDuplicates = true → query.operation = .upsert)
    (line : parsed.query.operation = lineOperation query.operation)
    (resolved : parsed.query.ignoreDuplicates = false) (silent : parsed.query.returning = false)
    (uncounted : parsed.query.count = none) :
    ((preferences query).map String.toList).foldl (applyPreference isPost) parsed =
      withPreferences query parsed := by
  rw [preferences, List.map_append, List.map_append, List.foldl_append, List.foldl_append,
    foldl_resolution post upserts line resolved, foldl_return, foldl_count]
  · rfl
  · exact uncounted
  · exact silent

/-- The bounds of a range are read back, and then compared. -/
theorem readRange_bounds (first last : UInt64) :
    readRange (toString first ++ "-" ++ toString last) =
      if first ≤ last then .ok (first, last)
      else .error (.invalidRange (toString first ++ "-" ++ toString last)) := by
  have absent : '-' ∉ (toString first).toList := by
    rw [toList_count]
    intro member
    exact absurd (toDigits_all_isDigit _ _ member) (by decide)
  have cut := cutFirst_append absent (toString last).toList
  have text : (toString first ++ "-" ++ toString last).toList =
      (toString first).toList ++ '-' :: (toString last).toList := by
    rw [String.toList_append, String.toList_append, List.append_assoc]
    rfl
  unfold readRange
  rw [text, cut]
  simp only [Option.bind_some, trim_count, unsigned?_toString]
  rfl

theorem readRange_text {first last : UInt64} (order : first ≤ last) :
    readRange (toString first ++ "-" ++ toString last) = .ok (first, last) := by
  rw [readRange_bounds, if_pos order]

/-- The wishes for a single object that a request can say of a query. -/
structure FitsSingle (query : Query) : Prop where
  one : query.single = some .one →
    ¬ (query.operation = .select ∧ query.head = false ∧ query.returning = true)
  maybeOne : query.single = some .maybeOne →
    query.operation = .select ∧ query.head = false ∧ query.returning = false

theorem isGet_method (query : Query) :
    decide ((methodOf query).word.toUpper = "GET") =
      decide (query.operation = .select ∧ query.head = false) := by
  have all : ∀ method : Method, decide (method.word.toUpper = "GET") = decide (method = .get) := by
    intro method
    cases method <;> decide +kernel
  rw [all]
  unfold methodOf
  cases operation : query.operation <;> cases head : query.head <;> rfl

theorem isPost_method (upsert : query.operation = .upsert) :
    decide ((methodOf query).word.toUpper = "POST") = true := by
  have post : methodOf query = .post := by rw [methodOf, upsert]
  rw [post]
  decide +kernel

/-- The wish for a single object is understood together with the preferences. -/
theorem applySingle_write (fits : FitsSingle query)
    {mode : SingleMode} (single : query.single = some mode)
    (asked : parsed.query.returning = (query.returning || decide (query.single = some .maybeOne))) :
    applySingle (decide ((methodOf query).word.toUpper = "GET")) parsed =
      { parsed with query := { parsed.query with
        single := query.single, returning := query.returning } } := by
  rw [isGet_method query]
  cases mode with
  | one =>
      have other := fits.one single
      have answer : parsed.query.returning = query.returning := by
        rw [asked, single]
        simp
      have plain : (decide (query.operation = .select ∧ query.head = false) &&
          parsed.query.returning) = false := by
        rw [answer]
        cases returning : query.returning with
        | false => simp
        | true =>
            simp only [Bool.and_true, decide_eq_false_iff_not]
            exact fun get => other ⟨get.1, get.2, returning⟩
      rw [applySingle]
      simp only [plain, single, ← answer]
      rfl
  | maybeOne =>
      obtain ⟨select, rows, silent⟩ := fits.maybeOne single
      have both : (decide (query.operation = .select ∧ query.head = false) &&
          parsed.query.returning) = true := by
        rw [asked, single]
        simp [select, rows]
      rw [applySingle]
      simp only [both, single, silent]
      rfl

/-- The headers are applied one after the other; a missing one changes nothing. -/
theorem applyHeaders_steps {request : RawRequest} {done : Parsed} (preferred ranged : Parsed)
    (prefer : request.header? "Prefer" = none ∧ parsed = preferred ∨
      ∃ header, request.header? "Prefer" = some header ∧ (preferencesIn header).foldl
        (applyPreference (decide (request.method.toUpper = "POST"))) parsed = preferred)
    (range : request.header? "Range" = none ∧ preferred = ranged ∨
      ∃ text range, request.header? "Range" = some text ∧ readRange text = .ok range ∧
        { preferred with query := { preferred.query with range := some range } } = ranged)
    (accept : request.header? "Accept" = none ∧ ranged = done ∨
      ∃ header, request.header? "Accept" = some header ∧ occursIn singleObject header = true ∧
        applySingle (decide (request.method.toUpper = "GET")) ranged = done) :
    applyHeaders request parsed = .ok done := by
  unfold applyHeaders
  rcases prefer with ⟨preferHeader, rfl⟩ | ⟨_, preferHeader, rfl⟩ <;>
  rcases range with ⟨rangeHeader, rfl⟩ | ⟨_, _, rangeHeader, read, rfl⟩ <;>
  rcases accept with ⟨acceptHeader, rfl⟩ | ⟨_, acceptHeader, occurs, rfl⟩ <;>
  simp only [*, ok_bind, pure_bind, if_true] <;> rfl

/-- The headers are read back. -/
theorem applyHeaders_write (fits : FitsSingle query)
    (upserts : query.ignoreDuplicates = true → query.operation = .upsert)
    (ordered : ∀ range ∈ query.range, range.1 ≤ range.2)
    (line : parsed.query.operation = lineOperation query.operation)
    (resolved : parsed.query.ignoreDuplicates = false) (silent : parsed.query.returning = false)
    (uncounted : parsed.query.count = none) (whole : parsed.query.range = none)
    (several : parsed.query.single = none) :
    applyHeaders (write query).request.raw parsed =
      .ok { parsed with query := { parsed.query with
        operation := query.operation
        ignoreDuplicates := query.ignoreDuplicates
        returning := query.returning
        count := query.count
        range := query.range
        single := query.single } } := by
  let preferred := withPreferences query parsed
  let ranged := { preferred with query := { preferred.query with range := query.range } }
  -- Each header is sent just when there is something to say in it.
  refine applyHeaders_steps preferred ranged ?_ ?_ ?_
  · have applied := foldl_preferences isPost_method upserts line resolved silent uncounted
    have header := header_prefer query
    have listed := preferencesIn_join query
    cases shape : preferences query with
    | nil =>
        rw [shape] at applied header
        exact .inl ⟨header, applied⟩
    | cons first rest =>
        rw [shape] at applied header listed
        exact .inr ⟨_, header, by rw [listed (by simp)]; exact applied⟩
  · have header := header_range query
    cases shape : query.range with
    | none =>
        rw [shape] at header
        refine .inl ⟨header, ?_⟩
        simp only [preferred, ranged, withPreferences, shape, whole]
    | some range =>
        rw [shape] at header
        exact .inr ⟨_, range, header, readRange_text (ordered range shape), by simp only [ranged, shape]⟩
  · have header := header_accept query
    cases shape : query.single with
    | none =>
        rw [shape] at header
        refine .inl ⟨header, ?_⟩
        simp only [ranged, preferred, withPreferences, shape, several, reduceCtorEq, decide_false,
          Bool.or_false]
    | some mode =>
        rw [shape] at header
        have occurs : occursIn singleObject singleObject = true := by decide +kernel
        refine .inr ⟨_, header, occurs, ?_⟩
        rw [← shape]
        exact applySingle_write fits shape rfl

end Rest

end QueryNotation
