import QueryNotation.Proofs.Outcome
import QueryNotation.Rest.Reader

namespace QueryNotation.Rest

/-! # What the parts of a request leave alone

The request line and the select list begin a query, the headers say how it is to be answered, and the
body is given to it.  Each part is looked at once here; what it leaves alone is a frame in which the
parameters are read.
-/

variable {options : Options} {request : RawRequest} {parsed next : Parsed} {isPost isGet : Bool}

/-- Nothing but columns and embeds is begun with, besides what the request line asks for. -/
theorem start_ok {asked : Target} {pairs : List (String × String)}
    (started : start options asked pairs = .ok parsed) :
    ∃ columns embeds, parsed.query =
      { table := asked.table, operation := asked.operation, head := asked.head, columns, embeds } := by
  unfold start at started
  split at started
  · obtain ⟨selection, _, started⟩ := ok_of_bind started
    obtain rfl := Except.ok.inj started
    exact ⟨selection.columns, selection.embeds, rfl⟩
  · obtain rfl := Except.ok.inj started
    dsimp only
    split
    · exact ⟨[.star], [], rfl⟩
    · exact ⟨[], [], rfl⟩

def prefer (request : RawRequest) (parsed : Parsed) : Parsed :=
  match request.header? "Prefer" with
  | some header => (preferencesIn header).foldl (applyPreference (request.method.toUpper = "POST")) parsed
  | none => parsed

def putRange (request : RawRequest) (parsed : Parsed) : Outcome Parsed :=
  match request.header? "Range" with
  | some text =>
    (readRange text).map fun range => { parsed with query := { parsed.query with range := some range } }
  | none => .ok parsed

/-- Apply the wish for a single object, if a header has it. -/
def accept (request : RawRequest) (parsed : Parsed) : Parsed :=
  match request.header? "Accept" with
  | some accept =>
    if occursIn singleObject accept then applySingle (request.method.toUpper = "GET") parsed else parsed
  | none => parsed

theorem applyHeaders_eq (request : RawRequest) (parsed : Parsed) :
    applyHeaders request parsed = (putRange request (prefer request parsed)).map (accept request) := by
  unfold applyHeaders putRange prefer accept
  cases request.header? "Range" with
  | none => rfl
  | some text =>
      dsimp only
      cases readRange text <;> rfl

/-- Two queries that differ only in how they are to be answered, but for an insert that has become an
upsert. -/
structure HeaderFrame (before after : Query) : Prop where
  same : after = { before with
    operation := after.operation, range := after.range, count := after.count, single := after.single
    ignoreDuplicates := after.ignoreDuplicates, returning := after.returning }
  operation : after.operation = before.operation ∨ before.operation = .insert ∧ after.operation = .upsert

namespace HeaderFrame

theorem refl (query : Query) : HeaderFrame query query :=
  ⟨rfl, .inl rfl⟩

theorem trans {first second third : Query} (front : HeaderFrame first second) (back : HeaderFrame second third) :
    HeaderFrame first third where
  same := by
    rw [back.same, front.same]
  operation := by
    rcases back.operation with same | ⟨inserts, upserts⟩
    · rw [same]
      exact front.operation
    · rcases front.operation with same | ⟨_, upserted⟩
      · exact .inr ⟨same ▸ inserts, upserts⟩
      · rw [upserted] at inserts
        cases inserts

end HeaderFrame

theorem headerFrame_applyPreference (parsed : Parsed) (preference : List Char) :
    HeaderFrame parsed.query (applyPreference isPost parsed preference).query := by
  unfold applyPreference
  dsimp only
  split
  · split
    · next posts => exact ⟨rfl, .inr ⟨by simpa using (Bool.and_eq_true_iff.mp posts).2, rfl⟩⟩
    · exact .refl _
  · split
    · next posts => exact ⟨rfl, .inr ⟨by simpa using (Bool.and_eq_true_iff.mp posts).2, rfl⟩⟩
    · exact .refl _
  · split <;> exact ⟨rfl, .inl rfl⟩
  all_goals exact ⟨rfl, .inl rfl⟩

theorem headerFrame_foldl (preferences : List (List Char)) (parsed : Parsed) :
    HeaderFrame parsed.query (preferences.foldl (applyPreference isPost) parsed).query := by
  induction preferences generalizing parsed with
  | nil => exact .refl _
  | cons preference rest induction =>
      exact (headerFrame_applyPreference parsed preference).trans (induction _)

theorem headerFrame_prefer (request : RawRequest) (parsed : Parsed) :
    HeaderFrame parsed.query (prefer request parsed).query := by
  unfold prefer
  split
  · exact headerFrame_foldl _ parsed
  · exact .refl _

theorem headerFrame_putRange (put : putRange request parsed = .ok next) : HeaderFrame parsed.query next.query := by
  unfold putRange at put
  split at put
  · obtain ⟨range, _, rfl⟩ := ok_of_map put
    exact ⟨rfl, .inl rfl⟩
  · obtain rfl := Except.ok.inj put
    exact .refl _

theorem headerFrame_accept (request : RawRequest) (parsed : Parsed) :
    HeaderFrame parsed.query (accept request parsed).query := by
  unfold accept applySingle
  dsimp only
  split
  · split
    · split <;> exact ⟨rfl, .inl rfl⟩
    · exact .refl _
  · exact .refl _

theorem headerFrame_applyHeaders (applied : applyHeaders request parsed = .ok next) :
    HeaderFrame parsed.query next.query := by
  rw [applyHeaders_eq] at applied
  obtain ⟨ranged, put, rfl⟩ := ok_of_map applied
  exact ((headerFrame_prefer request parsed).trans (headerFrame_putRange put)).trans (headerFrame_accept request ranged)

/-- Only the body is given, and only to an operation that takes one. -/
theorem applyBody_ok (applied : applyBody request parsed = .ok next) :
    next.query = { parsed.query with body := next.query.body } ∧
      (next.query.body = parsed.query.body ∨
        acceptsBody parsed.query.operation (request.method.toUpper = "POST") = true) := by
  unfold applyBody at applied
  split at applied
  · obtain rfl := Except.ok.inj applied
    exact ⟨rfl, .inl rfl⟩
  · dsimp only at applied
    split at applied
    · obtain rfl := Except.ok.inj applied
      exact ⟨rfl, .inl rfl⟩
    · split at applied
      · obtain rfl := Except.ok.inj applied
        exact ⟨rfl, .inl rfl⟩
      · next accepts =>
        split at applied
        · cases applied
        · obtain ⟨body, _, applied⟩ := ok_of_bind applied
          obtain rfl := Except.ok.inj applied
          exact ⟨rfl, .inr (by simpa using accepts)⟩

/-- The steps in which a request is read, and what each of them leaves. -/
structure ReadsRequest (options : Options) (request : RawRequest) (asked : Target)
    (started applied headed parsed : Parsed) : Prop where
  small : sizeOf request ≤ options.maxInputLength
  line : target request = .ok asked
  begun : start options asked (QueryString.decode request.query) = .ok started
  params : (QueryString.decode request.query).foldlM (applyParam options.maxDepth) started = .ok applied
  headers : applyHeaders request applied = .ok headed
  body : applyBody request headed = .ok parsed

theorem ReadsRequest.read_eq {asked : Target} {started applied headed : Parsed}
    (reads : ReadsRequest options request asked started applied headed parsed) :
    read options request = .ok parsed := by
  unfold read
  simp only [Options.checkSize_ok reads.small, ok_bind, reads.line, reads.begun, reads.params, reads.headers,
    reads.body]

theorem ok_of_read (accepted : read options request = .ok parsed) :
    ∃ asked started applied headed, ReadsRequest options request asked started applied headed parsed := by
  obtain ⟨_, sized, accepted⟩ := ok_of_bind accepted
  obtain ⟨asked, line, accepted⟩ := ok_of_bind accepted
  obtain ⟨started, begun, accepted⟩ := ok_of_bind accepted
  obtain ⟨applied, run, accepted⟩ := ok_of_bind accepted
  obtain ⟨headed, headers, body⟩ := ok_of_bind accepted
  have small : sizeOf request ≤ options.maxInputLength := by
    by_contra large
    rw [Options.checkSize, if_pos (Nat.lt_of_not_le large)] at sized
    cases sized
  exact ⟨asked, started, applied, headed, small, line, begun, run, headers, body⟩

end QueryNotation.Rest
