import QueryNotation.Chain.Reader
import QueryNotation.Proofs.Outcome

namespace QueryNotation.Chain

/-! # What a chain is read as

A chain is the call of a service or a query.  A query is folded from the segments behind its root, so it is
as every query starts when each segment and the end of the fold keep that.
-/

variable {options : Options} {text : String} {parsed : Parsed} {call : ServiceCall}

def Service.read : Service → List Segment → Outcome ServiceCall
  | .auth => ServiceCall.ofAuth
  | .storage => ServiceCall.ofStorage

theorem service_of_read (accepted : read options text = .ok (.service call)) :
    ∃ found before service behind, segments options.maxDepth (normalize text.toList) = .ok found ∧
      splitRoot found = some (before, .service service, behind) ∧ service.read behind = .ok call := by
  obtain ⟨_, _, accepted⟩ := ok_of_bind accepted
  obtain ⟨found, cut, accepted⟩ := ok_of_bind accepted
  split at accepted
  · cases accepted
  · next before behind root =>
    obtain ⟨made, auth, accepted⟩ := ok_of_bind accepted
    obtain rfl := Reading.service.inj (Except.ok.inj accepted)
    exact ⟨found, before, .auth, behind, cut, root, auth⟩
  · next before behind root =>
    obtain ⟨made, storage, accepted⟩ := ok_of_bind accepted
    obtain rfl := Reading.service.inj (Except.ok.inj accepted)
    exact ⟨found, before, .storage, behind, cut, root, storage⟩
  · obtain ⟨folded, _, accepted⟩ := ok_of_bind accepted
    cases Except.ok.inj accepted

theorem query_of_read (accepted : read options text = .ok (.query parsed)) :
    ∃ before root behind, foldChain options before root behind = .ok parsed := by
  obtain ⟨_, _, accepted⟩ := ok_of_bind accepted
  obtain ⟨found, _, accepted⟩ := ok_of_bind accepted
  split at accepted
  · cases accepted
  · obtain ⟨made, _, accepted⟩ := ok_of_bind accepted
    cases Except.ok.inj accepted
  · obtain ⟨made, _, accepted⟩ := ok_of_bind accepted
    cases Except.ok.inj accepted
  · next before root behind _ =>
    obtain ⟨made, folded, accepted⟩ := ok_of_bind accepted
    obtain rfl := Reading.query.inj (Except.ok.inj accepted)
    exact ⟨before, root, behind, folded⟩

theorem read_of_readQuery (accepted : readQuery options text = .ok parsed) :
    read options text = .ok (.query parsed) := by
  obtain ⟨reading, found, kept⟩ := ok_of_bind accepted
  cases reading with
  | service call => cases kept
  | query other =>
      obtain rfl := Except.ok.inj kept
      exact found

/-- What every start of a query has, and every segment and the end of the fold keep, each query has that
is read. -/
theorem readQuery_invariant (holds : Parsed → Prop)
    (start : ∀ {root query warnings}, startQuery root = .ok query → holds { query, warnings })
    (step : ∀ {parsed segment next}, holds parsed → applySegment options parsed segment = .ok next → holds next)
    (last : ∀ {parsed}, holds parsed → holds (finish parsed)) (accepted : readQuery options text = .ok parsed) :
    holds parsed := by
  obtain ⟨before, root, behind, folded⟩ := query_of_read (read_of_readQuery accepted)
  obtain ⟨query, started, folded⟩ := ok_of_bind folded
  obtain ⟨run, ran, folded⟩ := ok_of_bind folded
  obtain rfl := Except.ok.inj folded
  exact last (foldlM_invariant holds step (start started) ran)

end QueryNotation.Chain
