import QueryNotation.Proofs.Chain.Run

namespace QueryNotation.Chain

/-! # The place of a select

A select sets the columns and the embeds.  The calls behind it find these embeds; those in front of it
find none, so their filters stay with the main table and their orders and limits of embeds are lost.
Only the calls in front of it tell it whether rows are to be returned.
-/

open Text Embed
open Rest (EmbedEdit editAll IsReset)

variable {options : Options} {parsed next : Parsed} {selection : Selection} {root : QueryRoot}
  {first between last front back : List Segment} {values : List Json}

/-- A selection as a list is read: it names something, and sets no limits. -/
structure IsListed (selection : Selection) : Prop where
  full : selection.columns ≠ [] ∨ selection.embeds ≠ []
  unlimited : ∀ embed ∈ selection.embeds, embed.limit = none

theorem full_orStar (selection : Selection) : selection.orStar.columns ≠ [] ∨ selection.orStar.embeds ≠ [] := by
  unfold Selection.orStar
  split
  · exact .inl (List.cons_ne_nil _ _)
  · next full =>
    rw [Bool.and_eq_true, List.isEmpty_iff, List.isEmpty_iff, not_and_or] at full
    exact full

theorem full_readWith {bound : Nat} {inner : List Char → Outcome Selection} {text : List Char}
    (read : Selection.readWith bound inner text = .ok selection) :
    selection.columns ≠ [] ∨ selection.embeds ≠ [] := by
  obtain ⟨items, _, read⟩ := ok_of_bind read
  obtain ⟨listed, _, read⟩ := ok_of_bind read
  obtain rfl := Except.ok.inj read
  exact full_orStar listed

theorem isListed_ofText {bound : Nat} {text : String} (read : Selection.ofText bound text = .ok selection) :
    IsListed selection where
  full := by
    cases bound with
    | zero => exact full_readWith read
    | succ bound => exact full_readWith read
  unlimited := by
    have plain : mapAll bare selection.embeds = selection.embeds := Rest.hasBareEmbeds_ofChars read
    intro embed member
    rw [← plain, mapAll_eq_map] at member
    obtain ⟨other, _, rfl⟩ := List.mem_map.mp member
    rw [mapEach_eq]
    rfl

def selecting (selection : Selection) (count : Option CountMode) (head : Bool) (parsed : Parsed) : Parsed where
  query := { parsed.query with
    columns := selection.columns
    embeds := selection.embeds
    returning := parsed.query.returning || parsed.query.operation.isMutation
    count := count.or parsed.query.count
    head := parsed.query.head || head }
  warnings := parsed.warnings ++ selection.warnings

/-- What a select means: it is no call at all, or one that chooses columns. -/
theorem classify_select (values : List Json) :
    (∃ fault, Call.classify "select" values = .error fault) ∨
      ∃ columns count head, Call.classify "select" values = .ok (.select columns count head) := by
  cases counted : Call.countOption { method := "select", values } with
  | error fault =>
      refine .inl ⟨fault, ?_⟩
      show Call.countOption { method := "select", values } >>= _ = _
      rw [counted, error_bind]
  | ok count =>
      refine .inr ⟨(Arguments.string? { method := "select", values } 0).getD "*", count,
        (Arguments.boolOption? { method := "select", values } 1 "head").getD false, ?_⟩
      show Call.countOption { method := "select", values } >>= _ = _
      rw [counted, ok_bind]
      rfl

/-- A select fails whatever the query is, or has a selection whatever the query is. -/
theorem select_cases (options : Options) (values : List Json) :
    (∀ parsed next, applySegment options parsed (.call "select" values) ≠ .ok next) ∨
      ∃ selection count head, IsListed selection ∧ ∀ parsed,
        applySegment options parsed (.call "select" values) = .ok (selecting selection count head parsed) := by
  rcases classify_select values with ⟨fault, failed⟩ | ⟨columns, count, head, classified⟩
  · refine .inl fun parsed next => ?_
    rw [applySegment, failed, error_bind]
    simp
  · cases read : Selection.ofText options.maxDepth columns with
    | error fault =>
        refine .inl fun parsed next => ?_
        rw [applySegment, classified, ok_bind, applyCall, applySelect, read, error_bind]
        simp
    | ok selection =>
        refine .inr ⟨selection, count, head, isListed_ofText read, fun parsed => ?_⟩
        rw [applySegment, classified, ok_bind, applyCall, applySelect, read, ok_bind]
        rfl

/-- The query of a run whose select stands between the calls `front` and `back`, given the query
`plain` of the run without it. -/
def around (selection : Selection) (count : Option CountMode) (head : Bool) (front back : List Call)
    (start plain : Query) : Query :=
  { frame plain with
    columns := selection.columns
    filters := front.flatMap Call.filters ++
      (back.flatMap Call.filters).filter fun filter => !isAddressed (selection.embeds.map name) filter
    embeds := editAll (back.flatMap Call.edits) selection.embeds
    count := count.or start.count
    head := start.head || head
    returning := front.any Call.mutates }

/-- A query as a root starts it. -/
structure IsStart (query : Query) : Prop where
  filters : query.filters = []
  embeds : query.embeds = []
  returning : query.returning = false
  mutation : query.operation.isMutation = false

theorem isStart_startQuery {query : Query} (started : startQuery root = .ok query) : IsStart query := by
  cases root with
  | table values =>
      obtain ⟨name, _, started⟩ := ok_of_bind started
      obtain rfl := Except.ok.inj started
      exact ⟨rfl, rfl, rfl, rfl⟩
  | function values =>
      obtain ⟨name, _, started⟩ := ok_of_bind started
      split at started
      · obtain rfl := Except.ok.inj started
        exact ⟨rfl, rfl, rfl, rfl⟩
      · cases started
      · obtain rfl := Except.ok.inj started
        exact ⟨rfl, rfl, rfl, rfl⟩

theorem isAddressed_none (filter : Filter) : isAddressed [] filter = false := by
  unfold isAddressed
  cases filterEdit? filter <;> simp

theorem callsOf_append (front back : List Segment) : callsOf (front ++ back) = callsOf front ++ callsOf back :=
  List.filterMap_append

/-- What a run with a select comes to, given the run without it. -/
theorem query_around {count : Option CountMode} {head : Bool} (start : IsStart parsed.query)
    (apart : ∀ segment ∈ front ++ back, segment.isSelect = false)
    (chosen : ∀ parsed, applySegment options parsed (.call "select" values) = .ok (selecting selection count head parsed))
    (folded : (front ++ .call "select" values :: back).foldlM (applySegment options) parsed = .ok next) :
    ∃ plain, (front ++ back).foldlM (applySegment options) parsed = .ok plain ∧
      next.query = around selection count head (callsOf front) (callsOf back) parsed.query plain.query := by
  obtain ⟨before, behind⟩ := List.forall_mem_append.mp apart
  rw [List.foldlM_append] at folded
  obtain ⟨met, reached, folded⟩ := ok_of_bind folded
  rw [List.foldlM_cons, chosen met, ok_bind] at folded
  -- The run behind the select looks at nothing that the select changes.
  obtain ⟨plain, without, kept⟩ := @foldlM_of_frame _ _ _ met _ behind folded rfl
  refine ⟨plain, ?_, ?_⟩
  · rw [List.foldlM_append, reached, ok_bind, without]
  · have early := folds_foldlM before reached
    have late := folds_foldlM behind folded
    have filters : met.query.filters = (callsOf front).flatMap Call.filters := by
      rw [early.filters, start.filters, start.embeds]
      simp [isAddressed_none]
    have returning : (met.query.returning || met.query.operation.isMutation) = (callsOf front).any Call.mutates := by
      rw [early.returning, early.mutation, start.returning, start.mutation, Bool.false_or, Bool.false_or]
    have shape : next.query = { frame next.query with
        columns := next.query.columns
        filters := next.query.filters
        embeds := next.query.embeds
        count := next.query.count
        head := next.query.head
        returning := next.query.returning } := rfl
    rw [around, kept, ← early.count, ← early.head, ← filters, ← returning]
    refine shape.trans ?_
    rw [late.columns, late.filters, late.embeds, late.count, late.head, late.returning]
    rfl

/-- A run with a select comes out when the select has a selection and the run without it comes out. -/
theorem foldlM_around {count : Option CountMode} {head : Bool} {plain : Parsed}
    (apart : ∀ segment ∈ front ++ back, segment.isSelect = false)
    (chosen : ∀ parsed, applySegment options parsed (.call "select" values) = .ok (selecting selection count head parsed))
    (without : (front ++ back).foldlM (applySegment options) parsed = .ok plain) :
    ∃ next, (front ++ .call "select" values :: back).foldlM (applySegment options) parsed = .ok next := by
  obtain ⟨before, behind⟩ := List.forall_mem_append.mp apart
  rw [List.foldlM_append] at without
  obtain ⟨met, reached, without⟩ := ok_of_bind without
  obtain ⟨next, folded, _⟩ := @foldlM_of_frame _ _ _ (selecting selection count head met) _ behind without rfl
  refine ⟨next, ?_⟩
  rw [List.foldlM_append, reached, ok_bind, List.foldlM_cons, chosen met, ok_bind, folded]

/-- The condition under which a select may stand in front of the calls `between` or behind them. -/
structure IsMovable (names : List String) (first between last : List Call) : Prop where
  edits : ∀ edit ∈ between.flatMap Call.edits, edit.1 ∈ names → IsReset (last.flatMap Call.edits) edit
  rows : between.any Call.mutates → first.any Call.mutates

theorem around_eq {count : Option CountMode} {head : Bool} {first between last : List Call} {start plain : Query}
    (listed : IsListed selection) :
    around selection count head first (between ++ last) start plain =
        around selection count head (first ++ between) last start plain ↔
      IsMovable (selection.embeds.map name) first between last := by
  have unset := @Rest.editAll_front (between.flatMap Call.edits) (last.flatMap Call.edits) selection.embeds
    listed.unlimited fun edit member => by
      obtain ⟨call, _, inside⟩ := List.mem_flatMap.mp member
      exact Call.edits_full edit inside
  simp only [around, Query.mk.injEq, true_and, List.flatMap_append, List.filter_append, List.append_assoc,
    List.append_cancel_left_eq, List.append_cancel_right_eq, List.any_append, unset]
  constructor
  · rintro ⟨_, embeds, rows⟩
    refine ⟨embeds, fun mutates => ?_⟩
    rw [mutates, Bool.or_true] at rows
    exact rows
  · rintro ⟨embeds, rows⟩
    refine ⟨?_, embeds, ?_⟩
    · rw [List.filter_eq_self]
      intro filter member
      obtain ⟨call, listed, inside⟩ := List.mem_flatMap.mp member
      unfold isAddressed
      cases made : filterEdit? filter with
      | none => rfl
      | some edit =>
          -- An addressed filter is an edit, and no limit.
          have asked := Call.edit_of_filter inside made
          by_cases here : edit.1 ∈ selection.embeds.map name
          · obtain ⟨count, again, set, _⟩ := embeds edit (List.mem_flatMap.mpr ⟨call, listed, asked⟩) here
            obtain ⟨parts, _, rfl⟩ := Option.map_eq_some_iff.mp made
            cases set
          · simpa using here
    · cases mutates : between.any Call.mutates with
      | false => rw [Bool.or_false]
      | true => rw [rows mutates, Bool.true_or]

theorem finish_around {count : Option CountMode} {head : Bool} {front back : List Call} {start plain : Query}
    (listed : IsListed selection) (reached : parsed.query = around selection count head front back start plain) :
    finish parsed = parsed := by
  have names : parsed.query.embeds.map name = selection.embeds.map name := by
    rw [reached]
    exact Rest.map_name_editAll _ _
  have columns : parsed.query.columns = selection.columns := by rw [reached]; rfl
  unfold finish
  refine if_neg ?_
  simp only [Bool.and_eq_true, List.isEmpty_iff, decide_eq_true_eq]
  rintro ⟨⟨_, none⟩, bare⟩
  rw [bare, List.map_nil, eq_comm, List.map_eq_nil_iff] at names
  rcases listed.full with some | some
  · exact some (columns.symm.trans none)
  · exact some names

/-- A chain of some segments behind the root of a query. -/
structure IsChain (options : Options) (text : String) (root : QueryRoot) (behind : List Segment) : Prop where
  small : text.utf8ByteSize ≤ options.maxInputLength
  split : ∃ found before, segments options.maxDepth (normalize text.toList) = .ok found ∧
    splitRoot found = some (before, .query root, behind)

theorem IsChain.readQuery_eq {text : String} {behind : List Segment} (chain : IsChain options text root behind) :
    ∃ warnings, readQuery options text = (startQuery root >>= fun query =>
      (behind.foldlM (applySegment options) { query, warnings }).map finish) := by
  obtain ⟨small, found, before, split, rooted⟩ := chain
  refine ⟨before.filterMap leadingWarning?, ?_⟩
  rw [readQuery, read, Options.checkSize_ok small, ok_bind]
  simp only [split, ok_bind, rooted, foldChain]
  cases startQuery root with
  | error fault => rfl
  | ok query =>
      simp only [ok_bind]
      cases behind.foldlM (applySegment options) { query, warnings := before.filterMap leadingWarning? } <;> rfl

section Read

variable {text : String} {count : Option CountMode} {head : Bool}
  (apart : ∀ segment ∈ front ++ back, segment.isSelect = false)
  (chosen : ∀ parsed, applySegment options parsed (.call "select" values) =
    .ok (selecting selection count head parsed))

include apart chosen

theorem IsChain.read_around (chain : IsChain options text root (front ++ .call "select" values :: back))
    (listed : IsListed selection) (found : readQuery options text = .ok parsed) :
    ∃ start plain, startQuery root = .ok start ∧
      (front ++ back).foldlM (applySegment options) { query := start } = .ok plain ∧
      parsed.query = around selection count head (callsOf front) (callsOf back) start plain.query := by
  obtain ⟨warnings, whole⟩ := chain.readQuery_eq
  rw [whole] at found
  obtain ⟨start, started, found⟩ := ok_of_bind found
  obtain ⟨reached, folded, rfl⟩ := ok_of_map found
  obtain ⟨noted, without, same⟩ := @query_around _ _ _ _ _ _ _ _ _ (isStart_startQuery started) apart chosen folded
  obtain ⟨plain, silent, kept⟩ := @foldlM_of_frame _ _ _ { query := start } _ apart without rfl
  refine ⟨start, plain, started, silent, ?_⟩
  rw [finish_around listed same, same, around, around, kept]

theorem IsChain.accepts_around (chain : IsChain options text root (front ++ .call "select" values :: back))
    {start : Query} {plain : Parsed} (started : startQuery root = .ok start)
    (without : (front ++ back).foldlM (applySegment options) { query := start } = .ok plain) :
    ∃ parsed, readQuery options text = .ok parsed := by
  obtain ⟨warnings, whole⟩ := chain.readQuery_eq
  obtain ⟨noted, silent, _⟩ := @foldlM_of_frame _ _ _ { query := start, warnings } _ apart without rfl
  obtain ⟨reached, folded⟩ := foldlM_around apart chosen silent
  refine ⟨finish reached, ?_⟩
  rw [whole, started, ok_bind, folded]
  rfl

end Read

/-- Wherever it stands, a select that fails fails the chain. -/
theorem IsChain.not_read {text : String} (chain : IsChain options text root (front ++ .call "select" values :: back))
    (fails : ∀ parsed next, applySegment options parsed (.call "select" values) ≠ .ok next) :
    ∀ parsed, readQuery options text ≠ .ok parsed := by
  intro parsed found
  obtain ⟨warnings, whole⟩ := chain.readQuery_eq
  rw [whole] at found
  obtain ⟨start, _, found⟩ := ok_of_bind found
  obtain ⟨reached, folded, _⟩ := ok_of_map found
  rw [List.foldlM_append] at folded
  obtain ⟨met, _, folded⟩ := ok_of_bind folded
  rw [List.foldlM_cons] at folded
  obtain ⟨next, applied, _⟩ := ok_of_bind folded
  exact fails met next applied

/-- Two chains that differ in the place of their only select are both read or both refused, and say the
same just when no call between the two places is for an embed of the select, a limit that is set again
excepted, or makes the query a mutation first. -/
theorem select_moved {early late : String}
    (apart : ∀ segment ∈ first ++ (between ++ last), segment.isSelect = false)
    (before : IsChain options early root (first ++ .call "select" values :: (between ++ last)))
    (behind : IsChain options late root (first ++ between ++ .call "select" values :: last)) :
    ((∃ parsed, readQuery options early = .ok parsed) ↔ ∃ parsed, readQuery options late = .ok parsed) ∧
      ∀ soon later, readQuery options early = .ok soon → readQuery options late = .ok later →
        (soon.query = later.query ↔
          IsMovable (soon.query.embeds.map name) (callsOf first) (callsOf between) (callsOf last)) := by
  have beside : ∀ segment ∈ first ++ between ++ last, segment.isSelect = false := by
    rwa [List.append_assoc]
  -- A select that is refused is refused at both places.
  rcases select_cases options values with fails | ⟨selection, count, head, listed, chosen⟩
  · have refused := before.not_read fails
    refine ⟨⟨fun found => ?_, fun found => ?_⟩, fun soon later found => absurd found (refused soon)⟩
    · exact absurd found.choose_spec (refused _)
    · exact absurd found.choose_spec (behind.not_read fails _)
  · refine ⟨⟨?_, ?_⟩, ?_⟩
    · rintro ⟨parsed, found⟩
      obtain ⟨start, plain, started, without, _⟩ := before.read_around apart chosen listed found
      rw [← List.append_assoc] at without
      exact behind.accepts_around beside chosen started without
    · rintro ⟨parsed, found⟩
      obtain ⟨start, plain, started, without, _⟩ := behind.read_around beside chosen listed found
      rw [List.append_assoc] at without
      exact before.accepts_around apart chosen started without
    · intro soon later foundSoon foundLater
      obtain ⟨start, plain, started, without, reads⟩ := before.read_around apart chosen listed foundSoon
      obtain ⟨same, equal, again, also, query⟩ := behind.read_around beside chosen listed foundLater
      obtain rfl := Except.ok.inj (started.symm.trans again)
      rw [List.append_assoc, without] at also
      obtain rfl := Except.ok.inj also
      have names : soon.query.embeds.map name = selection.embeds.map name := by
        rw [reads]
        exact Rest.map_name_editAll _ _
      rw [callsOf_append] at reads query
      rw [names, ← around_eq listed, ← reads, query]

/-- The segments of a chain on table `a`. -/
def sampleSegments (calls : List Segment) : List Segment :=
  .property "db" :: .call "from" [.string "a"] :: calls

theorem isChain_sample {text : String} {calls : List Segment} (small : text.utf8ByteSize ≤ 65536)
    (split : segments 32 (normalize text.toList) = .ok (sampleSegments calls)) :
    IsChain {} text (.table [.string "a"]) calls where
  small := small
  split := ⟨_, _, split, rfl⟩

/-- An order of the main table may stand on either side. -/
theorem select_moved_over_order :
    ∃ soon later, readQuery {} "db.from('a').select('p(y)').order('x')" = .ok soon ∧
      readQuery {} "db.from('a').order('x').select('p(y)')" = .ok later ∧ soon.query = later.query := by
  have before := @isChain_sample "db.from('a').select('p(y)').order('x')"
    [.call "select" [.string "p(y)"], .call "order" [.string "x"]] (by decide +kernel) (by decide +kernel)
  have behind := @isChain_sample "db.from('a').order('x').select('p(y)')"
    [.call "order" [.string "x"], .call "select" [.string "p(y)"]] (by decide +kernel) (by decide +kernel)
  obtain ⟨accepted, same⟩ := @select_moved {} (.table [.string "a"]) [] [.call "order" [.string "x"]] []
    [.string "p(y)"] _ _ (by decide) before behind
  have reads : (readQuery {} "db.from('a').select('p(y)').order('x')").toOption.isSome = true := by
    decide +kernel
  cases early : readQuery {} "db.from('a').select('p(y)').order('x')" with
  | error fault =>
      rw [early] at reads
      cases reads
  | ok soon =>
      obtain ⟨later, late⟩ := accepted.mp ⟨soon, early⟩
      refine ⟨soon, later, rfl, late, (same soon later early late).mpr ⟨?_, ?_⟩⟩
      · exact List.forall_mem_nil _
      · exact fun mutates => absurd mutates (by decide)

/-- A filter of an embed reaches it from behind the select, and from the front stays with the main table. -/
theorem select_moved_past_filter :
    segments 32 (normalize "db.from('a').select('p(y)').eq('p.y',true)".toList) =
        .ok (sampleSegments [.call "select" [.string "p(y)"], .call "eq" [.string "p.y", .bool true]]) ∧
      segments 32 (normalize "db.from('a').eq('p.y',true).select('p(y)')".toList) =
        .ok (sampleSegments [.call "eq" [.string "p.y", .bool true], .call "select" [.string "p(y)"]]) ∧
      (readQuery {} "db.from('a').select('p(y)').eq('p.y',true)").map (fun parsed =>
          (parsed.query.filters, parsed.query.embeds.map Embed.filters)) =
        .ok ([], [[{ column := "y", op := .eq, value := .bool true }]]) ∧
      (readQuery {} "db.from('a').eq('p.y',true).select('p(y)')").map (fun parsed =>
          (parsed.query.filters, parsed.query.embeds.map Embed.filters)) =
        .ok ([{ column := "p.y", op := .eq, value := .bool true }], [[]]) := by
  refine ⟨?_, ?_, ?_, ?_⟩ <;> decide +kernel

end QueryNotation.Chain
