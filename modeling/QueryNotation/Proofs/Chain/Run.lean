import QueryNotation.Chain.Reader
import QueryNotation.Proofs.Outcome
import QueryNotation.Proofs.Rest.Edits

namespace QueryNotation.Chain

/-! # Runs of calls without a select

What the calls of a run do to the embeds, and which filters they leave to the main table, is told by
their meanings and by the names of the embeds alone.
-/

open Text Embed
open Rest (EmbedEdit editAll)

variable {options : Options} {parsed next other : Parsed}

/-- The edit that a filter asks for whose column has a point: the name of an embed stands in front
of it. -/
def filterEdit? (filter : Filter) : Option (String × EmbedEdit) :=
  (cutFirst '.' filter.column.toList).map fun (name, column) =>
    (String.ofList name, .filter { filter with column := String.ofList column })

def isAddressed (names : List String) (filter : Filter) : Bool :=
  (filterEdit? filter).any fun edit => edit.1 ∈ names

theorem query_changeEmbed? (name message : String) (edit : EmbedEdit) (parsed : Parsed) :
    ((changeEmbed? name edit.apply parsed).getD (parsed.warn message)).query =
      { parsed.query with embeds := editAll [(name, edit)] parsed.query.embeds } := by
  have made : editAll [(name, edit)] parsed.query.embeds =
      (updateFirst? (·.name = name) (fun embed => some (edit.apply embed)) parsed.query.embeds).getD
        parsed.query.embeds := rfl
  rw [changeEmbed?, made]
  cases updateFirst? (·.name = name) (fun embed => some (edit.apply embed)) parsed.query.embeds <;> rfl

theorem query_routeFilter (parsed : Parsed) (filter : Filter) :
    (routeFilter parsed filter).query = { parsed.query with
      embeds := editAll (filterEdit? filter).toList parsed.query.embeds
      filters := parsed.query.filters ++
        [filter].filter fun filter => !isAddressed (parsed.query.embeds.map name) filter } := by
  unfold routeFilter isAddressed filterEdit?
  cases cut : cutFirst '.' filter.column.toList with
  | none => simp [editAll, cut]
  | some parts =>
      obtain ⟨name, column⟩ := parts
      have made : editAll [(String.ofList name, .filter { filter with column := String.ofList column })]
          parsed.query.embeds = (updateFirst? (·.name = String.ofList name) (fun embed =>
            some { embed with filters := embed.filters ++ [{ filter with column := String.ofList column }] })
              parsed.query.embeds).getD parsed.query.embeds := rfl
      simp only [Option.bind_some, Option.map_some, Option.toList_some, made, changeEmbed?, cut,
        List.filter_singleton, Option.any_some]
      cases found : updateFirst? (·.name = String.ofList name) (fun embed =>
          some { embed with filters := embed.filters ++ [{ filter with column := String.ofList column }] })
            parsed.query.embeds with
      | none => simp [updateFirst?_eq_none.mp found]
      | some changed =>
          have listed : String.ofList name ∈ parsed.query.embeds.map Embed.name := by
            by_contra absent
            rw [updateFirst?_eq_none.mpr absent] at found
            cases found
          simp [listed]

namespace Call

def isSelect : Call → Bool
  | .select .. => true
  | _ => false

def filters : Call → List Filter
  | .filter added => [added]
  | .equal row => row.map fun (column, value) => { column, op := .eq, value := Value.ofJson value }
  | _ => []

def edits : Call → List (String × EmbedEdit)
  | .order column ascending nullsFirst (some table) =>
    let nulls := nullsFirst.map fun first => if first then NullsOrder.first else .last
    [(table, .order [{ column, descending := !ascending, nulls }])]
  | .limit count (some table) => [(table, .limit count)]
  | call => call.filters.filterMap filterEdit?

def mutates : Call → Bool
  | .insert _ | .upsert .. | .update _ | .delete => true
  | _ => false

/-- What a call other than a select says of the query as a whole. -/
def told (call : Call) (query : Query) : Query :=
  match call with
  | .order column ascending nullsFirst none =>
    let nulls := nullsFirst.map fun first => if first then NullsOrder.first else .last
    { query with order := query.order ++ [{ column, descending := !ascending, nulls }] }
  | .limit count none => { query with limit := some count }
  | .range first last none => { query with range := some (first, last) }
  | .single => { query with single := some .one }
  | .maybeSingle => { query with single := some .maybeOne }
  | .insert body => { query with operation := .insert, body := some body }
  | .upsert body onConflict ignoreDuplicates =>
    { query with operation := .upsert, body := some body, onConflict, ignoreDuplicates }
  | .update row => { query with operation := .update, body := some (.single row) }
  | .delete => { query with operation := .delete }
  | _ => query

/-- The query after a call other than a select. -/
def onQuery (call : Call) (query : Query) : Query :=
  { call.told query with
    embeds := editAll call.edits query.embeds
    filters := query.filters ++
      call.filters.filter fun filter => !isAddressed (query.embeds.map name) filter }

/-- A call may be refused, whatever the query. -/
def fault? (options : Options) : Call → Option Fault
  | .range first last _ => if last < first then some (.backwardRange first last) else none
  | .unknown name => if options.strictMethods then some (.unknownMethod name) else none
  | _ => none

/-- A call as a whole leaves columns, filters and embeds alone, and what is asked of the answer. -/
theorem told_eq (call : Call) (query : Query) :
    call.told query = { call.told query with
      columns := query.columns
      filters := query.filters
      embeds := query.embeds
      count := query.count
      head := query.head
      returning := query.returning } := by
  cases call with
  | order _ _ _ table | limit _ table | range _ _ table => cases table <;> rfl
  | _ => rfl

theorem onQuery_unfiltered {call : Call} {query : Query} (none : call.filters = []) :
    call.onQuery query = { call.told query with embeds := editAll call.edits query.embeds } := by
  rw [onQuery, none, List.filter_nil, List.append_nil, call.told_eq]

theorem onQuery_plain {call : Call} {query : Query} (none : call.filters = []) (alone : call.edits = []) :
    call.onQuery query = call.told query := by
  rw [onQuery_unfiltered none, alone, call.told_eq]
  rfl

theorem isMutation_told (call : Call) (query : Query) :
    (call.told query).operation.isMutation = (query.operation.isMutation || call.mutates) := by
  cases call with
  | order _ _ _ table | limit _ table | range _ _ table => cases table <;> exact (Bool.or_false _).symm
  | insert | upsert | update | delete => exact (Bool.or_true _).symm
  | _ => exact (Bool.or_false _).symm

/-- What is addressed to an embed adds something to it or sets its limit. -/
theorem edits_full {call : Call} : ∀ edit ∈ call.edits, edit.2 ≠ .order [] := by
  intro edit member
  unfold edits at member
  split at member
  · rw [List.mem_singleton.mp member]
    simp
  · rw [List.mem_singleton.mp member]
    simp
  · obtain ⟨filter, _, made⟩ := List.mem_filterMap.mp member
    obtain ⟨parts, _, rfl⟩ := Option.map_eq_some_iff.mp made
    simp

theorem edit_of_filter {call : Call} {filter : Filter} {edit : String × EmbedEdit}
    (member : filter ∈ call.filters) (made : filterEdit? filter = some edit) : edit ∈ call.edits := by
  unfold edits
  split
  · cases member
  · cases member
  · exact List.mem_filterMap.mpr ⟨filter, member, made⟩

end Call

def Segment.call? : Segment → Option Call
  | .property _ => none
  | .call name arguments => (Call.classify name arguments).toOption

def callsOf (segments : List Segment) : List Call :=
  segments.filterMap Segment.call?

def Segment.isSelect : Segment → Bool
  | .property _ => false
  | .call name _ => name = "select"

theorem isSelect_of_classify {method : String} {values : List Json} {call : Call}
    (other : method ≠ "select") (classified : Call.classify method values = .ok call) :
    call.isSelect = false := by
  unfold Call.classify at classified
  split at classified
  · obtain ⟨column, _, classified⟩ := ok_of_bind classified
    obtain ⟨value, _, classified⟩ := ok_of_bind classified
    obtain rfl := Except.ok.inj classified
    rfl
  · unfold Call.ofMethod at classified
    split at classified
    · exact absurd rfl other
    all_goals first
      | cases classified; done
      | (obtain rfl := Except.ok.inj classified; rfl)
      | (obtain ⟨_, _, classified⟩ := ok_of_bind classified
         first
          | (obtain rfl := Except.ok.inj classified; rfl)
          | (obtain ⟨_, _, classified⟩ := ok_of_bind classified
             obtain rfl := Except.ok.inj classified; rfl))

/-- What the calls of a run without a select do to what a select sets or looks at. -/
structure Folds (calls : List Call) (before after : Query) : Prop where
  columns : after.columns = before.columns
  count : after.count = before.count
  head : after.head = before.head
  returning : after.returning = before.returning
  mutation : after.operation.isMutation = (before.operation.isMutation || calls.any Call.mutates)
  embeds : after.embeds = editAll (calls.flatMap Call.edits) before.embeds
  filters : after.filters = before.filters ++
    (calls.flatMap Call.filters).filter fun filter => !isAddressed (before.embeds.map name) filter

namespace Folds

variable {calls more : List Call} {before between after : Query}

theorem nil (query : Query) : Folds [] query query where
  columns := rfl
  count := rfl
  head := rfl
  returning := rfl
  mutation := (Bool.or_false _).symm
  embeds := rfl
  filters := (List.append_nil _).symm

theorem trans (front : Folds calls before between) (back : Folds more between after) :
    Folds (calls ++ more) before after where
  columns := back.columns.trans front.columns
  count := back.count.trans front.count
  head := back.head.trans front.head
  returning := back.returning.trans front.returning
  mutation := by rw [back.mutation, front.mutation, List.any_append, Bool.or_assoc]
  embeds := by rw [back.embeds, front.embeds, List.flatMap_append, Rest.editAll_append]
  filters := by
    rw [back.filters, front.filters, front.embeds, Rest.map_name_editAll, List.flatMap_append,
      List.filter_append, List.append_assoc]

theorem onQuery (call : Call) (query : Query) : Folds [call] query (call.onQuery query) where
  columns := (congrArg Query.columns (call.told_eq query) :)
  count := (congrArg Query.count (call.told_eq query) :)
  head := (congrArg Query.head (call.told_eq query) :)
  returning := (congrArg Query.returning (call.told_eq query) :)
  mutation := by
    rw [List.any_cons, List.any_nil, Bool.or_false]
    exact call.isMutation_told query
  embeds := by rw [List.flatMap_singleton]; rfl
  filters := by rw [List.flatMap_singleton]; rfl

end Folds

theorem query_routeFilters (filters : List Filter) (parsed : Parsed) :
    (filters.foldl routeFilter parsed).query = { parsed.query with
      embeds := editAll (filters.filterMap filterEdit?) parsed.query.embeds
      filters := parsed.query.filters ++
        filters.filter fun filter => !isAddressed (parsed.query.embeds.map name) filter } := by
  induction filters generalizing parsed with
  | nil =>
      rw [List.filterMap_nil, List.filter_nil, List.append_nil]
      rfl
  | cons filter rest induction =>
      have split : (filter :: rest).filterMap filterEdit? =
          (filterEdit? filter).toList ++ rest.filterMap filterEdit? := by
        rw [List.filterMap_cons]
        cases filterEdit? filter <;> rfl
      have both (test : Filter → Bool) : (filter :: rest).filter test = [filter].filter test ++ rest.filter test :=
        @List.filter_append _ _ [filter] rest
      rw [List.foldl_cons, induction, query_routeFilter, split, both, Rest.editAll_append]
      simp only [Rest.map_name_editAll, List.append_assoc]

theorem query_setOperation (operation : Operation) (parsed : Parsed) :
    (setOperation operation parsed).query = { parsed.query with operation } := by
  simp only [setOperation]
  split <;> rfl

theorem query_equal (row : Json.Row) (parsed : Parsed) :
    (row.foldl (fun parsed (column, value) =>
      routeFilter parsed { column, op := .eq, value := Value.ofJson value }) parsed).query =
      ((Call.equal row).filters.foldl routeFilter parsed).query := by
  rw [Call.filters, List.foldl_map]

theorem query_applyOrder (item : OrderItem) (name : String) (parsed : Parsed) :
    (applyOrder item (some name) parsed).query =
      { parsed.query with embeds := editAll [(name, .order [item])] parsed.query.embeds } :=
  query_changeEmbed? name _ (.order [item]) parsed

theorem query_applyLimit (count : UInt64) (name : String) (parsed : Parsed) :
    (applyLimit count (some name) parsed).query =
      { parsed.query with embeds := editAll [(name, .limit count)] parsed.query.embeds } :=
  query_changeEmbed? name _ (.limit count) parsed

theorem query_setBody (operation : Operation) (body : Body) (parsed : Parsed) :
    (setBody operation body parsed).query = { parsed.query with operation, body := some body } := by
  simp only [setBody, query_setOperation]

theorem query_applyRange (first last : UInt64) (table : Option String) (options : Options) (parsed : Parsed) :
    (applyRange first last table parsed).map Parsed.query =
      match (Call.range first last table).fault? options with
      | some fault => .error fault
      | none => .ok ((Call.range first last table).told parsed.query) := by
  simp only [applyRange, Call.fault?]
  by_cases backward : last < first
  · rw [if_pos backward, if_pos backward]
    rfl
  · rw [if_neg backward, if_neg backward]
    cases table <;> rfl

/-- What a call other than a select does: it is refused, or changes the query as it says. -/
theorem query_applyCall {call : Call} (apart : call.isSelect = false) (options : Options) (parsed : Parsed) :
    (applyCall options parsed call).map Parsed.query =
      match call.fault? options with
      | some fault => .error fault
      | none => .ok (call.onQuery parsed.query) := by
  cases call with
  | select columns count head => cases apart
  -- Only these two calls have filters.
  | filter filter => exact congrArg Except.ok (query_routeFilters [filter] parsed)
  | equal row => exact congrArg Except.ok ((query_equal row parsed).trans (query_routeFilters _ parsed))
  | order column ascending nullsFirst table =>
      refine congrArg Except.ok (Eq.trans ?_ (Call.onQuery_unfiltered rfl).symm)
      cases table with
      | none => rfl
      | some name => exact query_applyOrder _ name parsed
  | limit count table =>
      refine congrArg Except.ok (Eq.trans ?_ (Call.onQuery_unfiltered rfl).symm)
      cases table with
      | none => rfl
      | some name => exact query_applyLimit count name parsed
  | range first last table =>
      rw [Call.onQuery_plain rfl rfl]
      exact query_applyRange first last table options parsed
  | single => exact congrArg Except.ok (@Call.onQuery_plain .single _ rfl rfl).symm
  | maybeSingle => exact congrArg Except.ok (@Call.onQuery_plain .maybeSingle _ rfl rfl).symm
  | insert body =>
      rw [Call.onQuery_plain rfl rfl]
      exact congrArg Except.ok (query_setBody .insert body parsed)
  | upsert body onConflict ignoreDuplicates =>
      rw [Call.onQuery_plain rfl rfl]
      exact congrArg (fun query => Except.ok { query with onConflict, ignoreDuplicates })
        (query_setBody .upsert body parsed)
  | update row =>
      rw [Call.onQuery_plain rfl rfl]
      exact congrArg Except.ok (query_setBody .update (.single row) parsed)
  | delete =>
      rw [Call.onQuery_plain rfl rfl]
      exact congrArg Except.ok (query_setOperation .delete parsed)
  | unknown name =>
      rw [Call.onQuery_plain rfl rfl, applyCall]
      unfold Call.fault?
      split <;> rfl

theorem query_of_applyCall {call : Call} (apart : call.isSelect = false)
    (applied : applyCall options parsed call = .ok next) : next.query = call.onQuery parsed.query := by
  have whole := query_applyCall apart options parsed
  rw [applied] at whole
  cases refused : call.fault? options with
  | some fault => rw [refused] at whole; cases whole
  | none => rw [refused] at whole; exact Except.ok.inj whole

/-- A call is a select, or changes the query as it says. -/
theorem applyCall_cases {call : Call} (applied : applyCall options parsed call = .ok next) :
    (∃ columns count head, call = .select columns count head ∧
      applySelect options.maxDepth columns count head parsed = .ok next) ∨
    next.query = call.onQuery parsed.query := by
  cases chooses : call.isSelect with
  | false => exact .inr (query_of_applyCall chooses applied)
  | true =>
      cases call with
      | select columns count head => exact .inl ⟨columns, count, head, rfl, applied⟩
      | _ => cases chooses

theorem folds_applySegment {segment : Segment} (apart : segment.isSelect = false)
    (applied : applySegment options parsed segment = .ok next) :
    Folds (callsOf [segment]) parsed.query next.query := by
  cases segment with
  | property name =>
      obtain rfl := Except.ok.inj applied
      exact .nil parsed.query
  | call method values =>
      obtain ⟨call, classified, applied⟩ := ok_of_bind applied
      have other : method ≠ "select" := of_decide_eq_false apart
      have meaning : callsOf [.call method values] = [call] := by
        have known : Segment.call? (.call method values) = some call := toOption_of_ok classified
        rw [callsOf, List.filterMap_cons_some known, List.filterMap_nil]
      rw [meaning]
      rw [query_of_applyCall (isSelect_of_classify other classified) applied]
      exact .onQuery call parsed.query

/-- A run without a select does what its calls mean. -/
theorem folds_foldlM {segments : List Segment} (apart : ∀ segment ∈ segments, segment.isSelect = false)
    (folded : segments.foldlM (applySegment options) parsed = .ok next) :
    Folds (callsOf segments) parsed.query next.query := by
  induction segments generalizing parsed with
  | nil =>
      obtain rfl := Except.ok.inj folded
      exact .nil parsed.query
  | cons segment rest induction =>
      rw [List.foldlM_cons] at folded
      obtain ⟨between, applied, folded⟩ := ok_of_bind folded
      have here := folds_applySegment (apart segment (by simp)) applied
      have behind := induction (fun other member => apart other (by simp [member])) folded
      have both : callsOf (segment :: rest) = callsOf [segment] ++ callsOf rest :=
        @List.filterMap_append _ _ [segment] rest Segment.call?
      rw [both]
      exact here.trans behind

/-- The query without what a select sets or looks at. -/
def frame (query : Query) : Query :=
  { query with columns := [], filters := [], embeds := [], count := none, head := false, returning := false }

/-- Where a run comes out, but for what a select sets or looks at. -/
def framed (found : Outcome Parsed) : Outcome Query :=
  found.map fun parsed => frame parsed.query

theorem frame_onQuery (call : Call) (query : Query) :
    frame (call.onQuery (frame query)) = frame (call.onQuery query) := by
  cases call with
  | order _ _ _ table | limit _ table | range _ _ table => cases table <;> rfl
  | _ => rfl

theorem framed_applyCall {call : Call} (apart : call.isSelect = false) :
    framed (applyCall options parsed call) = framed (applyCall options { query := frame parsed.query } call) := by
  have split (found : Outcome Parsed) : framed found = (found.map Parsed.query).map frame := by
    cases found <;> rfl
  rw [split, split, query_applyCall apart, query_applyCall apart]
  cases call.fault? options with
  | some fault => rfl
  | none => exact congrArg Except.ok (frame_onQuery call parsed.query).symm

theorem framed_applySegment {segment : Segment} (apart : segment.isSelect = false)
    (same : frame parsed.query = frame other.query) :
    framed (applySegment options parsed segment) = framed (applySegment options other segment) := by
  cases segment with
  | property name => exact congrArg Except.ok same
  | call method values =>
      rw [applySegment, applySegment]
      cases classified : Call.classify method values with
      | error fault => rfl
      | ok call =>
          have silent := isSelect_of_classify (of_decide_eq_false apart) classified
          rw [ok_bind, ok_bind, framed_applyCall silent, same, ← framed_applyCall silent]

/-- A run without a select comes out the same for queries that differ in nothing else. -/
theorem foldlM_of_frame {segments : List Segment} (apart : ∀ segment ∈ segments, segment.isSelect = false)
    (folded : segments.foldlM (applySegment options) parsed = .ok next)
    (same : frame parsed.query = frame other.query) :
    ∃ last, segments.foldlM (applySegment options) other = .ok last ∧ frame last.query = frame next.query := by
  induction segments generalizing parsed other with
  | nil =>
      obtain rfl := Except.ok.inj folded
      exact ⟨other, rfl, same.symm⟩
  | cons segment rest induction =>
      rw [List.foldlM_cons] at folded
      obtain ⟨between, applied, folded⟩ := ok_of_bind folded
      have step := @framed_applySegment options parsed other segment (apart segment (by simp)) same
      rw [applied] at step
      obtain ⟨beside, also, equal⟩ := ok_of_map step.symm
      obtain ⟨last, behind, kept⟩ :=
        induction (fun other member => apart other (by simp [member])) folded equal.symm
      refine ⟨last, ?_, kept⟩
      rw [List.foldlM_cons, also, ok_bind, behind]

end QueryNotation.Chain
