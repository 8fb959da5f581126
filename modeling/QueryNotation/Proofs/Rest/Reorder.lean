import QueryNotation.Proofs.Request.QueryString
import QueryNotation.Proofs.Rest.Edit

namespace QueryNotation

/-! # Other orders of the parameters

Parameters that change different parts of a query may change places, so only the order within each
part counts, and the select list may stand behind what depends on it.
-/

section Steps

variable {State Item Part : Type} {part : Item → Part} {step : State → Item → State}

/-- A step may be made before all steps on other parts. -/
theorem foldl_step_first
    (apart : ∀ state first second, part first ≠ part second →
      step (step state first) second = step (step state second) first)
    {item : Item} {front : List Item} (others : ∀ other ∈ front, part other ≠ part item) (state : State) :
    step (front.foldl step state) item = front.foldl step (step state item) := by
  induction front generalizing state with
  | nil => rfl
  | cons first rest induction =>
      have here := others first (by simp)
      rw [List.foldl_cons, List.foldl_cons, induction fun other member => others other (by simp [member]),
        apart state first item here]

/-- Two runs end alike when they make the same steps on each part in the same order. -/
theorem foldl_same_parts [DecidableEq Part]
    (apart : ∀ state first second, part first ≠ part second →
      step (step state first) second = step (step state second) first)
    {items others : List Item} (same : ∀ each, others.filter (part · = each) = items.filter (part · = each))
    (state : State) : others.foldl step state = items.foldl step state := by
  induction others generalizing items state with
  | nil =>
      cases items with
      | nil => rfl
      | cons item rest =>
          have left := same (part item)
          simp at left
  | cons item rest induction =>
      have here := same (part item)
      rw [List.filter_cons_of_pos (by simp)] at here
      -- The first step on this part of the other run comes forward past steps on other parts.
      obtain ⟨front, back, shape, before, _, behind⟩ := List.filter_eq_cons_iff.mp here.symm
      have otherwise : ∀ other ∈ front, part other ≠ part item := by
        simpa using before
      have left : ∀ each, rest.filter (part · = each) = (front ++ back).filter (part · = each) := by
        intro each
        by_cases own : part item = each
        · subst own
          have none : front.filter (part · = part item) = [] :=
            List.filter_eq_nil_iff.mpr (by simpa using otherwise)
          rw [List.filter_append, none, List.nil_append]
          exact behind.symm
        · have all := same each
          rw [shape, List.filter_cons_of_neg (by simpa using own), List.filter_append,
            List.filter_cons_of_neg (by simpa using own), ← List.filter_append] at all
          exact all
      rw [List.foldl_cons, induction left, shape, List.foldl_append, List.foldl_append, List.foldl_cons,
        foldl_step_first apart otherwise]

end Steps

namespace Rest

open Text Embed

variable {bound : Nat} {embeds : List Embed} {parsed : Parsed}

section Warnings

variable {first second : Parsed} (same : first.query = second.query)

include same

theorem query_applyPreference (isPost : Bool) (preference : List Char) :
    (applyPreference isPost first preference).query = (applyPreference isPost second preference).query := by
  obtain ⟨query, said⟩ := first
  obtain ⟨_, told⟩ := second
  obtain rfl : query = _ := same
  unfold applyPreference
  dsimp only
  split
  · split <;> rfl
  · split <;> rfl
  · split <;> rfl
  all_goals rfl

theorem query_foldl_preferences (isPost : Bool) (preferences : List (List Char)) :
    (preferences.foldl (applyPreference isPost) first).query =
      (preferences.foldl (applyPreference isPost) second).query := by
  induction preferences generalizing first second with
  | nil => exact same
  | cons preference rest induction => exact induction (query_applyPreference same isPost preference)

theorem query_applySingle (isGet : Bool) :
    (applySingle isGet first).query = (applySingle isGet second).query := by
  obtain ⟨query, said⟩ := first
  obtain ⟨_, told⟩ := second
  obtain rfl : query = _ := same
  unfold applySingle
  dsimp only
  split <;> rfl

theorem query_prefer (request : RawRequest) : (prefer request first).query = (prefer request second).query := by
  unfold prefer
  cases request.header? "Prefer" with
  | none => exact same
  | some header => exact query_foldl_preferences same _ _

theorem query_accept (request : RawRequest) : (accept request first).query = (accept request second).query := by
  unfold accept
  cases request.header? "Accept" with
  | none => exact same
  | some accept =>
      dsimp only
      split
      · exact query_applySingle same _
      · exact same

theorem query_applyHeaders (request : RawRequest) :
    (applyHeaders request first).map Parsed.query = (applyHeaders request second).map Parsed.query := by
  have preferred := query_prefer same request
  rw [applyHeaders_eq, applyHeaders_eq]
  unfold putRange
  cases request.header? "Range" with
  | none => exact congrArg Except.ok (query_accept preferred request)
  | some text =>
      dsimp only
      cases readRange text with
      | error fault => rfl
      | ok range =>
          refine congrArg Except.ok (query_accept ?_ request)
          exact congrArg (fun query : Query => { query with range := some range }) preferred

theorem query_applyBody (request : RawRequest) :
    (applyBody request first).map Parsed.query = (applyBody request second).map Parsed.query := by
  obtain ⟨query, said⟩ := first
  obtain ⟨_, told⟩ := second
  obtain rfl : query = _ := same
  unfold applyBody
  cases request.body with
  | none => rfl
  | some text =>
      dsimp only
      split
      · rfl
      · split
        · rfl
        · cases Json.read text.toList with
          | error failure => rfl
          | ok json =>
              dsimp only
              cases readBody query.operation json <;> rfl

end Warnings

/-- The parameters in another order, in which the filters of the main table, the parameters with one
key and those that address one embed each stand as before. -/
structure Reordered (bound : Nat) (embeds : List Embed) (pairs others : List (String × String)) : Prop where
  perm : others.Perm pairs
  filters : others.filter (isMainFilter bound embeds) = pairs.filter (isMainFilter bound embeds)
  keys : ∀ key, others.filter (·.1 = key) = pairs.filter (·.1 = key)
  embeds : ∀ place, others.filter (destination? embeds ·.1 = some place) =
    pairs.filter (destination? embeds ·.1 = some place)

/-- Only the keys and the places that occur need to be looked at. -/
theorem reordered_iff {pairs others : List (String × String)} :
    Reordered bound embeds pairs others ↔ others.Perm pairs ∧
      others.filter (isMainFilter bound embeds) = pairs.filter (isMainFilter bound embeds) ∧
      (∀ key ∈ pairs.map Prod.fst, others.filter (·.1 = key) = pairs.filter (·.1 = key)) ∧
      ∀ place ∈ pairs.filterMap (destination? embeds ·.1),
        others.filter (destination? embeds ·.1 = some place) =
          pairs.filter (destination? embeds ·.1 = some place) := by
  constructor
  · rintro ⟨perm, filters, keys, places⟩
    exact ⟨perm, filters, fun key _ => keys key, fun place _ => places place⟩
  · rintro ⟨perm, filters, keys, places⟩
    have otherwise {keep : String × String → Bool} (none : ∀ pair ∈ pairs, keep pair = false) :
        others.filter keep = pairs.filter keep := by
      have neither {list : List (String × String)} (inside : list ⊆ pairs) : list.filter keep = [] :=
        List.filter_eq_nil_iff.mpr fun pair member => by simp [none pair (inside member)]
      rw [neither perm.subset, neither (List.Subset.refl pairs)]
    refine ⟨perm, filters, fun key => ?_, fun place => ?_⟩
    · by_cases occurs : key ∈ pairs.map Prod.fst
      · exact keys key occurs
      · refine otherwise fun pair member => decide_eq_false ?_
        rintro rfl
        exact occurs (List.mem_map_of_mem member)
    · by_cases occurs : place ∈ pairs.filterMap (destination? embeds ·.1)
      · exact places place occurs
      · refine otherwise fun pair member => decide_eq_false fun leads => ?_
        exact occurs (List.mem_filterMap.mpr ⟨pair, member, leads⟩)

instance (pairs others : List (String × String)) : Decidable (Reordered bound embeds pairs others) :=
  decidable_of_iff _ reordered_iff.symm

namespace Reordered

variable {pairs others : List (String × String)} (order : Reordered bound embeds pairs others)

include order

/-- The parameters of each part stand as before. -/
theorem parts (part : Part) :
    others.filter (partOf bound embeds · = part) = pairs.filter (partOf bound embeds · = part) := by
  cases part with
  | filters =>
      have main (pair : String × String) :
          decide (partOf bound embeds pair = .filters) = isMainFilter bound embeds pair := by
        unfold partOf isMainFilter
        cases destination? embeds pair.1 <;> cases isFilterParam bound embeds pair <;> simp
      simp only [main]
      exact order.filters
  | parameter key =>
      have own (pair : String × String) : decide (partOf bound embeds pair = .parameter key) =
          (((destination? embeds pair.1).isNone && !isFilterParam bound embeds pair) && decide (pair.1 = key)) := by
        unfold partOf
        cases destination? embeds pair.1 <;> cases isFilterParam bound embeds pair <;> simp
      simp only [own]
      rw [← List.filter_filter, order.keys, List.filter_filter]
  | embed place =>
      have addressed (pair : String × String) : decide (partOf bound embeds pair = .embed place) =
          decide (destination? embeds pair.1 = some place) := by
        unfold partOf
        cases destination? embeds pair.1 <;> cases isFilterParam bound embeds pair <;> simp
      simp only [addressed]
      exact order.embeds place

theorem selectOf?_eq : selectOf? bound others = selectOf? bound pairs := by
  have first (list : List (String × String)) : selectOf? bound list =
      ((list.filter (·.1 = "select")).find? fun pair => (reservedFilter? bound pair.1 pair.2).isNone).map
        Prod.snd := by
    rw [selectOf?, List.find?_filter]
    simp only [Bool.decide_and, Bool.decide_eq_true]
  rw [first, first, order.keys]

theorem changed_eq (query : Query) : changed bound embeds others query = changed bound embeds pairs query :=
  have apart (query : Query) (one other : String × String)
      (differ : partOf bound embeds one ≠ partOf bound embeds other) :
      (change bound embeds other).apply ((change bound embeds one).apply query) =
        (change bound embeds one).apply ((change bound embeds other).apply query) :=
    apply_apart (isWithin_change bound embeds one) (isWithin_change bound embeds other) differ query
  foldl_same_parts apart order.parts query

end Reordered

/-- A request whose parameters stand in another order is accepted, too, and says the same query. -/
theorem read_permuted {options : Options} {request : RawRequest} {text : String}
    (accepted : read options request = .ok parsed)
    (chosen : chosenEmbeds options.maxDepth (QueryString.decode request.query) = .ok embeds)
    (order : Reordered options.maxDepth embeds (QueryString.decode request.query) (QueryString.decode text))
    (small : sizeOf { request with query := text } ≤ options.maxInputLength) :
    ∃ again, read options { request with query := text } = .ok again ∧ again.query = parsed.query := by
  obtain ⟨asked, started, applied, headed, reads⟩ := ok_of_read accepted
  obtain ⟨embedded, plain, _⟩ := start_chosen reads.begun
  obtain rfl := Except.ok.inj (chosen.symm.trans embedded)
  have same : start options asked (QueryString.decode text) = .ok started := by
    rw [← reads.begun, start, start, order.selectOf?_eq]
  obtain ⟨all, ends⟩ := changed_of_foldlM plain reads.params
  obtain ⟨applied', run', ends'⟩ := foldlM_of_edits plain fun pair member => all pair (order.perm.mem_iff.mp member)
  rw [order.changed_eq, ← ends] at ends'
  -- The two runs may have warned of other things, which the headers and the body do not look at.
  have heads := query_applyHeaders ends' request
  rw [reads.headers] at heads
  obtain ⟨headed', headers', alike⟩ := ok_of_map heads
  have bodies := query_applyBody alike request
  rw [reads.body] at bodies
  obtain ⟨again, body', last⟩ := ok_of_map bodies
  have back : ReadsRequest options { request with query := text } asked started applied' headed' again := {
    small
    line := reads.line
    begun := same
    params := run'
    headers := headers'
    body := body' }
  exact ⟨again, back.read_eq, last⟩

/-- The order of the parameters of a request does not matter: whichever other order they take in which
the filters of the main table, the parameters with one key and those that address one embed stay as
they are, some query string has them in it and takes no more bytes, and every one that has and that
is not too long is accepted and says the same query. -/
theorem read_reordered {options : Options} {request : RawRequest} {others : List (String × String)}
    (accepted : read options request = .ok parsed)
    (chosen : chosenEmbeds options.maxDepth (QueryString.decode request.query) = .ok embeds)
    (order : Reordered options.maxDepth embeds (QueryString.decode request.query) others) :
    (∃ text, QueryString.decode text = others ∧ text.utf8ByteSize ≤ request.query.utf8ByteSize) ∧
      ∀ text, QueryString.decode text = others →
        sizeOf { request with query := text } ≤ options.maxInputLength →
        ∃ again, read options { request with query := text } = .ok again ∧ again.query = parsed.query := by
  refine ⟨QueryString.exists_permuted request.query order.perm, fun text decoded small => ?_⟩
  subst decoded
  exact read_permuted accepted chosen order small

/-- A request whose select list stands behind parameters of the embed that it asks for. -/
def lateSelect : RawRequest where
  method := "GET"
  path := "/users"
  query := "posts.title=eq.x&limit=3&age=gt.3&posts.order=year.desc&select=name,posts(title)&posts.limit=2&name=eq.a"

def earlySelect : String :=
  "select=name,posts(title)&posts.title=eq.x&posts.order=year.desc&age=gt.3&name=eq.a&posts.limit=2&limit=3"

theorem read_reordered_select :
    ∃ parsed again, read {} lateSelect = .ok parsed ∧
      read {} { lateSelect with query := earlySelect } = .ok again ∧ again.query = parsed.query := by
  have late : QueryString.decode lateSelect.query =
      [("posts.title", "eq.x"), ("limit", "3"), ("age", "gt.3"), ("posts.order", "year.desc"),
        ("select", "name,posts(title)"), ("posts.limit", "2"), ("name", "eq.a")] := by decide +kernel
  have early : QueryString.decode earlySelect =
      [("select", "name,posts(title)"), ("posts.title", "eq.x"), ("posts.order", "year.desc"),
        ("age", "gt.3"), ("name", "eq.a"), ("posts.limit", "2"), ("limit", "3")] := by decide +kernel
  have list : Selection.ofText ({} : Options).maxDepth "name,posts(title)" = .ok
      { columns := [{ name := "name" }]
        embeds := [{ relation := "posts", columns := [{ name := "title" }] }] } := rfl
  have chosen : chosenEmbeds ({} : Options).maxDepth (QueryString.decode lateSelect.query) =
      .ok [{ relation := "posts", columns := [{ name := "title" }] }] := by
    have select : selectOf? ({} : Options).maxDepth (QueryString.decode lateSelect.query) =
        some "name,posts(title)" := by
      rw [late]
      decide +kernel
    rw [chosenEmbeds_eq, select]
    exact congrArg (Except.map Selection.embeds) list
  have order : Reordered ({} : Options).maxDepth [{ relation := "posts", columns := [{ name := "title" }] }]
      (QueryString.decode lateSelect.query) (QueryString.decode earlySelect) := by
    rw [late, early]
    decide +kernel
  have reads : (read {} lateSelect).map (fun _ => ()) = .ok () := by decide +kernel
  obtain ⟨parsed, accepted, _⟩ := ok_of_map reads
  obtain ⟨again, also, same⟩ := (read_reordered accepted chosen order).2 earlySelect rfl (by decide +kernel)
  exact ⟨parsed, again, accepted, also, same⟩

end Rest

end QueryNotation
