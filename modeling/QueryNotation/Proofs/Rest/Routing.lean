import QueryNotation.Proofs.EmbedPlace
import QueryNotation.Proofs.Rest.Frame
import QueryNotation.Proofs.Rest.Parameter
import QueryNotation.Proofs.SelectList

namespace QueryNotation.Rest

/-! # Where the filters of a request go

Each parameter that is a filter ends in one list of filters: that of the embed its key leads to, or
that of the main table.  There it stands in the order of the parameters, and no list has other
filters.
-/

open Text Embed

variable {bound : Nat} {parsed next : Parsed} {pair : String × String} {key : String}
  {embeds : List Embed}

/-- The embeds that a request asks for: those of its first `select` that is no filter on a column of
that name, and none without one. -/
def chosenEmbeds (bound : Nat) : List (String × String) → Outcome (List Embed)
  | [] => .ok []
  | (key, value) :: rest =>
    if key = "select" ∧ reservedFilter? bound key value = none then
      (Selection.ofText bound value).map Selection.embeds
    else chosenEmbeds bound rest

theorem chosenEmbeds_eq (bound : Nat) (pairs : List (String × String)) : chosenEmbeds bound pairs =
    match selectOf? bound pairs with
    | some list => (Selection.ofText bound list).map Selection.embeds
    | none => .ok [] := by
  induction pairs with
  | nil => rfl
  | cons pair rest induction =>
      obtain ⟨key, value⟩ := pair
      rw [chosenEmbeds, induction, selectOf?, selectOf?, List.find?_cons]
      by_cases list : key = "select" ∧ reservedFilter? bound key value = none
      · have found : (decide (key = "select") && (reservedFilter? bound key value).isNone) = true := by
          simpa using list
        simp only [if_pos list, found, Option.map_some]
      · have other : (decide (key = "select") && (reservedFilter? bound key value).isNone) = false := by
          simpa [Option.isSome_iff_ne_none] using list
        simp only [if_neg list, other]

/-- A parameter is a filter if its reserved name is a column, or if it is neither a parameter of the
request nor one of an embed. -/
def isFilterParam (bound : Nat) (embeds : List Embed) (pair : String × String) : Bool :=
  (reservedFilter? bound pair.1 pair.2).isSome ||
    (!reservedKeys.contains pair.1 &&
      match embedPath? embeds pair.1 with
      | some (_, rest) => !(["order", "limit", "offset"].contains rest)
      | none => true)

/-- The place of the embed that a key leads to; none for the main table. -/
def destination? (embeds : List Embed) (key : String) : Option Place :=
  (splitPath? key).bind fun (path, _) => place? (pathNames path) embeds

/-- The column that a filter is on: what is behind the path to its embed. -/
def columnOf (embeds : List Embed) (key : String) : String :=
  match embedPath? embeds key with
  | some (_, rest) => rest
  | none => key

/-- The filters among the parameters that belong to one place, in order. -/
def filtersFor (bound : Nat) (embeds : List Embed) (destination : Option Place)
    (pairs : List (String × String)) : Outcome (List Filter) :=
  (pairs.filter fun pair =>
    isFilterParam bound embeds pair && destination? embeds pair.1 = destination).mapM
      fun pair => readFilter (columnOf embeds pair.1) pair.2

def filtersIn? (query : Query) : Option Place → Option (List Filter)
  | none => some query.filters
  | some place => filtersAt? place query.embeds

theorem filtersFor_cons {destination : Option Place} {first more : List Filter}
    {pairs : List (String × String)} (here : filtersFor bound embeds destination [pair] = .ok first)
    (behind : filtersFor bound embeds destination pairs = .ok more) :
    filtersFor bound embeds destination (pair :: pairs) = .ok (first ++ more) := by
  unfold filtersFor at here behind ⊢
  rw [show pair :: pairs = [pair] ++ pairs from rfl, List.filter_append, List.mapM_append, here, ok_bind,
    behind]
  rfl

theorem filtersFor_other {destination : Option Place} (pairs : List (String × String))
    (other : isFilterParam bound embeds pair = false ∨ destination? embeds pair.1 ≠ destination) :
    filtersFor bound embeds destination (pair :: pairs) = filtersFor bound embeds destination pairs := by
  have skipped : (isFilterParam bound embeds pair &&
      decide (destination? embeds pair.1 = destination)) = false := by
    rcases other with param | apart
    · rw [param, Bool.false_and]
    · rw [decide_eq_false apart, Bool.and_false]
  unfold filtersFor
  rw [List.filter_cons, if_neg (by simp [skipped])]

theorem filtersFor_same {filter : Filter} (isFilter : isFilterParam bound embeds pair = true)
    (read : readFilter (columnOf embeds pair.1) pair.2 = .ok filter) :
    filtersFor bound embeds (destination? embeds pair.1) [pair] = .ok [filter] := by
  unfold filtersFor
  rw [List.filter_cons, if_pos (by simp [isFilter]), List.filter_nil, List.mapM_cons, read]
  rfl

theorem embedPath?_mapAll_bare (embeds : List Embed) (key : String) :
    embedPath? (mapAll bare embeds) key = embedPath? embeds key := by
  unfold embedPath?
  simp only [← isSome_place?, place?_mapAll_bare]

theorem isFilterParam_mapAll_bare (embeds : List Embed) (pair : String × String) :
    isFilterParam bound (mapAll bare embeds) pair = isFilterParam bound embeds pair := by
  unfold isFilterParam
  rw [embedPath?_mapAll_bare]

theorem filtersFor_mapAll_bare (embeds : List Embed) :
    filtersFor bound (mapAll bare embeds) = filtersFor bound embeds := by
  funext destination pairs
  unfold filtersFor destination? columnOf
  simp only [isFilterParam_mapAll_bare, embedPath?_mapAll_bare, place?_mapAll_bare]

theorem splitPath?_reserved (reserved : key ∈ reservedKeys) : splitPath? key = none := by
  have none : ∀ key ∈ reservedKeys, splitPath? key = none := by decide
  exact none key reserved

theorem embedPath?_reserved (reserved : key ∈ reservedKeys) : embedPath? embeds key = none := by
  rw [embedPath?, splitPath?_reserved reserved]
  rfl

theorem destination?_of_embedPath? {path rest : String} (found : embedPath? embeds key = some (path, rest)) :
    ∃ place, place? (pathNames path) embeds = some place ∧ destination? embeds key = some place := by
  obtain ⟨split, there⟩ := Option.filter_eq_some_iff.mp found
  have there : (at? (pathNames path) embeds).isSome = true := there
  rw [← isSome_place?] at there
  obtain ⟨place, leads⟩ := Option.isSome_iff_exists.mp there
  refine ⟨place, leads, ?_⟩
  rw [destination?, split]
  exact leads

theorem destination?_of_alone (alone : embedPath? embeds key = none) : destination? embeds key = none := by
  unfold destination?
  cases split : splitPath? key with
  | none => rfl
  | some found =>
      obtain ⟨path, rest⟩ := found
      rw [embedPath?, split, Option.filter_some] at alone
      rw [Option.bind_some, ← Option.not_isSome_iff_eq_none, isSome_place?]
      intro there
      rw [if_pos there] at alone
      cases alone

/-- What a parameter does to the filters of a query: those of one place get one more, or none do. -/
inductive Routed (bound : Nat) (pair : String × String) (parsed next : Parsed) : Prop
  | kept (param : isFilterParam bound parsed.query.embeds pair = false)
    (shape : mapAll bare next.query.embeds = mapAll bare parsed.query.embeds)
    (filters : ∀ destination, filtersIn? next.query destination = filtersIn? parsed.query destination)
  | added {filter : Filter} (isFilter : isFilterParam bound parsed.query.embeds pair = true)
    (read : readFilter (columnOf parsed.query.embeds pair.1) pair.2 = .ok filter)
    (shape : mapAll bare next.query.embeds = mapAll bare parsed.query.embeds)
    (filters : ∀ destination, filtersIn? next.query destination =
      if destination = destination? parsed.query.embeds pair.1 then
        (filtersIn? parsed.query destination).map (· ++ [filter])
      else filtersIn? parsed.query destination)

theorem routed_addFilter {filter : Filter} (isFilter : isFilterParam bound parsed.query.embeds pair = true)
    (alone : embedPath? parsed.query.embeds pair.1 = none)
    (read : readFilter pair.1 pair.2 = .ok filter) : Routed bound pair parsed (addFilter filter parsed) := by
  refine .added isFilter (by rw [columnOf, alone]; exact read) rfl fun destination => ?_
  rw [destination?_of_alone alone]
  cases destination with
  | none => rfl
  | some place => rfl

theorem routed_param (param : isFilterParam bound parsed.query.embeds pair = false)
    (filters : next.query.filters = parsed.query.filters)
    (embeds : next.query.embeds = parsed.query.embeds) : Routed bound pair parsed next := by
  refine .kept param (by rw [embeds]) fun destination => ?_
  cases destination with
  | none => exact congrArg some filters
  | some place => exact congrArg (filtersAt? place) embeds

theorem filters_changeEmbed (path : String) (change : Embed → Embed) (parsed : Parsed) :
    (changeEmbed path change parsed).query.filters = parsed.query.filters := by
  unfold changeEmbed
  cases updateAt? change (pathNames path) parsed.query.embeds <;> rfl

/-- A change of an embed that a select list does not show. -/
theorem changeEmbed_place {path : String} {place : Place} (change : Embed → Embed)
    (found : place? (pathNames path) parsed.query.embeds = some place)
    (kept : ∀ embed, bare (change embed) = bare embed) :
    mapAll bare (changeEmbed path change parsed).query.embeds = mapAll bare parsed.query.embeds ∧
      ∀ other, filtersAt? other (changeEmbed path change parsed).query.embeds =
        if other = place then
          (atPlace? place parsed.query.embeds).map fun embed => (change embed).filters
        else filtersAt? other parsed.query.embeds := by
  obtain ⟨changed, done, shape, only⟩ := updateAt?_place found kept
  have same : (changeEmbed path change parsed).query.embeds = changed := by
    unfold changeEmbed
    rw [done]
  rw [same]
  exact ⟨shape, only⟩

theorem routed_changeEmbed {path rest : String} {change : Embed → Embed}
    (param : isFilterParam bound parsed.query.embeds pair = false)
    (found : embedPath? parsed.query.embeds pair.1 = some (path, rest))
    (kept : ∀ embed, bare (change embed) = bare embed)
    (filters : ∀ embed, (change embed).filters = embed.filters) :
    Routed bound pair parsed (changeEmbed path change parsed) := by
  obtain ⟨place, leads, _⟩ := destination?_of_embedPath? found
  obtain ⟨shape, only⟩ := changeEmbed_place change leads kept
  refine .kept param shape fun destination => ?_
  cases destination with
  | none => exact congrArg some (filters_changeEmbed path change parsed)
  | some other =>
      refine (only other).trans ?_
      split
      · next same =>
        subst same
        simp only [filters]
        rfl
      · rfl

theorem routed_embedFilter {path rest : String} {filter : Filter}
    (isFilter : isFilterParam bound parsed.query.embeds pair = true)
    (found : embedPath? parsed.query.embeds pair.1 = some (path, rest))
    (read : readFilter rest pair.2 = .ok filter) :
    Routed bound pair parsed
      (changeEmbed path (fun embed => { embed with filters := embed.filters ++ [filter] }) parsed) := by
  obtain ⟨place, leads, goes⟩ := destination?_of_embedPath? found
  obtain ⟨shape, only⟩ := changeEmbed_place
    (fun embed => { embed with filters := embed.filters ++ [filter] }) leads fun _ => rfl
  refine .added isFilter (by rw [columnOf, found]; exact read) shape fun destination => ?_
  rw [goes]
  cases destination with
  | none => exact congrArg some (filters_changeEmbed path _ parsed)
  | some other =>
      refine (only other).trans ?_
      simp only [Option.some.injEq]
      split
      · next same =>
        subst same
        simp only [filtersIn?, filtersAt?, Option.map_map]
        rfl
      · rfl

theorem isFilterParam_reserved (embeds : List Embed) (reserved : pair.1 ∈ reservedKeys)
    (unread : reservedFilter? bound pair.1 pair.2 = none) : isFilterParam bound embeds pair = false := by
  rw [isFilterParam, unread, List.contains_eq_mem, decide_eq_true reserved]
  rfl

theorem isFilterParam_free (bound : Nat) (embeds : List Embed) (free : pair.1 ∉ reservedKeys) :
    isFilterParam bound embeds pair =
      match embedPath? embeds pair.1 with
      | some (_, rest) => !(["order", "limit", "offset"].contains rest)
      | none => true := by
  rw [isFilterParam, reservedFilter?_of_free free, List.contains_eq_mem, decide_eq_false free]
  rfl

theorem routed_applyEmbedParam {path rest : String} (free : pair.1 ∉ reservedKeys)
    (found : embedPath? parsed.query.embeds pair.1 = some (path, rest))
    (applied : applyEmbedParam bound pair.1 path rest pair.2 parsed = .ok next) :
    Routed bound pair parsed next := by
  have isFilter := isFilterParam_free bound parsed.query.embeds free
  rw [found] at isFilter
  unfold applyEmbedParam at applied
  split at applied
  · next order =>
    obtain ⟨items, _, applied⟩ := ok_of_bind applied
    obtain rfl := Except.ok.inj applied
    exact routed_changeEmbed (isFilter.trans (by simp [order])) found (fun _ => rfl) fun _ => rfl
  · split at applied
    · next limit =>
      obtain ⟨count, _, applied⟩ := ok_of_bind applied
      obtain rfl := Except.ok.inj applied
      exact routed_changeEmbed (isFilter.trans (by simp [limit])) found (fun _ => rfl) fun _ => rfl
    · split at applied
      · next offset =>
        obtain rfl := Except.ok.inj applied
        exact routed_param (isFilter.trans (by simp [offset])) rfl rfl
      · split at applied
        · cases applied
        · next order limit offset _ =>
          obtain ⟨filter, read, applied⟩ := ok_of_bind applied
          obtain rfl := Except.ok.inj applied
          exact routed_embedFilter (isFilter.trans (by simp [order, limit, offset])) found read

theorem applyPlainParam_logic {value : String} (logic : isLogicKey key = true) :
    applyPlainParam bound key value parsed = .error (.orParameter key value) := by
  unfold applyPlainParam
  split <;> first | exact absurd logic (by decide) | skip
  simp only [logic, if_true]
  rfl

theorem routed_applyPlainParam (unread : reservedFilter? bound pair.1 pair.2 = none)
    (applied : applyPlainParam bound pair.1 pair.2 parsed = .ok next) : Routed bound pair parsed next := by
  by_cases reserved : pair.1 ∈ reservedKeys
  · have param := isFilterParam_reserved parsed.query.embeds reserved unread
    unfold applyPlainParam at applied
    split at applied
    · obtain rfl := Except.ok.inj applied
      exact routed_param param rfl rfl
    · obtain rfl := Except.ok.inj applied
      exact routed_param param rfl rfl
    · obtain ⟨items, _, applied⟩ := ok_of_bind applied
      obtain rfl := Except.ok.inj applied
      exact routed_param param rfl rfl
    · obtain ⟨limit, _, applied⟩ := ok_of_bind applied
      obtain rfl := Except.ok.inj applied
      exact routed_param param rfl rfl
    · obtain ⟨offset, _, applied⟩ := ok_of_bind applied
      obtain rfl := Except.ok.inj applied
      exact routed_param param rfl rfl
    · obtain rfl := Except.ok.inj applied
      exact routed_param param rfl rfl
    · next select columns order limit offset conflict =>
      exact absurd reserved (by simp_all [reservedKeys])
  · cases logic : isLogicKey pair.1 with
    | true =>
        rw [applyPlainParam_logic logic] at applied
        cases applied
    | false =>
        cases found : embedPath? parsed.query.embeds pair.1 with
        | some both =>
            obtain ⟨path, rest⟩ := both
            rw [applyPlainParam_embed reserved logic found] at applied
            exact routed_applyEmbedParam reserved found applied
        | none =>
            rw [applyPlainParam_alone reserved logic found] at applied
            obtain ⟨filter, read, applied⟩ := ok_of_bind applied
            obtain rfl := Except.ok.inj applied
            refine routed_addFilter ?_ found read
            rw [isFilterParam_free _ _ reserved, found]

/-- A parameter gives one filter to the place it leads to, or none to any place. -/
theorem routed_applyParam (applied : applyParam bound parsed pair = .ok next) :
    Routed bound pair parsed next := by
  unfold applyParam at applied
  cases unread : reservedFilter? bound pair.1 pair.2 with
  | none =>
      rw [unread] at applied
      exact routed_applyPlainParam unread applied
  | some filter =>
      rw [unread] at applied
      obtain rfl := Except.ok.inj applied
      have reserved : pair.1 ∈ reservedKeys := by
        by_contra free
        rw [reservedFilter?_of_free free] at unread
        cases unread
      refine routed_addFilter ?_ (embedPath?_reserved reserved) ?_
      · rw [isFilterParam, unread]
        rfl
      · unfold reservedFilter? at unread
        split at unread
        · cases read : readFilter pair.1 pair.2 with
          | error fault =>
              rw [read] at unread
              cases unread
          | ok other =>
              rw [read] at unread
              exact congrArg Except.ok (Option.some.inj unread)
        · cases unread

/-- What the parameters give to a place is what is behind its filters when all are applied. -/
theorem foldlM_applyParam_routed {pairs : List (String × String)}
    (applied : pairs.foldlM (applyParam bound) parsed = .ok next) :
    mapAll bare next.query.embeds = mapAll bare parsed.query.embeds ∧
      ∀ destination, ∃ found,
        filtersFor bound (mapAll bare parsed.query.embeds) destination pairs = .ok found ∧
        filtersIn? next.query destination = (filtersIn? parsed.query destination).map (· ++ found) := by
  induction pairs generalizing parsed with
  | nil =>
      obtain rfl := Except.ok.inj applied
      refine ⟨rfl, fun destination => ⟨[], rfl, ?_⟩⟩
      simp
  | cons pair rest induction =>
      rw [List.foldlM_cons] at applied
      obtain ⟨middle, step, applied⟩ := ok_of_bind applied
      obtain ⟨shape, later⟩ := induction applied
      cases routed_applyParam step with
      | kept param alike filters =>
          refine ⟨shape.trans alike, fun destination => ?_⟩
          obtain ⟨found, behind, gained⟩ := later destination
          rw [alike, filtersFor_mapAll_bare] at behind
          refine ⟨found, ?_, by rw [gained, filters]⟩
          rw [filtersFor_mapAll_bare, filtersFor_other rest (.inl param), behind]
      | @added filter isFilter read alike filters =>
          refine ⟨shape.trans alike, fun destination => ?_⟩
          obtain ⟨found, behind, gained⟩ := later destination
          rw [alike] at behind
          rw [filters destination] at gained
          -- The place that the filter went to gains it in front of what the rest adds; all others gain only the rest.
          by_cases here : destination = destination? parsed.query.embeds pair.1
          · subst here
            rw [if_pos rfl, Option.map_map] at gained
            refine ⟨[filter] ++ found, filtersFor_cons ?_ behind, gained.trans ?_⟩
            · rw [filtersFor_mapAll_bare]
              exact filtersFor_same isFilter read
            · simp [Function.comp_def]
          · rw [if_neg here] at gained
            refine ⟨found, ?_, gained⟩
            rw [filtersFor_mapAll_bare] at behind ⊢
            rw [filtersFor_other rest (.inr fun same => here same.symm), behind]

/-- Nothing in a selection has more than a select list says. -/
def HasBareEmbeds (selection : Selection) : Prop :=
  mapAll bare selection.embeds = selection.embeds

theorem hasBareEmbeds_ofChars {text : List Char} {found : Selection}
    (read : Selection.ofChars bound text = .ok found) : HasBareEmbeds found := by
  refine Selection.ofChars_invariant (fun _ embeds => mapAll bare embeds = embeds)
    (fun _ => by rw [mapAll]) ?_ read
  intro bound embeds embed before plain below
  rw [mapAll_eq_map] at before ⊢
  rw [List.map_append, before, List.map_singleton, mapEach_eq, below, plain]
  cases embed
  rfl

theorem filtersIn?_of_bare {query : Query} (unfiltered : query.filters = [])
    (bare : mapAll bare query.embeds = query.embeds) (destination : Option Place) :
    filtersIn? query destination = (filtersIn? query destination).map fun _ => [] := by
  cases destination with
  | none => exact congrArg some unfiltered
  | some place =>
      rw [filtersIn?, filtersAt?, ← bare, atPlace?_mapAll_bare, Option.map_map, Option.map_map]
      refine congrArg (Option.map · _) (funext fun embed => ?_)
      simp only [Function.comp_def, mapEach_eq]
      rfl

theorem start_chosen {options : Options} {asked : Target} {pairs : List (String × String)}
    (started : start options asked pairs = .ok parsed) :
    chosenEmbeds options.maxDepth pairs = .ok parsed.query.embeds ∧
      mapAll bare parsed.query.embeds = parsed.query.embeds ∧ parsed.query.filters = [] := by
  unfold start at started
  rw [chosenEmbeds_eq]
  cases given : selectOf? options.maxDepth pairs with
  | none =>
      rw [given] at started
      obtain rfl := Except.ok.inj started
      dsimp only
      split <;> exact ⟨rfl, by rw [mapAll], rfl⟩
  | some list =>
      rw [given] at started
      obtain ⟨selection, read, started⟩ := ok_of_bind started
      obtain rfl := Except.ok.inj started
      refine ⟨?_, hasBareEmbeds_ofChars read, rfl⟩
      dsimp only
      rw [read]
      rfl

/-- All filters stay where they are behind the parameters. -/
theorem filters_behind {request : RawRequest} {between : Parsed} (headers : applyHeaders request parsed = .ok between)
    (body : applyBody request between = .ok next) :
    next.query.filters = parsed.query.filters ∧ next.query.embeds = parsed.query.embeds := by
  have headed := headerFrame_applyHeaders headers
  have given := (applyBody_ok body).1
  rw [given, headed.same]
  exact ⟨rfl, rfl⟩

/-- The filters at a place are those that the parameters give to it. -/
theorem filtersFor_of_read {options : Options} {request : RawRequest} {parsed : Parsed}
    (accepted : read options request = .ok parsed) :
    ∃ chosen, chosenEmbeds options.maxDepth (QueryString.decode request.query) = .ok chosen ∧
      mapAll bare parsed.query.embeds = chosen ∧
      ∀ destination filters, filtersIn? parsed.query destination = some filters →
        filtersFor options.maxDepth chosen destination (QueryString.decode request.query) =
          .ok filters := by
  obtain ⟨asked, started, applied, headed, reads⟩ := ok_of_read accepted
  obtain ⟨keptFilters, keptEmbeds⟩ := filters_behind reads.headers reads.body
  obtain ⟨chosen, plain, unfiltered⟩ := start_chosen reads.begun
  obtain ⟨shape, routed⟩ := foldlM_applyParam_routed reads.params
  rw [plain] at shape routed
  have same (destination : Option Place) :
      filtersIn? parsed.query destination = filtersIn? applied.query destination := by
    cases destination with
    | none => exact congrArg some keptFilters
    | some place => exact congrArg (filtersAt? place) keptEmbeds
  refine ⟨started.query.embeds, chosen, by rw [keptEmbeds, shape], fun destination filters there => ?_⟩
  obtain ⟨found, given, gained⟩ := routed destination
  rw [same, gained, filtersIn?_of_bare unfiltered plain, Option.map_map] at there
  obtain ⟨_, _, rfl⟩ := Option.map_eq_some_iff.mp there
  exact given

/-- The filters of a request are read from its filter parameters, each into one list: that of the
main table or that of the embed its key leads to.  Every list is in the order of the parameters and
has no other filters, and the embeds are those that the select list asks for. -/
theorem read_filters (options : Options) (request : RawRequest) (parsed : Parsed)
    (accepted : read options request = .ok parsed) :
    ∃ chosen, chosenEmbeds options.maxDepth (QueryString.decode request.query) = .ok chosen ∧
      mapAll bare parsed.query.embeds = chosen ∧
      filtersFor options.maxDepth chosen none (QueryString.decode request.query) =
        .ok parsed.query.filters ∧
      (∀ place embed, atPlace? place parsed.query.embeds = some embed →
        filtersFor options.maxDepth chosen (some place) (QueryString.decode request.query) =
          .ok embed.filters) ∧
      ∀ key place, destination? chosen key = some place →
        ∃ embed, atPlace? place parsed.query.embeds = some embed := by
  obtain ⟨chosen, select, shape, all⟩ := filtersFor_of_read accepted
  refine ⟨chosen, select, shape, all none _ rfl, ?_, ?_⟩
  · intro place embed there
    refine all (some place) embed.filters ?_
    rw [filtersIn?, filtersAt?, there]
    rfl
  · intro key place leads
    unfold destination? at leads
    obtain ⟨⟨path, rest⟩, _, leads⟩ := Option.bind_eq_some_iff.mp leads
    rw [← shape] at leads
    obtain ⟨embed, _, there⟩ := at?_of_place? ((place?_mapAll_bare _ _).symm.trans leads)
    exact ⟨embed, there⟩

/-- A request with a filter on a column that is named like a parameter, and one on a column of an
embed that is further down. -/
def nestedRequest : RawRequest where
  method := "GET"
  path := "/users"
  query := "posts.comments.body=eq.x&limit=eq.5&select=id,posts(id,comments(body))&posts.limit=3&age=gt.3"

theorem read_filters_nested :
    ∃ parsed chosen embed, read {} nestedRequest = .ok parsed ∧
      chosenEmbeds 32 (QueryString.decode nestedRequest.query) = .ok chosen ∧
      atPlace? [0, 0] parsed.query.embeds = some embed ∧
      filtersFor 32 chosen none (QueryString.decode nestedRequest.query) =
        .ok [{ column := "limit", op := .eq, value := .number "5" },
          { column := "age", op := .gt, value := .number "3" }] ∧
      filtersFor 32 chosen (some [0, 0]) (QueryString.decode nestedRequest.query) =
        .ok [{ column := "body", op := .eq, value := .string "x" }] := by
  have reads : (read {} nestedRequest).map (fun parsed =>
      (parsed.query.filters, filtersAt? [0, 0] parsed.query.embeds)) =
        .ok ([{ column := "limit", op := .eq, value := .number "5" },
          { column := "age", op := .gt, value := .number "3" }],
          some [{ column := "body", op := .eq, value := .string "x" }]) := by decide +kernel
  obtain ⟨parsed, accepted, shown⟩ := ok_of_map reads
  obtain ⟨main, below⟩ := Prod.mk.inj shown
  obtain ⟨embed, there, inside⟩ := Option.map_eq_some_iff.mp below
  obtain ⟨chosen, select, _, filters, embedFilters, _⟩ := read_filters {} nestedRequest parsed accepted
  refine ⟨parsed, chosen, embed, accepted, select, there, ?_, ?_⟩
  · rw [← main]
    exact filters
  · rw [← inside]
    exact embedFilters [0, 0] embed there

end QueryNotation.Rest
