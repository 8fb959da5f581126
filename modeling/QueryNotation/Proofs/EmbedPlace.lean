import QueryNotation.Proofs.EmbedPath
import QueryNotation.Query

namespace QueryNotation.Embed

/-! # Embeds at their places

Names lead to the first embed that is called so, and a second one of the same name is never
reached.  Its place, the numbers on the way to it, tells every embed from all others.
-/

variable {change : Embed → Embed} {embeds changed : List Embed} {names : List String}

/-- The numbers on the way to an embed: its own among its siblings comes last. -/
abbrev Place := List Nat

def atPlace? : Place → List Embed → Option Embed
  | [], _ => none
  | [number], embeds => embeds[number]?
  | number :: further, embeds => embeds[number]?.bind fun embed => atPlace? further embed.embeds

def place? : List String → List Embed → Option Place
  | [], _ => none
  | [name], embeds => (embeds.findIdx? (·.name = name)).map fun number => [number]
  | name :: names, embeds =>
      (embeds.findIdx? (·.name = name)).bind fun number =>
        embeds[number]?.bind fun embed => (place? names embed.embeds).map (number :: ·)

def filtersAt? (place : Place) (embeds : List Embed) : Option (List Filter) :=
  (atPlace? place embeds).map Embed.filters

theorem updateFirst?_eq (here : Embed → Bool) (change : Embed → Option Embed) (embeds : List Embed) :
    updateFirst? here change embeds =
      (embeds.findIdx? here).bind fun number =>
        embeds[number]?.bind fun embed => (change embed).map fun next => embeds.set number next := by
  induction embeds with
  | nil => rfl
  | cons head rest induction =>
      rw [updateFirst?, List.findIdx?_cons]
      cases here head with
      | true => simp
      | false =>
          rw [if_neg Bool.false_ne_true, if_neg Bool.false_ne_true, induction]
          cases rest.findIdx? here with
          | none => rfl
          | some number =>
              simp only [Option.bind_some, Option.map_some, List.getElem?_cons_succ]
              cases rest[number]? with
              | none => rfl
              | some embed => simp [Function.comp_def]

theorem updateAt?_single (change : Embed → Embed) (name : String) (embeds : List Embed) :
    updateAt? change [name] embeds =
      (embeds.findIdx? (·.name = name)).bind fun number =>
        embeds[number]?.bind fun embed => some (embeds.set number (change embed)) := by
  rw [updateAt?, updateFirst?_eq]
  rfl

theorem updateAt?_further (change : Embed → Embed) (name : String) (further : names ≠ [])
    (embeds : List Embed) :
    updateAt? change (name :: names) embeds =
      (embeds.findIdx? (·.name = name)).bind fun number =>
        embeds[number]?.bind fun embed => (updateAt? change names embed.embeds).map
          fun below => embeds.set number { embed with embeds := below } := by
  rw [updateAt?, updateFirst?_eq]
  · simp only [Option.map_map]
    rfl
  · exact further

theorem place?_further (name : String) (further : names ≠ []) (embeds : List Embed) :
    place? (name :: names) embeds =
      (embeds.findIdx? (·.name = name)).bind fun number =>
        embeds[number]?.bind fun embed => (place? names embed.embeds).map (number :: ·) := by
  rw [place?]
  exact further

theorem at?_further (name : String) (further : names ≠ []) (embeds : List Embed) :
    at? (name :: names) embeds =
      (embeds.find? (·.name = name)).bind fun embed => at? names embed.embeds := by
  rw [at?]
  exact further

theorem atPlace?_further {place : Place} (number : Nat) (further : place ≠ []) (embeds : List Embed) :
    atPlace? (number :: place) embeds =
      embeds[number]?.bind fun embed => atPlace? place embed.embeds := by
  rw [atPlace?]
  exact further

theorem getElem?_of_findIdx? {here : Embed → Bool} {number : Nat}
    (found : embeds.findIdx? here = some number) : ∃ embed, embeds[number]? = some embed := by
  obtain ⟨inside, _⟩ := List.findIdx?_eq_some_iff_getElem.mp found
  exact ⟨_, List.getElem?_eq_getElem inside⟩

/-- What leads to an embed at a place leads there by a number and a further place. -/
theorem place?_cons {name : String} {place : Place} (found : place? (name :: names) embeds = some place) :
    ∃ number embed, embeds.findIdx? (·.name = name) = some number ∧ embeds[number]? = some embed ∧
      (names = [] ∧ place = [number] ∨
        ∃ further, names ≠ [] ∧ place? names embed.embeds = some further ∧ place = number :: further) := by
  by_cases last : names = []
  · subst last
    obtain ⟨number, first, rfl⟩ := Option.map_eq_some_iff.mp found
    obtain ⟨embed, there⟩ := getElem?_of_findIdx? first
    exact ⟨number, embed, first, there, .inl ⟨rfl, rfl⟩⟩
  · rw [place?_further name last] at found
    obtain ⟨number, first, found⟩ := Option.bind_eq_some_iff.mp found
    obtain ⟨embed, there, found⟩ := Option.bind_eq_some_iff.mp found
    obtain ⟨further, below, rfl⟩ := Option.map_eq_some_iff.mp found
    exact ⟨number, embed, first, there, .inr ⟨further, last, below, rfl⟩⟩

theorem place?_ne_nil {place : Place} (found : place? names embeds = some place) : place ≠ [] := by
  cases names with
  | nil => cases found
  | cons name rest =>
      obtain ⟨number, embed, _, _, ⟨_, rfl⟩ | ⟨further, _, _, rfl⟩⟩ := place?_cons found
      · exact List.cons_ne_nil _ _
      · exact List.cons_ne_nil _ _

/-- Names that lead to a place lead to the embed at it. -/
theorem at?_of_place? {place : Place} (found : place? names embeds = some place) :
    ∃ embed, at? names embeds = some embed ∧ atPlace? place embeds = some embed := by
  induction names generalizing embeds place with
  | nil => cases found
  | cons name rest induction =>
      obtain ⟨number, embed, first, there, shape⟩ := place?_cons found
      have named : embeds.find? (·.name = name) = some embed := by
        rw [List.find?_eq_bind_findIdx?_getElem?, first]
        exact there
      rcases shape with ⟨rfl, rfl⟩ | ⟨further, more, below, rfl⟩
      · exact ⟨embed, named, there⟩
      · obtain ⟨last, leads, stands⟩ := induction below
        refine ⟨last, ?_, ?_⟩
        · rw [at?_further name more, named]
          exact leads
        · rw [atPlace?_further number (place?_ne_nil below), there]
          exact stands

theorem place?_of_at? {embed : Embed} (found : at? names embeds = some embed) :
    ∃ place, place? names embeds = some place := by
  induction names generalizing embeds with
  | nil => cases found
  | cons name rest induction =>
      have first (named : ∃ other, embeds.find? (·.name = name) = some other) :
          ∃ number, embeds.findIdx? (·.name = name) = some number := by
        obtain ⟨other, named⟩ := named
        rw [List.find?_eq_bind_findIdx?_getElem?] at named
        obtain ⟨number, first, _⟩ := Option.bind_eq_some_iff.mp named
        exact ⟨number, first⟩
      by_cases last : rest = []
      · subst last
        obtain ⟨number, first⟩ := first ⟨embed, found⟩
        exact ⟨[number], by rw [place?, first]; rfl⟩
      · rw [at?_further name last] at found
        obtain ⟨other, named, below⟩ := Option.bind_eq_some_iff.mp found
        obtain ⟨number, first⟩ := first ⟨other, named⟩
        rw [List.find?_eq_bind_findIdx?_getElem?, first] at named
        obtain ⟨place, leads⟩ := induction below
        refine ⟨number :: place, ?_⟩
        rw [place?_further name last, first]
        simp only [Option.bind_some] at named ⊢
        rw [named, Option.bind_some, leads, Option.map_some]

/-- Names lead to a place exactly where they lead to an embed. -/
theorem isSome_place? (names : List String) (embeds : List Embed) :
    (place? names embeds).isSome = (at? names embeds).isSome := by
  cases found : place? names embeds with
  | some place =>
      obtain ⟨embed, leads, _⟩ := at?_of_place? found
      rw [leads]
      rfl
  | none =>
      cases leads : at? names embeds with
      | none => rfl
      | some embed =>
          obtain ⟨place, other⟩ := place?_of_at? leads
          rw [found] at other
          cases other

theorem name_mapEach_bare (embed : Embed) : (embed.mapEach bare).name = embed.name := by
  rw [mapEach_eq]
  rfl

theorem embeds_mapEach_bare (embed : Embed) : (embed.mapEach bare).embeds = mapAll bare embed.embeds := by
  rw [mapEach_eq]

theorem findIdx?_mapAll_bare (name : String) (embeds : List Embed) :
    (mapAll bare embeds).findIdx? (·.name = name) = embeds.findIdx? (·.name = name) := by
  rw [mapAll_eq_map, List.findIdx?_map]
  simp only [Function.comp_def, name_mapEach_bare]

theorem getElem?_mapAll (number : Nat) (embeds : List Embed) :
    (mapAll change embeds)[number]? = embeds[number]?.map (mapEach change) := by
  rw [mapAll_eq_map, List.getElem?_map]

theorem place?_mapAll_bare (names : List String) (embeds : List Embed) :
    place? names (mapAll bare embeds) = place? names embeds := by
  induction names generalizing embeds with
  | nil => rfl
  | cons name rest induction =>
      by_cases last : rest = []
      · subst last
        rw [place?, place?, findIdx?_mapAll_bare]
      · rw [place?_further name last, place?_further name last, findIdx?_mapAll_bare]
        simp only [getElem?_mapAll, Option.bind_map, Function.comp_def, embeds_mapEach_bare, induction]

theorem atPlace?_mapAll_bare (place : Place) (embeds : List Embed) :
    atPlace? place (mapAll bare embeds) = (atPlace? place embeds).map (mapEach bare) := by
  induction place generalizing embeds with
  | nil => rfl
  | cons number rest induction =>
      by_cases last : rest = []
      · subst last
        exact getElem?_mapAll number embeds
      · rw [atPlace?_further number last, atPlace?_further number last, getElem?_mapAll]
        cases embeds[number]? with
        | none => rfl
        | some embed =>
            simp only [Option.map_some, Option.bind_some, embeds_mapEach_bare, induction]

theorem mapAll_bare_set {number : Nat} {embed next : Embed} (there : embeds[number]? = some embed)
    (same : next.mapEach bare = embed.mapEach bare) :
    mapAll bare (embeds.set number next) = mapAll bare embeds := by
  have alike : (embeds.map (mapEach bare))[number]? = some (embed.mapEach bare) := by
    rw [List.getElem?_map, there, Option.map_some]
  obtain ⟨inside, stands⟩ := List.getElem?_eq_some_iff.mp alike
  rw [mapAll_eq_map, mapAll_eq_map, List.map_set, same, ← stands, List.set_getElem_self]

theorem getElem?_set_of {number : Nat} {embed : Embed} (there : embeds[number]? = some embed)
    (next : Embed) (other : Nat) :
    (embeds.set number next)[other]? = if other = number then some next else embeds[other]? := by
  obtain ⟨inside, _⟩ := List.getElem?_eq_some_iff.mp there
  rw [List.getElem?_set]
  by_cases same : other = number
  · rw [if_pos same, if_pos same.symm, if_pos inside]
  · rw [if_neg same, if_neg fun back => same back.symm]

theorem filtersAt?_single (number : Nat) (embeds : List Embed) :
    filtersAt? [number] embeds = embeds[number]?.map Embed.filters :=
  rfl

theorem filtersAt?_further {place : Place} (number : Nat) (further : place ≠ []) (embeds : List Embed) :
    filtersAt? (number :: place) embeds =
      embeds[number]?.bind fun embed => filtersAt? place embed.embeds := by
  rw [filtersAt?, atPlace?_further number further, Option.map_bind]
  rfl

/-- Another embed at a number takes its filters and those below it along. -/
theorem filtersAt?_set {number : Nat} {embed : Embed} (there : embeds[number]? = some embed)
    (next : Embed) (first : Nat) (place : Place) :
    filtersAt? (first :: place) (embeds.set number next) =
      if first = number then (if place = [] then some next.filters else filtersAt? place next.embeds)
      else filtersAt? (first :: place) embeds := by
  by_cases last : place = []
  · subst last
    rw [filtersAt?_single, getElem?_set_of there, filtersAt?_single, if_pos rfl]
    by_cases same : first = number
    · rw [if_pos same, if_pos same, Option.map_some]
    · rw [if_neg same, if_neg same]
  · rw [filtersAt?_further first last, getElem?_set_of there, filtersAt?_further first last,
      if_neg last]
    by_cases same : first = number
    · rw [if_pos same, if_pos same, Option.bind_some]
    · rw [if_neg same, if_neg same]

/-- A change that a select list does not show is made at the place that names lead to, and only
there: the filters of all other embeds stay as they are. -/
theorem updateAt?_place {place : Place} (found : place? names embeds = some place)
    (kept : ∀ embed, bare (change embed) = bare embed) :
    ∃ changed, updateAt? change names embeds = some changed ∧
      mapAll bare changed = mapAll bare embeds ∧
      ∀ other, filtersAt? other changed =
        if other = place then (atPlace? place embeds).map fun embed => (change embed).filters
        else filtersAt? other embeds := by
  induction names generalizing embeds place with
  | nil => cases found
  | cons name rest induction =>
      obtain ⟨number, embed, first, there, ⟨rfl, rfl⟩ | ⟨further, more, below, rfl⟩⟩ := place?_cons found
      · have inside : (change embed).embeds = embed.embeds :=
          show (bare (change embed)).embeds = (bare embed).embeds by rw [kept]
        refine ⟨embeds.set number (change embed), ?_, ?_, fun other => ?_⟩
        · rw [updateAt?_single, first, Option.bind_some, there, Option.bind_some]
        · refine mapAll_bare_set there ?_
          rw [mapEach_eq, mapEach_eq, kept, inside]
        · cases other with
          | nil => rfl
          | cons start further =>
              rw [filtersAt?_set there, atPlace?, there, inside]
              -- A place with another first number stands beside the embed that was changed.
              by_cases same : start = number
              · subst same
                by_cases last : further = []
                · simp [last]
                · simp [last, filtersAt?_further start last, there]
              · simp [same]
      · obtain ⟨changed, done, alike, only⟩ := induction below
        have long : further ≠ [] := place?_ne_nil below
        refine ⟨embeds.set number { embed with embeds := changed }, ?_, ?_, fun other => ?_⟩
        · rw [updateAt?_further change name more, first, Option.bind_some, there, Option.bind_some, done,
            Option.map_some]
        · refine mapAll_bare_set there ?_
          rw [mapEach_eq, mapEach_eq, alike]
          rfl
        · cases other with
          | nil => rfl
          | cons start deeper =>
              rw [filtersAt?_set there, atPlace?_further number long, there, Option.bind_some, only]
              by_cases same : start = number
              · subst same
                by_cases last : deeper = []
                · subst last
                  simp [filtersAt?_single, there, long.symm]
                · simp [last, filtersAt?_further start last, there]
              · simp [same]

mutual

def filtersFrom : Embed → List Filter
  | { filters, embeds, .. } => filters ++ filtersBelow embeds

def filtersBelow : List Embed → List Filter
  | [] => []
  | embed :: rest => filtersFrom embed ++ filtersBelow rest

end

theorem filtersFrom_eq (embed : Embed) :
    embed.filtersFrom = embed.filters ++ filtersBelow embed.embeds := by
  cases embed
  rw [filtersFrom]

mutual

theorem placed_of_filtersFrom (embed : Embed) (filter : Filter) (member : filter ∈ embed.filtersFrom) :
    filter ∈ embed.filters ∨
      ∃ place filters, filtersAt? place embed.embeds = some filters ∧ filter ∈ filters := by
  cases embed with
  | mk relation label inner columns filters order limit embeds =>
      rw [filtersFrom] at member
      rcases List.mem_append.mp member with own | below
      · exact .inl own
      · exact .inr (placed_of_filtersBelow embeds filter below)

/-- Every filter stands at some place. -/
theorem placed_of_filtersBelow (embeds : List Embed) (filter : Filter)
    (member : filter ∈ filtersBelow embeds) :
    ∃ place filters, filtersAt? place embeds = some filters ∧ filter ∈ filters := by
  cases embeds with
  | nil =>
      rw [filtersBelow] at member
      cases member
  | cons embed rest =>
      rw [filtersBelow] at member
      rcases List.mem_append.mp member with here | behind
      · rcases placed_of_filtersFrom embed filter here with own | ⟨place, filters, stands, inside⟩
        · exact ⟨[0], embed.filters, rfl, own⟩
        · have further : place ≠ [] := by
            rintro rfl
            cases stands
          exact ⟨0 :: place, filters, (filtersAt?_further 0 further _).trans stands, inside⟩
      · obtain ⟨place, filters, stands, inside⟩ := placed_of_filtersBelow rest filter behind
        match place with
        | [] => cases stands
        | [number] => exact ⟨[number + 1], filters, stands, inside⟩
        | number :: next :: further => exact ⟨(number + 1) :: next :: further, filters, stands, inside⟩

end

/-- What a select list says has no filters. -/
theorem filtersBelow_of_bare (plain : mapAll bare embeds = embeds) : filtersBelow embeds = [] := by
  rw [List.eq_nil_iff_forall_not_mem]
  intro filter member
  obtain ⟨place, filters, stands, inside⟩ := placed_of_filtersBelow embeds filter member
  rw [filtersAt?, ← plain, atPlace?_mapAll_bare, Option.map_map] at stands
  obtain ⟨embed, _, rfl⟩ := Option.map_eq_some_iff.mp stands
  rw [Function.comp_apply, mapEach_eq] at inside
  cases inside

/-- A change of the first embed that is fitting adds no filters but those it adds to the embed. -/
theorem filtersBelow_updateFirst? {here : Embed → Bool} (added : Filter → Prop)
    (adds : ∀ embed, ∀ filter ∈ (change embed).filtersFrom, filter ∈ embed.filtersFrom ∨ added filter)
    (found : updateFirst? here (fun embed => some (change embed)) embeds = some changed) :
    ∀ filter ∈ filtersBelow changed, filter ∈ filtersBelow embeds ∨ added filter := by
  induction embeds generalizing changed with
  | nil => cases found
  | cons head rest induction =>
      intro filter member
      rw [updateFirst?] at found
      rw [filtersBelow, List.mem_append]
      split at found
      · obtain rfl := Option.some.inj found
        rw [filtersBelow, List.mem_append] at member
        rcases member with first | behind
        · exact (adds head filter first).imp_left .inl
        · exact .inl (.inr behind)
      · obtain ⟨others, updated, rfl⟩ := Option.map_eq_some_iff.mp found
        rw [filtersBelow, List.mem_append] at member
        rcases member with first | behind
        · exact .inl (.inl first)
        · exact (induction updated filter behind).imp_left .inr

end QueryNotation.Embed

namespace QueryNotation

/-- The filters of a query: of its main table, and of all embeds. -/
def Query.allFilters (query : Query) : List Filter :=
  query.filters ++ Embed.filtersBelow query.embeds

end QueryNotation
