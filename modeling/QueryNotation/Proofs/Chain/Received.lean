import QueryNotation.Proofs.Chain.Roundtrip

namespace QueryNotation.Chain

/-! # What is read of nested embeds

A chain names an embed of any level by its path, but its reader knows only the embeds of the first
level.  A filter of an embed below them lands on the embed of the first level that its path begins
with, and an order or a limit of one is dropped with a warning.
-/

open Text Embed

variable {query : Query} {embeds : List Embed}

/-- The reads whose embeds have, at all levels, filters that come back from their calls. -/
structure FitsNested (query : Query) : Prop where
  select : query.operation = .select
  columns : ∀ column ∈ query.columns, column.IsPlain
  embeds : ∀ embed ∈ query.embeds, embed.IsNamed
  distinct : (query.embeds.map Embed.name).Nodup
  filters : ∀ filter ∈ query.filters, FitsCall filter ∧ IsMain query.embeds filter
  embedFilters : ∀ entry ∈ Embed.paths query.embeds, ∀ filter ∈ entry.2.filters, FitsCall filter
  range : ∀ range ∈ query.range, range.1 ≤ range.2

/-- The embeds below the first level, each with its path. -/
def deeper (embeds : List Embed) : List (String × Embed) :=
  embeds.flatMap fun embed => pathsBelow embed.name embed.embeds

/-- The filters that reach an embed of the first level: its own, and those of the embeds below it
with the rest of the path in their columns. -/
def received (embed : Embed) : List Filter :=
  embed.filters ++ (paths embed.embeds).flatMap fun (path, other) =>
    other.filters.map fun filter => { filter with column := path ++ "." ++ filter.column }

def receiving (embed : Embed) : Embed :=
  { embed with
    columns := shown embed.columns embed.embeds
    filters := received embed
    embeds := mapAll told embed.embeds }

def asRead (query : Query) : Query where
  table := query.table
  operation := .select
  columns := shown query.columns query.embeds
  filters := query.filters
  order := query.order
  limit := query.limit
  range := query.range
  embeds := query.embeds.map receiving
  count := query.count
  head := query.head
  single := query.single

/-- What is said of an order whose embed is not found. -/
def orderLost (path : String) : String :=
  "order on '" ++ path ++ "' ignored: no such embed"

/-- What is said of a limit whose embed is not found. -/
def limitLost (path : String) : String :=
  "limit on '" ++ path ++ "' ignored: no such embed"

/-- What is said while a chain is read. -/
def lost (embeds : List Embed) : List String :=
  (deeper embeds).flatMap (fun (path, embed) => embed.order.map fun _ => orderLost path) ++
    (deeper embeds).flatMap fun (path, embed) => embed.limit.toList.map fun _ => limitLost path

/-- What stands outside the select list of an embed at a path. -/
structure Modifiers where
  path : String
  filters : List Filter := []
  order : List OrderItem := []
  limit : Option UInt64 := none
deriving DecidableEq

def modifiersAt (entry : String × Embed) : Modifiers :=
  { path := entry.1, filters := entry.2.filters, order := entry.2.order, limit := entry.2.limit }

def modifiers (embeds : List Embed) : List Modifiers :=
  (paths embeds).map modifiersAt

theorem shown_plain {columns : List Column} (plain : ∀ column ∈ columns, column.IsPlain) :
    ∀ column ∈ shown columns embeds, column.IsPlain := by
  unfold shown
  split
  · intro column member
    rw [List.mem_singleton.mp member]
    exact .star
  · exact plain

theorem shown_full (columns : List Column) (embeds : List Embed) :
    shown columns embeds ≠ [] ∨ embeds ≠ [] := by
  by_cases some : columns ≠ [] ∨ embeds ≠ []
  · rw [shown_of_full some]
    exact some
  · rw [not_or, not_not, not_not] at some
    rw [some.1, some.2]
    exact .inl (List.cons_ne_nil _ _)

theorem isEmpty_mapAll (change : Embed → Embed) (embeds : List Embed) :
    (mapAll change embeds).isEmpty = embeds.isEmpty := by
  rw [mapAll_eq_map, List.isEmpty_map]

theorem told_plain {embed : Embed} (named : embed.IsNamed) : (embed.mapEach told).IsPlain := by
  induction named with
  | @intro embed word labelled columns distinct below induction =>
      rw [mapEach_eq]
      refine .intro word labelled (shown_plain columns) ?_ ?_ ?_
      · have full := shown_full embed.columns (mapAll told embed.embeds)
        rwa [shown, isEmpty_mapAll] at full
      · rw [map_name_told]
        exact distinct
      · intro other member
        rw [mapAll_eq_map] at member
        obtain ⟨first, listed, rfl⟩ := List.mem_map.mp member
        exact induction first listed

theorem mapAll_told_plain (named : ∀ embed ∈ embeds, embed.IsNamed) :
    ∀ embed ∈ mapAll told embeds, embed.IsPlain := by
  intro embed member
  rw [mapAll_eq_map] at member
  obtain ⟨first, listed, rfl⟩ := List.mem_map.mp member
  exact told_plain (named first listed)

theorem receiving_plain {embed : Embed} (named : embed.IsNamed) : (receiving embed).IsPlain := by
  obtain ⟨word, labelled, columns, distinct, below⟩ := named
  refine .intro word labelled (shown_plain columns) ?_ ?_ (mapAll_told_plain below)
  · have full := shown_full embed.columns (mapAll told embed.embeds)
    rwa [shown, isEmpty_mapAll] at full
  · rw [receiving, map_name_told]
    exact distinct

theorem bare_told_of_each (each : ∀ embed ∈ embeds, (embed.mapEach told).mapEach bare = embed.mapEach told) :
    mapAll bare (mapAll told embeds) = mapAll told embeds := by
  rw [mapAll_eq_map bare, mapAll_eq_map told, List.map_map]
  exact List.map_congr_left each

theorem mapEach_bare_told {embed : Embed} (named : embed.IsNamed) :
    (embed.mapEach told).mapEach bare = embed.mapEach told := by
  induction named with
  | intro word labelled columns distinct below induction =>
      rw [mapEach_eq told, mapEach_eq bare, bare_told_of_each induction]
      rfl

/-- What is read of the select list stands in the query as it is read. -/
theorem mapAll_receiving (named : ∀ embed ∈ embeds, embed.IsNamed) :
    mapAll bare (embeds.map receiving) = mapAll told embeds := by
  rw [mapAll_eq_map, mapAll_eq_map, List.map_map]
  refine List.map_congr_left fun embed member => ?_
  obtain ⟨_, _, _, _, below⟩ := named embed member
  have lower : mapAll bare (mapAll told embed.embeds) = mapAll told embed.embeds :=
    bare_told_of_each fun other listed => mapEach_bare_told (below other listed)
  rw [Function.comp_apply, mapEach_eq, mapEach_eq, receiving, lower]
  rfl

/-- Below the first level nothing but the select list is read. -/
theorem silent_told : ∀ entry ∈ paths (mapAll told embeds),
    entry.2.filters = [] ∧ entry.2.order = [] ∧ entry.2.limit = none := by
  intro entry member
  rw [@paths_mapAll told (fun _ => rfl)] at member
  obtain ⟨other, _, rfl⟩ := List.mem_map.mp member
  rw [mapEach_eq]
  exact ⟨rfl, rfl, rfl⟩

theorem fitsCall_column {filter : Filter} (fits : FitsCall filter) (column : String) :
    FitsCall { filter with column } :=
  ⟨fits.connective, fits.value, fits.config⟩

theorem received_fits {embed : Embed} (fits : FitsNested query) (listed : embed ∈ query.embeds) :
    ∀ filter ∈ received embed, FitsCall filter := by
  intro filter member
  rcases List.mem_append.mp member with own | below
  · exact fits.embedFilters _ (mem_paths listed) filter own
  · obtain ⟨entry, inside, held⟩ := List.mem_flatMap.mp below
    obtain ⟨first, given, rfl⟩ := List.mem_map.mp held
    refine fitsCall_column (fits.embedFilters (embed.name ++ "." ++ entry.1, entry.2) ?_ first given) _
    refine List.mem_flatMap.mpr ⟨embed, listed, ?_⟩
    rw [pathsFrom_eq, pathsBelow_paths]
    exact List.mem_cons_of_mem _ (List.mem_map.mpr ⟨entry, inside, rfl⟩)

theorem FitsNested.asRead (fits : FitsNested query) : FitsChain (asRead query) where
  body := .select
  columns := shown_plain fits.columns
  embeds := by
    intro embed member
    obtain ⟨first, listed, rfl⟩ := List.mem_map.mp member
    exact receiving_plain (fits.embeds first listed)
  distinct := by
    have names : (query.embeds.map receiving).map Embed.name = query.embeds.map Embed.name := by
      rw [List.map_map]
      rfl
    rw [Chain.asRead, names]
    exact fits.distinct
  filters := by
    intro filter member
    refine ⟨(fits.filters filter member).1, fun embed listed => ?_⟩
    obtain ⟨first, inside, rfl⟩ := List.mem_map.mp listed
    exact (fits.filters filter member).2 first inside
  embedFilters := by
    intro entry member filter given
    obtain ⟨embed, listed, inside⟩ := List.mem_flatMap.mp member
    obtain ⟨first, source, rfl⟩ := List.mem_map.mp listed
    rw [pathsFrom_eq, pathsBelow_paths] at inside
    -- Deeper embeds are read back without anything of their own.
    rcases List.mem_cons.mp inside with rfl | below
    · exact received_fits fits source filter given
    · obtain ⟨other, there, rfl⟩ := List.mem_map.mp below
      rw [(silent_told other there).1] at given
      cases given
  below := by
    intro embed member entry inside
    obtain ⟨first, _, rfl⟩ := List.mem_map.mp member
    exact silent_told entry inside
  offset := rfl
  range := fits.range
  full _ := by
    rcases shown_full query.columns query.embeds with columns | embeds
    · exact .inl columns
    · exact .inr (by simpa [Chain.asRead] using embeds)
  silent other := absurd rfl other
  read _ := rfl
  mutation other := absurd rfl other
  target _ := ⟨rfl, rfl⟩

theorem modifiers_flat (embeds : List Embed) :
    modifiers embeds = embeds.flatMap fun embed =>
      modifiersAt (embed.name, embed) :: (pathsBelow embed.name embed.embeds).map modifiersAt := by
  rw [modifiers, paths, List.map_flatMap]
  refine List.flatMap_congr fun embed _ => ?_
  rw [pathsFrom_eq, List.map_cons]

theorem below_receiving (embed : Embed) :
    (pathsBelow embed.name (receiving embed).embeds).map modifiersAt =
      (pathsBelow embed.name embed.embeds).map fun entry => { path := entry.1 } := by
  rw [receiving, @pathsBelow_mapAll told (fun _ => rfl), List.map_map]
  refine List.map_congr_left fun entry _ => ?_
  rw [Function.comp_apply, modifiersAt, mapEach_eq]
  rfl

theorem received_own {embed : Embed}
    (unfiltered : ∀ entry ∈ pathsBelow embed.name embed.embeds, entry.2.filters = []) :
    received embed = embed.filters := by
  have none : (paths embed.embeds).flatMap (fun (path, other) =>
      other.filters.map fun filter => { filter with column := path ++ "." ++ filter.column }) = [] := by
    rw [List.flatMap_eq_nil_iff]
    intro entry member
    rw [pathsBelow_paths] at unfiltered
    have own : entry.2.filters = [] :=
      unfiltered (embed.name ++ "." ++ entry.1, entry.2) (List.mem_map.mpr ⟨entry, member, rfl⟩)
    show entry.2.filters.map _ = []
    rw [own, List.map_nil]
  rw [received, none, List.append_nil]

/-- Everything comes back where it was just when there is nothing below the first level. -/
theorem modifiers_kept :
    modifiers (embeds.map receiving) = modifiers embeds ↔
      ∀ entry ∈ deeper embeds, entry.2.filters = [] ∧ entry.2.order = [] ∧ entry.2.limit = none := by
  rw [modifiers_flat, modifiers_flat, List.flatMap_map, deeper]
  induction embeds with
  | nil => simp
  | cons embed rest induction =>
      rw [List.flatMap_cons, List.flatMap_cons, List.flatMap_cons, List.forall_mem_append, ← induction]
      show (_ :: (pathsBelow embed.name (receiving embed).embeds).map modifiersAt) ++ _ = _ ↔ _
      rw [below_receiving]
      constructor
      · intro same
        obtain ⟨here, behind⟩ := List.append_inj same (by simp)
        refine ⟨fun entry member => ?_, behind⟩
        have equal := List.map_inj_left.mp (List.cons.inj here).2 entry member
        obtain ⟨_, filters, order, limit⟩ := Modifiers.mk.inj equal
        exact ⟨filters.symm, order.symm, limit.symm⟩
      · rintro ⟨silent, behind⟩
        have own := received_own fun entry member => (silent entry member).1
        have lower : (pathsBelow embed.name embed.embeds).map (fun entry =>
            ({ path := entry.1 } : Modifiers)) = (pathsBelow embed.name embed.embeds).map modifiersAt := by
          refine List.map_congr_left fun entry member => ?_
          obtain ⟨filters, order, limit⟩ := silent entry member
          rw [modifiersAt, filters, order, limit]
        rw [behind, lower, modifiersAt, receiving, own]
        rfl

end QueryNotation.Chain
