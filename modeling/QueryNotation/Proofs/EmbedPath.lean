import QueryNotation.Proofs.Embed

namespace QueryNotation.Embed

/-! # Embeds at their paths

The names on the way to an embed lead back to it, as long as embeds of one level have
different names.  So a change made at every path is the change made everywhere.
-/

open Text

mutual

/-- An embed and those below it, each behind the names on the way to it. -/
def placesFrom (embed : Embed) : List (List String × Embed) :=
  ([embed.name], embed) ::
    match embed with
    | { label, relation, embeds, .. } =>
      (places embeds).map fun place => (label.getD relation :: place.1, place.2)

/-- The embeds of a list and those below them, each behind the names on the way to it. -/
def places : List Embed → List (List String × Embed)
  | [] => []
  | embed :: rest => placesFrom embed ++ places rest

end

theorem placesFrom_eq (embed : Embed) :
    embed.placesFrom =
      ([embed.name], embed) ::
        (places embed.embeds).map fun place => (embed.name :: place.1, place.2) := by
  cases embed
  rw [placesFrom]
  rfl

/-- What holds of no embeds, and of an embed and those beside it if it holds of those below it and of
those beside it, holds of all embeds. -/
theorem forestInduction {motive : List Embed → Prop} (nil : motive [])
    (cons : ∀ embed rest, motive embed.embeds → motive rest → motive (embed :: rest)) :
    (embeds : List Embed) → motive embeds
  | [] => nil
  | embed :: rest => cons embed rest (forestInduction nil cons embed.embeds) (forestInduction nil cons rest)
termination_by embeds => sizeOf embeds
decreasing_by
  · cases embed
    simp only [List.cons.sizeOf_spec, Embed.mk.sizeOf_spec]
    omega
  · simp only [List.cons.sizeOf_spec]
    omega

def pathBelow (path : String) (names : List String) : String :=
  names.foldl (fun path name => path ++ "." ++ name) path

def pathThrough : List String → String
  | [] => ""
  | name :: names => pathBelow name names

theorem toList_pathBelow (path : String) (names : List String) :
    (pathBelow path names).toList = ['.'].intercalate ((path :: names).map String.toList) := by
  induction names generalizing path with
  | nil => simp [pathBelow]
  | cons name rest induction =>
      have step : pathBelow path (name :: rest) = pathBelow (path ++ "." ++ name) rest := rfl
      rw [step, induction]
      cases rest <;> simp [List.intercalate_cons_cons]

/-- The names of a path are those it leads through, if none of them holds a point. -/
theorem pathNames_pathThrough {names : List String} (some : names ≠ [])
    (plain : ∀ name ∈ names, '.' ∉ name.toList) : pathNames (pathThrough names) = names := by
  cases names with
  | nil => exact absurd rfl some
  | cons name rest =>
      have absent : ∀ part ∈ (name :: rest).map String.toList, ∀ c ∈ part, (c == '.') = false := by
        intro part member c inside
        obtain ⟨name, listed, rfl⟩ := List.mem_map.mp member
        rw [beq_eq_false_iff_ne]
        rintro rfl
        exact plain name listed inside
      rw [pathNames, pathThrough, toList_pathBelow, pieces_intercalate (by decide) (by simp) absent,
        List.map_map]
      simp [Function.comp_def]

theorem name_word {embed : Embed} (named : embed.IsNamed) : IsWord embed.name := by
  obtain ⟨word, labelled, _⟩ := named
  unfold name
  cases shape : embed.label with
  | none => exact word
  | some label => exact labelled label shape

theorem pathsFrom_eq (path : String) (embed : Embed) :
    pathsFrom path embed = (path, embed) :: pathsBelow path embed.embeds := by
  cases embed
  rw [pathsFrom]

theorem mem_paths {embed : Embed} {embeds : List Embed} (member : embed ∈ embeds) :
    (embed.name, embed) ∈ paths embeds := by
  refine List.mem_flatMap.mpr ⟨embed, member, ?_⟩
  rw [pathsFrom_eq]
  exact List.mem_cons_self

theorem pathsBelow_eq (embeds : List Embed) (path : String) :
    pathsBelow path embeds = (places embeds).map fun place => (pathBelow path place.1, place.2) := by
  induction embeds using forestInduction generalizing path with
  | nil => rw [pathsBelow, places]; rfl
  | cons embed rest below beside =>
      rw [pathsBelow, places, List.map_append, beside, placesFrom_eq, List.map_cons, List.map_map]
      refine congrArg (· ++ _) ?_
      rw [pathsFrom_eq, below]
      rfl

/-- The paths of embeds are those through the names on the way to them. -/
theorem paths_eq (embeds : List Embed) :
    paths embeds = (places embeds).map fun place => (pathThrough place.1, place.2) := by
  unfold paths
  induction embeds with
  | nil => rw [places]; rfl
  | cons embed rest induction =>
      rw [List.flatMap_cons, pathsFrom_eq, pathsBelow_eq, induction, places, placesFrom_eq,
        List.map_append, List.map_cons, List.map_map]
      rfl

/-- Where only the embeds of the first level add something, the paths are their names. -/
theorem flatMap_paths {β : Type} {f : String × Embed → List β} {embeds : List Embed}
    (below : ∀ embed ∈ embeds, ∀ place ∈ places embed.embeds, ∀ path, f (path, place.2) = []) :
    (paths embeds).flatMap f = embeds.flatMap fun embed => f (embed.name, embed) := by
  rw [paths_eq, List.flatMap_map]
  induction embeds with
  | nil => rw [places]; rfl
  | cons embed rest induction =>
      have none : (places embed.embeds).flatMap (fun place =>
          f (pathThrough (embed.name :: place.1), place.2)) = [] := by
        rw [List.flatMap_eq_nil_iff]
        exact fun place member => below embed (by simp) place member _
      rw [places, placesFrom_eq, List.flatMap_append, List.flatMap_cons, List.flatMap_map, none,
        List.append_nil, induction fun other member => below other (by simp [member]), List.flatMap_cons]
      rfl

theorem places_words {embeds : List Embed}
    (words : ∀ embed ∈ embeds, IsWord embed.name ∧ ∀ place ∈ places embed.embeds,
      ∀ name ∈ place.1, IsWord name) :
    ∀ place ∈ places embeds, ∀ name ∈ place.1, IsWord name := by
  induction embeds with
  | nil => rw [places]; exact List.forall_mem_nil _
  | cons embed rest induction =>
      obtain ⟨word, below⟩ := words embed (by simp)
      rw [places, placesFrom_eq]
      intro place member name listed
      simp only [List.cons_append, List.mem_cons, List.mem_append, List.mem_map] at member
      rcases member with rfl | ⟨other, found, rfl⟩ | later
      · rw [List.mem_singleton.mp listed]
        exact word
      · rcases List.mem_cons.mp listed with rfl | inside
        · exact word
        · exact below other found name inside
      · exact induction (fun other member => words other (by simp [member])) place later name listed

theorem places_words_below {embed : Embed} (named : embed.IsNamed) :
    ∀ place ∈ places embed.embeds, ∀ name ∈ place.1, IsWord name := by
  induction named with
  | intro word labelled columns distinct below induction =>
      exact places_words fun other member => ⟨name_word (below other member), induction other member⟩

theorem places_some {embeds : List Embed} : ∀ place ∈ places embeds, place.1 ≠ [] := by
  induction embeds with
  | nil => rw [places]; exact List.forall_mem_nil _
  | cons embed rest induction =>
      rw [places, placesFrom_eq]
      intro place member
      simp only [List.cons_append, List.mem_cons, List.mem_append, List.mem_map] at member
      rcases member with rfl | ⟨other, _, rfl⟩ | later
      · simp
      · simp
      · exact induction place later

theorem mem_places {embeds : List Embed} {embed : Embed} (member : embed ∈ embeds) :
    ([embed.name], embed) ∈ places embeds ∧
      ∀ place ∈ places embed.embeds, (embed.name :: place.1, place.2) ∈ places embeds := by
  induction embeds with
  | nil => cases member
  | cons first rest induction =>
      rw [places, placesFrom_eq]
      rcases List.mem_cons.mp member with rfl | later
      · refine ⟨by simp, fun place listed => ?_⟩
        exact List.mem_append_left _ (List.mem_cons_of_mem _ (List.mem_map.mpr ⟨place, listed, rfl⟩))
      · exact ⟨List.mem_append_right _ (induction later).1, fun place listed =>
          List.mem_append_right _ ((induction later).2 place listed)⟩

theorem pathBelow_append (path name : String) (names : List String) :
    pathBelow (path ++ "." ++ name) names = path ++ "." ++ pathBelow name names := by
  induction names generalizing name with
  | nil => rfl
  | cons next rest induction =>
      have step (front : String) : pathBelow front (next :: rest) = pathBelow (front ++ "." ++ next) rest := rfl
      rw [step, step, ← induction]
      simp only [String.append_assoc]

/-- The paths below an embed are those among its own embeds, behind its path. -/
theorem pathsBelow_paths (embeds : List Embed) (path : String) :
    pathsBelow path embeds = (paths embeds).map fun entry => (path ++ "." ++ entry.1, entry.2) := by
  rw [pathsBelow_eq, paths_eq, List.map_map]
  refine List.map_congr_left fun place member => ?_
  obtain ⟨names, other⟩ := place
  cases names with
  | nil => exact absurd rfl (places_some _ member)
  | cons name rest => exact congrArg (·, other) (pathBelow_append path name rest)

/-- Where embeds are changed but not renamed, they stay at their paths. -/
theorem pathsBelow_mapAll {change : Embed → Embed} (kept : ∀ embed, (change embed).name = embed.name)
    (embeds : List Embed) (path : String) :
    pathsBelow path (mapAll change embeds) =
      (pathsBelow path embeds).map fun entry => (entry.1, entry.2.mapEach change) := by
  induction embeds using forestInduction generalizing path with
  | nil => rw [mapAll, pathsBelow]; rfl
  | cons embed rest below beside =>
      have name : (embed.mapEach change).name = embed.name := by
        rw [mapEach_eq]
        exact kept embed
      have inside : (embed.mapEach change).embeds = mapAll change embed.embeds := by rw [mapEach_eq]
      rw [mapAll, pathsBelow, pathsBelow, beside, pathsFrom_eq, pathsFrom_eq, name, inside, below,
        List.map_append, List.map_cons]

theorem paths_mapAll {change : Embed → Embed} (kept : ∀ embed, (change embed).name = embed.name)
    (embeds : List Embed) :
    paths (mapAll change embeds) = (paths embeds).map fun entry => (entry.1, entry.2.mapEach change) := by
  rw [paths, paths, mapAll_eq_map, List.flatMap_map, List.map_flatMap]
  refine List.flatMap_congr fun embed member => ?_
  have name : (embed.mapEach change).name = embed.name := by
    rw [mapEach_eq]
    exact kept embed
  have below : (embed.mapEach change).embeds = mapAll change embed.embeds := by rw [mapEach_eq]
  rw [pathsFrom_eq, pathsFrom_eq, name, below, pathsBelow_mapAll kept, List.map_cons]

theorem mapEach_congr {before after : Embed → Embed} {embed : Embed} (plain : embed.IsPlain)
    (here : before embed = after embed)
    (below : ∀ place ∈ places embed.embeds, before place.2 = after place.2) :
    embed.mapEach before = embed.mapEach after := by
  induction plain with
  | intro _ _ _ _ _ _ induction =>
      rw [mapEach_eq, mapEach_eq, here, mapAll_eq_map, mapAll_eq_map]
      refine congrArg _ (List.map_congr_left fun other member => ?_)
      obtain ⟨found, deeper⟩ := mem_places member
      exact induction other member (below _ found) fun place listed =>
        below (other.name :: place.1, place.2) (deeper place listed)

/-- Changes that agree on every embed at a place change the embeds alike. -/
theorem mapAll_congr {before after : Embed → Embed} {embeds : List Embed}
    (plain : ∀ embed ∈ embeds, embed.IsPlain) (here : ∀ embed ∈ embeds, before embed = after embed)
    (below : ∀ embed ∈ embeds, ∀ place ∈ places embed.embeds, before place.2 = after place.2) :
    mapAll before embeds = mapAll after embeds := by
  rw [mapAll_eq_map, mapAll_eq_map]
  exact List.map_congr_left fun embed member =>
    mapEach_congr (plain embed member) (here embed member) (below embed member)

section Change

variable {change : Embed → Embed} {head : Embed} {rest : List Embed} {name : String}
  {names : List String}

theorem updateFirst?_eq_none {embeds : List Embed} :
    updateFirst? (·.name = name) (fun embed => some (change embed)) embeds = none ↔
      name ∉ embeds.map Embed.name := by
  induction embeds with
  | nil => simp [updateFirst?]
  | cons embed rest induction =>
      rw [updateFirst?]
      by_cases here : embed.name = name
      · simp [here]
      · simp [here, Ne.symm here, induction]

theorem updateAt?_here : updateAt? change [head.name] (head :: rest) = some (change head :: rest) := by
  simp [updateAt?, updateFirst?]

theorem updateAt?_below (further : names ≠ []) :
    updateAt? change (head.name :: names) (head :: rest) =
      (updateAt? change names head.embeds).map fun below => { head with embeds := below } :: rest := by
  cases names with
  | nil => exact absurd rfl further
  | cons next names =>
      rw [updateAt?, updateFirst?, if_pos (by simp), Option.map_map]
      · rfl
      · simp

theorem updateAt?_beside (other : head.name ≠ name) :
    updateAt? change (name :: names) (head :: rest) =
      (updateAt? change (name :: names) rest).map (head :: ·) := by
  cases names <;> simp [updateAt?, updateFirst?, other]

/-- A change is made where there is an embed. -/
theorem at?_of_updateAt? {embeds changed : List Embed}
    (found : updateAt? change names embeds = some changed) : (at? names embeds).isSome = true := by
  induction names generalizing embeds changed with
  | nil => cases found
  | cons name further induction =>
      induction embeds generalizing changed with
      | nil => cases further <;> cases found
      | cons head rest behind =>
          by_cases same : head.name = name
          · subst same
            cases further with
            | nil => simp [at?]
            | cons next further =>
                rw [updateAt?_below (by simp), Option.map_eq_some_iff] at found
                obtain ⟨below, found, _⟩ := found
                simpa [at?] using induction found
          · rw [updateAt?_beside same, Option.map_eq_some_iff] at found
            obtain ⟨others, found, _⟩ := found
            have there := behind found
            cases further <;> simpa [at?, same] using there

end Change

theorem foldl_filters (filters : List Filter) (embed : Embed) :
    filters.foldl (fun other filter => { other with filters := other.filters ++ [filter] }) embed =
      { embed with filters := embed.filters ++ filters } := by
  induction filters generalizing embed with
  | nil => cases embed; simp
  | cons filter rest induction => simp [induction]

section Entries

variable {α : Type} {items : Embed → List α} {act : α → Embed → Embed} {before after : Embed → Embed}

/-- Everything that is to be done, behind the names on the way to where it is done. -/
def entries (items : Embed → List α) (embeds : List Embed) : List (List String × α) :=
  (places embeds).flatMap fun place => (items place.2).map fun item => (place.1, item)

def applyAt (act : α → Embed → Embed) (embeds : List Embed) (entry : List String × α) :
    Option (List Embed) :=
  updateAt? (act entry.2) entry.1 embeds

/-- What is done for the items of an embed leaves its name, and makes of the embed before the one after,
whatever is below it. -/
structure Completes (items : Embed → List α) (act : α → Embed → Embed) (before after : Embed → Embed) : Prop where
  kept : ∀ item embed, (act item embed).name = embed.name
  named : ∀ embed, (before embed).name = embed.name ∧ (after embed).name = embed.name
  done : ∀ embed below, (items embed).foldl (fun other item => act item other)
    { before embed with embeds := below } = { after embed with embeds := below }

theorem foldlM_here (kept : ∀ item embed, (act item embed).name = embed.name) (list : List α)
    (head : Embed) (rest : List Embed) :
    (list.map fun item => ([head.name], item)).foldlM (applyAt act) (head :: rest) =
      some (list.foldl (fun embed item => act item embed) head :: rest) := by
  induction list generalizing head with
  | nil => rfl
  | cons item more induction =>
      have next := induction (act item head)
      rw [kept] at next
      rw [List.map_cons, List.foldlM_cons, applyAt, updateAt?_here]
      exact next

theorem foldlM_below (act : α → Embed → Embed) {list : List (List String × α)} (further : ∀ entry ∈ list, entry.1 ≠ [])
    (head : Embed) (rest : List Embed) :
    (list.map fun entry => (head.name :: entry.1, entry.2)).foldlM (applyAt act) (head :: rest) =
      (list.foldlM (applyAt act) head.embeds).map fun below => { head with embeds := below } :: rest := by
  induction list generalizing head with
  | nil => cases head; rfl
  | cons entry more induction =>
      rw [List.map_cons, List.foldlM_cons, List.foldlM_cons, applyAt,
        updateAt?_below (further entry (by simp)), applyAt]
      cases updateAt? (act entry.2) entry.1 head.embeds with
      | none => rfl
      | some below =>
          exact induction (fun other member => further other (by simp [member]))
            { head with embeds := below }

theorem foldlM_beside {list : List (List String × α)} {head : Embed}
    (other : ∀ entry ∈ list, ∃ name names, entry.1 = name :: names ∧ head.name ≠ name)
    (rest : List Embed) :
    list.foldlM (applyAt act) (head :: rest) =
      (list.foldlM (applyAt act) rest).map (head :: ·) := by
  induction list generalizing rest with
  | nil => rfl
  | cons entry more induction =>
      obtain ⟨name, names, shape, differ⟩ := other entry (by simp)
      rw [List.foldlM_cons, List.foldlM_cons, applyAt, applyAt, shape, updateAt?_beside differ]
      cases updateAt? (act entry.2) (name :: names) rest with
      | none => rfl
      | some changed => exact induction (fun other' member => other other' (by simp [member])) changed

theorem places_first {embeds : List Embed} :
    ∀ place ∈ places embeds, ∃ embed ∈ embeds, ∃ names, place.1 = embed.name :: names := by
  induction embeds with
  | nil => rw [places]; exact List.forall_mem_nil _
  | cons embed rest induction =>
      rw [places, placesFrom_eq]
      intro place member
      simp only [List.cons_append, List.mem_cons, List.mem_append, List.mem_map] at member
      rcases member with rfl | ⟨other, _, rfl⟩ | later
      · exact ⟨embed, by simp, [], rfl⟩
      · exact ⟨embed, by simp, other.1, rfl⟩
      · obtain ⟨found, listed, names, shape⟩ := induction place later
        exact ⟨found, by simp [listed], names, shape⟩

theorem entries_cons (embed : Embed) (rest : List Embed) :
    entries items (embed :: rest) =
      (items embed).map (fun item => ([embed.name], item)) ++
        ((entries items embed.embeds).map (fun entry => (embed.name :: entry.1, entry.2)) ++
          entries items rest) := by
  unfold entries
  rw [places, placesFrom_eq, List.cons_append, List.flatMap_cons, List.flatMap_append,
    List.flatMap_map, List.map_flatMap]
  simp only [List.map_map, Function.comp_def]

theorem entries_further {embeds : List Embed} : ∀ entry ∈ entries items embeds, entry.1 ≠ [] := by
  intro entry member
  obtain ⟨place, listed, inside⟩ := List.mem_flatMap.mp member
  obtain ⟨item, _, rfl⟩ := List.mem_map.mp inside
  exact places_some place listed

namespace Completes

variable (completes : Completes items act before after)

include completes

/-- The embeds of a level are worked off one after the other, each with those below it. -/
theorem foldlM_entries_of_each {embeds : List Embed} (distinct : (embeds.map name).Nodup)
    (each : ∀ embed ∈ embeds, (entries items embed.embeds).foldlM (applyAt act)
      (mapAll before embed.embeds) = some (mapAll after embed.embeds)) :
    (entries items embeds).foldlM (applyAt act) (mapAll before embeds) =
      some (mapAll after embeds) := by
  induction embeds with
  | nil => rfl
  | cons embed rest induction =>
      have below := each embed (by simp)
      have others := induction (List.nodup_cons.mp distinct).2 fun other member =>
        each other (by simp [member])
      have first : ({ before embed with embeds := mapAll before embed.embeds } : Embed).name =
          embed.name := (completes.named embed).1
      have last : ({ after embed with embeds := mapAll before embed.embeds } : Embed).name =
          embed.name := (completes.named embed).2
      -- The entries of the other embeds begin with other names, so they pass this embed by.
      have apart : ∀ entry ∈ entries items rest, ∃ name names,
          entry.1 = name :: names ∧ (mapEach after embed).name ≠ name := by
        intro entry member
        obtain ⟨place, listed, inside⟩ := List.mem_flatMap.mp member
        obtain ⟨item, _, rfl⟩ := List.mem_map.mp inside
        obtain ⟨other, found, names, shape⟩ := places_first place listed
        refine ⟨other.name, names, shape, ?_⟩
        rw [mapEach_eq]
        intro same
        have equal : embed.name = other.name := (completes.named embed).2.symm.trans same
        exact (List.nodup_cons.mp distinct).1 (equal ▸ List.mem_map_of_mem found)
      have here := foldlM_here completes.kept (items embed)
        { before embed with embeds := mapAll before embed.embeds } (mapAll before rest)
      rw [first, completes.done] at here
      have further : ∀ entry ∈ entries items embed.embeds, entry.1 ≠ [] := entries_further
      have inside := foldlM_below act further
        { after embed with embeds := mapAll before embed.embeds } (mapAll before rest)
      rw [last] at inside
      rw [entries_cons, mapAll, mapEach_eq, List.foldlM_append, here, Option.bind_eq_bind,
        Option.bind_some, List.foldlM_append, inside, below, Option.map_some, Option.bind_eq_bind,
        Option.bind_some, mapAll]
      rw [mapEach_eq] at apart ⊢
      rw [foldlM_beside apart, others]
      rfl

theorem foldlM_entries_below {embed : Embed} (listed : embed.IsNamed) :
    (entries items embed.embeds).foldlM (applyAt act) (mapAll before embed.embeds) =
      some (mapAll after embed.embeds) := by
  induction listed with
  | intro word labelled columns distinct below induction =>
      exact completes.foldlM_entries_of_each distinct induction

/-- What is done at every path is done to every embed. -/
theorem foldlM_entries {embeds : List Embed} (listed : ∀ embed ∈ embeds, embed.IsNamed)
    (distinct : (embeds.map name).Nodup) :
    (entries items embeds).foldlM (applyAt act) (mapAll before embeds) =
      some (mapAll after embeds) :=
  completes.foldlM_entries_of_each distinct fun embed member => completes.foldlM_entries_below (listed embed member)

end Completes

end Entries

end QueryNotation.Embed
