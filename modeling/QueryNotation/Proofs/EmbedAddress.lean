import Mathlib.Data.List.Forall2
import QueryNotation.Proofs.EmbedPlace

namespace QueryNotation.Embed

/-! # Paths as addresses

Embeds whose names hold no point, and differ from those of their siblings, are told apart by their paths.
Two embeds may be alike, so it is their places that say which one a path leads to: the list of paths goes
through every place once, and whatever is looked up or changed at a path is what stands at its place.
-/

variable {change : Embed → Embed} {embeds rest : List Embed} {embed head : Embed} {names : List String}
  {place further : Place}

/-- Embeds of which each has a name without a point that none of its siblings has, at every level. -/
inductive Addressable : List Embed → Prop where
  | intro {embeds : List Embed} (plain : ∀ embed ∈ embeds, '.' ∉ embed.name.toList)
    (distinct : (embeds.map name).Nodup) (below : ∀ embed ∈ embeds, Addressable embed.embeds) :
    Addressable embeds

theorem addressable_cons (addressable : Addressable (head :: rest)) :
    '.' ∉ head.name.toList ∧ head.name ∉ rest.map name ∧ Addressable head.embeds ∧ Addressable rest := by
  obtain ⟨plain, distinct, below⟩ := addressable
  obtain ⟨plainHead, plainRest⟩ := List.forall_mem_cons.mp plain
  obtain ⟨other, distinctRest⟩ := List.nodup_cons.mp distinct
  obtain ⟨belowHead, belowRest⟩ := List.forall_mem_cons.mp below
  exact ⟨plainHead, other, belowHead, plainRest, distinctRest, belowRest⟩

mutual

def addressesFrom : Embed → List Place
  | { embeds, .. } => [] :: addresses embeds

/-- The places of the embeds of a list and of those below them, in the order of their paths. -/
def addresses : List Embed → List Place
  | [] => []
  | embed :: rest =>
    (addressesFrom embed).map (0 :: ·) ++ (addresses rest).map (List.modifyHead (· + 1))

end

theorem addresses_cons (head : Embed) (rest : List Embed) :
    addresses (head :: rest) =
      [0] :: ((addresses head.embeds).map (0 :: ·) ++ (addresses rest).map (List.modifyHead (· + 1))) := by
  cases head
  rw [addresses, addressesFrom]
  rfl

theorem atPlace?_nil (place : Place) : atPlace? place [] = none := by
  match place with
  | [] | [_] | _ :: _ :: _ => rfl

theorem atPlace?_zero (further : place ≠ []) : atPlace? (0 :: place) (head :: rest) = atPlace? place head.embeds := by
  rw [atPlace?_further 0 further]
  rfl

theorem atPlace?_succ (number : Nat) (further : Place) :
    atPlace? ((number + 1) :: further) (head :: rest) = atPlace? (number :: further) rest := by
  cases further <;> rfl

theorem modifyHead_eq_cons {f : Nat → Nat} {number : Nat} :
    place.modifyHead f = number :: further ↔ ∃ first, place = first :: further ∧ f first = number := by
  cases place <;> simp [eq_comm, and_comm]

/-- The listed places are those at which there is an embed. -/
theorem mem_addresses (place : Place) : place ∈ addresses embeds ↔ (atPlace? place embeds).isSome = true := by
  induction embeds using forestInduction generalizing place with
  | nil => rw [addresses, atPlace?_nil]; simp
  | cons head rest below beside =>
      rw [addresses_cons, List.mem_cons, List.mem_append, List.mem_map, List.mem_map]
      match place with
      | [] =>
          have unlisted : [] ∉ addresses rest := fun listed => by simpa [atPlace?] using (beside []).mp listed
          simpa [atPlace?] using unlisted
      | [0] => simp [atPlace?]
      | 0 :: number :: further =>
          rw [atPlace?_zero (List.cons_ne_nil _ _), ← below]
          simp [modifyHead_eq_cons]
      | (number + 1) :: further =>
          rw [atPlace?_succ, ← beside]
          simp [modifyHead_eq_cons]

theorem addresses_ne_nil (listed : place ∈ addresses embeds) : place ≠ [] := by
  rintro rfl
  simpa [atPlace?] using (mem_addresses []).mp listed

theorem modifyHead_isPrefix {earlier later : Place} (some : later ≠ [])
    (front : later.modifyHead (· + 1) <+: earlier.modifyHead (· + 1)) : later <+: earlier := by
  obtain ⟨number, more, rfl⟩ := List.exists_cons_of_ne_nil some
  cases earlier with
  | nil => simp at front
  | cons first behind => simpa [List.cons_prefix_cons] using front

/-- No place is listed behind one that lies below it, or behind itself. -/
theorem pairwise_addresses (embeds : List Embed) :
    (addresses embeds).Pairwise fun earlier later => ¬ later <+: earlier := by
  induction embeds using forestInduction with
  | nil => rw [addresses]; exact .nil
  | cons head rest below beside =>
      have behind : ∀ earlier : Place, ∀ later ∈ (addresses rest).map (List.modifyHead (· + 1)),
          ¬ later <+: 0 :: earlier := by
        intro earlier later member front
        obtain ⟨place, listed, rfl⟩ := List.mem_map.mp member
        obtain ⟨number, further, rfl⟩ := List.exists_cons_of_ne_nil (addresses_ne_nil listed)
        simp [List.cons_prefix_cons] at front
      rw [addresses_cons, List.pairwise_cons, List.pairwise_append, List.pairwise_map, List.pairwise_map]
      refine ⟨fun later member => ?first, ?below, ?beside, fun earlier member later => ?across⟩
      case first =>
        rcases List.mem_append.mp member with inside | after
        · obtain ⟨place, listed, rfl⟩ := List.mem_map.mp inside
          simpa [List.cons_prefix_cons] using addresses_ne_nil listed
        · exact behind [] later after
      case below => simpa [List.cons_prefix_cons] using below
      case beside =>
        exact beside.imp_of_mem fun _ listed apart front =>
          apart (modifyHead_isPrefix (addresses_ne_nil listed) front)
      case across =>
        obtain ⟨place, _, rfl⟩ := List.mem_map.mp member
        exact behind place later

theorem nodup_addresses (embeds : List Embed) : (addresses embeds).Nodup := by
  refine (pairwise_addresses embeds).imp ?_
  rintro place _ apart rfl
  exact apart (List.prefix_refl place)

theorem place?_here : place? [head.name] (head :: rest) = some [0] := by
  simp [place?, List.findIdx?_cons]

theorem place?_below (further : names ≠ []) :
    place? (head.name :: names) (head :: rest) = (place? names head.embeds).map (0 :: ·) := by
  rw [place?_further _ further, List.findIdx?_cons]
  simp

/-- What leads to an embed leads there also behind one of another name. -/
theorem place?_beside (other : head.name ∉ rest.map name) (found : place? names rest = some place) :
    place? names (head :: rest) = some (place.modifyHead (· + 1)) := by
  cases names with
  | nil => cases found
  | cons name names =>
      obtain ⟨number, embed, first, there, shape⟩ := place?_cons found
      have apart : head.name ≠ name := by
        rintro rfl
        obtain ⟨inside, same, _⟩ := List.findIdx?_eq_some_iff_getElem.mp first
        exact other (List.mem_map.mpr ⟨rest[number], List.getElem_mem inside, by simpa using same⟩)
      have next : (head :: rest).findIdx? (·.name = name) = some (number + 1) := by
        rw [List.findIdx?_cons, if_neg (by simpa using apart), first]
        rfl
      rcases shape with ⟨rfl, rfl⟩ | ⟨further, more, below, rfl⟩
      · rw [place?, next]
        rfl
      · rw [place?_further name more, next, Option.bind_some, List.getElem?_cons_succ, there,
          Option.bind_some, below]
        rfl

/-- The names on the way to each embed lead to its place. -/
theorem addresses_places (addressable : Addressable embeds) :
    List.Forall₂ (fun place entry => place? entry.1 embeds = some place ∧
      atPlace? place embeds = some entry.2 ∧ ∀ name ∈ entry.1, '.' ∉ name.toList)
      (addresses embeds) (places embeds) := by
  induction embeds using forestInduction with
  | nil => rw [addresses, places]; exact .nil
  | cons head rest below beside =>
      obtain ⟨plain, other, inside, behind⟩ := addressable_cons addressable
      rw [addresses_cons, places, placesFrom_eq, List.cons_append]
      refine .cons ⟨place?_here, rfl, by simpa using plain⟩ (List.rel_append ?_ ?_)
      · rw [List.forall₂_map_left_iff, List.forall₂_map_right_iff]
        refine (below inside).imp fun place entry found => ?_
        obtain ⟨leads, stands, words⟩ := found
        have some : entry.1 ≠ [] := fun none => by simp [none, place?] at leads
        refine ⟨?_, (atPlace?_zero (place?_ne_nil leads)).trans stands, List.forall_mem_cons.mpr ⟨plain, words⟩⟩
        rw [place?_below some, leads, Option.map_some]
      · rw [List.forall₂_map_left_iff]
        refine (beside behind).imp fun place entry found => ?_
        obtain ⟨leads, stands, words⟩ := found
        obtain ⟨number, further, rfl⟩ := List.exists_cons_of_ne_nil (place?_ne_nil leads)
        exact ⟨place?_beside other leads, (atPlace?_succ number further).trans stands, words⟩

def modifyAt (change : Embed → Embed) : Place → List Embed → List Embed
  | [], embeds => embeds
  | [number], embeds => embeds.modify number change
  | number :: further, embeds =>
    embeds.modify number fun embed => { embed with embeds := modifyAt change further embed.embeds }

theorem set_eq_modify {number : Nat} (there : embeds[number]? = some embed) :
    embeds.set number (change embed) = embeds.modify number change := by
  rw [List.modify_eq_set, there]
  rfl

/-- What is changed at some names is the embed at the place that they lead to. -/
theorem updateAt?_of_place? (change : Embed → Embed) (found : place? names embeds = some place) :
    updateAt? change names embeds = some (modifyAt change place embeds) := by
  induction names generalizing embeds place with
  | nil => cases found
  | cons name rest induction =>
      obtain ⟨number, embed, first, there, ⟨rfl, rfl⟩ | ⟨further, more, below, rfl⟩⟩ := place?_cons found
      · rw [updateAt?_single, first, Option.bind_some, there, Option.bind_some, set_eq_modify there]
        rfl
      · rw [updateAt?_further change name more, first, Option.bind_some, there, Option.bind_some,
          induction below, Option.map_some, modifyAt, ← set_eq_modify there]
        exact place?_ne_nil below

theorem mem_places_of_at? (found : at? names embeds = some embed) : (names, embed) ∈ places embeds := by
  induction names generalizing embeds with
  | nil => cases found
  | cons name rest induction =>
      by_cases last : rest = []
      · subst last
        have called : embed.name = name := by simpa using List.find?_some found
        exact called ▸ (mem_places (List.mem_of_find?_eq_some found)).1
      · rw [at?_further name last] at found
        obtain ⟨other, first, below⟩ := Option.bind_eq_some_iff.mp found
        have called : other.name = name := by simpa using List.find?_some first
        exact called ▸ (mem_places (List.mem_of_find?_eq_some first)).2 _ (induction below)

/-- A path leads through its names. -/
theorem pathThrough_pathNames (path : String) : pathThrough (pathNames path) = path := by
  have joined := Text.intercalate_pieces '.' path.toList
  apply String.toList_injective
  obtain ⟨first, more, shape⟩ := List.exists_cons_of_ne_nil (Text.pieces_ne_nil (· == '.') path.toList)
  rw [shape] at joined
  rw [pathNames, shape, List.map_cons, pathThrough, toList_pathBelow, ← List.map_cons, List.map_map]
  simpa [Function.comp_def] using joined

/-- What stands at a path is listed with it. -/
theorem mem_paths_of_at? {path : String} (found : at? (pathNames path) embeds = some embed) :
    (path, embed) ∈ paths embeds := by
  rw [paths_eq]
  exact List.mem_map.mpr ⟨_, mem_places_of_at? found, by rw [pathThrough_pathNames]⟩

/-- Each listed path leads to the very embed that it is listed with, be it looked up or changed, and no
other path leads anywhere.  Every embed is listed once, behind those that it lies below. -/
theorem paths_lead_back (addressable : Addressable embeds) :
    List.Forall₂ (fun place entry => atPlace? place embeds = some entry.2 ∧
        at? (pathNames entry.1) embeds = some entry.2 ∧
        ∀ change, updateAt? change (pathNames entry.1) embeds = some (modifyAt change place embeds))
      (addresses embeds) (paths embeds) ∧
    (∀ path, path ∉ (paths embeds).map Prod.fst →
      at? (pathNames path) embeds = none ∧ ∀ change, updateAt? change (pathNames path) embeds = none) ∧
    (∀ place, place ∈ addresses embeds ↔ (atPlace? place embeds).isSome = true) ∧
    (addresses embeds).Nodup ∧ (addresses embeds).Pairwise fun earlier later => ¬ later <+: earlier := by
  refine ⟨?_, fun path unlisted => ?_, mem_addresses, nodup_addresses embeds, pairwise_addresses embeds⟩
  · rw [paths_eq, List.forall₂_map_right_iff]
    refine (addresses_places addressable).imp fun place entry listed => ?_
    obtain ⟨leads, stands, words⟩ := listed
    have some : entry.1 ≠ [] := fun none => by simp [none, place?] at leads
    obtain ⟨embed, found, there⟩ := at?_of_place? leads
    rw [stands] at there
    obtain rfl := Option.some.inj there
    rw [pathNames_pathThrough some words]
    exact ⟨stands, found, fun change => updateAt?_of_place? change leads⟩
  · have missing : at? (pathNames path) embeds = none := by
      rw [Option.eq_none_iff_forall_ne_some]
      exact fun embed found => unlisted (List.mem_map.mpr ⟨_, mem_paths_of_at? found, rfl⟩)
    refine ⟨missing, fun change => ?_⟩
    rw [Option.eq_none_iff_forall_ne_some]
    intro changed found
    simpa [missing] using at?_of_updateAt? found

def authored : List Embed :=
  ["posts", "comments"].map fun relation =>
    { relation, columns := [.star], embeds := [{ relation := "author", columns := [.star] }] }

/-- The second of two embeds that are alike is found, and changed, behind its own path alone. -/
theorem paths_lead_back_alike :
    Addressable authored ∧ atPlace? [0, 0] authored = atPlace? [1, 0] authored ∧
      (∀ change, updateAt? change (pathNames "comments.author") authored =
        some (modifyAt change [1, 0] authored)) ∧
      at? (pathNames "author") authored = none := by
  have leaf : Addressable [{ relation := "author", columns := [.star] }] :=
    .intro (by decide) (by decide) fun _ listed => by
      rw [List.mem_singleton.mp listed]
      exact .intro (by simp) .nil (by simp)
  have addressable : Addressable authored := by
    refine .intro (by decide) (by decide) fun embed listed => ?_
    obtain ⟨relation, _, rfl⟩ := List.mem_map.mp listed
    exact leaf
  obtain ⟨led, unlisted, _⟩ := paths_lead_back addressable
  have listed : paths authored = [("posts", authored[0]), ("posts.author", authored[0].embeds[0]),
    ("comments", authored[1]), ("comments.author", authored[1].embeds[0])] := rfl
  have placed : addresses authored = [[0], [0, 0], [1], [1, 0]] := rfl
  rw [listed, placed] at led
  obtain _ | ⟨_, _ | ⟨_, _ | ⟨_, _ | ⟨⟨_, _, changed⟩, _⟩⟩⟩⟩ := led
  refine ⟨addressable, rfl, changed, (unlisted "author" ?_).1⟩
  rw [listed]
  decide

end QueryNotation.Embed
