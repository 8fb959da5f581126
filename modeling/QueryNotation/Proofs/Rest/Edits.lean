import QueryNotation.Proofs.Rest.Edit

namespace QueryNotation.Rest

/-! # Runs of edits of embeds

Each edit of a run names the embed that it is for.  The first embed with a name takes all edits for
that name, in order; an edit for a name that no embed has changes nothing.
-/

open Embed

namespace EmbedEdit

def addedFilters : EmbedEdit → List Filter
  | .filter added => [added]
  | _ => []

def addedOrder : EmbedEdit → List OrderItem
  | .order items => items
  | _ => []

def limitSet? : EmbedEdit → Option UInt64
  | .limit count => some count
  | _ => none

def applyAll (edits : List EmbedEdit) (embed : Embed) : Embed :=
  edits.foldl (fun embed edit => edit.apply embed) embed

theorem applyAll_eq (edits : List EmbedEdit) (embed : Embed) :
    applyAll edits embed = { embed with
      filters := embed.filters ++ edits.flatMap addedFilters
      order := embed.order ++ edits.flatMap addedOrder
      limit := (edits.filterMap limitSet?).getLast?.or embed.limit } := by
  induction edits generalizing embed with
  | nil => cases embed; simp [applyAll]
  | cons edit rest induction =>
      have behind := induction (edit.apply embed)
      rw [applyAll] at behind
      rw [applyAll, List.foldl_cons, behind]
      cases edit with
      | order items => simp [apply, addedFilters, addedOrder, limitSet?]
      | filter added => simp [apply, addedFilters, addedOrder, limitSet?]
      | limit count =>
          cases last : (rest.filterMap limitSet?).getLast? <;>
            simp [apply, addedFilters, addedOrder, limitSet?, List.getLast?_cons, last]

theorem name_applyAll (edits : List EmbedEdit) (embed : Embed) : (applyAll edits embed).name = embed.name := by
  rw [applyAll_eq]
  rfl

theorem limitSet?_eq_some {edit : EmbedEdit} {count : UInt64} :
    edit.limitSet? = some count ↔ edit = .limit count := by
  cases edit <;> simp [limitSet?]

variable {embed : Embed} {front back : List EmbedEdit}

/-- Edits in front of others go unseen just when they set a limit that is set again. -/
theorem applyAll_front (unlimited : embed.limit = none) (full : ∀ edit ∈ front, edit ≠ .order []) :
    applyAll (front ++ back) embed = applyAll back embed ↔
      ∀ edit ∈ front, ∃ count again, edit = .limit count ∧ .limit again ∈ back := by
  rw [applyAll_eq, applyAll_eq, unlimited]
  simp only [Embed.mk.injEq, true_and, and_true, List.flatMap_append, List.filterMap_append,
    List.append_cancel_left_eq, List.append_left_eq_self, List.flatMap_eq_nil_iff, Option.or_none]
  constructor
  · rintro ⟨filters, order, limit⟩ edit member
    cases edit with
    | order items => exact absurd (congrArg EmbedEdit.order (order _ member)) (full _ member)
    | filter added => exact absurd (filters _ member) (List.cons_ne_nil _ _)
    -- A limit goes unseen when a later one takes its place.
    | limit count =>
        have set : count ∈ front.filterMap limitSet? := List.mem_filterMap.mpr ⟨_, member, rfl⟩
        cases later : back.filterMap limitSet? with
        | nil =>
            rw [later, List.append_nil, List.getLast?_nil, List.getLast?_eq_none_iff] at limit
            rw [limit] at set
            cases set
        | cons again more =>
            have listed : again ∈ back.filterMap limitSet? := by simp [later]
            obtain ⟨other, inside, sets⟩ := List.mem_filterMap.mp listed
            exact ⟨count, again, rfl, limitSet?_eq_some.mp sets ▸ inside⟩
  · intro reset
    refine ⟨fun edit member => ?_, fun edit member => ?_, ?_⟩
    · obtain ⟨count, again, rfl, _⟩ := reset edit member
      rfl
    · obtain ⟨count, again, rfl, _⟩ := reset edit member
      rfl
    · cases front with
      | nil => rfl
      | cons edit rest =>
          obtain ⟨_, again, _, later⟩ := reset edit (by simp)
          have set : again ∈ back.filterMap limitSet? := List.mem_filterMap.mpr ⟨_, later, rfl⟩
          rw [List.getLast?_append_of_ne_nil _ (List.ne_nil_of_mem set)]

end EmbedEdit

def editAll (edits : List (String × EmbedEdit)) (embeds : List Embed) : List Embed :=
  edits.foldl (fun embeds edit => changeAt edit.2.apply [edit.1] embeds) embeds

def editsFor (name : String) (edits : List (String × EmbedEdit)) : List EmbedEdit :=
  (edits.filter fun edit => edit.1 = name).map Prod.snd

variable {edits front back : List (String × EmbedEdit)} {embeds : List Embed}

theorem editAll_append (front back : List (String × EmbedEdit)) (embeds : List Embed) :
    editAll (front ++ back) embeds = editAll back (editAll front embeds) :=
  List.foldl_append

theorem editAll_empty (edits : List (String × EmbedEdit)) : editAll edits [] = [] := by
  induction edits with
  | nil => rfl
  | cons edit rest induction => rwa [editAll, List.foldl_cons, changeAt_empty]

theorem editAll_cons (edits : List (String × EmbedEdit)) (embed : Embed) (rest : List Embed) :
    editAll edits (embed :: rest) = EmbedEdit.applyAll (editsFor embed.name edits) embed ::
      editAll (edits.filter fun edit => edit.1 ≠ embed.name) rest := by
  induction edits generalizing embed rest with
  | nil => rfl
  | cons edit more induction =>
      have behind (embed : Embed) (rest : List Embed) := induction embed rest
      simp only [editAll] at behind
      rw [editAll, List.foldl_cons, changeAt_cons]
      by_cases here : edit.1 = embed.name
      · have kept : (edit.2.apply embed).name = embed.name := (isLocal_apply edit.2).name embed
        rw [if_pos here.symm, changeHead, if_pos rfl, behind, kept, editsFor, editsFor,
          List.filter_cons_of_pos (by simpa using here), List.filter_cons_of_neg (by simpa using here)]
        rfl
      · rw [if_neg (Ne.symm here), behind, editsFor, editsFor,
          List.filter_cons_of_neg (by simpa using here), List.filter_cons_of_pos (by simpa using here)]
        rfl

theorem map_name_editAll (edits : List (String × EmbedEdit)) (embeds : List Embed) :
    (editAll edits embeds).map name = embeds.map name := by
  induction embeds generalizing edits with
  | nil => rw [editAll_empty]
  | cons embed rest induction =>
      rw [editAll_cons, List.map_cons, List.map_cons, EmbedEdit.name_applyAll, induction]

/-- An edit that sets a limit which one of the later edits sets again. -/
def IsReset (later : List (String × EmbedEdit)) (edit : String × EmbedEdit) : Prop :=
  ∃ count again, edit.2 = .limit count ∧ (edit.1, .limit again) ∈ later

/-- Edits in front of others go unseen just when those for names that embeds have set limits which
are set again. -/
theorem editAll_front (unlimited : ∀ embed ∈ embeds, embed.limit = none)
    (full : ∀ edit ∈ front, edit.2 ≠ .order []) :
    editAll (front ++ back) embeds = editAll back embeds ↔
      ∀ edit ∈ front, edit.1 ∈ embeds.map name → IsReset back edit := by
  induction embeds generalizing front back with
  | nil => simp [editAll_empty]
  | cons embed rest induction =>
      have first : ∀ edit ∈ editsFor embed.name front, edit ≠ .order [] := by
        intro edit member
        obtain ⟨entry, listed, rfl⟩ := List.mem_map.mp member
        exact full entry (List.mem_filter.mp listed).1
      -- The first embed takes the edits for its name, the others take the rest of them.
      rw [editAll_cons, editAll_cons, List.cons.injEq, List.filter_append,
        induction (fun other member => unlimited other (by simp [member]))
          (fun edit member => full edit (List.mem_filter.mp member).1),
        show editsFor embed.name (front ++ back) = editsFor embed.name front ++ editsFor embed.name back by
          simp [editsFor],
        EmbedEdit.applyAll_front (unlimited embed (by simp)) first]
      constructor
      · rintro ⟨own, others⟩ edit member listed
        by_cases here : edit.1 = embed.name
        · obtain ⟨count, again, set, later⟩ :=
            own edit.2 (List.mem_map.mpr ⟨edit, List.mem_filter.mpr ⟨member, by simpa using here⟩, rfl⟩)
          obtain ⟨entry, inside, same⟩ := List.mem_map.mp later
          obtain ⟨there, address⟩ := List.mem_filter.mp inside
          refine ⟨count, again, set, ?_⟩
          rwa [here, ← of_decide_eq_true address, ← same]
        · have behind : edit.1 ∈ rest.map name := by simpa [here] using listed
          obtain ⟨count, again, set, later⟩ :=
            others edit (List.mem_filter.mpr ⟨member, by simpa using here⟩) behind
          exact ⟨count, again, set, (List.mem_filter.mp later).1⟩
      · intro reset
        refine ⟨fun edit member => ?_, fun edit member listed => ?_⟩
        · obtain ⟨entry, inside, rfl⟩ := List.mem_map.mp member
          obtain ⟨there, address⟩ := List.mem_filter.mp inside
          have here : entry.1 = embed.name := of_decide_eq_true address
          obtain ⟨count, again, set, later⟩ := reset entry there (by simp [here])
          refine ⟨count, again, set, List.mem_map.mpr ⟨_, List.mem_filter.mpr ⟨later, ?_⟩, rfl⟩⟩
          exact address
        · obtain ⟨there, address⟩ := List.mem_filter.mp member
          obtain ⟨count, again, set, later⟩ := reset edit there (by simp [listed])
          exact ⟨count, again, set, List.mem_filter.mpr ⟨later, address⟩⟩

end QueryNotation.Rest
