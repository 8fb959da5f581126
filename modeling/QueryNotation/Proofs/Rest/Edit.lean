import QueryNotation.Proofs.Rest.Routing

namespace QueryNotation

/-! # What parameters change

A parameter asks for a change of one part of a query: the filters of the main table, what its key is
for, or one embed.  Changes of different parts may change places.
-/

namespace Embed

def changeAt (change : Embed → Embed) (names : List String) (embeds : List Embed) : List Embed :=
  (updateAt? change names embeds).getD embeds

/-- A change of an embed that keeps its name and does not look at the embeds below it. -/
structure IsLocal (change : Embed → Embed) : Prop where
  name : ∀ embed, (change embed).name = embed.name
  below : ∀ embed below, change { embed with embeds := below } = { change embed with embeds := below }

variable {change other : Embed → Embed} {names others : List String}

theorem IsLocal.embeds_eq (inside : IsLocal change) (embed : Embed) :
    (change embed).embeds = embed.embeds := by
  have same := congrArg Embed.embeds (inside.below embed embed.embeds)
  cases embed
  exact same

def changeHead (change : Embed → Embed) (names : List String) (embed : Embed) : Embed :=
  if names = [] then change embed else { embed with embeds := changeAt change names embed.embeds }

theorem changeAt_empty (change : Embed → Embed) (names : List String) : changeAt change names [] = [] := by
  match names with
  | [] => rfl
  | [_] => rfl
  | _ :: _ :: _ => rfl

theorem changeAt_cons (change : Embed → Embed) (name : String) (names : List String) (head : Embed)
    (rest : List Embed) :
    changeAt change (name :: names) (head :: rest) =
      if head.name = name then changeHead change names head :: rest
      else head :: changeAt change (name :: names) rest := by
  unfold changeHead
  by_cases last : names = []
  · subst last
    by_cases here : head.name = name
    · simp [changeAt, updateAt?, updateFirst?, here]
    · simp only [changeAt, updateAt?, updateFirst?, here, decide_false, Bool.false_eq_true, if_false]
      cases updateFirst? (fun embed => decide (embed.name = name)) (fun embed => some (change embed)) rest <;> rfl
  · have unfolded (embeds : List Embed) : changeAt change (name :: names) embeds =
        (updateFirst? (·.name = name) (fun embed => (updateAt? change names embed.embeds).map fun below =>
          { embed with embeds := below }) embeds).getD embeds := by
      rw [changeAt, updateAt?]
      exact last
    rw [unfolded, unfolded, updateFirst?]
    by_cases here : head.name = name
    · simp only [here, decide_true, if_true, if_neg last, changeAt]
      cases updateAt? change names head.embeds with
      | none => cases head; rfl
      | some below => rfl
    · simp only [here, decide_false, Bool.false_eq_true, if_false]
      cases updateFirst? _ _ rest <;> rfl

theorem name_changeHead (inside : IsLocal change) (names : List String) (embed : Embed) :
    (changeHead change names embed).name = embed.name := by
  unfold changeHead
  split
  · exact inside.name embed
  · rfl

/-- Changes at the ends of different names may change places. -/
theorem changeAt_apart (inside : IsLocal change) (within : IsLocal other) (apart : names ≠ others)
    (embeds : List Embed) :
    changeAt other others (changeAt change names embeds) =
      changeAt change names (changeAt other others embeds) := by
  induction names generalizing others embeds with
  | nil => rfl
  | cons name names deeper =>
      cases others with
      | nil => rfl
      | cons second others =>
          -- An embed that both lists lead to is changed at the rest of the names, or in itself.
          have both (embed : Embed) (further : names ≠ others) :
              changeHead other others (changeHead change names embed) =
                changeHead change names (changeHead other others embed) := by
            unfold changeHead
            by_cases here : names = []
            · by_cases there : others = []
              · exact absurd (here.trans there.symm) further
              · rw [if_pos here, if_neg there, if_pos here, if_neg there, inside.below, inside.embeds_eq]
            · by_cases there : others = []
              · rw [if_neg here, if_pos there, if_neg here, if_pos there, within.below, within.embeds_eq]
              · rw [if_neg here, if_neg there, if_neg here, if_neg there, deeper further]
          induction embeds with
          | nil => rw [changeAt_empty, changeAt_empty, changeAt_empty]
          | cons head rest beside =>
              rw [changeAt_cons change, changeAt_cons other]
              by_cases first : head.name = name
              · rw [if_pos first]
                by_cases also : head.name = second
                · have further : names ≠ others := by
                    rintro rfl
                    exact apart (by rw [← first, ← also])
                  rw [if_pos also, changeAt_cons, changeAt_cons, if_pos (by rw [name_changeHead inside, also]),
                    if_pos (by rw [name_changeHead within, first]), both head further]
                · rw [if_neg also, changeAt_cons, changeAt_cons,
                    if_neg (by rw [name_changeHead inside]; exact also), if_pos first]
              · rw [if_neg first]
                by_cases also : head.name = second
                · rw [if_pos also, changeAt_cons, changeAt_cons, if_pos also,
                    if_neg (by rw [name_changeHead within]; exact first)]
                · rw [if_neg also, changeAt_cons, changeAt_cons, if_neg also, if_neg first, beside]

end Embed

namespace Rest

open Text Embed

variable {bound : Nat} {embeds : List Embed} {parsed next : Parsed} {pair : String × String}

/-- A change of an embed that a parameter asks for. -/
inductive EmbedEdit where
  | order (items : List OrderItem)
  | limit (count : UInt64)
  | filter (filter : Filter)

def EmbedEdit.apply (edit : EmbedEdit) (embed : Embed) : Embed :=
  match edit with
  | .order items => { embed with order := embed.order ++ items }
  | .limit count => { embed with limit := some count }
  | .filter added => { embed with filters := embed.filters ++ [added] }

/-- A change of a query that a parameter asks for. -/
inductive Edit where
  | nothing
  | filter (filter : Filter)
  | order (items : List OrderItem)
  | limit (count : UInt64)
  | offset (count : UInt64)
  | conflict (target : String)
  | embed (path : String) (edit : EmbedEdit)

def Edit.apply (edit : Edit) (query : Query) : Query :=
  match edit with
  | .nothing => query
  | .filter added => { query with filters := query.filters ++ [added] }
  | .order items => { query with order := query.order ++ items }
  | .limit count => { query with limit := some count }
  | .offset count => { query with offset := some count }
  | .conflict target => { query with onConflict := some target }
  | .embed path edit => { query with embeds := changeAt edit.apply (pathNames path) query.embeds }

/-- The change that a parameter with a path asks for. -/
def embedEdit (bound : Nat) (key path rest value : String) : Outcome Edit :=
  if rest = "order" then (readOrder bound value).map fun items => .embed path (.order items)
  else if rest = "limit" then (readCount key value).map fun count => .embed path (.limit count)
  else if rest = "offset" then .ok .nothing
  else if isLogicKey rest then .error (.orParameter key value)
  else (readFilter rest value).map fun filter => .embed path (.filter filter)

/-- The change that a parameter asks for that is not a filter on a reserved name. -/
def plainEdit (bound : Nat) (embeds : List Embed) (key value : String) : Outcome Edit :=
  match key with
  | "select" | "columns" => .ok .nothing
  | "order" => (readOrder bound value).map .order
  | "limit" => (readCount key value).map .limit
  | "offset" => (readCount key value).map .offset
  | "on_conflict" => .ok (.conflict value)
  | _ =>
    if isLogicKey key then .error (.orParameter key value)
    else
      match embedPath? embeds key with
      | some (path, rest) => embedEdit bound key path rest value
      | none => (readFilter key value).map .filter

/-- The change that a parameter asks for, of a query with some embeds. -/
def editOf (bound : Nat) (embeds : List Embed) (pair : String × String) : Outcome Edit :=
  match reservedFilter? bound pair.1 pair.2 with
  | some filter => .ok (.filter filter)
  | none => plainEdit bound embeds pair.1 pair.2

theorem isLocal_apply (edit : EmbedEdit) : IsLocal edit.apply where
  name embed := by cases edit <;> rfl
  below embed below := by cases edit <;> rfl

theorem query_changeEmbed (path : String) (change : Embed → Embed) (parsed : Parsed) :
    (changeEmbed path change parsed).query =
      { parsed.query with embeds := changeAt change (pathNames path) parsed.query.embeds } := by
  unfold changeEmbed changeAt
  cases updateAt? change (pathNames path) parsed.query.embeds <;> rfl

theorem applyEmbedParam_edit (key path rest value : String) :
    (applyEmbedParam bound key path rest value parsed).map Parsed.query =
      (embedEdit bound key path rest value).map fun edit => edit.apply parsed.query := by
  unfold applyEmbedParam embedEdit
  split
  · cases readOrder bound value with
    | error fault => rfl
    | ok items => exact congrArg Except.ok (query_changeEmbed path _ parsed)
  · split
    · cases readCount key value with
      | error fault => rfl
      | ok count => exact congrArg Except.ok (query_changeEmbed path _ parsed)
    · split
      · rfl
      · split
        · rfl
        · cases readFilter rest value with
          | error fault => rfl
          | ok filter => exact congrArg Except.ok (query_changeEmbed path _ parsed)

theorem plainEdit_free {key : String} (free : key ∉ reservedKeys) (value : String) :
    plainEdit bound embeds key value =
      if isLogicKey key then .error (.orParameter key value)
      else
        match embedPath? embeds key with
        | some (path, rest) => embedEdit bound key path rest value
        | none => (readFilter key value).map .filter := by
  unfold plainEdit
  split <;> first | exact absurd (by decide) free | rfl

theorem applyPlainParam_edit (key value : String) :
    (applyPlainParam bound key value parsed).map Parsed.query =
      (plainEdit bound parsed.query.embeds key value).map fun edit => edit.apply parsed.query := by
  by_cases reserved : key ∈ reservedKeys
  · simp only [reservedKeys, List.mem_cons, List.not_mem_nil, or_false] at reserved
    rcases reserved with rfl | rfl | rfl | rfl | rfl | rfl
    · rw [applyPlainParam, plainEdit]
      cases readCount "limit" value <;> rfl
    · rw [applyPlainParam, plainEdit]
      cases readCount "offset" value <;> rfl
    · rw [applyPlainParam, plainEdit]
      cases readOrder bound value <;> rfl
    · rfl
    · rfl
    · rfl
  · rw [plainEdit_free reserved]
    cases logic : isLogicKey key with
    | true => rw [applyPlainParam_logic logic, if_pos rfl]; rfl
    | false =>
        rw [if_neg Bool.false_ne_true]
        cases found : embedPath? parsed.query.embeds key with
        | some both =>
            rw [applyPlainParam_embed reserved logic found]
            exact applyEmbedParam_edit key both.1 both.2 value
        | none =>
            rw [applyPlainParam_alone reserved logic found]
            cases readFilter key value <;> rfl

/-- A parameter makes the change that it asks for. -/
theorem applyParam_edit (bound : Nat) (parsed : Parsed) (pair : String × String) :
    (applyParam bound parsed pair).map Parsed.query =
      (editOf bound parsed.query.embeds pair).map fun edit => edit.apply parsed.query := by
  unfold applyParam editOf
  cases reservedFilter? bound pair.1 pair.2 with
  | some filter => rfl
  | none => exact applyPlainParam_edit pair.1 pair.2

theorem embedEdit_ok {key path rest value : String} {edit : Edit}
    (asked : embedEdit bound key path rest value = .ok edit) :
    edit = .nothing ∨ ∃ change, edit = .embed path change := by
  unfold embedEdit at asked
  split at asked
  · obtain ⟨items, _, rfl⟩ := ok_of_map asked
    exact .inr ⟨.order items, rfl⟩
  · split at asked
    · obtain ⟨count, _, rfl⟩ := ok_of_map asked
      exact .inr ⟨.limit count, rfl⟩
    · split at asked
      · exact .inl (Except.ok.inj asked).symm
      · split at asked
        · cases asked
        · obtain ⟨filter, _, rfl⟩ := ok_of_map asked
          exact .inr ⟨.filter filter, rfl⟩

theorem editOf_mapAll_bare (embeds : List Embed) : editOf bound (mapAll bare embeds) = editOf bound embeds := by
  funext pair
  unfold editOf plainEdit
  simp only [embedPath?_mapAll_bare]

/-- A filter parameter whose filter belongs to the main table. -/
def isMainFilter (bound : Nat) (embeds : List Embed) (pair : String × String) : Bool :=
  isFilterParam bound embeds pair && destination? embeds pair.1 = none

/-- A part of a query that parameters change. -/
inductive Part where
  | filters
  | parameter (key : String)
  | embed (place : Place)
deriving DecidableEq

/-- The part of a query that a parameter changes. -/
def partOf (bound : Nat) (embeds : List Embed) (pair : String × String) : Part :=
  match destination? embeds pair.1 with
  | some place => .embed place
  | none => if isFilterParam bound embeds pair then .filters else .parameter pair.1

/-- A change that leaves all parts of a query but one as they are. -/
def Edit.IsWithin (embeds : List Embed) (edit : Edit) (part : Part) : Prop :=
  match edit with
  | .nothing => True
  | .filter _ => part = .filters
  | .order _ => part = .parameter "order"
  | .limit _ => part = .parameter "limit"
  | .offset _ => part = .parameter "offset"
  | .conflict _ => part = .parameter "on_conflict"
  | .embed path _ => ∃ place, place? (pathNames path) embeds = some place ∧ part = .embed place

theorem partOf_alone (alone : embedPath? embeds pair.1 = none) : partOf bound embeds pair =
    if isFilterParam bound embeds pair then .filters else .parameter pair.1 := by
  rw [partOf, destination?_of_alone alone]

theorem partOf_parameter {key value : String} (reserved : key ∈ reservedKeys)
    (unread : reservedFilter? bound key value = none) :
    partOf bound embeds (key, value) = .parameter key := by
  have other : isFilterParam bound embeds (key, value) = false := isFilterParam_reserved embeds reserved unread
  rw [partOf_alone (embedPath?_reserved reserved), other, if_neg Bool.false_ne_true]

theorem isWithin_plainEdit {key value : String} {edit : Edit} (unread : reservedFilter? bound key value = none)
    (asked : plainEdit bound embeds key value = .ok edit) :
    edit.IsWithin embeds (partOf bound embeds (key, value)) := by
  by_cases reserved : key ∈ reservedKeys
  · rw [partOf_parameter reserved unread]
    simp only [reservedKeys, List.mem_cons, List.not_mem_nil, or_false] at reserved
    rcases reserved with rfl | rfl | rfl | rfl | rfl | rfl
    · obtain ⟨_, _, rfl⟩ := ok_of_map (f := Edit.limit) asked
      rfl
    · obtain ⟨_, _, rfl⟩ := ok_of_map (f := Edit.offset) asked
      rfl
    · obtain ⟨_, _, rfl⟩ := ok_of_map (f := Edit.order) asked
      rfl
    · obtain rfl := Except.ok.inj asked
      trivial
    · obtain rfl := Except.ok.inj asked
      rfl
    · obtain rfl := Except.ok.inj asked
      trivial
  · rw [plainEdit_free reserved] at asked
    split at asked
    · cases asked
    · cases found : embedPath? embeds key with
      | some both =>
          obtain ⟨path, rest⟩ := both
          obtain ⟨place, leads, goes⟩ := destination?_of_embedPath? found
          have part : partOf bound embeds (key, value) = .embed place := by rw [partOf, goes]
          rw [found] at asked
          rcases embedEdit_ok asked with rfl | ⟨change, rfl⟩
          · trivial
          · exact ⟨place, leads, part⟩
      | none =>
          rw [found] at asked
          obtain ⟨filter, _, rfl⟩ := ok_of_map asked
          have isFilter : isFilterParam bound embeds (key, value) = true := by
            have free : (key, value).1 ∉ reservedKeys := reserved
            rw [isFilterParam_free bound embeds free, found]
          have alone : embedPath? embeds (key, value).1 = none := found
          have part : partOf bound embeds (key, value) = .filters := by rw [partOf_alone alone, isFilter, if_pos rfl]
          exact part

/-- A parameter changes nothing but its part. -/
theorem isWithin_editOf {edit : Edit} (asked : editOf bound embeds pair = .ok edit) :
    edit.IsWithin embeds (partOf bound embeds pair) := by
  obtain ⟨key, value⟩ := pair
  unfold editOf at asked
  cases unread : reservedFilter? bound key value with
  | none =>
      simp only [unread] at asked
      exact isWithin_plainEdit unread asked
  | some filter =>
      simp only [unread, Except.ok.injEq] at asked
      subst asked
      have reserved : key ∈ reservedKeys := by
        by_contra free
        rw [reservedFilter?_of_free free] at unread
        cases unread
      have isFilter : isFilterParam bound embeds (key, value) = true := by
        rw [isFilterParam, unread]
        rfl
      exact (partOf_alone (embedPath?_reserved reserved)).trans (if_pos isFilter)

/-- Changes of different parts may change places. -/
theorem apply_apart {first second : Edit} {part other : Part} (within : first.IsWithin embeds part)
    (inside : second.IsWithin embeds other) (apart : part ≠ other) (query : Query) :
    second.apply (first.apply query) = first.apply (second.apply query) := by
  cases first <;> cases second <;>
    first
    | rfl
    | exact absurd (Eq.trans within (Eq.symm inside)) apart
    | skip
  next path change path' change' =>
    obtain ⟨place, leads, rfl⟩ := within
    obtain ⟨place', leads', rfl⟩ := inside
    have paths : pathNames path ≠ pathNames path' := by
      intro same
      rw [same, leads'] at leads
      exact apart (by rw [Option.some.inj leads])
    exact congrArg (fun embeds => { query with embeds })
      (changeAt_apart (isLocal_apply change) (isLocal_apply change') paths query.embeds)

/-- The change that a parameter asks for, or none where it is refused. -/
def change (bound : Nat) (embeds : List Embed) (pair : String × String) : Edit :=
  (editOf bound embeds pair).toOption.getD .nothing

theorem change_of_ok {edit : Edit} (asked : editOf bound embeds pair = .ok edit) :
    change bound embeds pair = edit := by
  rw [change, asked]
  rfl

theorem isWithin_change (bound : Nat) (embeds : List Embed) (pair : String × String) :
    (change bound embeds pair).IsWithin embeds (partOf bound embeds pair) := by
  cases asked : editOf bound embeds pair with
  | ok edit =>
      rw [change_of_ok asked]
      exact isWithin_editOf asked
  | error fault =>
      rw [change, asked]
      trivial

def changed (bound : Nat) (embeds : List Embed) (pairs : List (String × String)) (query : Query) : Query :=
  pairs.foldl (fun query pair => (change bound embeds pair).apply query) query

theorem shape_applyParam (applied : applyParam bound parsed pair = .ok next) :
    mapAll bare next.query.embeds = mapAll bare parsed.query.embeds := by
  cases routed_applyParam applied with
  | kept _ shape _ => exact shape
  | added _ _ shape _ => exact shape

theorem applyParam_ok (applied : applyParam bound parsed pair = .ok next) :
    ∃ edit, editOf bound parsed.query.embeds pair = .ok edit ∧ next.query = edit.apply parsed.query := by
  have step := applyParam_edit bound parsed pair
  rw [applied] at step
  obtain ⟨edit, asked, made⟩ := ok_of_map step.symm
  exact ⟨edit, asked, made.symm⟩

theorem applyParam_of_edit {edit : Edit} (asked : editOf bound parsed.query.embeds pair = .ok edit) :
    ∃ next, applyParam bound parsed pair = .ok next ∧ next.query = edit.apply parsed.query := by
  have step := applyParam_edit bound parsed pair
  rw [asked] at step
  obtain ⟨next, applied, made⟩ := ok_of_map step
  exact ⟨next, applied, made⟩

/-- Parameters that are accepted all ask for changes, and the changes are made. -/
theorem changed_of_foldlM {pairs : List (String × String)} (shape : mapAll bare parsed.query.embeds = embeds)
    (applied : pairs.foldlM (applyParam bound) parsed = .ok next) :
    (∀ pair ∈ pairs, ∃ edit, editOf bound embeds pair = .ok edit) ∧
      next.query = changed bound embeds pairs parsed.query := by
  induction pairs generalizing parsed with
  | nil =>
      obtain rfl := Except.ok.inj applied
      exact ⟨List.forall_mem_nil _, rfl⟩
  | cons pair rest induction =>
      rw [List.foldlM_cons] at applied
      obtain ⟨middle, step, applied⟩ := ok_of_bind applied
      obtain ⟨edit, asked, made⟩ := applyParam_ok step
      rw [← editOf_mapAll_bare, shape] at asked
      obtain ⟨others, ends⟩ := induction ((shape_applyParam step).trans shape) applied
      refine ⟨List.forall_mem_cons.mpr ⟨⟨edit, asked⟩, others⟩, ?_⟩
      rw [ends, changed, changed, List.foldl_cons, change_of_ok asked, made]

/-- Parameters that all ask for changes are accepted, and the changes are made. -/
theorem foldlM_of_edits {pairs : List (String × String)} (shape : mapAll bare parsed.query.embeds = embeds)
    (all : ∀ pair ∈ pairs, ∃ edit, editOf bound embeds pair = .ok edit) :
    ∃ next, pairs.foldlM (applyParam bound) parsed = .ok next ∧
      next.query = changed bound embeds pairs parsed.query := by
  induction pairs generalizing parsed with
  | nil => exact ⟨parsed, rfl, rfl⟩
  | cons pair rest induction =>
      obtain ⟨⟨edit, asked⟩, others⟩ := List.forall_mem_cons.mp all
      have here := asked
      rw [← shape, editOf_mapAll_bare] at here
      obtain ⟨middle, step, made⟩ := applyParam_of_edit here
      obtain ⟨next, applied, ends⟩ := induction ((shape_applyParam step).trans shape) others
      refine ⟨next, by rw [List.foldlM_cons, step]; exact applied, ?_⟩
      rw [ends, changed, changed, List.foldl_cons, change_of_ok asked, made]

end Rest

end QueryNotation
