import Mathlib.Data.List.Forall2

namespace QueryNotation

/-! # Outcomes

How a chain of steps of which each may fail comes out.
-/

variable {ε α β : Type} {found : Except ε α} {next : α → Except ε β}

theorem ok_bind (value : α) : (Except.ok value : Except ε α) >>= next = next value :=
  rfl

theorem error_bind (fault : ε) : (Except.error fault : Except ε α) >>= next = .error fault :=
  rfl

theorem ok_of_bind {result : β} (finished : found >>= next = .ok result) :
    ∃ value, found = .ok value ∧ next value = .ok result := by
  cases found with
  | error fault => cases finished
  | ok value => exact ⟨value, rfl, finished⟩

theorem error_of_bind {fault : ε} (failed : found >>= next = .error fault) :
    found = .error fault ∨ ∃ value, found = .ok value ∧ next value = .error fault := by
  cases found with
  | error other => exact .inl (congrArg Except.error (Except.error.inj failed))
  | ok value => exact .inr ⟨value, rfl, failed⟩

theorem ok_of_map {f : α → β} {result : β} (finished : found.map f = .ok result) :
    ∃ value, found = .ok value ∧ f value = result := by
  cases found with
  | error fault => cases finished
  | ok value => exact ⟨value, rfl, Except.ok.inj finished⟩

theorem ok_of_mapError {δ : Type} {f : ε → δ} {value : α} (finished : found.mapError f = .ok value) :
    found = .ok value := by
  cases found with
  | error fault => cases finished
  | ok other => exact congrArg Except.ok (Except.ok.inj finished)

theorem toOption_of_ok {value : α} (finished : found = .ok value) :
    found.toOption = some value := by
  rw [finished]
  rfl

theorem ok_of_toOption {value : α} (finished : found.toOption = some value) : found = .ok value := by
  cases found with
  | error fault => cases finished
  | ok other => exact congrArg Except.ok (Option.some.inj finished)

theorem toOption_bind : (found >>= next).toOption = found.toOption.bind fun value => (next value).toOption := by
  cases found <;> rfl

theorem mapM_of_ok {f : β → Except ε α} {g : β → α} {items : List β}
    (each : ∀ item ∈ items, f item = .ok (g item)) : items.mapM f = .ok (items.map g) := by
  induction items with
  | nil => rfl
  | cons item rest induction =>
      rw [List.mapM_cons, each item (by simp), induction fun other member => each other (by simp [member])]
      rfl

theorem mapM_ok {f : β → Except ε α} {g : α → β} {items : List α}
    (each : ∀ item ∈ items, f (g item) = .ok item) : (items.map g).mapM f = .ok items := by
  have found : items.mapM (f ∘ g) = .ok (items.map id) := mapM_of_ok each
  rw [List.mapM_map, found, List.map_id]

theorem forall₂_of_mapM {f : α → Except ε β} {items : List α} {results : List β}
    (finished : items.mapM f = .ok results) :
    List.Forall₂ (fun item result => f item = .ok result) items results := by
  induction items generalizing results with
  | nil =>
      obtain rfl := Except.ok.inj finished
      exact .nil
  | cons item rest induction =>
      rw [List.mapM_cons] at finished
      obtain ⟨first, here, finished⟩ := ok_of_bind finished
      obtain ⟨more, behind, finished⟩ := ok_of_bind finished
      obtain rfl := Except.ok.inj finished
      exact .cons here (induction behind)

theorem eq_map_of_mapM {f : α → Except ε β} {g : α → β} {items : List α} {results : List β}
    (each : ∀ item result, f item = .ok result → g item = result)
    (finished : items.mapM f = .ok results) : items.map g = results := by
  have paired := (forall₂_of_mapM finished).imp each
  clear finished
  induction paired with
  | nil => rfl
  | cons here _ induction => rw [List.map_cons, induction, here]

theorem ok_of_mapM {f : α → Except ε β} {items : List α} {results : List β}
    (finished : items.mapM f = .ok results) :
    ∀ result ∈ results, ∃ item ∈ items, f item = .ok result := by
  have paired := forall₂_of_mapM finished
  clear finished
  induction paired with
  | nil => exact List.forall_mem_nil _
  | cons here _ induction =>
      intro result member
      rcases List.mem_cons.mp member with rfl | later
      · exact ⟨_, List.mem_cons_self, here⟩
      · obtain ⟨other, listed, found⟩ := induction result later
        exact ⟨other, List.mem_cons_of_mem _ listed, found⟩

theorem error_of_mapM {f : α → Except ε β} {items : List α} {fault : ε}
    (failed : items.mapM f = .error fault) : ∃ item ∈ items, f item = .error fault := by
  induction items with
  | nil => cases failed
  | cons item rest induction =>
      rw [List.mapM_cons] at failed
      rcases error_of_bind failed with here | ⟨first, _, failed⟩
      · exact ⟨item, List.mem_cons_self, here⟩
      · rcases error_of_bind failed with behind | ⟨more, _, failed⟩
        · obtain ⟨other, listed, found⟩ := induction behind
          exact ⟨other, List.mem_cons_of_mem item listed, found⟩
        · cases failed

theorem error_of_foldlM {f : β → α → Except ε β} {items : List α} {state : β} {fault : ε}
    (failed : items.foldlM f state = .error fault) :
    ∃ item ∈ items, ∃ between, f between item = .error fault := by
  induction items generalizing state with
  | nil => cases failed
  | cons item rest induction =>
      rw [List.foldlM_cons] at failed
      rcases error_of_bind failed with here | ⟨next, _, failed⟩
      · exact ⟨item, List.mem_cons_self, state, here⟩
      · obtain ⟨other, listed, found⟩ := induction failed
        exact ⟨other, List.mem_cons_of_mem item listed, found⟩

theorem foldlM_singleton {f : β → α → Except ε β} {item : α} {state next : β}
    (step : f state item = .ok next) : [item].foldlM f state = .ok next := by
  rw [List.foldlM_cons, step]
  rfl

/-- What each step keeps, a run keeps. -/
theorem foldlM_invariant {f : β → α → Except ε β} (holds : β → Prop)
    (step : ∀ {state item next}, holds state → f state item = .ok next → holds next) {items : List α}
    {state next : β} (initial : holds state) (finished : items.foldlM f state = .ok next) : holds next := by
  induction items generalizing state with
  | nil =>
      obtain rfl := Except.ok.inj finished
      exact initial
  | cons item rest induction =>
      rw [List.foldlM_cons] at finished
      obtain ⟨between, here, behind⟩ := ok_of_bind finished
      exact induction (step initial here) behind

end QueryNotation
