import QueryNotation.Proofs.Json.Text
import QueryNotation.Value

namespace QueryNotation.Value

/-! # Values as JSON

A value comes back from JSON when every number in it has the text that JSON gives it.
-/

/-- Values that come back from JSON. -/
inductive IsStable : Value → Prop where
  | null : IsStable .null
  | bool (value : Bool) : IsStable (.bool value)
  | number {text : String} {value : Json.Number} (read : Json.Number.ofText? text.toList = some value)
    (same : value.text = text) : IsStable (.number text)
  | string (text : String) : IsStable (.string text)
  | list {items : List Value} (all : ∀ item ∈ items, IsStable item) : IsStable (.list items)

theorem toJsonItems_eq_map (items : List Value) : toJsonItems items = items.map toJson := by
  induction items with
  | nil => rw [toJsonItems]; rfl
  | cons item rest induction => rw [toJsonItems, induction]; rfl

theorem ofJsonItems_eq_map (items : List Json) : ofJsonItems items = items.map ofJson := by
  induction items with
  | nil => rw [ofJsonItems]; rfl
  | cons item rest induction => rw [ofJsonItems, induction]; rfl

theorem ofJson_toJson {value : Value} (stable : value.IsStable) : ofJson value.toJson = value := by
  induction stable with
  | null => rw [toJson, ofJson]
  | bool value => rw [toJson, ofJson]
  | number read same =>
      rw [toJson, read]
      simp only
      rw [ofJson, same]
  | string text => rw [toJson, ofJson]
  | @list items _ induction =>
      rw [toJson, ofJson, toJsonItems_eq_map, ofJsonItems_eq_map, List.map_map]
      exact congrArg Value.list ((List.map_congr_left induction).trans (List.map_id items))

theorem readsBack_toJson {value : Value} (stable : value.IsStable) :
    ∃ depth, Json.ReadsBack depth value.toJson := by
  induction stable with
  | null => exact ⟨0, by rw [toJson]; exact .null⟩
  | bool value => exact ⟨0, by rw [toJson]; exact .bool value⟩
  | @number text value read same =>
      have chars : value.chars = text.toList := by
        rw [← same, Json.Number.text, String.toList_ofList]
      refine ⟨0, ?_⟩
      rw [toJson, read]
      exact .number (by rw [chars, read])
  | string text => exact ⟨0, by rw [toJson]; exact .string text⟩
  | @list items _ induction =>
      have some : ∀ item ∈ toJsonItems items, ∃ depth, Json.ReadsBack depth item := by
        intro item member
        rw [toJsonItems_eq_map] at member
        obtain ⟨value, listed, rfl⟩ := List.mem_map.mp member
        exact induction value listed
      obtain ⟨depth, each⟩ := Json.ReadsBack.common some
      exact ⟨depth + 1, by rw [toJson]; exact .array each⟩

end QueryNotation.Value
