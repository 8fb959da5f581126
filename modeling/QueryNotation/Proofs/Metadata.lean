import Mathlib.Data.List.Basic
import QueryNotation.Metadata

namespace QueryNotation.Metadata

/-! # Keys of metadata

Every fact stands under a key of its own, and the keys stay in ascending order.
-/

variable {α : Type} {key other value : String} {metadata : Metadata} {items : List α} {name text : α → String}

def keys (metadata : Metadata) : List String :=
  metadata.map Prod.fst

theorem mem_keys_insert : other ∈ keys (insert key value metadata) ↔ other = key ∨ other ∈ keys metadata := by
  induction metadata with
  | nil => simp [insert, keys]
  | cons fact rest induction =>
      obtain ⟨k, v⟩ := fact
      have facts : keys ((k, v) :: rest) = k :: keys rest := rfl
      rw [insert, facts]
      split
      · next same =>
        rw [same]
        simp [keys]
      · split
        · simp [keys]
        · change other ∈ k :: keys (insert key value rest) ↔ _
          rw [List.mem_cons, induction, List.mem_cons]
          exact or_left_comm

/-- The keys stay in ascending order. -/
theorem ascending_insert (ascending : (keys metadata).Pairwise (· < ·)) :
    (keys (insert key value metadata)).Pairwise (· < ·) := by
  induction metadata with
  | nil => exact List.pairwise_singleton _ _
  | cons fact rest induction =>
      obtain ⟨k, v⟩ := fact
      obtain ⟨least, behind⟩ := List.pairwise_cons.mp (show (k :: keys rest).Pairwise (· < ·) from ascending)
      rw [insert]
      split
      · next same =>
        rw [same]
        exact ascending
      · next apart =>
        split
        · next before =>
          refine List.pairwise_cons.mpr ⟨fun other listed => ?_, ascending⟩
          obtain rfl | later := List.mem_cons.mp listed
          · exact before
          · exact String.lt_trans before (least other later)
        · next after =>
          have first : k < key := by
            apply String.not_le.mp
            intro least
            exact apart (String.le_antisymm least (String.not_lt.mp after))
          refine List.pairwise_cons.mpr ⟨fun other listed => ?_, induction behind⟩
          obtain rfl | later := mem_keys_insert.mp listed
          · exact first
          · exact least other later

theorem nodup_of_ascending (ascending : (keys metadata).Pairwise (· < ·)) : (keys metadata).Nodup := by
  refine List.Pairwise.imp ?_ ascending
  intro first second before same
  exact String.lt_irrefl second (same ▸ before)

def addAll (name text : α → String) (items : List α) (metadata : Metadata) : Metadata :=
  items.foldl (fun metadata item => insert (name item) (text item) metadata) metadata

theorem mem_keys_addAll :
    other ∈ keys (addAll name text items metadata) ↔ (∃ item ∈ items, name item = other) ∨ other ∈ keys metadata := by
  induction items generalizing metadata with
  | nil => simp [addAll]
  | cons first rest induction =>
      change other ∈ keys (addAll name text rest (insert (name first) (text first) metadata)) ↔ _
      rw [induction, mem_keys_insert, List.exists_mem_cons_iff, eq_comm]
      exact or_left_comm.trans or_assoc.symm

theorem ascending_addAll (ascending : (keys metadata).Pairwise (· < ·)) :
    (keys (addAll name text items metadata)).Pairwise (· < ·) := by
  induction items generalizing metadata with
  | nil => exact ascending
  | cons first rest induction => exact induction (ascending_insert ascending)

/-- A key that every item sets alike is found as they set it. -/
theorem get?_addAll (alike : ∀ item ∈ items, name item = key → text item = value)
    (found : get? metadata key = some value ∨ ∃ item ∈ items, name item = key) :
    get? (addAll name text items metadata) key = some value := by
  induction items generalizing metadata with
  | nil => exact found.resolve_right (by simp)
  | cons first rest induction =>
      refine induction (fun item listed => alike item (List.mem_cons_of_mem _ listed)) ?_
      rw [get?_insert]
      split
      · next here => exact .inl (congrArg some (alike first List.mem_cons_self here))
      · next apart =>
        obtain before | ⟨item, listed, same⟩ := found
        · exact .inl before
        · obtain rfl | later := List.mem_cons.mp listed
          · exact absurd same apart
          · exact .inr ⟨item, later, same⟩

theorem get?_addAll_of_absent (absent : ∀ item ∈ items, name item ≠ key) :
    get? (addAll name text items metadata) key = get? metadata key := by
  induction items generalizing metadata with
  | nil => rfl
  | cons first rest induction =>
      have before : get? (insert (name first) (text first) metadata) key = get? metadata key := by
        rw [get?_insert, if_neg (absent first List.mem_cons_self)]
      exact (induction fun item listed => absent item (List.mem_cons_of_mem _ listed)).trans before

end QueryNotation.Metadata
