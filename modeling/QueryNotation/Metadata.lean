namespace QueryNotation

/-! # Metadata

Facts that go along with a result, each under a key of its own, in the order of
the keys.
-/

/-- Facts in ascending order of their keys. -/
abbrev Metadata := List (String × String)

namespace Metadata

def insert (key value : String) : Metadata → Metadata
  | [] => [(key, value)]
  | (k, v) :: rest =>
    if key = k then (key, value) :: rest
    else if key < k then (key, value) :: (k, v) :: rest
    else (k, v) :: insert key value rest

/-- Set all facts of another collection. -/
def insertAll (metadata more : Metadata) : Metadata :=
  more.foldl (fun metadata (key, value) => insert key value metadata) metadata

def get? : Metadata → String → Option String
  | [], _ => none
  | (k, v) :: rest, key => if k = key then some v else get? rest key

theorem get?_insert (key other value : String) (metadata : Metadata) :
    (insert key value metadata).get? other =
      if key = other then some value else metadata.get? other := by
  induction metadata with
  | nil => simp [insert, get?]
  | cons fact rest induction =>
    obtain ⟨k, v⟩ := fact
    by_cases same : key = k
    · subst same
      by_cases found : key = other <;> simp [insert, get?, found]
    · by_cases before : key < k
      · by_cases found : key = other
        · subst found
          simp [insert, get?, same, before]
        · simp [insert, get?, same, before, found]
      · by_cases found : k = other
        · subst found
          simp [insert, get?, same, before]
        · simp [insert, get?, same, before, found, induction]

end Metadata

end QueryNotation
