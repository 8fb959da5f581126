import QueryNotation.Proofs.Request.Text
import QueryNotation.Proofs.Rest.Header

namespace QueryNotation.Rest

/-! # Written requests as text

The path of a written request is escaped and its headers are short words, so its text says
the whole request.
-/

open Text RawRequest

variable {query : Query} {found : Headers} {name value : String}

/-- A value that may stand in a header on its own. -/
def IsPlainValue (value : String) : Prop :=
  value ≠ "" ∧ ∀ c ∈ value.toList, isBlank c = false

instance (value : String) : Decidable (IsPlainValue value) :=
  inferInstanceAs (Decidable (_ ∧ _))

def headerNames : List String :=
  ["Accept", "Prefer", "Range", "Range-Unit", "Content-Type"]

theorem isHeader_named (named : name ∈ headerNames) (plain : IsPlainValue value) :
    IsHeader (name, value) where
  name := by
    have all : ∀ name ∈ headerNames, ∀ c ∈ name.toList, isBlank c = false ∧ c ≠ ':' := by decide
    exact all name named
  plain := by
    have all : ∀ name ∈ headerNames, ∀ c ∈ name.toList, c ≠ '\x7b' ∧ c ≠ '[' := by decide
    exact fun c first => all name named c (List.mem_of_mem_head? first)
  full := plain.1
  whole member := absurd (plain.2 '\n' member) (by decide)
  first c member := plain.2 c (List.mem_of_mem_head? member)
  last c member := plain.2 c (List.mem_of_getLast? member)

/-- Headers with known names and with values that hold no blanks. -/
def ArePlain (found : Headers) : Prop :=
  ∀ header ∈ found, header.1 ∈ headerNames ∧ IsPlainValue header.2

theorem arePlain_append (plain : ArePlain found) (named : name ∈ headerNames)
    (valued : IsPlainValue value) : ArePlain (found.append name value) := by
  induction found with
  | nil => simpa [Headers.append, ArePlain] using ⟨named, valued⟩
  | cons header rest induction =>
      obtain ⟨key, existing⟩ := header
      obtain ⟨known, solid⟩ := plain (key, existing) (by simp)
      have others : ArePlain rest := fun other member => plain other (by simp [member])
      rw [Headers.append]
      intro other member
      split at member
      · rcases List.mem_cons.mp member with rfl | behind
        · refine ⟨known, by simp [solid.1], fun c inside => ?_⟩
          simp only [String.toList_append, List.mem_append] at inside
          rcases inside with (before | comma) | after
          · exact solid.2 c before
          · rw [List.mem_singleton.mp (show c ∈ [','] from comma)]
            decide
          · exact valued.2 c after
        · exact others other behind
      · rcases List.mem_cons.mp member with rfl | behind
        · exact ⟨known, solid⟩
        · exact induction others other behind

theorem arePlain_foldl {values : List String} (plain : ArePlain found) (named : name ∈ headerNames)
    (valued : ∀ value ∈ values, IsPlainValue value) :
    ArePlain (values.foldl (fun headers value => Headers.append name value headers) found) := by
  induction values generalizing found with
  | nil => exact plain
  | cons value rest induction =>
      exact induction (arePlain_append plain named (valued value (by simp)))
        fun other member => valued other (by simp [member])

theorem isPlainValue_range (first last : UInt64) :
    IsPlainValue (toString first ++ "-" ++ toString last) := by
  refine ⟨by simp, fun c member => ?_⟩
  simp only [String.toList_append, List.mem_append, toList_count] at member
  rcases member with (digit | dash) | digit
  · exact isBlank_digit (toDigits_all_isDigit _ c digit)
  · rw [List.mem_singleton.mp (show c ∈ ['-'] from dash)]
    decide
  · exact isBlank_digit (toDigits_all_isDigit _ c digit)

theorem isPlainValue_preference {preference : String} (member : preference ∈ preferences query) :
    IsPlainValue preference := by
  have all : ∀ text ∈ preferenceTexts, IsPlainValue text := by decide +kernel
  exact all preference (mem_preferenceTexts member)

theorem arePlain_headers (query : Query) : ArePlain (headers query) := by
  have single : ArePlain (if query.single.isSome then [("Accept", singleObject)] else []) := by
    split
    · intro header member
      rw [List.mem_singleton.mp member]
      decide +kernel
    · exact List.forall_mem_nil _
  have preferred : ArePlain (preferring query) :=
    arePlain_foldl single (by decide) fun value member => isPlainValue_preference member
  have typed {others : Headers} (plain : ArePlain others) : ArePlain
      (if (bodyOf query).isSome then others.append "Content-Type" "application/json" else others) := by
    split
    · exact arePlain_append plain (by decide) (by decide)
    · exact plain
  unfold headers
  cases query.range with
  | none => exact typed preferred
  | some bounds =>
      exact typed (arePlain_append (arePlain_append preferred (by decide) (isPlainValue_range _ _)) (by decide)
        (by decide))

theorem pathOf_chars (query : Query) : (pathOf query).toList =
    (if query.operation = .call then "/rpc/".toList else "/".toList) ++
      percentEncode isEscapedInPath query.table.toList := by
  unfold pathOf
  cases query.operation <;> simp

/-- A written request is said in full by its text. -/
theorem isSendable_write (query : Query) : IsSendable (write query).request where
  path := by
    intro c member
    have chars : c ∈ (pathOf query).toList := member
    rw [pathOf_chars] at chars
    rcases List.mem_append.mp chars with lead | segment
    · have all : ∀ c ∈ "/rpc/".toList, isBlank c = false ∧ c ≠ '?' := by decide
      refine all c ?_
      split at lead
      · exact lead
      · rw [List.mem_singleton.mp (show c ∈ ['/'] from lead)]
        decide
    · refine ⟨segment_solid _ c segment, ?_⟩
      rintro rfl
      exact not_mem_percentEncode (by decide) (by decide) _ segment
  full := by
    have chars : (pathOf query).toList ≠ [] := by
      rw [pathOf_chars]
      split <;> simp
    exact fun none => chars (congrArg String.toList (show pathOf query = "" from none))
  headers header member := by
    obtain ⟨named, plain⟩ := arePlain_headers query header member
    exact isHeader_named named plain

/-- The text of the request for a query is read as that request: the same method, path and
encoded parameters, the same headers in order, and the same text of the body.  The query may
hold any characters at any place. -/
theorem ofText_write (query : Query) :
    ofText (write query).request.text = .ok (write query).request.raw :=
  ofText_text (isSendable_write query)

end QueryNotation.Rest
