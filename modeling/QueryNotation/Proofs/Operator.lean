import QueryNotation.Operator
import QueryNotation.Proofs.Text.Cut

namespace QueryNotation.Operator

/-! # Tags

Nothing in a tag can be taken for the mark of a negation, the point behind the tag or the
parenthesis of a configuration.
-/

theorem tag_plain (op : Operator) : ∀ c ∈ op.tag.toList, c ≠ '.' ∧ c ≠ '(' := by
  cases op <;> decide

/-- No tag begins like the mark of a negation. -/
theorem tag_apart (op : Operator) (rest : List Char) :
    ¬ ['n', 'o', 't', '.'] <+: op.tag.toList ++ rest := by
  have start : ∃ a b tail, op.tag.toList = a :: b :: tail ∧ ¬ (a = 'n' ∧ b = 'o') := by
    cases op <;> exact ⟨_, _, _, rfl, by decide⟩
  obtain ⟨a, b, tail, shape, other⟩ := start
  rw [shape]
  intro front
  obtain ⟨first, front⟩ := List.cons_prefix_cons.mp front
  obtain ⟨second, _⟩ := List.cons_prefix_cons.mp front
  exact other ⟨first.symm, second.symm⟩

def frontText (op : Operator) (config : Option String) : List Char :=
  op.tag.toList ++
    match config with
    | some config => '(' :: (config.toList ++ [')'])
    | none => []

/-- The configuration is cut off where its parenthesis opens. -/
theorem cutFirst_frontText (op : Operator) (config : Option String) :
    Text.cutFirst '(' (frontText op config) =
      config.map fun config => (op.tag.toList, config.toList ++ [')']) := by
  have absent : '(' ∉ op.tag.toList := fun member => (tag_plain op _ member).2 rfl
  unfold frontText
  cases config with
  | none => simp only [List.append_nil, Text.cutFirst_of_absent absent, Option.map_none]
  | some config => rw [Text.cutFirst_append absent, Option.map_some]

end QueryNotation.Operator
