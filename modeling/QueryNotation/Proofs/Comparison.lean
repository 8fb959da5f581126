import Mathlib.Algebra.Group.Int.Defs
import QueryNotation.Proofs.Json.Number
import QueryNotation.Proofs.Numeral
import QueryNotation.Proofs.Validation

namespace QueryNotation

/-! # Comparisons with numbers

The query that compares a column with one number.  A number is held as a numeral, or as a string
where JSON has no number for it.
-/

variable {text table column : String} {op : Operator} {value : Value}

def comparisons : List Operator :=
  [.eq, .neq, .gt, .gte, .lt, .lte]

def comparing (table column : String) (op : Operator) (value : Value) : Query where
  table
  operation := .select
  columns := [.star]
  filters := [{ column, op, value }]

theorem validate_comparing (named : Text.allBlank table.toList = false) (target : Form) :
    (comparing table column op value).validate target = .ok () :=
  validate_alone named rfl (by simp [comparing]) (by simp [comparing]) rfl (by simp [comparing])

namespace Value

/-- The value that is read where a value was shown as JSON. -/
def held (value : Value) : Value :=
  .ofJson value.toJson

/-- A value whose plain text is this numeral. -/
inductive Spells (text : String) : Value → Prop
  | number (numeral : IsNumeral text.toList) : Spells text (.number text)
  | string (numeric : isNumeric text = true) : Spells text (.string text)

theorem Spells.numeral (spells : value.Spells text) : IsNumeral text.toList := by
  cases spells with
  | number numeral => exact numeral
  | string numeric => exact isNumeral_of_isNumeric numeric

theorem Spells.bareText (spells : value.Spells text) : value.bareText = text := by
  cases spells with
  | number _ => rw [Value.bareText]
  | string _ => rw [Value.bareText]

/-- JSON shows a number with its own digits, or holds the text of it. -/
theorem held_number (text : String) : (Value.number text).held =
    ((Json.Number.ofText? text.toList).map fun number => Value.number number.text).getD (.string text) := by
  rw [held, toJson]
  cases Json.Number.ofText? text.toList with
  | none => rw [ofJson]; rfl
  | some number => rw [ofJson]; rfl

/-- The value that JSON holds for decimal text spells a numeral. -/
theorem spells_held (numeric : isNumeric text = true) : ∃ shown, (Value.number text).held.Spells shown := by
  rw [held_number]
  cases Json.Number.ofText? text.toList with
  | none => exact ⟨text, .string numeric⟩
  | some number =>
      have numeral := isNumeral_jsonNumber number
      exact ⟨number.text, .number (by rwa [Json.Number.text, String.toList_ofList])⟩

/-- Whole numbers of 64 bits keep their digits in JSON. -/
theorem held_whole {count : Int} (low : -2 ^ 63 ≤ count) (high : count < 2 ^ 64) :
    (Value.number (toString count)).held = .number (toString count) := by
  have read : Json.Number.ofText? (toString count).toList = some (.integer count) ∧
      (Json.Number.integer count).chars = (toString count).toList := by
    cases count with
    | ofNat count =>
        have shape : (toString (Int.ofNat count)).toList = Nat.toDigits 10 count := Nat.toList_repr
        rw [shape]
        have small : count ≤ Json.greatestWord := by
          have bounded : (count : Int) < 2 ^ 64 := high
          rw [Json.greatestWord, show UInt64.size = 2 ^ 64 from rfl]
          omega
        refine ⟨Json.ofText?_toDigits small, ?_⟩
        rw [Json.Number.chars]
        simp
    | negSucc count =>
        -- A negative number is an integer of JSON down to the least one of 64 bits only.
        have shape : (toString (Int.negSucc count)).toList = '-' :: Nat.toDigits 10 (count + 1) := by
          change ("-" ++ Nat.repr (count + 1)).toList = _
          rw [String.toList_append, Nat.toList_repr]
          rfl
        rw [shape]
        have small : count + 1 ≤ UInt64.size / 2 := by
          rw [show UInt64.size / 2 = 2 ^ 63 from rfl]
          omega
        refine ⟨Json.ofText?_minus (Nat.succ_pos count) small, ?_⟩
        rw [Json.Number.chars]
        simp
  rw [Value.held_number, read.1]
  exact congrArg Value.number (String.toList_inj.mp (by rw [Json.Number.text, String.toList_ofList, read.2]))

end Value

end QueryNotation
