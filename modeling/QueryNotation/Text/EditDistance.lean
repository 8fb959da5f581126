namespace QueryNotation.Text

/-! # Edit distance

The least number of characters to insert, delete or replace on the way from one
word to another.  A row of the table holds the distances from the characters
read so far to each beginning of the target.
-/

/-- The next row after reading `c`: `corner` stands above and to the left of the
    first entry still to be made, `left` just before it. -/
def nextRow (c : Char) (corner left : Nat) : List Char → List Nat → List Nat
  | d :: target, above :: row =>
    let entry := min (min (above + 1) (left + 1)) (corner + if c = d then 0 else 1)
    entry :: nextRow c above entry target row
  | _, _ => []

/-- The rows in turn: `first` is the entry in front of `row`. -/
def lastEntry (target : List Char) (first : Nat) (row : List Nat) : List Char → Nat
  | [] => (first :: row).getLastD first
  | c :: rest => lastEntry target (first + 1) (nextRow c first (first + 1) target row) rest

def editDistance (source target : List Char) : Nat :=
  lastEntry target 0 ((List.range target.length).map (· + 1)) source

example : editDistance "kitten".toList "sitting".toList = 3 := by decide

end QueryNotation.Text
