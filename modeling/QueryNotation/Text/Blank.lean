namespace QueryNotation.Text

/-! # Blanks

A blank is a character with the Unicode property `White_Space`.  Trimming and
splitting into words go by this class everywhere; the class of the core library
holds only four of its members.
-/

/-- The Unicode property `White_Space`. -/
def isBlank (c : Char) : Bool :=
  let code := c.toNat
  (9 ≤ code && code ≤ 13) || code == 0x20 || code == 0x85 || code == 0xA0 || code == 0x1680 ||
    (0x2000 ≤ code && code ≤ 0x200A) || code == 0x2028 || code == 0x2029 || code == 0x202F ||
    code == 0x205F || code == 0x3000

def trimStart (text : List Char) : List Char :=
  text.dropWhile isBlank

def trimEnd : List Char → List Char
  | [] => []
  | c :: rest =>
    match trimEnd rest with
    | [] => if isBlank c then [] else [c]
    | kept => c :: kept

/-- Drop the blanks at both ends. -/
def trim (text : List Char) : List Char :=
  trimEnd (trimStart text)

/-- True when there is nothing but blanks. -/
def allBlank (text : List Char) : Bool :=
  text.all isBlank

theorem trimEnd_eq_nil_iff (text : List Char) : trimEnd text = [] ↔ allBlank text = true := by
  induction text with
  | nil => simp [trimEnd, allBlank]
  | cons c rest induction =>
    simp only [trimEnd, allBlank, List.all_cons, Bool.and_eq_true] at *
    cases trimmed : trimEnd rest with
    | nil => cases blank : isBlank c <;> simp_all
    | cons d more => simp_all

end QueryNotation.Text
