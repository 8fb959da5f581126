import QueryNotation.Fault

namespace QueryNotation

/-! # Options -/

/-- The options of a conversion. -/
structure Options where
  /-- Unknown methods of a chain are refused and not passed over. -/
  strictMethods : Bool := false
  /-- The largest input, in bytes. -/
  maxInputLength : Nat := 65536
  /-- How deep brackets may nest. -/
  maxDepth : Nat := 32
  /-- The column of an embedded table that refers to its parent, which
  `{table}` stands for. -/
  foreignKeyTemplate : String := "\x7btable\x7d_id"
  /-- The column of the parent that is referred to. -/
  primaryKey : String := "id"
  /-- The client that chains begin with. -/
  clientName : String := "supabase"
deriving DecidableEq, Repr, Inhabited

/-- Refuse input of more bytes than the options admit. -/
def Options.checkSize (options : Options) (size : Nat) : Outcome Unit :=
  if size > options.maxInputLength then .error (.inputTooLarge size options.maxInputLength)
  else .ok ()

theorem Options.checkSize_ok {options : Options} {size : Nat} (small : size ≤ options.maxInputLength) :
    options.checkSize size = .ok () :=
  if_neg (Nat.not_lt.mpr small)

end QueryNotation
