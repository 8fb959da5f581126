import QueryNotation.Proofs.Text.Bracket

namespace QueryNotation.Text

/-! # Laid out text

`Laid apart depth text` says of a text that is written with care what `Nested` says,
with the exact depth of its brackets, and that every blank outside its strings is one
space in front of something or of a closing bracket.
-/

/-- The greatest number of brackets that are open at once outside strings, when `depth`
brackets are open in front. -/
def bracketDepth (quoting : Quoting) (depth : Nat) : List Char → Nat
  | [] => depth
  | c :: rest =>
    if quoting.covers c then bracketDepth (quoting.step c) depth rest
    else if isOpener c then bracketDepth quoting (depth + 1) rest
    else if isCloser c then max depth (bracketDepth quoting (depth - 1) rest)
    else bracketDepth quoting depth rest

inductive Laid : (apart : Char → Prop) → (depth : Nat) → List Char → Prop where
  | nil {apart : Char → Prop} : Laid apart 0 []
  | solid {apart : Char → Prop} {depth : Nat} {c : Char} {rest : List Char} (flat : IsFlat c)
    (solid : isBlank c = false) (allowed : ¬ apart c) (behind : Laid apart depth rest) :
    Laid apart depth (c :: rest)
  | space {apart : Char → Prop} {depth : Nat} {c : Char} {rest : List Char} (allowed : ¬ apart ' ')
    (solid : isBlank c = false) (behind : Laid apart depth (c :: rest)) :
    Laid apart depth (' ' :: c :: rest)
  | string {apart : Char → Prop} {depth : Nat} {mark : Char} {body rest : List Char}
    (quote : isQuoteMark mark = true) (inside : InString (.inside mark) body)
    (behind : Laid apart depth rest) : Laid apart depth (mark :: (body ++ rest))
  | bracket {apart : Char → Prop} {depth other : Nat} {opener closer : Char}
    {inner pad rest : List Char} (opens : isOpener opener = true) (closes : isCloser closer = true)
    (padded : pad = [] ∨ pad = [' ']) (inside : Laid (fun _ => False) depth inner)
    (behind : Laid apart other rest) :
    Laid apart (max (depth + 1) other) (opener :: (inner ++ (pad ++ closer :: rest)))

variable {apart : Char → Prop} {depth other : Nat} {c : Char} {text rest : List Char}

namespace Laid

theorem append (front : Laid apart depth text) (back : Laid apart other rest) :
    Laid apart (max depth other) (text ++ rest) := by
  induction front with
  | nil => rwa [Nat.zero_max]
  | solid flat solid allowed _ induction => exact .solid flat solid allowed (induction back)
  | space allowed solid _ induction => exact .space allowed solid (induction back)
  | string quote inside _ induction =>
      rw [List.cons_append, List.append_assoc]
      exact .string quote inside (induction back)
  | bracket opens closes padded inside _ _ induction =>
      rw [List.cons_append, List.append_assoc, List.append_assoc, List.cons_append, Nat.max_assoc]
      exact .bracket opens closes padded inside (induction back)

theorem of_solid (plain : ∀ c ∈ text, IsFlat c ∧ isBlank c = false ∧ ¬ apart c) :
    Laid apart 0 text := by
  induction text with
  | nil => exact .nil
  | cons c rest induction =>
      obtain ⟨flat, solid, allowed⟩ := plain c (by simp)
      exact .solid flat solid allowed (induction fun d member => plain d (by simp [member]))

theorem weaken {less : Char → Prop} (weaker : ∀ c, less c → apart c) (laid : Laid apart depth text) :
    Laid less depth text := by
  induction laid with
  | nil => exact .nil
  | solid flat solid allowed _ induction =>
      exact .solid flat solid (fun found => allowed (weaker _ found)) (induction weaker)
  | space allowed solid _ induction =>
      exact .space (fun found => allowed (weaker _ found)) solid (induction weaker)
  | string quote inside _ induction => exact .string quote inside (induction weaker)
  | bracket opens closes padded inside _ _ induction =>
      exact .bracket opens closes padded inside (induction weaker)

/-- Laid out text is well nested. -/
theorem nested (laid : Laid apart depth text) : Nested apart depth text := by
  induction laid with
  | nil => exact .nil
  | solid flat _ allowed _ induction => exact .flat flat allowed induction
  | space allowed _ _ induction => exact .flat ⟨rfl, rfl, rfl⟩ allowed induction
  | string quote inside _ induction => exact .string quote inside induction
  | @bracket apart depth other opener closer inner pad rest opens closes padded _ _ inside behind =>
      have whole : Nested (fun _ => False) depth (inner ++ pad) := by
        refine inside.append (.of_flat fun c member => ?_)
        rcases padded with rfl | rfl
        · cases member
        · rw [List.mem_singleton.mp member]
          exact ⟨⟨rfl, rfl, rfl⟩, id⟩
      obtain ⟨height, bound⟩ : ∃ height, max (depth + 1) other = height + 1 :=
        ⟨max (depth + 1) other - 1, by omega⟩
      have room : depth ≤ height := by omega
      rw [bound, ← List.append_assoc]
      exact .bracket opens closes (whole.mono room) (behind.mono (by omega))

end Laid

theorem le_bracketDepth (quoting : Quoting) (depth : Nat) (text : List Char) :
    depth ≤ bracketDepth quoting depth text := by
  induction text generalizing quoting depth with
  | nil => exact Nat.le_refl depth
  | cons c rest induction =>
      rw [bracketDepth]
      split
      · exact induction _ _
      · split
        · exact Nat.le_trans (Nat.le_succ depth) (induction _ _)
        · split
          · exact Nat.le_max_left _ _
          · exact induction _ _

theorem bracketDepth_inString {quoting : Quoting} (inside : InString quoting text) :
    bracketDepth quoting depth (text ++ rest) = bracketDepth .outside depth rest := by
  induction inside with
  | last plain =>
      rw [List.singleton_append, bracketDepth, if_pos (covers_of_isOpen rfl _), step_last plain]
  | more isOpen _ induction =>
      rw [List.cons_append, bracketDepth, if_pos (covers_of_isOpen isOpen _), induction]

theorem bracketDepth_flat (flat : IsFlat c) :
    bracketDepth .outside depth (c :: rest) = bracketDepth .outside depth rest := by
  rw [bracketDepth, if_neg (by simp [Quoting.covers, flat.1]), if_neg (by simp [flat.2.1]),
    if_neg (by simp [flat.2.2])]

theorem bracketDepth_opener (opens : isOpener c = true) :
    bracketDepth .outside depth (c :: rest) = bracketDepth .outside (depth + 1) rest := by
  rw [bracketDepth, if_neg (by simp [Quoting.covers, not_isQuoteMark_of_isOpener opens]), if_pos opens]

theorem bracketDepth_closer (closes : isCloser c = true) :
    bracketDepth .outside (depth + 1) (c :: rest) =
      max (depth + 1) (bracketDepth .outside depth rest) := by
  rw [bracketDepth, if_neg (by simp [Quoting.covers, not_isQuoteMark_of_isCloser closes]),
    if_neg (by simp [not_isOpener_of_isCloser closes]), if_pos closes, Nat.add_sub_cancel]

/-- The brackets of laid out text are as deep as it says. -/
theorem bracketDepth_laid (laid : Laid apart depth text) (before : Nat) (rest : List Char) :
    bracketDepth .outside before (text ++ rest) =
      max (before + depth) (bracketDepth .outside before rest) := by
  induction laid generalizing before rest with
  | nil =>
      have least := le_bracketDepth .outside before rest
      rw [List.nil_append]
      omega
  | solid flat _ _ _ induction => rw [List.cons_append, bracketDepth_flat flat, induction]
  | space _ _ _ induction => rw [List.cons_append, bracketDepth_flat ⟨rfl, rfl, rfl⟩, induction]
  | @string _ _ mark body _ quote inside _ induction =>
      rw [List.cons_append, List.append_assoc, bracketDepth, if_pos (show Quoting.outside.covers mark = true from quote),
        step_outside_quote quote, bracketDepth_inString inside, induction]
  | @bracket _ depth other opener closer inner pad behind opens closes padded _ _ inside induction =>
      have close : bracketDepth .outside (before + 1) (pad ++ closer :: (behind ++ rest)) =
          max (before + 1) (bracketDepth .outside before (behind ++ rest)) := by
        rcases padded with rfl | rfl
        · exact bracketDepth_closer closes
        · rw [List.singleton_append, bracketDepth_flat ⟨rfl, rfl, rfl⟩, bracketDepth_closer closes]
      rw [List.cons_append, List.append_assoc, List.append_assoc, List.cons_append,
        bracketDepth_opener opens, inside, close, induction]
      omega

end QueryNotation.Text
