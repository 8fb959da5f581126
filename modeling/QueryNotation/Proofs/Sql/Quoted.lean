import QueryNotation.Proofs.Sql.Token
import QueryNotation.Sql.Literal

namespace QueryNotation.Sql

/-! # The tokens of strings

A string may stand between apostrophes, between apostrophes with escapes, or between two tags.
Each way of writing it is one token, which holds the string.
-/

open Text

variable {c mark : Char} {content text rest after : List Char} {bound : Nat}
  {escape : List Char → Option (Char × List Char)} {encode : Char → List Char}

theorem readQuoted?_close (ends : rest.head? ≠ some mark) :
    readQuoted? mark escape (bound + 1) (mark :: rest) = some ([], rest) := by
  cases rest with
  | nil => simp [readQuoted?]
  | cons d more =>
      have other : d ≠ mark := fun same => ends (congrArg some same)
      simp [readQuoted?, other]

theorem readQuoted?_pair (read : readQuoted? mark escape bound rest = some (text, after)) :
    readQuoted? mark escape (bound + 1) (mark :: mark :: rest) = some (mark :: text, after) := by
  simp [readQuoted?, read]

theorem readQuoted?_escape (apart : mark ≠ '\\') {behind : List Char} (meant : escape rest = some (c, behind))
    (read : readQuoted? mark escape bound behind = some (text, after)) :
    readQuoted? mark escape (bound + 1) ('\\' :: rest) = some (c :: text, after) := by
  cases rest <;> simp [readQuoted?, Ne.symm apart, meant, read]

theorem readQuoted?_plain (apart : c ≠ mark) (solid : c ≠ '\\')
    (read : readQuoted? mark escape bound rest = some (text, after)) :
    readQuoted? mark escape (bound + 1) (c :: rest) = some (c :: text, after) := by
  cases rest <;> simp [readQuoted?, apart, solid, read]

/-- What is written for a character is read back as that character, whatever stands behind it. -/
def Decodes (mark : Char) (escape : List Char → Option (Char × List Char)) (encode : Char → List Char) : Prop :=
  ∀ {c bound rest text after}, readQuoted? mark escape bound rest = some (text, after) →
    readQuoted? mark escape (bound + 1) (encode c ++ rest) = some (c :: text, after)

theorem readQuoted?_content (decodes : Decodes mark escape encode) (ends : rest.head? ≠ some mark)
    (room : content.length < bound) :
    readQuoted? mark escape bound (content.flatMap encode ++ mark :: rest) = some (content, rest) := by
  induction content generalizing bound with
  | nil =>
      obtain ⟨bound, rfl⟩ : ∃ others, bound = others + 1 := ⟨bound - 1, by omega⟩
      exact readQuoted?_close ends
  | cons c more induction =>
      obtain ⟨bound, rfl⟩ : ∃ others, bound = others + 1 := ⟨bound - 1, by omega⟩
      rw [List.flatMap_cons, List.append_assoc]
      exact decodes (induction (Nat.lt_of_succ_lt_succ room))

def doubled (mark c : Char) : List Char :=
  if c = mark then [mark, mark] else [c]

theorem decodes_doubled (apart : mark ≠ '\\') : Decodes mark plainBackslash (doubled mark) := by
  intro c bound rest text after read
  unfold doubled
  by_cases same : c = mark
  · rw [if_pos same, same]
    exact readQuoted?_pair read
  by_cases slash : c = '\\'
  · rw [if_neg same, slash]
    exact readQuoted?_escape apart rfl read
  · rw [if_neg same]
    exact readQuoted?_plain same slash read

theorem decodes_escaped : Decodes '\'' escapeString escapedCharacter := by
  intro c bound rest text after read
  have meant {d : Char} (known : escapeString (d :: rest) = some (c, rest)) :
      readQuoted? '\'' escapeString (bound + 1) (['\\', d] ++ rest) = some (c :: text, after) :=
    readQuoted?_escape (by decide) known read
  unfold escapedCharacter
  split_ifs with quote slash line tab back
  · exact meant (by rw [quote]; rfl)
  · exact meant (by rw [slash]; rfl)
  · exact meant (by rw [line]; rfl)
  · exact meant (by rw [tab]; rfl)
  · exact meant (by rw [back]; rfl)
  · exact readQuoted?_plain quote slash read

theorem length_le_flatMap (full : ∀ c, encode c ≠ []) (content : List Char) :
    content.length ≤ (content.flatMap encode).length := by
  induction content with
  | nil => exact Nat.le_refl 0
  | cons c more induction =>
      have first := List.length_pos_iff.mpr (full c)
      rw [List.flatMap_cons, List.length_append, List.length_cons]
      omega

theorem readConstant?_content {make : String → Constant} (decodes : Decodes '\'' escape encode)
    (full : ∀ c, encode c ≠ []) (content : List Char) :
    readConstant? make escape (content.flatMap encode ++ ['\'']) =
      some (.constant (make (String.ofList content)), []) := by
  have room : content.length < (content.flatMap encode ++ ['\'']).length := by
    have least := length_le_flatMap full content
    rw [List.length_append, List.length_singleton]
    omega
  rw [readConstant?, readQuoted?_content decodes (by simp) room]
  rfl

/-- The ways in which a string may be written. -/
inductive StringForm where
  /-- `'…'` -/
  | standard
  /-- `E'…'` -/
  | escape
  /-- `$tag$…$tag$` -/
  | dollar (tag : String)
deriving DecidableEq, Repr

namespace StringForm

/-- What stands on both sides of a string between tags. -/
def tagText (tag : String) : String :=
  "$" ++ tag ++ "$"

def spell (content : String) : StringForm → String
  | .standard => quote content
  | .escape => (Constant.escaped content).text
  | .dollar tag => tagText tag ++ content ++ tagText tag

def constant (content : String) : StringForm → Constant
  | .standard => .string content
  | .escape => .escaped content
  | .dollar tag => .dollar tag content

/-- True of the strings that can be written so: between tags, the first tag behind the string has to
be the last. -/
def Carries (content : String) : StringForm → Prop
  | .standard | .escape => True
  | .dollar tag => (∀ c ∈ tag.toList, (isLetterOrNumeral c || c == '_') = true) ∧
    ∀ front back, (content ++ tagText tag).toList = front ++ ((tagText tag).toList ++ back) → back = []

end StringForm

theorem readDollar?_tagged {tag content : String} (carries : (StringForm.dollar tag).Carries content) :
    readDollar? (tag.toList ++ '$' :: (content ++ StringForm.tagText tag).toList) =
      some (.constant (.dollar tag content), []) := by
  obtain ⟨plain, last⟩ := carries
  have stop : ∀ c ∈ ('$' :: (content ++ StringForm.tagText tag).toList).head?,
      (isLetterOrNumeral c || c == '_') = false := by
    intro c first
    obtain rfl := Option.some.inj first
    decide
  have taken := takeWhile_append_stop plain stop
  have closing : (StringForm.tagText tag).toList = '$' :: (tag.toList ++ ['$']) := by
    have dollar : "$".toList = ['$'] := by decide
    simp [StringForm.tagText, dollar]
  have cut : cutAtText ('$' :: (tag.toList ++ ['$'])) (content ++ StringForm.tagText tag).toList =
      some (content.toList, []) := by
    rw [String.toList_append, closing]
    refine cutAtText_last (List.cons_ne_nil _ _) fun front back same => last front back ?_
    rw [String.toList_append, closing]
    exact same
  unfold readDollar?
  simp only [taken, List.drop_left, List.cons_append, cut, Option.map_some, String.ofList_toList]

/-- A string is one token, in whichever way it is written. -/
theorem scan?_spell {form : StringForm} {content : String} (carries : form.Carries content) :
    Token.scan? (form.spell content).toList = some [.constant (form.constant content)] := by
  cases form with
  | standard =>
      have text : (StringForm.standard.spell content).toList =
          '\'' :: (content.toList.flatMap (doubled '\'') ++ ['\'']) := String.toList_ofList
      have read := @readConstant?_content _ _ Constant.string (decodes_doubled (by decide)) (fun c => by
        unfold doubled
        split <;> simp) content.toList
      rw [String.ofList_toList] at read
      rw [text]
      exact scan?_token (by decide) (fun same => absurd same (by decide)) (by decide) read (Nat.zero_le _) scan?_nil
  | escape =>
      have text : (StringForm.escape.spell content).toList =
          'E' :: '\'' :: (content.toList.flatMap escapedCharacter ++ ['\'']) := String.toList_ofList
      have read := @readConstant?_content _ _ Constant.escaped decodes_escaped (fun c => by
        unfold escapedCharacter
        split_ifs <;> simp) content.toList
      rw [String.ofList_toList] at read
      rw [text]
      exact scan?_token (by decide) (fun same => absurd same (by decide)) (by decide) read (Nat.zero_le _) scan?_nil
  | dollar tag =>
      have text : ((StringForm.dollar tag).spell content).toList =
          '$' :: (tag.toList ++ '$' :: (content ++ StringForm.tagText tag).toList) := by
        have dollar : "$".toList = ['$'] := by decide
        simp [StringForm.spell, StringForm.tagText, dollar]
      rw [text]
      exact scan?_token (by decide) (fun same => absurd same (by decide)) (by decide) (readDollar?_tagged carries)
        (Nat.zero_le _) scan?_nil

theorem quote_injective : Function.Injective quote := by
  intro left right same
  have first := @scan?_spell .standard left trivial
  have second := @scan?_spell .standard right trivial
  rw [show StringForm.standard.spell left = StringForm.standard.spell right from same, second] at first
  simpa [StringForm.constant] using first.symm

end QueryNotation.Sql
