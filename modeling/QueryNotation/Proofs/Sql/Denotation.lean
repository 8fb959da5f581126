import QueryNotation.Proofs.Sql.Comparison
import QueryNotation.Proofs.Sql.Quoted

namespace QueryNotation.Sql

/-! # What a written name denotes

A database folds the capitals of a bare word and takes a quoted name as it stands, with doubled
marks undone.  Names are written bare whatever their case, so a bare name with a capital in it
denotes another name.
-/

open Text

variable {c : Char} {name other : String} {keywords : List String}

theorem lowerToAscii_toLower (c : Char) : lowerToAscii c.toLower = lowerToAscii c := by
  by_cases upper : c.isUpper = true
  · have lower := isLower_toLower_of_isUpper upper
    have kept : c.toLower.toLower = c.toLower := by
      apply toLower_of_not_isUpper
      rw [isUpper_iff]
      rw [isLower_iff] at lower
      omega
    have ascii : c.toLower ≠ '\u212A' := by
      intro same
      rw [same] at lower
      exact absurd lower (by decide)
    have kelvin : c ≠ '\u212A' := by
      intro same
      rw [same] at upper
      exact absurd upper (by decide)
    rw [lowerToAscii, lowerToAscii, if_neg ascii, if_neg kelvin, kept]
  · rw [toLower_of_not_isUpper upper]

theorem isNameChar_toLower (plain : isNameChar c = true) : isNameChar c.toLower = true := by
  by_cases upper : c.isUpper = true
  · have letter : c.toLower.isAlphanum = true := isAlphanum_iff.mpr (.inr (.inl (isLower_toLower_of_isUpper upper)))
    rw [isNameChar, isLetterOrNumeral_of_isAlphanum letter, Bool.true_or]
  · rwa [toLower_of_not_isUpper upper]

theorem isNumeral_toLower (letter : isNumeral c = false) : isNumeral c.toLower = false := by
  by_cases upper : c.isUpper = true
  · have lower := isLower_iff.mp (isLower_toLower_of_isUpper upper)
    have small : c.toLower.toNat < 0x80 := by omega
    have digit : ¬ c.toLower.isDigit = true := by
      rw [isDigit_iff]
      omega
    rw [isNumeral, if_pos small]
    exact Bool.eq_false_iff.mpr digit
  · rwa [toLower_of_not_isUpper upper]

/-- A name that stands bare does so when it is folded. -/
theorem IsBare.toLower (bare : IsBare name) : IsBare name.toLower := by
  have reserved : isReserved (name.toList.map Char.toLower) = isReserved name.toList := by
    rw [isReserved, isReserved, List.map_map]
    congr 2
    exact List.map_congr_left fun c _ => lowerToAscii_toLower c
  unfold IsBare isBareName at bare ⊢
  simp only [Bool.and_eq_true, List.all_eq_true] at bare ⊢
  obtain ⟨⟨free, plain⟩, first⟩ := bare
  rw [toList_toLower, reserved]
  refine ⟨⟨free, ?_⟩, ?_⟩
  · intro d member
    obtain ⟨c, inside, rfl⟩ := List.mem_map.mp member
    exact isNameChar_toLower (plain c inside)
  · cases shape : name.toList with
    | nil => simp [shape] at first
    | cons c rest =>
        simp only [shape, Bool.not_eq_true'] at first
        simp [isNumeral_toLower first]

/-- A name as a database takes it where it is written: folded if it stands bare. -/
def folded (name : String) : String :=
  if IsBare name then name.toLower else name

theorem folded_eq_iff (apart : name ≠ other) :
    folded name = folded other ↔ IsBare name ∧ IsBare other ∧ name.toLower = other.toLower := by
  unfold folded
  by_cases bare : IsBare name <;> by_cases bare' : IsBare other
  · rw [if_pos bare, if_pos bare']
    exact ⟨fun same => ⟨bare, bare', same⟩, fun ⟨_, _, same⟩ => same⟩
  · rw [if_pos bare, if_neg bare']
    refine iff_of_false (fun same => ?_) fun ⟨_, found, _⟩ => bare' found
    exact bare' (same ▸ bare.toLower)
  · rw [if_neg bare, if_pos bare']
    refine iff_of_false (fun same => ?_) fun ⟨found, _, _⟩ => bare found
    exact bare (same ▸ bare'.toLower)
  · rw [if_neg bare, if_neg bare']
    exact iff_of_false apart fun ⟨found, _, _⟩ => bare found

/-- The name that a token denotes to a database that keeps some words to itself. -/
def Token.denoted? (keywords : List String) : Token → Option String
  | .word text true => if text = "" then none else some text
  | .word text false => if text.toLower ∈ keywords then none else some text.toLower
  | _ => none

/-- The name that a text denotes, if it is one token that denotes a name. -/
def denoted? (keywords : List String) (text : String) : Option String :=
  match Token.scan? text.toList with
  | some [token] => token.denoted? keywords
  | _ => none

theorem scan?_bare (bare : IsBare name) : Token.scan? name.toList = some [.word name false] := by
  have ends : EndsName [] := nofun
  have scanned := scan?_word bare.isBareWord ends scan?_nil
  rwa [List.append_nil, String.ofList_toList] at scanned

theorem scan?_quotedName_append (name : List Char) {rest : List Char} {tokens : List Token}
    (ends : rest.head? ≠ some '"') (behind : Token.scan? rest = some tokens) :
    Token.scan? ('"' :: substitute '"' ['"', '"'] name ++ '"' :: rest) =
      some (.word (String.ofList name) true :: tokens) := by
  have full : ∀ c, doubled '"' c ≠ [] := by
    intro c
    unfold doubled
    split <;> simp
  have least := length_le_flatMap full name
  have room : name.length < (name.flatMap (doubled '"') ++ '"' :: rest).length := by
    rw [List.length_append, List.length_cons]
    omega
  have decodes : Decodes '"' plainBackslash (doubled '"') := decodes_doubled (by decide)
  have content := readQuoted?_content decodes ends room
  have read : Token.read? ('"' :: (name.flatMap (doubled '"') ++ '"' :: rest)) =
      some (.word (String.ofList name) true, rest) := by
    change Option.map _ (readQuoted? '"' plainBackslash _ _) = _
    rw [content]
    rfl
  have shorter : rest.length ≤ (name.flatMap (doubled '"') ++ '"' :: rest).length := by
    rw [List.length_append, List.length_cons]
    omega
  exact scan?_token (by decide) (fun same => absurd same (by decide)) (by decide) read shorter behind

theorem scan?_quotedName (name : List Char) :
    Token.scan? ('"' :: substitute '"' ['"', '"'] name ++ ['"']) =
      some [.word (String.ofList name) true] :=
  scan?_quotedName_append name nofun scan?_nil

theorem denoted?_bare (bare : IsBare name) :
    denoted? keywords (qualified none name) =
      if name.toLower ∈ keywords then none else some name.toLower := by
  have written : qualified none name = name := escapeName_bare bare
  rw [denoted?, written, scan?_bare bare]
  rfl

/-- A name that stands between marks denotes itself. -/
theorem denoted?_quoted (full : name ≠ "") (named : name ≠ "*") (marked : ¬ IsBare name) :
    denoted? keywords (qualified none name) = some name := by
  have written : (qualified none name).toList = '"' :: substitute '"' ['"', '"'] name.toList ++ ['"'] := by
    have other : ¬ isBareName name.toList = true := marked
    rw [qualified, escapeName, if_neg named, if_neg other, String.toList_ofList]
  rw [denoted?, written, scan?_quotedName]
  simp only [Token.denoted?, String.ofList_toList, if_neg full]

theorem denoted?_eq_some_iff (full : name ≠ "") (named : name ≠ "*") :
    denoted? keywords (qualified none name) = some other ↔
      other = folded name ∧ (IsBare name → other ∉ keywords) := by
  unfold folded
  by_cases bare : IsBare name
  · rw [denoted?_bare bare, if_pos bare]
    by_cases kept : name.toLower ∈ keywords
    · rw [if_pos kept]
      refine iff_of_false nofun fun ⟨same, free⟩ => ?_
      exact free bare (same ▸ kept)
    · rw [if_neg kept, Option.some.injEq]
      refine ⟨fun same => ⟨same.symm, fun _ => same ▸ kept⟩, fun ⟨same, _⟩ => same.symm⟩
  · rw [denoted?_quoted full named bare, if_neg bare, Option.some.injEq]
    exact ⟨fun same => ⟨same.symm, fun found => absurd found bare⟩, fun ⟨same, _⟩ => same.symm⟩

/-- A written name denotes itself unless it stands bare and has a capital in it or is a word that the
database keeps to itself.  Two names denote one exactly if both stand bare, differ in case alone and
are no such word. -/
theorem qualified_denotes (keywords : List String) (full : name ≠ "") (named : name ≠ "*") :
    (denoted? keywords (qualified none name) = some name ↔
        (IsBare name → name.toLower = name ∧ name ∉ keywords)) ∧
      ∀ other, other ≠ "" → other ≠ "*" → name ≠ other →
        ((∃ meant, denoted? keywords (qualified none name) = some meant ∧
            denoted? keywords (qualified none other) = some meant) ↔
          IsBare name ∧ IsBare other ∧ name.toLower = other.toLower ∧ name.toLower ∉ keywords) := by
  refine ⟨?_, fun other full' named' apart => ?_⟩
  · rw [denoted?_eq_some_iff full named, folded]
    by_cases bare : IsBare name
    · rw [if_pos bare, eq_comm]
      exact ⟨fun ⟨same, free⟩ _ => ⟨same, free bare⟩, fun kept => ⟨(kept bare).1, fun _ => (kept bare).2⟩⟩
    · rw [if_neg bare]
      exact iff_of_true ⟨rfl, fun found => absurd found bare⟩ fun found => absurd found bare
  · simp only [denoted?_eq_some_iff full named, denoted?_eq_some_iff full' named']
    constructor
    · intro ⟨meant, ⟨here, free⟩, there, _⟩
      obtain ⟨bare, bare', same⟩ := (folded_eq_iff apart).mp (here.symm.trans there)
      have lower : meant = name.toLower := by rw [here, folded, if_pos bare]
      exact ⟨bare, bare', same, lower ▸ free bare⟩
    · intro ⟨bare, bare', same, free⟩
      have one := (folded_eq_iff apart).mpr ⟨bare, bare', same⟩
      have lower : folded name = name.toLower := if_pos bare
      exact ⟨folded name, ⟨rfl, fun _ => lower ▸ free⟩, one, fun _ => lower ▸ free⟩

/-- Two columns whose names differ in case alone are written as they are, and denote one column. -/
theorem capitals_lost :
    qualified none "userName" = "userName" ∧ qualified none "username" = "username" ∧
      denoted? [] (qualified none "userName") = some "username" ∧
      denoted? [] (qualified none "username") = some "username" := by
  decide +kernel

/-- A name with a quotation mark and capitals in it, which is written between marks, denotes itself;
so does a bare one without capitals. -/
theorem qualified_denotes_marked :
    "Say \"hi\"" ≠ "" ∧ "Say \"hi\"" ≠ "*" ∧
      denoted? ["window"] (qualified none "Say \"hi\"") = some "Say \"hi\"" ∧
      denoted? ["window"] (qualified none "user_name") = some "user_name" ∧
      denoted? ["window"] (qualified none "window") ≠ some "window" := by
  have full : "Say \"hi\"" ≠ "" := by decide
  have named : "Say \"hi\"" ≠ "*" := by decide
  have marked := (qualified_denotes ["window"] full named).1
  have plain := (@qualified_denotes "user_name" ["window"] (by decide) (by decide)).1
  have kept := (@qualified_denotes "window" ["window"] (by decide) (by decide)).1
  refine ⟨full, named, marked.mpr ?_, plain.mpr ?_, ?_⟩
  · decide
  · decide +kernel
  · rw [Ne, kept]
    decide +kernel

end QueryNotation.Sql
