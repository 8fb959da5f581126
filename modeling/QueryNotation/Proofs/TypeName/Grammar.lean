import QueryNotation.Proofs.Text.Separated
import QueryNotation.Proofs.Text.Unsigned
import QueryNotation.Proofs.TypeName

namespace QueryNotation

/-! # The grammar of type names

The check peels a type name from its end: first the `[]`, then the modifier, then the blanks behind
the base.  What it accepts is told here by a grammar that builds the text from its front, and the
two agree on every text.
-/

namespace TypeName

open Text

variable {c : Char} {text before after suffix core : List Char} {found : List (List Char)}

/-- A run of blanks, which may be empty. -/
def AreBlanks (text : List Char) : Prop :=
  ∀ c ∈ text, isBlank c = true

/-- One word of a dotted name. -/
inductive IsWord : List Char → Prop where
  | named {first : Char} {rest : List Char} (leading : first.isAlpha = true ∨ first = '_')
    (following : ∀ c ∈ rest, c.isAlphanum = true ∨ c = '_') : IsWord (first :: rest)

/-- The text of some words with blanks between them. -/
inductive AreSpaced : List (List Char) → List Char → Prop where
  | last {word : List Char} (full : word ≠ []) (solid : ∀ c ∈ word, isBlank c = false) :
    AreSpaced [word] word
  | more {word gap text : List Char} {words : List (List Char)} (full : word ≠ [])
    (solid : ∀ c ∈ word, isBlank c = false) (apart : gap ≠ []) (blank : AreBlanks gap)
    (behind : AreSpaced words text) : AreSpaced (word :: words) (word ++ gap ++ text)

/-- The name of a type without modifier and `[]`: words between points, or the words of one of the
known names of several words, in any case and with any blanks between them. -/
inductive IsBaseName : List Char → Prop where
  | dotted {parts : List (List Char)} (some : parts ≠ []) (each : ∀ part ∈ parts, IsWord part) :
    IsBaseName (['.'].intercalate parts)
  | phrase {known : String} {words : List (List Char)} {text : List Char} (listed : known ∈ phrases)
    (same : ([' '].intercalate words).map Char.toLower = known.toList) (spaced : AreSpaced words text) :
    IsBaseName text

/-- A number of a modifier, with blanks around it. -/
inductive IsCount : List Char → Prop where
  | padded {before digits after : List Char} (lead : AreBlanks before) (full : digits ≠ [])
    (plain : ∀ c ∈ digits, c.isDigit = true) (trail : AreBlanks after) : IsCount (before ++ digits ++ after)

/-- What stands between the parentheses of a modifier: one number or two. -/
inductive AreCounts : List Char → Prop where
  | one {count : List Char} (only : IsCount count) : AreCounts count
  | two {count other : List Char} (first : IsCount count) (second : IsCount other) :
    AreCounts (count ++ ',' :: other)

/-- The text of a type name: the base, a modifier or none, and any number of `[]`, with blanks
around each. -/
inductive IsTypeText : List Char → Prop where
  | plain {before base suffix : List Char} (lead : AreBlanks before) (named : IsBaseName base)
    (array : IsArraySuffix suffix) : IsTypeText (before ++ base ++ suffix)
  | modified {before base gap counts suffix : List Char} (lead : AreBlanks before)
    (named : IsBaseName base) (between : AreBlanks gap) (modifier : AreCounts counts)
    (array : IsArraySuffix suffix) :
    IsTypeText (before ++ base ++ (gap ++ '(' :: (counts ++ ')' :: suffix)))

theorem AreBlanks.append (front : AreBlanks before) (back : AreBlanks after) :
    AreBlanks (before ++ after) :=
  List.forall_mem_append.mpr ⟨front, back⟩

theorem exists_trimmedEnd (text : List Char) : ∃ after, text = trimEnd text ++ after ∧ AreBlanks after := by
  refine ⟨text.rtakeWhile isBlank, ?_, fun c member => List.mem_rtakeWhile_imp member⟩
  rw [trimEnd_eq_rdropWhile, List.rdropWhile_append_rtakeWhile]

theorem exists_trimmed (text : List Char) :
    ∃ before after, text = before ++ trim text ++ after ∧ AreBlanks before ∧ AreBlanks after := by
  obtain ⟨after, behind, blank⟩ := exists_trimmedEnd (trimStart text)
  refine ⟨text.takeWhile isBlank, after, ?_, fun c member => List.mem_takeWhile_imp member, blank⟩
  rw [List.append_assoc, trim, ← behind, trimStart, List.takeWhile_append_dropWhile]

theorem words_blank_append (blank : AreBlanks before) (text : List Char) :
    words isBlank (before ++ text) = words isBlank text := by
  induction before with
  | nil => rfl
  | cons c rest induction =>
      obtain ⟨here, behind⟩ := List.forall_mem_cons.mp blank
      have cut := words_cut here [] (rest ++ text)
      rw [List.nil_append, induction behind] at cut
      exact cut

theorem words_blank (blank : AreBlanks text) : words isBlank text = [] := by
  rw [← List.append_nil text]
  exact words_blank_append blank []

theorem words_append_blank (blank : AreBlanks after) (text : List Char) :
    words isBlank (text ++ after) = words isBlank text := by
  cases after with
  | nil => rw [List.append_nil]
  | cons c rest =>
      obtain ⟨here, behind⟩ := List.forall_mem_cons.mp blank
      rw [words_cut here, words_blank behind, List.append_nil]

theorem words_trimEnd (text : List Char) : words isBlank (trimEnd text) = words isBlank text := by
  obtain ⟨after, same, blank⟩ := exists_trimmedEnd text
  conv_rhs => rw [same]
  rw [words_append_blank blank]

theorem words_solid (full : text ≠ []) (solid : ∀ c ∈ text, isBlank c = false) :
    words isBlank text = [text] := by
  rw [words, pieces_of_absent solid]
  simpa using full

theorem words_solid_append (full : text ≠ []) (solid : ∀ c ∈ text, isBlank c = false) (apart : before ≠ [])
    (blank : AreBlanks before) (rest : List Char) :
    words isBlank (text ++ before ++ rest) = text :: words isBlank rest := by
  obtain ⟨c, more, rfl⟩ := List.exists_cons_of_ne_nil apart
  obtain ⟨here, further⟩ := List.forall_mem_cons.mp blank
  rw [List.append_assoc, List.cons_append, words_cut here, words_solid full solid, words_blank_append further]
  rfl

namespace AreSpaced

theorem words_eq (spaced : AreSpaced found text) : words isBlank text = found := by
  induction spaced with
  | last full solid => exact words_solid full solid
  | more full solid apart blank _ induction => rw [words_solid_append full solid apart blank, induction]

theorem head_solid (spaced : AreSpaced found text) : ∀ c ∈ text.head?, isBlank c = false := by
  intro c first
  cases spaced with
  | last full solid => exact solid c (List.mem_of_mem_head? first)
  | more full solid apart blank behind =>
      rw [List.append_assoc, List.head?_append_of_ne_nil _ full] at first
      exact solid c (List.mem_of_mem_head? first)

theorem ne_nil (spaced : AreSpaced found text) : text ≠ [] := by
  cases spaced with
  | last full solid => exact full
  | more full solid apart blank behind => simp [full]

theorem last_solid (spaced : AreSpaced found text) : ∀ c ∈ text.getLast?, isBlank c = false := by
  induction spaced with
  | last full solid => exact fun c last => solid c (List.mem_of_getLast? last)
  | more full solid apart blank behind induction =>
      rwa [List.getLast?_append_of_ne_nil _ behind.ne_nil]

end AreSpaced

theorem exists_span (holds : Char → Bool) (text : List Char) :
    ∃ front rest, text = front ++ rest ∧ (∀ c ∈ front, holds c = true) ∧ ∀ c ∈ rest.head?, holds c = false := by
  induction text with
  | nil => exact ⟨[], [], rfl, List.forall_mem_nil _, fun c first => by cases first⟩
  | cons c rest induction =>
      cases here : holds c with
      | false => exact ⟨[], c :: rest, rfl, List.forall_mem_nil _, fun d first => Option.some.inj first ▸ here⟩
      | true =>
          obtain ⟨front, others, rfl, all, stop⟩ := induction
          exact ⟨c :: front, others, rfl, List.forall_mem_cons.mpr ⟨here, all⟩, stop⟩

theorem blank_of_words (none : words isBlank text = []) : AreBlanks text := by
  intro c member
  rcases mem_words isBlank member with blank | ⟨word, listed, -⟩
  · exact blank
  · rw [none] at listed
    cases listed

/-- Between the blanks at both ends, a text is its words with blanks between them. -/
theorem exists_spaced (text : List Char) (some : words isBlank text ≠ []) :
    ∃ before core after, text = before ++ core ++ after ∧ AreBlanks before ∧
      AreSpaced (words isBlank text) core ∧ AreBlanks after := by
  -- The induction goes by the first word: what stands behind it is shorter, and has the other words.
  induction length : text.length using Nat.strong_induction_on generalizing text with
  | _ size induction =>
      obtain ⟨lead, body, rfl, blank, start⟩ := exists_span isBlank text
      obtain ⟨word, rest, rfl, solid, ends⟩ := exists_span (fun c => !isBlank c) body
      simp only [Bool.not_eq_true', Bool.not_eq_false'] at solid ends
      rw [words_blank_append blank] at some ⊢
      have full : word ≠ [] := by
        rintro rfl
        cases rest with
        | nil => exact some rfl
        | cons c more => exact absurd (ends c rfl) (by simp [start c rfl])
      cases rest with
      | nil =>
          rw [List.append_nil, words_solid full solid]
          exact ⟨lead, word, [], (List.append_nil _).symm, blank, .last full solid, List.forall_mem_nil _⟩
      | cons c more =>
          have here : AreBlanks [c] := List.forall_mem_singleton.mpr (ends c rfl)
          have others := words_solid_append full solid (List.cons_ne_nil c []) here more
          rw [List.append_assoc, List.singleton_append] at others
          rw [others]
          by_cases none : words isBlank more = []
          · rw [none]
            exact ⟨lead, word, c :: more, (List.append_assoc ..).symm, blank, .last full solid,
              here.append (blank_of_words none)⟩
          · have shorter : more.length < size := by
              rw [← length, List.length_append, List.length_append, List.length_cons]
              omega
            obtain ⟨gap, core, after, same, between, spaced, trail⟩ := induction _ shorter more none rfl
            refine ⟨lead, word ++ ([c] ++ gap) ++ core, after, ?_, blank,
              .more full solid (by simp) (here.append between) spaced, trail⟩
            conv_lhs => rw [same]
            simp

theorem isBase_of_words {other : List Char} (same : words isBlank text = words isBlank other) :
    isBase text = isBase other := by
  rw [isBase, isBase, same]

theorem isPart_iff : isPart text = true ↔ IsWord text := by
  constructor
  · intro part
    cases text with
    | nil => cases part
    | cons first rest =>
        simp only [isPart, Bool.and_eq_true, Bool.or_eq_true, beq_iff_eq, List.all_eq_true] at part
        exact .named part.1 part.2
  · rintro ⟨leading, following⟩
    simpa [isPart] using ⟨leading, following⟩

theorem IsWord.mem_cases (word : IsWord text) : ∀ c ∈ text, c.isAlphanum = true ∨ c = '_' := by
  obtain ⟨leading, following⟩ := word
  refine List.forall_mem_cons.mpr ⟨leading.imp_left fun alpha => ?_, following⟩
  rw [Char.isAlphanum, alpha, Bool.true_or]

theorem IsWord.apart (word : IsWord text) {c : Char} (member : c ∈ text) : isBlank c = false ∧ c ≠ '.' := by
  rcases word.mem_cases c member with plain | rfl
  · refine ⟨isBlank_alphanum plain, ?_⟩
    rintro rfl
    exact absurd plain (by decide)
  · decide

theorem isPart_pieces_iff : ((pieces (· == '.') text).all isPart = true) ↔
    ∃ parts, parts ≠ [] ∧ text = ['.'].intercalate parts ∧ ∀ part ∈ parts, IsWord part := by
  constructor
  · intro all
    exact ⟨_, pieces_ne_nil _ _, (intercalate_pieces '.' text).symm, fun part listed =>
      isPart_iff.mp (List.all_eq_true.mp all part listed)⟩
  · rintro ⟨parts, some, rfl, each⟩
    rw [pieces_intercalate (by decide) some fun part listed c member =>
      beq_eq_false_iff_ne.mpr ((each part listed).apart member).2]
    exact List.all_eq_true.mpr fun part listed => isPart_iff.mpr (each part listed)

/-- A name of words between points is one word as far as blanks go. -/
theorem dotted_spaced {parts : List (List Char)} (some : parts ≠ []) (each : ∀ part ∈ parts, IsWord part) :
    AreSpaced [['.'].intercalate parts] (['.'].intercalate parts) := by
  refine .last ?_ fun c member => ?_
  · obtain ⟨part, listed⟩ := List.exists_mem_of_ne_nil parts some
    obtain ⟨leading, -⟩ := each part listed
    exact List.ne_nil_of_mem (mem_intercalate ['.'] listed List.mem_cons_self)
  · rcases of_mem_intercalate member with rfl | ⟨part, listed, inside⟩
    · decide
    · exact ((each part listed).apart inside).1

/-- Every known name of several words has a space, which no single word has. -/
theorem phrase_words {known : String} (listed : known ∈ phrases)
    (same : ([' '].intercalate found).map Char.toLower = known.toList) (spaced : AreSpaced found text) :
    ∃ first second more, found = first :: second :: more := by
  have space : ∀ known ∈ phrases, ' ' ∈ known.toList := by decide
  cases spaced with
  | last full solid =>
      obtain ⟨c, member, lowered⟩ := List.mem_map.mp (same ▸ space known listed)
      rw [List.intercalate_singleton] at member
      have upper : ¬ c.isUpper = true := by
        intro upper
        have lower := isLower_toLower_of_isUpper upper
        rw [lowered] at lower
        exact absurd lower (by decide)
      rw [toLower_of_not_isUpper upper] at lowered
      exact absurd (solid c member) (by rw [lowered]; decide)
  | more full solid apart blank behind =>
      cases behind with
      | last => exact ⟨_, _, _, rfl⟩
      | more => exact ⟨_, _, _, rfl⟩

theorem toLower_joined (words : List (List Char)) :
    (String.intercalate " " (words.map String.ofList)).toLower =
      String.ofList (([' '].intercalate words).map Char.toLower) := by
  apply String.toList_injective
  have parts : (words.map String.ofList).map String.toList = words := by
    rw [List.map_map]
    exact List.map_id'' (fun word => String.toList_ofList) words
  rw [toList_toLower, String.toList_intercalate, parts, String.toList_ofList, String.toList_ofList]

theorem isBase_of_baseName (named : IsBaseName text) : isBase text = true := by
  cases named with
  | dotted some each =>
      rw [isBase, (dotted_spaced some each).words_eq]
      exact isPart_pieces_iff.mpr ⟨_, some, rfl, each⟩
  | phrase listed same spaced =>
      obtain ⟨first, second, more, rfl⟩ := phrase_words listed same spaced
      rw [isBase, spaced.words_eq]
      simp only [toLower_joined, same, String.ofList_toList]
      exact List.contains_iff_mem.mpr listed

theorem IsBaseName.spaced (named : IsBaseName text) : ∃ words, AreSpaced words text := by
  cases named with
  | dotted some each => exact ⟨_, dotted_spaced some each⟩
  | phrase listed same spaced => exact ⟨_, spaced⟩

/-- What is taken for a base is the name of one, with blanks around it. -/
theorem exists_baseName (base : isBase text = true) :
    ∃ before core after, text = before ++ core ++ after ∧ AreBlanks before ∧ IsBaseName core ∧ AreBlanks after := by
  have some : words isBlank text ≠ [] := by
    intro none
    rw [isBase, none] at base
    cases base
  obtain ⟨before, core, after, same, lead, spaced, trail⟩ := exists_spaced text some
  refine ⟨before, core, after, same, lead, ?_, trail⟩
  unfold isBase at base
  split at base
  · cases base
  · next only shape =>
    rw [shape] at spaced
    cases spaced with
    | last =>
        obtain ⟨parts, full, rfl, each⟩ := isPart_pieces_iff.mp base
        exact .dotted full each
    | more _ _ _ _ behind => cases behind
  · rw [toLower_joined] at base
    exact .phrase (List.contains_iff_mem.mp base) String.toList_ofList.symm spaced

theorem isModifierNumber_iff : isModifierNumber text = true ↔ IsCount text := by
  simp only [isModifierNumber, Bool.and_eq_true, Bool.not_eq_true', List.isEmpty_eq_false_iff, List.all_eq_true]
  constructor
  · rintro ⟨full, plain⟩
    obtain ⟨before, after, same, lead, trail⟩ := exists_trimmed text
    rw [same]
    exact .padded lead full plain trail
  · rintro ⟨lead, full, plain, trail⟩
    have solid := trim_of_solid fun c member => isBlank_digit (plain c member)
    rw [trim_append_blank trail, trim_blank_append lead, solid]
    exact ⟨full, plain⟩

theorem IsCount.apart (count : IsCount text) : ∀ c ∈ text, (c == ',') = false := by
  have blank {c : Char} (here : isBlank c = true) : (c == ',') = false := by
    rw [beq_eq_false_iff_ne]
    rintro rfl
    exact absurd here (by decide)
  obtain ⟨lead, full, plain, trail⟩ := count
  refine List.forall_mem_append.mpr ⟨List.forall_mem_append.mpr ⟨fun c member => blank (lead c member), ?_⟩,
    fun c member => blank (trail c member)⟩
  intro c member
  rw [beq_eq_false_iff_ne]
  rintro rfl
  exact absurd (plain _ member) (by decide)

theorem isModifier_iff : isModifier text = true ↔ AreCounts text := by
  constructor
  · intro modifier
    have joined := intercalate_pieces ',' text
    unfold isModifier at modifier
    split at modifier
    · next only shape =>
      rw [shape, List.intercalate_singleton] at joined
      exact joined ▸ .one (isModifierNumber_iff.mp modifier)
    · next one two shape =>
      rw [Bool.and_eq_true] at modifier
      rw [shape, List.intercalate_cons_cons, List.intercalate_singleton, List.append_assoc] at joined
      exact joined ▸ .two (isModifierNumber_iff.mp modifier.1) (isModifierNumber_iff.mp modifier.2)
    · cases modifier
  · intro counts
    cases counts with
    | one only =>
        rw [isModifier, pieces_of_absent only.apart]
        exact isModifierNumber_iff.mpr only
    | two first second =>
        rw [isModifier, pieces_append first.apart (by decide), pieces_of_absent second.apart]
        exact Bool.and_eq_true_iff.mpr ⟨isModifierNumber_iff.mpr first, isModifierNumber_iff.mpr second⟩

theorem IsArraySuffix.of_blanks (blank : AreBlanks text) (array : IsArraySuffix suffix) :
    IsArraySuffix (text ++ suffix) := by
  induction text with
  | nil => exact array
  | cons c rest induction =>
      obtain ⟨here, behind⟩ := List.forall_mem_cons.mp blank
      exact .blank here (induction behind)

theorem IsArraySuffix.append {other : List Char} (array : IsArraySuffix suffix) (behind : IsArraySuffix other) :
    IsArraySuffix (suffix ++ other) := by
  induction array with
  | nil => exact behind
  | pair _ induction => exact .pair induction
  | blank blank _ induction => exact .blank blank induction

theorem IsArraySuffix.append_blanks (array : IsArraySuffix suffix) (blank : AreBlanks after) :
    IsArraySuffix (suffix ++ after) := by
  have trail := IsArraySuffix.of_blanks blank .nil
  rw [List.append_nil] at trail
  exact array.append trail

theorem dropArraySuffixes_blank (blank : isBlank c = true) (text : List Char) :
    dropArraySuffixes true (c :: text) = dropArraySuffixes true text := by
  rw [dropArraySuffixes]
  · simp [blank]
  · rintro rest rfl
    exact absurd blank (by decide)

theorem dropArraySuffixes_solid (passed : Bool) (solid : isBlank c = false) (other : c ≠ ']') (text : List Char) :
    dropArraySuffixes passed (c :: text) = c :: text := by
  rw [dropArraySuffixes]
  · simp [solid]
  · rintro rest rfl
    exact absurd rfl other

/-- Blanks at the end may be dropped first. -/
theorem dropArraySuffixes_dropWhile (text : List Char) :
    dropArraySuffixes false (text.dropWhile isBlank) = dropArraySuffixes true text := by
  induction text with
  | nil => rfl
  | cons c rest induction =>
      cases here : isBlank c with
      | true => rw [List.dropWhile_cons, if_pos here, induction, dropArraySuffixes_blank here]
      | false =>
          rw [List.dropWhile_cons, if_neg (by simp [here]), dropArraySuffixes.eq_def, dropArraySuffixes.eq_def true]
          split
          · rfl
          · next same =>
            obtain ⟨rfl, rfl⟩ := List.cons.inj same
            simp [here]
          · rfl

theorem dropArraySuffixes_append (array : IsArraySuffix suffix) (text : List Char) :
    dropArraySuffixes true (suffix.reverse ++ text) = dropArraySuffixes true text := by
  induction array generalizing text with
  | nil => rfl
  | pair _ induction =>
      rw [List.reverse_cons, List.reverse_cons, List.append_assoc, List.append_assoc, induction]
      rfl
  | blank blank _ induction =>
      rw [List.reverse_cons, List.append_assoc, induction]
      exact dropArraySuffixes_blank blank text

/-- What is left of a text when the brackets at its end are dropped, with the blanks around both. -/
theorem dropArraySuffixes_core (lead : AreBlanks before) (array : IsArraySuffix suffix)
    (first : ∀ c ∈ core.head?, isBlank c = false) (last : ∀ c ∈ core.getLast?, isBlank c = false ∧ c ≠ ']')
    (full : core ≠ []) :
    (dropArraySuffixes false (trim (before ++ core ++ suffix)).reverse).reverse = core := by
  have start : trimStart (before ++ core ++ suffix) = core ++ suffix := by
    rw [trimStart, List.append_assoc]
    refine dropWhile_append_stop lead ?_
    rwa [List.head?_append_of_ne_nil _ full]
  obtain ⟨front, d, rfl⟩ := List.eq_nil_or_concat core |>.resolve_left full
  rw [List.concat_eq_append] at *
  obtain ⟨solid, other⟩ := last d (by simp)
  rw [trim, start, trimEnd_eq_rdropWhile, List.rdropWhile, List.reverse_reverse, dropArraySuffixes_dropWhile,
    List.reverse_append, dropArraySuffixes_append array, List.reverse_append, List.reverse_singleton,
    List.singleton_append, dropArraySuffixes_solid true solid other]
  simp

theorem not_mem_blanks (blank : AreBlanks text) (solid : isBlank c = false) : c ∉ text := by
  intro member
  rw [blank c member] at solid
  cases solid

theorem last_baseName (named : IsBaseName text) : ∀ c ∈ text.getLast?, isBlank c = false ∧ c ≠ ']' := by
  intro c last
  obtain ⟨words, spaced⟩ := named.spaced
  refine ⟨spaced.last_solid c last, ?_⟩
  rintro rfl
  exact absurd (isBaseChar_of_isBase (isBase_of_baseName named) (List.mem_of_getLast? last)) (by decide)

theorem unopened_baseName (named : IsBaseName text) : '(' ∉ text := by
  intro member
  exact absurd (isBaseChar_of_isBase (isBase_of_baseName named) member) (by decide)

end TypeName

open Text QueryNotation.TypeName

theorem isTypeName_of_text {text : String} (written : IsTypeText text.toList) : isTypeName text = true := by
  unfold isTypeName
  generalize text.toList = chars at written
  cases written with
  | plain lead named array =>
      obtain ⟨words, spaced⟩ := named.spaced
      rw [dropArraySuffixes_core lead array spaced.head_solid (last_baseName named) spaced.ne_nil]
      simp only [cutFirst_of_absent (unopened_baseName named)]
      exact isBase_of_baseName named
  | @modified before base gap counts suffix lead named between modifier array =>
      obtain ⟨words, spaced⟩ := named.spaced
      -- The suffixes of arrays are cut off first, so the rest must not end in a bracket of theirs.
      have grouped : before ++ base ++ (gap ++ '(' :: (counts ++ ')' :: suffix)) =
          before ++ (base ++ gap ++ '(' :: (counts ++ [')'])) ++ suffix := by simp
      have first : ∀ c ∈ (base ++ gap ++ '(' :: (counts ++ [')'])).head?, isBlank c = false := by
        rw [List.append_assoc, List.head?_append_of_ne_nil _ spaced.ne_nil]
        exact spaced.head_solid
      have last : ∀ c ∈ (base ++ gap ++ '(' :: (counts ++ [')'])).getLast?, isBlank c = false ∧ c ≠ ']' := by
        have ended : base ++ gap ++ '(' :: (counts ++ [')']) = base ++ gap ++ '(' :: counts ++ [')'] := by simp
        rw [ended, List.getLast?_concat]
        rintro c ⟨⟩
        decide
      have unopened : '(' ∉ base ++ gap :=
        List.not_mem_append (unopened_baseName named) (not_mem_blanks between (by decide))
      rw [grouped, dropArraySuffixes_core lead array first last (by simp)]
      have tail : dropTail? [')'] (counts ++ [')']) = some counts := dropTail?_append counts [')']
      have base : isBase (trimEnd (base ++ gap)) = true := by
        rw [isBase_of_words ((words_trimEnd _).trans (words_append_blank between _))]
        exact isBase_of_baseName named
      simp only [cutFirst_append unopened, tail]
      exact Bool.and_eq_true_iff.mpr ⟨isModifier_iff.mpr modifier, base⟩

theorem text_of_isTypeName {text : String} (typed : isTypeName text = true) : IsTypeText text.toList := by
  obtain ⟨before, after, whole, lead, trail⟩ := exists_trimmed text.toList
  obtain ⟨suffix, same, array⟩ := @exists_suffix (trim text.toList).reverse false [] .nil
  rw [List.reverse_reverse, List.append_nil] at same
  rw [whole, same]
  unfold isTypeName at typed
  simp only at typed
  generalize (dropArraySuffixes false (trim text.toList).reverse).reverse = core at typed
  split at typed
  · obtain ⟨front, base, gap, rfl, frontBlank, named, gapBlank⟩ := exists_baseName typed
    have built := IsTypeText.plain (lead.append frontBlank) named
      (IsArraySuffix.of_blanks gapBlank (array.append_blanks trail))
    simpa using built
  · next base behind cut =>
    split at typed
    · cases typed
    · next modifier shape =>
      rw [Bool.and_eq_true] at typed
      rw [isBase_of_words (words_trimEnd base)] at typed
      obtain ⟨front, base, gap, rfl, frontBlank, named, gapBlank⟩ := exists_baseName typed.2
      have built := IsTypeText.modified (lead.append frontBlank) named gapBlank
        (isModifier_iff.mp typed.1) (array.append_blanks trail)
      rw [(cutFirst_eq_some cut).1, eq_of_dropTail? shape]
      simpa using built

/-- The check accepts exactly the texts of type names. -/
theorem isTypeName_iff (text : String) : isTypeName text = true ↔ IsTypeText text.toList :=
  ⟨text_of_isTypeName, isTypeName_of_text⟩

example : IsTypeText " Character \t Varying ( 20 ) [][] ".toList :=
  text_of_isTypeName (by decide +kernel)

example : ¬ IsTypeText "numeric(10,2,3)".toList := fun written =>
  absurd (isTypeName_of_text written) (by decide)

end QueryNotation
