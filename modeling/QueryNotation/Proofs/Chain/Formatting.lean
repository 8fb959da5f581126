import QueryNotation.Conversion
import QueryNotation.Proofs.Chain.Reformatted

namespace QueryNotation.Chain

/-! # Chains with other blanks

A chain is read alike whatever blanks stand in it outside strings, with one exception: what is written
around it is only dropped when a space, and no other blank, stands behind its first word.
-/

open Text

variable {c : Char} {text other rest front letters : List Char}

def leadingWords : List String := ["await", "return"]

def bindingWords : List String := ["const", "let", "var"]

/-- What is dropped in front of a chain: blanks, words and bindings. -/
inductive Leads : List Char → Prop
  | nil : Leads []
  | blank {c : Char} {rest : List Char} (blank : isBlank c = true) (behind : Leads rest) : Leads (c :: rest)
  | word {word : String} {rest : List Char} (listed : word ∈ leadingWords) (behind : Leads rest) :
      Leads (word.toList ++ ' ' :: rest)
  | binding {word : String} {pattern rest : List Char} (listed : word ∈ bindingWords) (absent : '=' ∉ pattern)
      (behind : Leads rest) : Leads (word.toList ++ ' ' :: (pattern ++ '=' :: rest))

/-- In front of the chain, a blank behind a word is a space. -/
def IsSpaced (text : List Char) : Prop :=
  ∀ front word c behind, Leads front → word ∈ leadingWords ++ bindingWords →
    text = front ++ (word.toList ++ c :: behind) → isBlank c = true → c = ' '

/-- No string is open behind what stands in front of the chain. -/
def IsClosed (text : List Char) : Prop :=
  ∀ front behind, Leads front → text = front ++ behind → front.foldl Quoting.step .outside = .outside

theorem Leads.append (leads : Leads front) (more : Leads rest) : Leads (front ++ rest) := by
  induction leads with
  | nil => exact more
  | blank blank _ induction => exact .blank blank induction
  | word listed _ induction =>
      rw [List.append_assoc, List.cons_append]
      exact .word listed induction
  | binding listed absent _ induction =>
      rw [List.append_assoc, List.cons_append, List.append_assoc, List.cons_append]
      exact .binding listed absent induction

theorem Leads.blanks (blank : ∀ c ∈ front, isBlank c = true) : Leads front := by
  induction front with
  | nil => exact .nil
  | cons c more induction =>
      exact .blank (blank c List.mem_cons_self) (induction fun d member => blank d (List.mem_cons_of_mem c member))

theorem letters_word {name : String} (listed : name ∈ leadingWords ++ bindingWords) :
    ∀ c ∈ name.toList, isNameCharacter c = true := by
  have all : ∀ name ∈ leadingWords ++ bindingWords, ∀ c ∈ name.toList, isNameCharacter c = true := by decide
  exact all name listed

theorem plain_word {name : String} (listed : name ∈ leadingWords ++ bindingWords) :
    ∀ c ∈ name.toList, isBlank c = false ∧ isQuoteMark c = false := by
  intro c member
  have flat := isFlat_nameCharacter (letters_word listed c member)
  exact ⟨flat.2, flat.1.1⟩

theorem foldl_plain (plain : ∀ c ∈ letters, isBlank c = false ∧ isQuoteMark c = false) :
    letters.foldl Quoting.step .outside = .outside := by
  induction letters with
  | nil => rfl
  | cons c more induction =>
      rw [List.foldl_cons, step_flat (plain c List.mem_cons_self).2]
      exact induction fun d member => plain d (List.mem_cons_of_mem c member)

theorem trimStart_blank (blank : isBlank c = true) (rest : List Char) :
    trimStart (c :: rest) = trimStart rest := by
  rw [trimStart, List.dropWhile_cons, if_pos blank]
  rfl

theorem cutFirst_space (rest : List Char) : cutFirst '=' (' ' :: rest) =
    (cutFirst '=' rest).map fun (before, after) => (' ' :: before, after) :=
  rfl

theorem dropLead?_name {name : String} :
    dropLead? (name ++ " ").toList text = some rest ↔ text = name.toList ++ ' ' :: rest := by
  have letters : (name ++ " ").toList ++ rest = name.toList ++ ' ' :: rest := by simp
  rw [dropLead?, List.isPrefixOf?_eq_some_iff_append_eq, letters, eq_comm]

theorem dropLead?_absent {name : String} (absent : ¬ ∃ rest, text = name.toList ++ ' ' :: rest) :
    dropLead? (name ++ " ").toList text = none := by
  rw [Option.eq_none_iff_forall_ne_some]
  exact fun rest dropped => absent ⟨rest, dropLead?_name.mp dropped⟩

/-- Nothing is dropped in front of a chain that begins with its client. -/
theorem IsBare.leads_eq_nil (bare : IsBare text) (leads : Leads front) (shape : text = front ++ rest) :
    front = [] := by
  have missing {name : String} {behind : List Char} (listed : name ∈ leadingWords ++ bindingWords) :
      text ≠ name.toList ++ ' ' :: behind := bare.ne_word (letters_word listed) (by decide)
  cases leads with
  | nil => rfl
  | blank blank _ =>
      obtain ⟨c, more, same, solid⟩ := bare.head
      obtain ⟨rfl, _⟩ := List.cons.inj (same.symm.trans shape)
      exact absurd blank (by simp [solid])
  | word listed _ => exact absurd (shape.trans (List.append_assoc ..)) (missing (List.mem_append_left _ listed))
  | binding listed _ _ => exact absurd (shape.trans (List.append_assoc ..)) (missing (List.mem_append_right _ listed))

theorem IsBare.isClosed (bare : IsBare text) : IsClosed text := by
  intro front behind leads shape
  rw [bare.leads_eq_nil leads shape]
  rfl

theorem IsBare.isSpaced (bare : IsBare text) : IsSpaced text := by
  intro front name c behind leads listed shape blank
  obtain rfl := bare.leads_eq_nil leads shape
  exact absurd shape (bare.ne_word (letters_word listed) blank)

/-- A part of a text with nothing in front of it but what is dropped. -/
def Behind (text part : List Char) : Prop :=
  ∃ front tail, Leads front ∧ text = front ++ (part ++ tail)

namespace Behind

variable {part : List Char} {name : String}

theorem whole (text : List Char) : Behind text text :=
  ⟨[], [], .nil, by simp⟩

theorem trimStart (behind : Behind text part) : Behind text (trimStart part) := by
  obtain ⟨front, tail, leads, shape⟩ := behind
  refine ⟨front ++ part.takeWhile isBlank, tail, leads.append (.blanks fun c => List.mem_takeWhile_imp), ?_⟩
  rw [shape, Text.trimStart, List.append_assoc, ← List.append_assoc (part.takeWhile isBlank),
    List.takeWhile_append_dropWhile]

theorem of_isPrefix (behind : Behind text part) (inside : rest <+: part) : Behind text rest := by
  obtain ⟨front, tail, leads, shape⟩ := behind
  obtain ⟨more, rfl⟩ := inside
  exact ⟨front, more ++ tail, leads, by rw [shape, List.append_assoc]⟩

theorem word (listed : name ∈ leadingWords) (behind : Behind text (name.toList ++ ' ' :: rest)) :
    Behind text rest := by
  obtain ⟨front, tail, leads, shape⟩ := behind
  exact ⟨_, tail, leads.append (.word listed .nil), by simp [shape]⟩

theorem binding {pattern : List Char} (listed : name ∈ bindingWords) (absent : '=' ∉ pattern)
    (behind : Behind text (name.toList ++ ' ' :: (pattern ++ '=' :: rest))) : Behind text rest := by
  obtain ⟨front, tail, leads, shape⟩ := behind
  exact ⟨_, tail, leads.append (.binding listed absent .nil), by simp [shape]⟩

/-- The blank behind a word is a space. -/
theorem space (spaced : IsSpaced text) (listed : name ∈ leadingWords ++ bindingWords)
    (behind : Behind text (name.toList ++ c :: rest)) (blank : isBlank c = true) : c = ' ' := by
  obtain ⟨front, tail, leads, shape⟩ := behind
  exact spaced front name c (rest ++ tail) leads listed (by simp [shape]) blank

/-- No string is open behind a binding. -/
theorem outside {pattern : List Char} (closed : IsClosed text) (listed : name ∈ bindingWords)
    (absent : '=' ∉ pattern) (behind : Behind text (name.toList ++ ' ' :: (pattern ++ '=' :: rest))) :
    (' ' :: pattern ++ ['=']).foldl Quoting.step .outside = .outside := by
  obtain ⟨front, tail, leads, shape⟩ := behind
  have before := closed front _ leads shape
  have after := closed _ (rest ++ tail) (leads.append (.binding listed absent .nil)) (by simp [shape])
  have plain := plain_word (List.mem_append_right leadingWords listed)
  rwa [List.foldl_append, before, List.foldl_append, foldl_plain plain] at after

end Behind

theorem dropSemicolons_isPrefix (text : List Char) : dropSemicolons text <+: text :=
  (trimEnd_isPrefix _).trans (List.rdropWhile_prefix (· == ';') text)

/-- Parts of two texts that differ in their blanks, with nothing in front but what is dropped. -/
structure Paired (text other part twin : List Char) : Prop where
  same : Reformatted .outside part twin
  left : Behind text part
  right : Behind other twin

namespace Paired

variable {part twin : List Char} {name : String}

theorem symm (paired : Paired text other part twin) : Paired other text twin part :=
  ⟨paired.same.symm, paired.right, paired.left⟩

theorem trim (paired : Paired text other part twin) : Paired text other (trim part) (Text.trim twin) where
  same := paired.same.trimStart.trimEnd
  left := paired.left.trimStart.of_isPrefix (trimEnd_isPrefix _)
  right := paired.right.trimStart.of_isPrefix (trimEnd_isPrefix _)

theorem dropSemicolons (paired : Paired text other part twin) :
    Paired text other (dropSemicolons part) (Chain.dropSemicolons twin) where
  same := paired.same.dropSemicolons
  left := paired.left.of_isPrefix (dropSemicolons_isPrefix part)
  right := paired.right.of_isPrefix (dropSemicolons_isPrefix twin)

/-- A word that is dropped in one text is dropped in the other. -/
theorem lead (spaced : IsSpaced other) (listed : name ∈ leadingWords ++ bindingWords)
    (paired : Paired text other (name.toList ++ ' ' :: rest) twin) :
    ∃ behind, twin = name.toList ++ ' ' :: behind ∧ Reformatted .outside (' ' :: rest) (' ' :: behind) := by
  obtain ⟨more, rfl, same⟩ := paired.same.of_word (plain_word listed)
  obtain ⟨d, behind, rfl, blank⟩ := same.of_blank rfl
  obtain rfl := paired.right.space spaced listed blank
  exact ⟨behind, rfl, same⟩

/-- A word that stands in no text is dropped from none. -/
theorem absent (spaced : IsSpaced text) (listed : name ∈ leadingWords ++ bindingWords)
    (paired : Paired text other part twin) (absent : ¬ ∃ rest, part = name.toList ++ ' ' :: rest) :
    ¬ ∃ rest, twin = name.toList ++ ' ' :: rest := by
  rintro ⟨rest, rfl⟩
  obtain ⟨behind, shape, _⟩ := paired.symm.lead spaced listed
  exact absent ⟨behind, shape⟩

theorem dropWord (spacedText : IsSpaced text) (spacedOther : IsSpaced other) (listed : name ∈ leadingWords)
    (paired : Paired text other part twin) :
    Paired text other (dropWord (name ++ " ") part) (Chain.dropWord (name ++ " ") twin) := by
  have known := List.mem_append_left bindingWords listed
  unfold Chain.dropWord
  by_cases found : ∃ rest, part = name.toList ++ ' ' :: rest
  · obtain ⟨rest, rfl⟩ := found
    obtain ⟨behind, rfl, same⟩ := paired.lead spacedOther known
    rw [dropLead?_name.mpr rfl, dropLead?_name.mpr rfl]
    have trimmed := same.trimStart
    rw [trimStart_blank rfl, trimStart_blank rfl] at trimmed
    exact ⟨trimmed, (paired.left.word listed).trimStart, (paired.right.word listed).trimStart⟩
  · rw [dropLead?_absent found, dropLead?_absent (paired.absent spacedText known found)]
    exact paired

theorem dropBinding (closed : IsClosed text) (spacedText : IsSpaced text) (spacedOther : IsSpaced other)
    (listed : name ∈ bindingWords) (paired : Paired text other part twin) :
    Paired text other (dropBinding (name ++ " ") part) (Chain.dropBinding (name ++ " ") twin) := by
  have known := List.mem_append_right leadingWords listed
  unfold Chain.dropBinding
  by_cases found : ∃ rest, part = name.toList ++ ' ' :: rest
  · obtain ⟨rest, rfl⟩ := found
    obtain ⟨behind, rfl, same⟩ := paired.lead spacedOther known
    rw [dropLead?_name.mpr rfl, dropLead?_name.mpr rfl]
    dsimp only
    -- The space in front belongs to a run of blanks, so the cuts are compared with it.
    have solid : isBlank '=' = false := by decide
    cases cut : Text.cutFirst '=' rest with
    | none =>
        cases also : Text.cutFirst '=' behind with
        | none => exact paired
        | some parts =>
            obtain ⟨_, _, back, _⟩ := same.symm.cutFirst solid (by rw [cutFirst_space, also]; rfl)
            rw [cutFirst_space, cut] at back
            cases back
    | some parts =>
        obtain ⟨pattern, value⟩ := parts
        obtain ⟨before, after, back, equal⟩ := same.cutFirst solid (by rw [cutFirst_space, cut]; rfl)
        rw [cutFirst_space] at back
        obtain ⟨⟨twinPattern, twinValue⟩, also, whole⟩ := Option.map_eq_some_iff.mp back
        obtain ⟨rfl, rfl⟩ := Prod.mk.inj whole
        obtain ⟨rfl, absent⟩ := cutFirst_eq_some cut
        obtain ⟨rfl, absent'⟩ := cutFirst_eq_some also
        rw [also]
        rw [paired.left.outside closed listed absent] at equal
        exact ⟨equal.trimStart, (paired.left.binding listed absent).trimStart,
          (paired.right.binding listed absent').trimStart⟩
  · rw [dropLead?_absent found, dropLead?_absent (paired.absent spacedText known found)]
    exact paired

theorem unwrapOnce (closed : IsClosed text) (spacedText : IsSpaced text) (spacedOther : IsSpaced other)
    (paired : Paired text other part twin) :
    Paired text other (unwrapOnce part) (Chain.unwrapOnce twin) := by
  have words {name : String} (listed : name ∈ leadingWords) {part twin : List Char}
      (paired : Paired text other part twin) := paired.dropWord spacedText spacedOther listed
  have bindings {name : String} (listed : name ∈ bindingWords) {part twin : List Char}
      (paired : Paired text other part twin) := paired.dropBinding closed spacedText spacedOther listed
  have await := words (show "await" ∈ leadingWords by decide) paired.dropSemicolons
  have back := words (show "return" ∈ leadingWords by decide) await
  have const := bindings (show "const" ∈ bindingWords by decide) back
  have letWord := bindings (show "let" ∈ bindingWords by decide) const
  exact bindings (show "var" ∈ bindingWords by decide) letWord

end Paired

theorem dropWord_sublist (word : String) (text : List Char) : (dropWord word text).Sublist text := by
  unfold dropWord
  split
  · next rest dropped =>
    rw [← List.isPrefixOf?_eq_some_iff_append_eq.mp dropped]
    exact (List.dropWhile_sublist _).trans (List.sublist_append_right _ _)
  · exact List.Sublist.refl text

theorem dropBinding_sublist (word : String) (text : List Char) : (dropBinding word text).Sublist text := by
  unfold dropBinding
  split
  · next rest dropped =>
    rw [← List.isPrefixOf?_eq_some_iff_append_eq.mp dropped]
    split
    · next pattern value cut =>
      obtain ⟨rfl, _⟩ := cutFirst_eq_some cut
      refine (List.dropWhile_sublist _).trans (.trans ?_ (List.sublist_append_right _ _))
      exact (List.sublist_cons_self _ _).trans (List.sublist_append_right _ _)
    · exact List.Sublist.refl _
  · exact List.Sublist.refl text

theorem unwrapOnce_sublist (text : List Char) : (unwrapOnce text).Sublist text := by
  simp only [unwrapOnce, List.foldl_cons, List.foldl_nil]
  refine (dropBinding_sublist _ _).trans ?_
  refine (dropBinding_sublist _ _).trans ?_
  refine (dropBinding_sublist _ _).trans ?_
  refine (dropWord_sublist _ _).trans ?_
  refine (dropWord_sublist _ _).trans ?_
  exact (dropSemicolons_isPrefix text).sublist

theorem unwrap_eq_iterate (bound : Nat) (text : List Char) : unwrap bound text = unwrapOnce^[bound] text := by
  induction bound generalizing text with
  | zero => rfl
  | succ bound induction =>
      rw [unwrap, Function.iterate_succ_apply]
      split
      · next fixed => rw [fixed, Function.iterate_fixed fixed]
      · exact induction _

/-- Nothing more is dropped once each character could have been. -/
theorem iterate_unwrapOnce {first second : Nat} (enough : text.length ≤ first) (also : text.length ≤ second) :
    unwrapOnce^[first] text = unwrapOnce^[second] text := by
  induction first generalizing second text with
  | zero =>
      obtain rfl := List.eq_nil_of_length_eq_zero (Nat.le_zero.mp enough)
      exact (Function.iterate_fixed rfl second).symm
  | succ first induction =>
      by_cases fixed : unwrapOnce text = text
      · rw [Function.iterate_fixed fixed, Function.iterate_fixed fixed]
      · have inside := unwrapOnce_sublist text
        have shorter : (unwrapOnce text).length < text.length :=
          lt_of_le_of_ne inside.length_le fun same => fixed (inside.eq_of_length same)
        cases second with
        | zero => omega
        | succ second =>
            rw [Function.iterate_succ_apply, Function.iterate_succ_apply]
            exact induction (by omega) (by omega)

theorem Paired.iterate (closed : IsClosed text) (spacedText : IsSpaced text) (spacedOther : IsSpaced other)
    {part twin : List Char} (paired : Paired text other part twin) (count : Nat) :
    Paired text other (Chain.unwrapOnce^[count] part) (Chain.unwrapOnce^[count] twin) := by
  induction count generalizing part twin with
  | zero => exact paired
  | succ count induction => exact induction (paired.unwrapOnce closed spacedText spacedOther)

/-- Reformatted texts have one bare chain. -/
theorem normalize_reformatted (same : Reformatted .outside text other) (closed : IsClosed text)
    (spacedText : IsSpaced text) (spacedOther : IsSpaced other) : normalize other = normalize text := by
  have whole : Paired text other text other := ⟨same, .whole text, .whole other⟩
  have bare := whole.trim.iterate closed spacedText spacedOther (max (trim text).length (trim other).length)
  unfold normalize
  dsimp only
  have left : unwrapOnce^[(trim text).length] (trim text) = _ :=
    iterate_unwrapOnce (Nat.le_refl _) (Nat.le_max_left _ (trim other).length)
  have right : unwrapOnce^[(trim other).length] (trim other) = _ :=
    iterate_unwrapOnce (Nat.le_refl _) (Nat.le_max_right (trim text).length _)
  rw [unwrap_eq_iterate, unwrap_eq_iterate, left, right]
  exact (bare.same.collapse false false).symm

/-- What other blanks a chain is written with makes no difference where spaces stand behind the words in
front of it. -/
theorem read_reformatted (options : Options) (text other : String)
    (same : Reformatted .outside text.toList other.toList) (closed : IsClosed text.toList)
    (spacedText : IsSpaced text.toList) (spacedOther : IsSpaced other.toList)
    (fits : text.utf8ByteSize ≤ options.maxInputLength) (fitsOther : other.utf8ByteSize ≤ options.maxInputLength) :
    read options other = read options text ∧
      ∀ target, convert options .chain target other = convert options .chain target text := by
  have equal : read options other = read options text := by
    unfold read
    rw [Options.checkSize_ok fits, Options.checkSize_ok fitsOther,
      normalize_reformatted same closed spacedText spacedOther]
  refine ⟨equal, fun target => ?_⟩
  unfold convert readQuery
  rw [equal]

/-- A word with a tab behind it stays in front of the chain, which is then none. -/
theorem awaitTab_refused :
    Reformatted .outside "await supabase.from('t').select()".toList
        "await\tsupabase.from('t').select()".toList ∧
      (convert {} .chain .sql "await supabase.from('t').select()").map Conversion.output =
        .ok "SELECT * FROM t" ∧
      (convert {} .chain .sql "await\tsupabase.from('t').select()").toBool = false := by
  refine ⟨?_, by decide +kernel, by decide +kernel⟩
  have tab := @Reformatted.blanks "await" " " "\t" "supabase.from('t').select()" (by decide) (by decide) (by decide)
  have spaced : "await supabase.from('t').select()" = "await" ++ " " ++ "supabase.from('t').select()" := by decide
  have tabbed : "await\tsupabase.from('t').select()" = "await" ++ "\t" ++ "supabase.from('t').select()" := by decide
  rwa [spaced, tabbed]

theorem read_reformatted_lines :
    convert {} .chain .sql "supabase.from('t')\n\t.select()" =
      convert {} .chain .sql "supabase.from('t') .select()" := by
  have client {rest : List Char} : IsBare ("supabase".toList ++ '.' :: (rest ++ [')'])) :=
    ⟨⟨_, _, rfl, by decide, by decide⟩, "supabase".toList ++ '.' :: rest, by simp⟩
  have bare : IsBare "supabase.from('t') .select()".toList := @client "from('t') .select(".toList
  have other : IsBare "supabase.from('t')\n\t.select()".toList := @client "from('t')\n\t.select(".toList
  have same := @Reformatted.blanks "supabase.from('t')" " " "\n\t" ".select()" (by decide) (by decide) (by decide)
  exact (read_reformatted {} _ _ same bare.isClosed bare.isSpaced other.isSpaced (by decide +kernel)
    (by decide +kernel)).2 .sql

end QueryNotation.Chain
