import Mathlib.Data.List.Basic
import QueryNotation.Text.Character
import QueryNotation.Text.Cut

namespace QueryNotation.Text

/-! # Cutting what was joined

Where the parts hold no mark, cutting at the marks gives back the parts that were
joined by them.
-/

theorem pieces_of_absent {isMark : Char → Bool} {text : List Char}
    (absent : ∀ c ∈ text, isMark c = false) : pieces isMark text = [text] := by
  induction text with
  | nil => rfl
  | cons c rest induction =>
      rw [pieces, if_neg (by simp [absent c]), induction fun d member => absent d (by simp [member])]

theorem pieces_of_not_mem {mark : Char} {text : List Char} (absent : mark ∉ text) :
    pieces (· == mark) text = [text] := by
  refine pieces_of_absent fun c member => beq_eq_false_iff_ne.mpr fun same => ?_
  exact absent (same ▸ member)

/-- A mark cuts a text into the pieces in front of it and those behind it. -/
theorem pieces_cut {isMark : Char → Bool} {mark : Char} (here : isMark mark = true) (front rest : List Char) :
    pieces isMark (front ++ mark :: rest) = pieces isMark front ++ pieces isMark rest := by
  induction front with
  | nil => simp [pieces, here]
  | cons c more induction =>
      obtain ⟨piece, others, shape⟩ := List.exists_cons_of_ne_nil (pieces_ne_nil isMark more)
      rw [List.cons_append, pieces, pieces, induction, shape]
      split <;> rfl

theorem pieces_append {isMark : Char → Bool} {mark : Char} {front : List Char}
    (absent : ∀ c ∈ front, isMark c = false) (here : isMark mark = true) (rest : List Char) :
    pieces isMark (front ++ mark :: rest) = front :: pieces isMark rest := by
  rw [pieces_cut here, pieces_of_absent absent]
  rfl

theorem words_cut {isMark : Char → Bool} {mark : Char} (here : isMark mark = true) (front rest : List Char) :
    words isMark (front ++ mark :: rest) = words isMark front ++ words isMark rest := by
  rw [words, pieces_cut here, List.filter_append]
  rfl

/-- The pieces of a joined text are those of its parts. -/
theorem pieces_joined {isMark : Char → Bool} {mark : Char} (here : isMark mark = true)
    {parts : List (List Char)} (some : parts ≠ []) :
    pieces isMark ([mark].intercalate parts) = parts.flatMap (pieces isMark) := by
  induction parts with
  | nil => exact absurd rfl some
  | cons part more induction =>
      cases more with
      | nil => rw [List.intercalate_singleton, List.flatMap_singleton]
      | cons next others =>
          rw [List.intercalate_cons_cons, List.append_assoc, List.singleton_append, pieces_cut here,
            induction (by simp)]
          rfl

theorem pieces_intercalate {isMark : Char → Bool} {mark : Char} (here : isMark mark = true)
    {parts : List (List Char)} (some : parts ≠ [])
    (absent : ∀ part ∈ parts, ∀ c ∈ part, isMark c = false) :
    pieces isMark ([mark].intercalate parts) = parts := by
  rw [pieces_joined here some]
  exact (List.flatMap_congr fun part listed => pieces_of_absent (absent part listed)).trans
    (List.flatMap_singleton' parts)

/-- The pieces of a text with the marks put back between them are the text. -/
theorem intercalate_pieces (mark : Char) (text : List Char) :
    [mark].intercalate (pieces (· == mark) text) = text := by
  induction text with
  | nil => rfl
  | cons c rest induction =>
      obtain ⟨piece, more, shape⟩ := List.exists_cons_of_ne_nil (pieces_ne_nil (· == mark) rest)
      rw [pieces]
      split
      · next here =>
        obtain rfl := beq_iff_eq.mp here
        rw [shape] at induction ⊢
        rw [List.intercalate_cons_cons, induction]
        rfl
      · rw [shape] at induction ⊢
        cases more with
        | nil => simpa using induction
        | cons next more => simpa [List.intercalate_cons_cons] using induction

theorem words_intercalate {isMark : Char → Bool} {mark : Char} (here : isMark mark = true)
    {parts : List (List Char)} (absent : ∀ part ∈ parts, ∀ c ∈ part, isMark c = false)
    (full : ∀ part ∈ parts, part ≠ []) : words isMark ([mark].intercalate parts) = parts := by
  cases parts with
  | nil => rfl
  | cons part more =>
      rw [words, pieces_intercalate here (by simp) absent, List.filter_eq_self]
      intro other member
      simpa using full other member

theorem cutLast_of_absent {mark : Char} {text : List Char} (absent : mark ∉ text) :
    cutLast mark text = none := by
  induction text with
  | nil => rfl
  | cons c rest induction =>
      simp only [List.mem_cons, not_or] at absent
      rw [cutLast, induction absent.2, if_neg (Ne.symm absent.1)]

theorem cutLast_append {mark : Char} {after : List Char} (absent : mark ∉ after)
    (before : List Char) : cutLast mark (before ++ mark :: after) = some (before, after) := by
  induction before with
  | nil => rw [List.nil_append, cutLast, cutLast_of_absent absent, if_pos rfl]
  | cons c rest induction => rw [List.cons_append, cutLast, induction]

theorem not_mem_of_cutLast {mark : Char} {text : List Char} (none : cutLast mark text = none) : mark ∉ text := by
  induction text with
  | nil => exact List.not_mem_nil
  | cons c rest induction =>
      unfold cutLast at none
      split at none
      · cases none
      · next nothing =>
        split at none
        · cases none
        · next other => exact List.not_mem_cons_of_ne_of_not_mem (Ne.symm other) (induction nothing)

theorem eq_of_cutLast {mark : Char} {text front back : List Char} (cut : cutLast mark text = some (front, back)) :
    text = front ++ mark :: back ∧ mark ∉ back := by
  induction text generalizing front with
  | nil => cases cut
  | cons c rest induction =>
      unfold cutLast at cut
      split at cut
      · next before after found =>
        obtain ⟨rfl, rfl⟩ := Prod.mk.inj (Option.some.inj cut)
        obtain ⟨shape, absent⟩ := induction found
        exact ⟨congrArg (c :: ·) shape, absent⟩
      · next nothing =>
        split at cut
        · next here =>
          obtain ⟨rfl, rfl⟩ := Prod.mk.inj (Option.some.inj cut)
          exact ⟨congrArg (· :: rest) here, not_mem_of_cutLast nothing⟩
        · cases cut

theorem cutFirst_of_absent {mark : Char} {text : List Char} (absent : mark ∉ text) :
    cutFirst mark text = none :=
  cutFirst_eq_none_iff.mpr absent

theorem cutFirst_absent_append {mark : Char} {front : List Char} (absent : mark ∉ front) (rest : List Char) :
    cutFirst mark (front ++ rest) = (cutFirst mark rest).map fun (before, after) => (front ++ before, after) := by
  induction front with
  | nil =>
      rw [List.nil_append]
      cases cutFirst mark rest <;> rfl
  | cons c more induction =>
      obtain ⟨other, behind⟩ := not_or.mp (mt List.mem_cons.mpr absent)
      rw [List.cons_append, cutFirst, if_neg (Ne.symm other), induction behind]
      cases cutFirst mark rest <;> rfl

/-- A mark that stands at the end, and nowhere before it, cuts the text there. -/
theorem cutAtText_last {mark : List Char} (full : mark ≠ []) {content : List Char}
    (last : ∀ front back, content ++ mark = front ++ (mark ++ back) → back = []) :
    cutAtText mark (content ++ mark) = some (content, []) := by
  induction content with
  | nil =>
      obtain ⟨c, more, rfl⟩ := List.exists_cons_of_ne_nil full
      have whole : (c :: more).isPrefixOf? (c :: more) = some [] :=
        List.isPrefixOf?_eq_some_iff_append_eq.mpr (List.append_nil _)
      rw [List.nil_append, cutAtText, whole]
  | cons c more induction =>
      have others := induction fun front back same => last (c :: front) back (congrArg (c :: ·) same)
      have none : mark.isPrefixOf? (c :: (more ++ mark)) = none := by
        rw [Option.eq_none_iff_forall_not_mem]
        intro back found
        have same := List.isPrefixOf?_eq_some_iff_append_eq.mp found
        have nothing := last [] back (by simpa using same.symm)
        rw [nothing, List.append_nil] at same
        have lengths := congrArg List.length same
        simp only [List.length_cons, List.length_append] at lengths
        omega
      rw [List.cons_append, cutAtText, none]
      simp only [others, Option.map_some]

theorem dropLead?_append (lead rest : List Char) : dropLead? lead (lead ++ rest) = some rest :=
  List.isPrefixOf?_eq_some_iff_append_eq.mpr rfl

theorem dropLead?_eq_none {lead text : List Char} (other : ¬ lead <+: text) :
    dropLead? lead text = none := by
  rw [Option.eq_none_iff_forall_not_mem]
  intro rest found
  exact other ⟨rest, List.isPrefixOf?_eq_some_iff_append_eq.mp found⟩

theorem dropTail?_append (front tail : List Char) : dropTail? tail (front ++ tail) = some front :=
  List.isSuffixOf?_eq_some_iff_append_eq.mpr rfl

theorem eq_of_dropTail? {tail text front : List Char} (found : dropTail? tail text = some front) :
    text = front ++ tail :=
  (List.isSuffixOf?_eq_some_iff_append_eq.mp found).symm

theorem mem_pieces (isMark : Char → Bool) {c : Char} {text : List Char} (member : c ∈ text) :
    isMark c = true ∨ ∃ piece ∈ pieces isMark text, c ∈ piece := by
  induction text with
  | nil => cases member
  | cons d rest induction =>
      rw [pieces]
      split
      · next mark =>
        rcases List.mem_cons.mp member with rfl | inside
        · exact .inl mark
        · rcases induction inside with mark | ⟨piece, listed, found⟩
          · exact .inl mark
          · exact .inr ⟨piece, List.mem_cons_of_mem _ listed, found⟩
      · split
        · next none => exact absurd none (pieces_ne_nil isMark rest)
        · next first more shape =>
          rcases List.mem_cons.mp member with rfl | inside
          · exact .inr ⟨c :: first, by simp, by simp⟩
          · rcases induction inside with mark | ⟨piece, listed, found⟩
            · exact .inl mark
            · rw [shape, List.mem_cons] at listed
              rcases listed with rfl | other
              · exact .inr ⟨d :: piece, by simp, List.mem_cons_of_mem d found⟩
              · exact .inr ⟨piece, List.mem_cons_of_mem _ other, found⟩

theorem of_mem_pieces {isMark : Char → Bool} {text piece : List Char} (listed : piece ∈ pieces isMark text)
    {c : Char} (inside : c ∈ piece) : c ∈ text ∧ isMark c = false := by
  induction text generalizing piece with
  | nil =>
      rw [List.mem_singleton.mp listed] at inside
      cases inside
  | cons d rest induction =>
      have further {other : List Char} (behind : other ∈ pieces isMark rest) (inside : c ∈ other) :
          c ∈ d :: rest ∧ isMark c = false :=
        (induction behind inside).imp_left (List.mem_cons_of_mem d)
      rw [pieces] at listed
      split at listed
      · rcases List.mem_cons.mp listed with rfl | behind
        · cases inside
        · exact further behind inside
      · next plain =>
        split at listed
        · next none => exact absurd none (pieces_ne_nil isMark rest)
        · next first more shape =>
          rw [shape] at further
          rcases List.mem_cons.mp listed with rfl | behind
          · rcases List.mem_cons.mp inside with rfl | later
            · exact ⟨List.mem_cons_self, by simpa using plain⟩
            · exact further List.mem_cons_self later
          · exact further (List.mem_cons_of_mem _ behind) inside

theorem pieces_eq_splitOn (mark : Char) (text : List Char) : pieces (· == mark) text = text.splitOn mark := by
  have absent : ∀ piece ∈ pieces (· == mark) text, mark ∉ piece := by
    intro piece listed inside
    simpa using (of_mem_pieces listed inside).2
  have joined := List.splitOn_intercalate mark absent (pieces_ne_nil _ text)
  rw [intercalate_pieces] at joined
  exact joined.symm

theorem of_mem_words {isMark : Char → Bool} {text word : List Char} (listed : word ∈ words isMark text) :
    (∀ c ∈ word, isMark c = false) ∧ word ≠ [] := by
  obtain ⟨inside, full⟩ := List.mem_filter.mp listed
  exact ⟨fun c member => (of_mem_pieces inside member).2, by simpa using full⟩

theorem mem_words (isMark : Char → Bool) {c : Char} {text : List Char} (member : c ∈ text) :
    isMark c = true ∨ ∃ word ∈ words isMark text, c ∈ word := by
  rcases mem_pieces isMark member with mark | ⟨piece, listed, found⟩
  · exact .inl mark
  · refine .inr ⟨piece, List.mem_filter.mpr ⟨listed, ?_⟩, found⟩
    cases piece with
    | nil => cases found
    | cons first rest => rfl

theorem mem_intercalate {c : Char} (separator : List Char) {parts : List (List Char)}
    {part : List Char} (listed : part ∈ parts) (member : c ∈ part) :
    c ∈ separator.intercalate parts := by
  induction parts with
  | nil => cases listed
  | cons first more induction =>
      cases more with
      | nil =>
          obtain rfl := List.mem_singleton.mp listed
          rwa [List.intercalate_singleton]
      | cons next others =>
          rw [List.intercalate_cons_cons, List.mem_append, List.mem_append]
          rcases List.mem_cons.mp listed with rfl | later
          · exact .inl (.inl member)
          · exact .inr (induction later)

theorem of_mem_intercalate {c mark : Char} {parts : List (List Char)}
    (member : c ∈ [mark].intercalate parts) : c = mark ∨ ∃ part ∈ parts, c ∈ part := by
  induction parts with
  | nil => cases member
  | cons first more induction =>
      cases more with
      | nil => exact .inr ⟨first, by simp, by simpa using member⟩
      | cons next others =>
          rw [List.intercalate_cons_cons, List.mem_append, List.mem_append, List.mem_singleton] at member
          rcases member with (inside | rfl) | later
          · exact .inr ⟨first, by simp, inside⟩
          · exact .inl rfl
          · rcases induction later with mark | ⟨part, listed, inside⟩
            · exact .inl mark
            · exact .inr ⟨part, List.mem_cons_of_mem _ listed, inside⟩

section Stop

variable {p : Char → Bool} {front rest : List Char}

theorem takeWhile_append_stop (all : ∀ c ∈ front, p c = true) (stop : ∀ c ∈ rest.head?, p c = false) :
    (front ++ rest).takeWhile p = front := by
  rw [List.takeWhile_append_of_pos all]
  cases rest with
  | nil => exact List.append_nil front
  | cons c more => rw [List.takeWhile_cons, stop c rfl, if_neg Bool.false_ne_true, List.append_nil]

theorem dropWhile_append_stop (all : ∀ c ∈ front, p c = true) (stop : ∀ c ∈ rest.head?, p c = false) :
    (front ++ rest).dropWhile p = rest := by
  rw [List.dropWhile_append_of_pos all]
  cases rest with
  | nil => rfl
  | cons c more => rw [List.dropWhile_cons, stop c rfl, if_neg Bool.false_ne_true]

end Stop

end QueryNotation.Text
