import QueryNotation.Proofs.Chain.Segment

namespace QueryNotation.Chain

/-! # Texts with other blanks

Outside strings a run of blanks is as good as any other: trimming, cutting and collapsing keep two texts
alike that differ in nothing else.
-/

open Text

variable {quoting : Quoting} {c : Char} {text other rest front letters : List Char}

theorem step_blank (blank : isBlank c = true) : Quoting.step .outside c = .outside := by
  cases quote : isQuoteMark c with
  | false => exact step_flat quote
  | true => exact absurd blank (by simp [isBlank_quoteMark quote])

theorem foldl_blanks (blank : ∀ c ∈ front, isBlank c = true) : front.foldl Quoting.step .outside = .outside := by
  induction front with
  | nil => rfl
  | cons c more induction =>
      rw [List.foldl_cons, step_blank (blank c List.mem_cons_self)]
      exact induction fun d member => blank d (List.mem_cons_of_mem c member)

theorem collapse_blanks (blank : ∀ c ∈ front, isBlank c = true) (full : front ≠ []) (pending started : Bool)
    (rest : List Char) : collapse .outside pending started (front ++ rest) = collapse .outside true started rest := by
  induction front generalizing pending with
  | nil => exact absurd rfl full
  | cons c more induction =>
      have here : (!Quoting.isOpen .outside && isBlank c) = true := blank c List.mem_cons_self
      rw [List.cons_append, collapse, if_pos here]
      cases more with
      | nil => rfl
      | cons d others =>
          exact induction (fun d member => blank d (List.mem_cons_of_mem c member)) (List.cons_ne_nil d others) true

/-- A text with each run of blanks outside strings replaced by another. -/
inductive Reformatted : Quoting → List Char → List Char → Prop
  | nil (quoting : Quoting) : Reformatted quoting [] []
  | keep {quoting : Quoting} {c : Char} {text other : List Char}
      (kept : quoting.isOpen = true ∨ isBlank c = false) (behind : Reformatted (quoting.step c) text other) :
      Reformatted quoting (c :: text) (c :: other)
  | run {left right text other : List Char} (leftBlank : ∀ c ∈ left, isBlank c = true)
      (rightBlank : ∀ c ∈ right, isBlank c = true) (leftFull : left ≠ []) (rightFull : right ≠ [])
      (behind : Reformatted .outside text other) : Reformatted .outside (left ++ text) (right ++ other)

namespace Reformatted

theorem symm (same : Reformatted quoting text other) : Reformatted quoting other text := by
  induction same with
  | nil quoting => exact .nil quoting
  | keep kept _ induction => exact .keep kept induction
  | run leftBlank rightBlank leftFull rightFull _ induction =>
      exact .run rightBlank leftBlank rightFull leftFull induction

/-- The same front may stand before reformatted text. -/
theorem front_append (same : Reformatted (front.foldl Quoting.step quoting) text other) :
    Reformatted quoting (front ++ text) (front ++ other) := by
  induction front generalizing quoting with
  | nil => exact same
  | cons c more induction =>
      have behind := induction same
      cases quoting with
      | outside =>
          cases blank : isBlank c with
          | false => exact .keep (.inr blank) behind
          | true =>
              rw [step_blank blank] at behind
              have one : ∀ d ∈ [c], isBlank d = true := List.forall_mem_singleton.mpr blank
              show Reformatted .outside ([c] ++ (more ++ text)) ([c] ++ (more ++ other))
              exact .run one one (List.cons_ne_nil _ _) (List.cons_ne_nil _ _) behind
      | inside mark | escaped mark => exact .keep (.inl rfl) behind

theorem self (quoting : Quoting) (text : List Char) : Reformatted quoting text text := by
  have same := @front_append quoting [] [] text (.nil _)
  rwa [List.append_nil] at same

/-- One run of blanks in a text may be another one. -/
theorem blanks {before left right after : String} (closed : before.toList.foldl Quoting.step .outside = .outside)
    (leftBlank : left ≠ "" ∧ ∀ c ∈ left.toList, isBlank c = true)
    (rightBlank : right ≠ "" ∧ ∀ c ∈ right.toList, isBlank c = true) :
    Reformatted .outside (before ++ left ++ after).toList (before ++ right ++ after).toList := by
  simp only [String.toList_append, List.append_assoc]
  refine front_append ?_
  rw [closed]
  exact .run leftBlank.2 rightBlank.2 (by simpa using leftBlank.1) (by simpa using rightBlank.1) (self _ _)

theorem eq_nil (same : Reformatted quoting text other) (empty : text = []) : other = [] := by
  cases same with
  | nil => rfl
  | keep => cases empty
  | run _ _ leftFull => exact absurd (List.append_eq_nil_iff.mp empty).1 leftFull

theorem eq_nil_iff (same : Reformatted quoting text other) : text = [] ↔ other = [] :=
  ⟨same.eq_nil, same.symm.eq_nil⟩

/-- What is no blank, or stands in a string, is there in both texts. -/
theorem of_cons (same : Reformatted quoting (c :: text) other) (kept : quoting.isOpen = true ∨ isBlank c = false) :
    ∃ behind, other = c :: behind ∧ Reformatted (quoting.step c) text behind := by
  generalize whole : c :: text = both at same
  cases same with
  | nil => cases whole
  | keep _ behind =>
      obtain ⟨rfl, rfl⟩ := List.cons.inj whole
      exact ⟨_, rfl, behind⟩
  | @run left _ _ _ leftBlank _ leftFull =>
      cases left with
      | nil => exact absurd rfl leftFull
      | cons d more =>
          obtain ⟨rfl, _⟩ := List.cons.inj whole
          rcases kept with isOpen | solid
          · cases isOpen
          · exact absurd (leftBlank c List.mem_cons_self) (by simp [solid])

/-- A blank outside strings stands where a blank does. -/
theorem of_blank (same : Reformatted .outside (c :: text) other) (blank : isBlank c = true) :
    ∃ d behind, other = d :: behind ∧ isBlank d = true := by
  cases found : other with
  | nil => exact absurd (same.symm.eq_nil found) (List.cons_ne_nil _ _)
  | cons d behind =>
      refine ⟨d, behind, rfl, ?_⟩
      by_contra solid
      rw [found] at same
      obtain ⟨rest, whole, _⟩ := same.symm.of_cons (.inr (by simpa using solid))
      obtain ⟨rfl, _⟩ := List.cons.inj whole
      exact solid blank

/-- A word without blanks and strings is there in both texts. -/
theorem of_word (plain : ∀ c ∈ letters, isBlank c = false ∧ isQuoteMark c = false)
    (same : Reformatted .outside (letters ++ text) other) :
    ∃ behind, other = letters ++ behind ∧ Reformatted .outside text behind := by
  induction letters generalizing other with
  | nil => exact ⟨other, rfl, same⟩
  | cons c more induction =>
      obtain ⟨solid, unquoted⟩ := plain c List.mem_cons_self
      obtain ⟨rest, rfl, kept⟩ := same.of_cons (.inr solid)
      rw [step_flat unquoted] at kept
      obtain ⟨behind, rfl, left⟩ := induction (fun d member => plain d (List.mem_cons_of_mem c member)) kept
      exact ⟨behind, rfl, left⟩

theorem trimStart (same : Reformatted .outside text other) :
    Reformatted .outside (trimStart text) (Text.trimStart other) := by
  generalize outside : Quoting.outside = quoting at same
  induction same with
  | nil => exact .nil _
  | @keep _ c _ _ kept behind =>
      subst outside
      have solid : isBlank c = false := kept.resolve_left Bool.false_ne_true
      rw [trimStart_cons solid, trimStart_cons solid]
      exact .keep kept behind
  | run leftBlank rightBlank _ _ _ induction =>
      rw [Text.trimStart, Text.trimStart, List.dropWhile_append_of_pos leftBlank,
        List.dropWhile_append_of_pos rightBlank]
      exact induction rfl

/-- Dropping from the end what is a blank or what is none. -/
theorem rdropWhile {drops : Char → Bool} (even : ∀ c d, isBlank c = true → isBlank d = true → drops c = drops d)
    (same : Reformatted quoting text other) :
    Reformatted quoting (text.rdropWhile drops) (other.rdropWhile drops) := by
  induction same with
  | nil quoting => exact .nil quoting
  | @keep _ c text other kept _ induction =>
      rw [rdropWhile_cons, rdropWhile_cons]
      by_cases empty : text.rdropWhile drops = []
      · rw [if_pos empty, if_pos (induction.eq_nil empty)]
        split
        · exact .nil _
        · exact .keep kept (.nil _)
      · rw [if_neg empty, if_neg (mt induction.eq_nil_iff.mpr empty)]
        exact .keep kept induction
  | @run left right text other leftBlank rightBlank leftFull rightFull _ induction =>
      rw [rdropWhile_append, rdropWhile_append]
      by_cases empty : text.rdropWhile drops = []
      · rw [if_pos empty, if_pos (induction.eq_nil empty)]
        obtain ⟨d, more, shape⟩ := List.exists_cons_of_ne_nil leftFull
        have blank : isBlank d = true := leftBlank d (by simp [shape])
        have each {run : List Char} (all : ∀ c ∈ run, isBlank c = true) : ∀ c ∈ run, drops c = drops d :=
          fun c member => even c d (all c member) blank
        -- Blanks are dropped alike, so a run goes as a whole or stays as a whole.
        cases dropped : drops d with
        | true =>
            have none {run : List Char} (all : ∀ c ∈ run, isBlank c = true) : run.rdropWhile drops = [] :=
              List.rdropWhile_eq_nil_iff.mpr fun c member => (each all c member).trans dropped
            rw [none leftBlank, none rightBlank]
            exact .nil _
        | false =>
            have whole {run : List Char} (all : ∀ c ∈ run, isBlank c = true) : run.rdropWhile drops = run :=
              List.rdropWhile_eq_self_iff.mpr fun full => by
                simp [(each all _ (List.getLast_mem full)).trans dropped]
            rw [whole leftBlank, whole rightBlank]
            have run := Reformatted.run leftBlank rightBlank leftFull rightFull (.nil _)
            rwa [List.append_nil, List.append_nil] at run
      · rw [if_neg empty, if_neg (mt induction.eq_nil_iff.mpr empty)]
        exact .run leftBlank rightBlank leftFull rightFull induction

theorem trimEnd (same : Reformatted quoting text other) :
    Reformatted quoting (trimEnd text) (Text.trimEnd other) := by
  rw [trimEnd_eq_rdropWhile, trimEnd_eq_rdropWhile]
  exact same.rdropWhile fun c d left right => left.trans right.symm

theorem dropSemicolons (same : Reformatted quoting text other) :
    Reformatted quoting (dropSemicolons text) (Chain.dropSemicolons other) := by
  have other {c : Char} (blank : isBlank c = true) : (c == ';') = false := by
    rw [beq_eq_false_iff_ne]
    rintro rfl
    exact absurd blank (by decide)
  exact (same.rdropWhile fun c d left right => (other left).trans (other right).symm).trimEnd

/-- The first mark in a text is the first in the other one. -/
theorem cutFirst {mark : Char} {before after : List Char} (solid : isBlank mark = false)
    (same : Reformatted quoting text other) (cut : cutFirst mark text = some (before, after)) :
    ∃ before' after', Text.cutFirst mark other = some (before', after') ∧
      Reformatted ((before ++ [mark]).foldl Quoting.step quoting) after after' := by
  induction same generalizing before with
  | nil => cases cut
  | @keep quoting c text other kept behind induction =>
      rw [Text.cutFirst] at cut ⊢
      split at cut
      · next here =>
        obtain ⟨rfl, rfl⟩ := Prod.mk.inj (Option.some.inj cut)
        refine ⟨[], other, if_pos here, ?_⟩
        rw [← here]
        exact behind
      · next other =>
        obtain ⟨⟨front, back⟩, found, whole⟩ := Option.map_eq_some_iff.mp cut
        obtain ⟨rfl, rfl⟩ := Prod.mk.inj whole
        obtain ⟨before', after', cut', same⟩ := induction found
        refine ⟨c :: before', after', ?_, same⟩
        rw [if_neg other, cut']
        rfl
  | @run left right text other leftBlank rightBlank _ _ _ induction =>
      -- The mark is no blank, so it stands behind the run in both texts.
      have absent {run : List Char} (all : ∀ c ∈ run, isBlank c = true) : mark ∉ run :=
        fun member => absurd (all mark member) (by simp [solid])
      rw [cutFirst_absent_append (absent leftBlank)] at cut
      obtain ⟨⟨front, back⟩, found, whole⟩ := Option.map_eq_some_iff.mp cut
      obtain ⟨rfl, rfl⟩ := Prod.mk.inj whole
      obtain ⟨before', after', cut', same⟩ := induction found
      refine ⟨right ++ before', after', ?_, ?_⟩
      · rw [cutFirst_absent_append (absent rightBlank), cut']
        rfl
      · rw [List.append_assoc, List.foldl_append, foldl_blanks leftBlank]
        exact same

theorem collapse (same : Reformatted quoting text other) (pending started : Bool) :
    collapse quoting pending started text = Chain.collapse quoting pending started other := by
  induction same generalizing pending started with
  | nil => rfl
  | @keep quoting c text other kept _ induction =>
      have stays : ¬ (!quoting.isOpen && isBlank c) = true := by
        rcases kept with isOpen | solid
        · simp [isOpen]
        · simp [solid]
      rw [Chain.collapse, Chain.collapse, if_neg stays, if_neg stays, induction]
  | run leftBlank rightBlank leftFull rightFull _ induction =>
      rw [collapse_blanks leftBlank leftFull, collapse_blanks rightBlank rightFull, induction]

end Reformatted

end QueryNotation.Chain
