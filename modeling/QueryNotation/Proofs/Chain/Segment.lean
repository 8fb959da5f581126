import QueryNotation.Chain.Arguments
import QueryNotation.Chain.Segment
import QueryNotation.Proofs.Chain.Argument
import QueryNotation.Proofs.Outcome

namespace QueryNotation.Chain

/-! # Reading back segments

A chain of calls whose arguments are literals is already normal, and its segments are the
client and the calls with the values that the literals were written for.
-/

open Text

variable {apart : Char → Prop} {bound depth : Nat} {c : Char} {text rest : List Char}

theorem collapse_solid (solid : isBlank c = false) (started : Bool) :
    collapse .outside false started (c :: rest) =
      c :: collapse (Quoting.step .outside c) false true rest := by
  rw [collapse, if_neg (by simp [solid])]
  rfl

theorem collapse_space (solid : isBlank c = false) :
    collapse .outside false true (' ' :: c :: rest) =
      ' ' :: collapse .outside false true (c :: rest) := by
  rw [collapse_solid solid, collapse, if_pos (by decide), collapse, if_neg (by simp [solid])]
  rfl

theorem collapse_inString {quoting : Quoting} (inside : InString quoting text) :
    collapse quoting false true (text ++ rest) = text ++ collapse .outside false true rest := by
  induction inside with
  | last plain =>
      rw [List.singleton_append, collapse, if_neg (by simp [Quoting.isOpen]), step_last plain]
      rfl
  | more isOpen _ induction =>
      rw [List.cons_append, collapse, if_neg (by simp [isOpen]), induction]
      rfl

theorem step_flat (unquoted : isQuoteMark c = false) : Quoting.step .outside c = .outside := by
  rw [Quoting.step, if_neg (by simp [unquoted])]

theorem isBlank_closer {c : Char} (closes : isCloser c = true) : isBlank c = false := by
  simp only [isCloser, Bool.or_eq_true, beq_iff_eq] at closes
  rcases closes with (rfl | rfl) | rfl <;> decide

theorem isBlank_opener {c : Char} (opens : isOpener c = true) : isBlank c = false := by
  simp only [isOpener, Bool.or_eq_true, beq_iff_eq] at opens
  rcases opens with (rfl | rfl) | rfl <;> decide

theorem isBlank_quoteMark {c : Char} (quote : isQuoteMark c = true) : isBlank c = false := by
  simp only [isQuoteMark, Bool.or_eq_true, beq_iff_eq] at quote
  rcases quote with (rfl | rfl) | rfl <;> decide

/-- Laid out text has no blanks to spare. -/
theorem collapse_laid (laid : Laid apart depth text) (rest : List Char) :
    collapse .outside false true (text ++ rest) = text ++ collapse .outside false true rest := by
  induction laid generalizing rest with
  | nil => rfl
  | solid flat solid _ _ induction =>
      rw [List.cons_append, collapse_solid solid, step_flat flat.1, induction]
      rfl
  | space _ solid _ induction =>
      have behind := induction rest
      rw [List.cons_append] at behind
      rw [List.cons_append, List.cons_append, collapse_space solid, behind]
      rfl
  | string quote inside _ induction =>
      rw [List.cons_append, List.append_assoc, collapse_solid (isBlank_quoteMark quote),
        step_outside_quote quote, collapse_inString inside, induction, List.cons_append,
        List.append_assoc]
  | @bracket _ _ _ opener closer inner pad behind opens closes padded _ _ inside induction =>
      -- Nothing or one space stands in front of the closing bracket.
      have closed : collapse .outside false true (pad ++ closer :: (behind ++ rest)) =
          pad ++ closer :: (behind ++ collapse .outside false true rest) := by
        have solid := isBlank_closer closes
        have after := @collapse_solid closer (behind ++ rest) solid true
        rw [step_flat (not_isQuoteMark_of_isCloser closes), induction] at after
        rcases padded with rfl | rfl
        · exact after
        · rw [List.singleton_append, collapse_space solid, after]
          rfl
      rw [List.cons_append, List.append_assoc, List.append_assoc, List.cons_append,
        collapse_solid (isBlank_opener opens), step_flat (not_isQuoteMark_of_isOpener opens), inside,
        closed]
      simp only [List.cons_append, List.append_assoc]

/-- The name of a client in front of a point and what follows up to a closing parenthesis. -/
structure IsBare (text : List Char) : Prop where
  named : ∃ name rest, text = name ++ '.' :: rest ∧ name ≠ [] ∧ ∀ c ∈ name, isNameCharacter c = true
  closed : ∃ front, text = front ++ [')']

namespace IsBare

theorem head (bare : IsBare text) : ∃ c rest, text = c :: rest ∧ isBlank c = false := by
  obtain ⟨name, rest, rfl, full, plain⟩ := bare.named
  cases name with
  | nil => exact absurd rfl full
  | cons c more => exact ⟨c, more ++ '.' :: rest, rfl, (isFlat_nameCharacter (plain c (by simp))).2⟩

theorem trim_eq (bare : IsBare text) : trim text = text := by
  obtain ⟨c, rest, same, solid⟩ := bare.head
  obtain ⟨front, closed⟩ := bare.closed
  refine trim_eq_self (fun d member => ?_) (fun d member => ?_)
  · rw [same] at member
    obtain rfl := Option.some.inj member
    exact solid
  · rw [closed, List.getLast?_concat] at member
    obtain rfl := Option.some.inj member
    decide

/-- No word with a blank behind it stands in front of a bare chain. -/
theorem ne_word (bare : IsBare text) {word : List Char} {blank : Char} {behind : List Char}
    (plain : ∀ c ∈ word, isNameCharacter c = true) (isBlank : isBlank blank = true) :
    text ≠ word ++ blank :: behind := by
  obtain ⟨name, rest, same, _, named⟩ := bare.named
  intro whole
  have point : text.dropWhile isNameCharacter = '.' :: rest := by
    rw [same]
    refine dropWhile_append_stop named fun c first => ?_
    obtain rfl : '.' = c := Option.some.inj first
    decide
  have space : text.dropWhile isNameCharacter = blank :: behind := by
    rw [whole]
    refine dropWhile_append_stop plain fun c first => ?_
    obtain rfl : blank = c := Option.some.inj first
    by_contra letter
    exact absurd isBlank (by simp [(isFlat_nameCharacter (by simpa using letter)).2])
  rw [point] at space
  obtain ⟨rfl, _⟩ := List.cons.inj space
  exact absurd isBlank (by decide)

theorem dropLead?_word (bare : IsBare text) {word : List Char}
    (plain : ∀ c ∈ word, isNameCharacter c = true) : dropLead? (word ++ [' ']) text = none := by
  refine dropLead?_eq_none fun ⟨behind, whole⟩ => ?_
  have spaced : text = word ++ ' ' :: behind := by
    rw [← whole, List.append_assoc]
    rfl
  exact bare.ne_word plain (by decide) spaced

theorem unwrapOnce_eq (bare : IsBare text) : unwrapOnce text = text := by
  have semicolons : dropSemicolons text = text := by
    obtain ⟨front, rfl⟩ := bare.closed
    rw [dropSemicolons, List.reverse_append, List.reverse_singleton, List.singleton_append,
      List.dropWhile_cons, if_neg (by decide), List.reverse_cons, List.reverse_reverse]
    exact trimEnd_append (by decide) front
  have word (word : String) (plain : ∃ name, word.toList = name ++ [' '] ∧ ∀ c ∈ name, isNameCharacter c = true) :
      dropWord word text = text ∧ dropBinding word text = text := by
    obtain ⟨name, same, plain⟩ := plain
    have none := bare.dropLead?_word plain
    rw [← same] at none
    exact ⟨by rw [dropWord, none], by rw [dropBinding, none]⟩
  have await := word "await " ⟨"await".toList, by decide, by decide⟩
  have back := word "return " ⟨"return".toList, by decide, by decide⟩
  have const := word "const " ⟨"const".toList, by decide, by decide⟩
  have letWord := word "let " ⟨"let".toList, by decide, by decide⟩
  have var := word "var " ⟨"var".toList, by decide, by decide⟩
  simp only [unwrapOnce, semicolons, List.foldl_cons, List.foldl_nil, await.1, back.1, const.2,
    letWord.2, var.2]

theorem unwrap_eq (bare : IsBare text) (bound : Nat) : unwrap bound text = text := by
  cases bound with
  | zero => rfl
  | succ bound => rw [unwrap, bare.unwrapOnce_eq, if_pos rfl]

/-- A bare chain that is laid out is normal. -/
theorem normalize_eq (bare : IsBare text) (laid : Laid apart depth text) : normalize text = text := by
  obtain ⟨c, rest, same, solid⟩ := bare.head
  have kept := collapse_laid laid []
  rw [List.append_nil, same, collapse_solid solid] at kept
  rw [normalize, bare.trim_eq, bare.unwrap_eq, same, collapse_solid solid, kept]
  simp [collapse]

end IsBare

theorem listed_eq_intercalate (part : List Char) (more : List (List Char)) :
    listed (part :: more) = [','].intercalate (part :: more.map (' ' :: ·)) := by
  induction more generalizing part with
  | nil => rfl
  | cons next rest induction =>
      rw [listed_cons_cons, induction, List.map_cons, List.intercalate_cons_cons]
      cases rest with
      | nil => simp
      | cons third rest => simp [List.intercalate_cons_cons]

/-- Well-formed parts that need no trimming are found again between their commas. -/
theorem splitTopLevel_listed {parts : List (List Char)}
    (nested : ∀ part ∈ parts, Nested (· = ',') bound part)
    (trimmed : ∀ part ∈ parts, trim part = part) (full : ∀ part ∈ parts, part ≠ []) :
    splitTopLevel ',' bound (listed parts) = .ok parts := by
  cases parts with
  | nil => rfl
  | cons part more =>
      have spaced : ∀ other ∈ part :: more.map (' ' :: ·), Nested (· = ',') bound other := by
        intro other member
        rcases List.mem_cons.mp member with rfl | later
        · exact nested other (by simp)
        · obtain ⟨inner, listed, rfl⟩ := List.mem_map.mp later
          exact .flat ⟨rfl, rfl, rfl⟩ (by decide) (nested inner (by simp [listed]))
      have kept : (part :: more.map (' ' :: ·)).map trim = part :: more := by
        rw [List.map_cons, trimmed part (by simp), List.map_map]
        refine congrArg (part :: ·) ((List.map_congr_left fun inner member => ?_).trans (List.map_id more))
        exact trimmed inner (by simp [member])
      rw [listed_eq_intercalate, splitTopLevel, topLevelPieces_join (by simp) (by decide) (by decide) spaced]
      simp only [Except.map, kept, Except.ok.injEq, List.filter_eq_self]
      intro other member
      simpa using full other member

/-- A call that is written with literals: its method is a name, and its values come back. -/
structure Arguments.IsWritten (call : Arguments) : Prop where
  full : call.method ≠ ""
  named : ∀ c ∈ call.method.toList, isNameCharacter c = true
  stable : ∀ value ∈ call.values, ∃ depth, Json.ReadsBack depth value

def argumentChars (call : Arguments) : List Char :=
  listed (call.values.map literalChars)

def callChars (call : Arguments) : List Char :=
  call.method.toList ++ '(' :: (argumentChars call ++ [')'])

def callsChars (calls : List Arguments) : List Char :=
  calls.flatMap fun call => '.' :: callChars call

def callSegment (call : Arguments) : Segment :=
  .call call.method call.values

theorem laid_name {name : List Char} (plain : ∀ c ∈ name, isNameCharacter c = true) :
    Laid (fun _ => False) 0 name :=
  .of_solid fun c member => ⟨(isFlat_nameCharacter (plain c member)).1,
    (isFlat_nameCharacter (plain c member)).2, id⟩

theorem dropSpaces_solid (solid : isBlank c = false) : dropSpaces (c :: rest) = c :: rest := by
  rw [dropSpaces, List.dropWhile_cons, if_neg]
  intro space
  rw [beq_iff_eq.mp space] at solid
  exact absurd solid (by decide)

theorem dropSpaces_name {name : List Char} (full : name ≠ []) (plain : ∀ c ∈ name, isNameCharacter c = true)
    (rest : List Char) : dropSpaces (name ++ rest) = name ++ rest := by
  cases name with
  | nil => exact absurd rfl full
  | cons c more => exact dropSpaces_solid (isFlat_nameCharacter (plain c (by simp))).2

/-- The end of a text or the point in front of the next call. -/
def EndsSegment (text : List Char) : Prop :=
  ∀ c ∈ text.head?, c = '.'

theorem dropSpaces_endsSegment (ends : EndsSegment rest) : dropSpaces rest = rest := by
  cases rest with
  | nil => rfl
  | cons c more =>
      obtain rfl := ends c rfl
      rfl

theorem readSegment_property {name : List Char} (full : name ≠ [])
    (plain : ∀ c ∈ name, isNameCharacter c = true) (whole more : List Char) :
    readSegment bound whole (name ++ '.' :: more) = .ok (.property (String.ofList name), '.' :: more) := by
  have stop : ∀ c ∈ ('.' :: more).head?, isNameCharacter c = false := by
    rintro c member
    obtain rfl := Option.some.inj member
    rfl
  rw [readSegment, dropSpaces_name full plain]
  simp only [takeWhile_append_stop plain stop, dropWhile_append_stop plain stop]
  rw [dropSpaces_solid (by decide)]
  rfl

theorem readSegments_point {count : Nat} {segment : Segment} {whole front rest : List Char}
    (first : readSegment bound whole front = .ok (segment, '.' :: rest)) :
    readSegments bound whole (count + 1) front =
      (readSegments bound whole count rest).map (segment :: ·) := by
  rw [readSegments, first, ok_bind]
  change (readSegments bound whole count rest >>= fun more => pure (segment :: more)) = _
  cases readSegments bound whole count rest <;> rfl

def chainChars (client : String) (calls : List Arguments) : List Char :=
  client.toList ++ callsChars calls

/-- The names under which a client is kept. -/
structure IsClient (client : String) : Prop where
  full : client ≠ ""
  named : ∀ c ∈ client.toList, isNameCharacter c = true

end QueryNotation.Chain
