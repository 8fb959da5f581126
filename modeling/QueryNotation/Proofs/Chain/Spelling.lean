import QueryNotation.Proofs.Chain.Segment

namespace QueryNotation.Chain

/-! # Calls as they are spelled

An argument may be spelled in several ways, of which the literal of its value is one.  A chain of
calls has the segments that its arguments are read as, however these are spelled.
-/

open Text

variable {bound : Nat} {text rest : List Char}

/-- The text of an argument, and the value that it is read as. -/
structure Spelling where
  text : List Char
  value : Json
  /-- How deep the brackets of the text nest. -/
  depth : Nat
  laid : Laid (· = ',') depth text
  begins : Begins text
  trimmed : trim text = text
  read : ∀ bound, depth ≤ bound → argument bound text = value

def Spelling.ofLiteral (value : Json) (stable : ∃ depth, Json.ReadsBack depth value) : Spelling where
  text := literalChars value
  value := value
  depth := levels value
  laid := laid_literal stable.choose_spec
  begins := begins_literal stable.choose_spec
  trimmed := trim_literalChars stable.choose_spec
  read _ room := argument_literal stable.choose_spec room

theorem Spelling.text_ofLiteral (value : Json) (stable : ∃ depth, Json.ReadsBack depth value) :
    (Spelling.ofLiteral value stable).text = literalChars value :=
  rfl

/-- A call with the spellings of its arguments. -/
structure SpelledCall where
  method : String
  arguments : List Spelling
  full : method ≠ ""
  named : ∀ c ∈ method.toList, isNameCharacter c = true

namespace SpelledCall

variable {call : SpelledCall} {calls : List SpelledCall}

def inner (call : SpelledCall) : List Char :=
  listed (call.arguments.map Spelling.text)

def chars (call : SpelledCall) : List Char :=
  call.method.toList ++ '(' :: (call.inner ++ [')'])

/-- How deep the brackets of the arguments nest. -/
def depth (call : SpelledCall) : Nat :=
  (call.arguments.map Spelling.depth).foldr max 0

def segment (call : SpelledCall) : Segment :=
  .call call.method (call.arguments.map Spelling.value)

def charsOf (calls : List SpelledCall) : List Char :=
  calls.flatMap fun call => '.' :: call.chars

theorem laid_inner (call : SpelledCall) : Laid (fun _ => False) call.depth call.inner :=
  laid_listed (fun spelling _ => spelling.laid.weaken fun _ => False.elim) fun spelling _ => spelling.begins

theorem laid_chars (call : SpelledCall) : Laid (fun _ => False) (call.depth + 1) call.chars := by
  have inside : Laid (fun _ => False) (call.depth + 1) ('(' :: (call.inner ++ ([] ++ [')']))) := by
    rw [← Nat.max_zero (call.depth + 1)]
    exact .bracket rfl rfl (.inl rfl) call.laid_inner .nil
  rw [← Nat.zero_max (call.depth + 1)]
  exact (laid_name call.named).append inside

theorem laid_charsOf (calls : List SpelledCall) :
    Laid (fun _ => False) ((calls.map fun call => call.depth + 1).foldr max 0) (charsOf calls) := by
  induction calls with
  | nil => exact .nil
  | cons call more induction =>
      rw [charsOf, List.flatMap_cons, List.map_cons, List.foldr_cons]
      exact .solid ⟨rfl, rfl, rfl⟩ (by decide) id (call.laid_chars.append induction)

theorem depth_le {spelling : Spelling} (member : spelling ∈ call.arguments) : spelling.depth ≤ call.depth :=
  List.le_max_of_le' 0 (List.mem_map_of_mem member) (Nat.le_refl _)

/-- The arguments of a call are found again between their commas. -/
theorem splitTopLevel_inner (room : call.depth < bound) :
    splitTopLevel ',' bound call.inner = .ok (call.arguments.map Spelling.text) := by
  refine splitTopLevel_listed (fun part member => ?_) (fun part member => ?_) fun part member => ?_
  · obtain ⟨spelling, listed, rfl⟩ := List.mem_map.mp member
    have low := depth_le listed
    exact spelling.laid.nested.mono (by omega)
  · obtain ⟨spelling, _, rfl⟩ := List.mem_map.mp member
    exact spelling.trimmed
  · obtain ⟨spelling, _, rfl⟩ := List.mem_map.mp member
    obtain ⟨c, rest, same, _⟩ := spelling.begins
    rw [same]
    exact List.cons_ne_nil c rest

theorem readArguments_inner (room : call.depth < bound) (whole rest : List Char) :
    readArguments bound whole ('(' :: (call.inner ++ ')' :: rest)) =
      .ok (some (call.arguments.map Spelling.value), rest) := by
  have bracket : upToClose bound ('(' :: (call.inner ++ ')' :: rest)) = .ok ('(' :: call.inner, rest) :=
    upToClose_bracket rfl rfl call.laid_inner.nested room
  have values : (call.arguments.map Spelling.text).map (argument bound) = call.arguments.map Spelling.value := by
    rw [List.map_map]
    refine List.map_congr_left fun spelling member => spelling.read bound ?_
    have low := depth_le member
    omega
  simp only [readArguments, bracket]
  rw [Except.mapError, ok_bind]
  simp only [List.drop_succ_cons, List.drop_zero, splitTopLevel_inner room]
  rw [Except.mapError, ok_bind, values]
  rfl

theorem readSegment_chars (room : call.depth < bound) (whole : List Char) (ends : EndsSegment rest) :
    readSegment bound whole (call.chars ++ rest) = .ok (call.segment, rest) := by
  have full : call.method.toList ≠ [] := by simpa using call.full
  have name : call.chars ++ rest = call.method.toList ++ '(' :: (call.inner ++ ')' :: rest) := by
    simp [chars]
  have stop : ∀ c ∈ ('(' :: (call.inner ++ ')' :: rest)).head?, isNameCharacter c = false := by
    rintro c member
    obtain rfl := Option.some.inj member
    rfl
  rw [name, readSegment, dropSpaces_name full call.named]
  simp only [takeWhile_append_stop call.named stop, dropWhile_append_stop call.named stop]
  rw [dropSpaces_solid (by decide), dropTypeArguments, ok_bind, readArguments_inner room, ok_bind]
  · simp only [dropSpaces_endsSegment ends, String.ofList_toList]
    rfl
  · exact fun _ same => absurd (List.cons.inj same).1 (by decide)

theorem endsSegment_charsOf (calls : List SpelledCall) : EndsSegment (charsOf calls) := by
  intro c member
  cases calls with
  | nil => cases member
  | cons call more => exact (Option.some.inj member).symm

theorem charsOf_cons (call : SpelledCall) (calls : List SpelledCall) :
    charsOf (call :: calls) = '.' :: (call.chars ++ charsOf calls) := by
  rw [charsOf, List.flatMap_cons]
  rfl

theorem length_le_charsOf (calls : List SpelledCall) : calls.length ≤ (charsOf calls).length := by
  induction calls with
  | nil => exact Nat.le_refl 0
  | cons call more induction =>
      rw [charsOf_cons, List.length_cons, List.length_cons, List.length_append]
      omega

theorem readSegments_charsOf (room : ∀ other ∈ call :: calls, other.depth < bound) (whole : List Char)
    {count : Nat} (enough : calls.length < count) :
    readSegments bound whole count (call.chars ++ charsOf calls) = .ok ((call :: calls).map segment) := by
  obtain ⟨count, rfl⟩ := Nat.exists_eq_succ_of_ne_zero (Nat.ne_of_gt (Nat.zero_lt_of_lt enough))
  induction calls generalizing call count with
  | nil =>
      have first := readSegment_chars (room call (by simp)) whole (endsSegment_charsOf [])
      rw [readSegments, first, ok_bind]
      rfl
  | cons next more induction =>
      have first := readSegment_chars (room call (by simp)) whole (endsSegment_charsOf (next :: more))
      obtain ⟨count, rfl⟩ := Nat.exists_eq_succ_of_ne_zero
        (Nat.ne_of_gt (Nat.zero_lt_of_lt (Nat.lt_of_succ_lt_succ enough)))
      have others := @induction next (fun other member => room other (by simp [List.mem_cons.mp member])) count
        (Nat.lt_of_succ_lt_succ enough)
      rw [charsOf_cons] at first ⊢
      rw [readSegments_point first, others]
      rfl

theorem charsOf_closed (call : SpelledCall) (calls : List SpelledCall) :
    ∃ front, charsOf (call :: calls) = front ++ [')'] := by
  induction calls generalizing call with
  | nil => exact ⟨'.' :: (call.method.toList ++ '(' :: call.inner), by simp [charsOf, chars]⟩
  | cons next more induction =>
      obtain ⟨front, same⟩ := induction next
      rw [charsOf_cons, same]
      exact ⟨'.' :: (call.chars ++ front), by simp⟩

/-- The segments of a client and the calls behind it. -/
theorem segments_charsOf {client : String} (name : IsClient client)
    (room : ∀ other ∈ call :: calls, other.depth < bound) :
    segments bound (normalize (client.toList ++ charsOf (call :: calls))) =
      .ok (.property client :: (call :: calls).map segment) := by
  have full : client.toList ≠ [] := by simpa using name.full
  have laid : Laid (fun _ => False) (((call :: calls).map fun call => call.depth + 1).foldr max 0)
      (client.toList ++ charsOf (call :: calls)) := by
    rw [← Nat.zero_max (List.foldr _ _ _)]
    exact (laid_name name.named).append (laid_charsOf _)
  obtain ⟨front, closed⟩ := charsOf_closed call calls
  have bare : IsBare (client.toList ++ charsOf (call :: calls)) :=
    ⟨⟨client.toList, _, by rw [charsOf_cons], full, name.named⟩,
      ⟨client.toList ++ front, by rw [closed, List.append_assoc]⟩⟩
  have enough : calls.length < (client.toList ++ charsOf (call :: calls)).length := by
    have short := length_le_charsOf calls
    rw [charsOf_cons, List.length_append, List.length_cons, List.length_append]
    omega
  rw [bare.normalize_eq laid, segments]
  rw [charsOf_cons] at enough ⊢
  rw [readSegments_point (readSegment_property full name.named _ _), String.ofList_toList,
    readSegments_charsOf room _ enough]
  rfl

/-- The brackets of a call nest less deep than those of the chain that it is in. -/
theorem depth_lt_of_chain {client : String} (name : IsClient client)
    (room : bracketDepth .outside 0 (client.toList ++ charsOf calls) ≤ bound) (member : call ∈ calls) :
    call.depth < bound := by
  have laid : Laid (fun _ => False) ((calls.map fun call => call.depth + 1).foldr max 0)
      (client.toList ++ charsOf calls) := by
    rw [← Nat.zero_max (List.foldr _ _ _)]
    exact (laid_name name.named).append (laid_charsOf _)
  have exact := bracketDepth_laid laid 0 []
  rw [List.append_nil, Nat.zero_add, bracketDepth, Nat.max_zero] at exact
  rw [exact] at room
  exact Nat.le_trans (List.le_max_of_le' 0 (List.mem_map_of_mem member) (Nat.le_refl _)) room

end SpelledCall

section Literals

variable {call : Arguments} {calls : List Arguments}

theorem exists_spellings {values : List Json} (stable : ∀ value ∈ values, ∃ depth, Json.ReadsBack depth value) :
    ∃ spellings : List Spelling, spellings.map Spelling.text = values.map literalChars ∧
      spellings.map Spelling.value = values := by
  induction values with
  | nil => exact ⟨[], rfl, rfl⟩
  | cons value rest induction =>
      obtain ⟨others, texts, same⟩ := induction fun other member => stable other (by simp [member])
      refine ⟨.ofLiteral value (stable value (by simp)) :: others, ?_, ?_⟩
      · rw [List.map_cons, List.map_cons, texts, Spelling.text_ofLiteral]
      · rw [List.map_cons, same]
        rfl

/-- Calls that are written with literals are spelled calls. -/
theorem exists_spelled (written : ∀ call ∈ calls, call.IsWritten) : ∃ spelled : List SpelledCall,
    SpelledCall.charsOf spelled = callsChars calls ∧ spelled.map SpelledCall.segment = calls.map callSegment := by
  induction calls with
  | nil => exact ⟨[], rfl, rfl⟩
  | cons call rest induction =>
      obtain ⟨others, chars, segments⟩ := induction fun other member => written other (by simp [member])
      have first := written call (by simp)
      obtain ⟨spellings, texts, values⟩ := exists_spellings first.stable
      let spelled : SpelledCall := ⟨call.method, spellings, first.full, first.named⟩
      have text : spelled.chars = callChars call := by
        rw [SpelledCall.chars, SpelledCall.inner, texts]
        rfl
      have segment : spelled.segment = callSegment call := by
        rw [SpelledCall.segment, values]
        rfl
      refine ⟨spelled :: others, ?_, by rw [List.map_cons, List.map_cons, segment, segments]⟩
      rw [SpelledCall.charsOf_cons, text, chars, callsChars, callsChars, List.flatMap_cons]
      rfl

/-- The segments of a chain of calls are the client and the calls. -/
theorem segments_chain {client : String} (name : IsClient client) (some : calls ≠ [])
    (written : ∀ call ∈ calls, call.IsWritten)
    (room : bracketDepth .outside 0 (chainChars client calls) ≤ bound) :
    segments bound (normalize (chainChars client calls)) =
      .ok (.property client :: calls.map callSegment) := by
  obtain ⟨spelled, chars, same⟩ := exists_spelled written
  rw [chainChars, ← chars] at room ⊢
  rw [← same]
  cases spelled with
  | nil => exact absurd (List.map_eq_nil_iff.mp same.symm) some
  | cons first others =>
      exact SpelledCall.segments_charsOf name fun other member => SpelledCall.depth_lt_of_chain name room member

end Literals

end QueryNotation.Chain
