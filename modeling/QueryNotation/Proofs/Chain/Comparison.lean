import QueryNotation.Proofs.Chain.Fold
import QueryNotation.Proofs.Chain.Roundtrip
import QueryNotation.Proofs.Chain.Spelling
import QueryNotation.Proofs.Comparison
import QueryNotation.Proofs.Numeral

namespace QueryNotation.Chain

/-! # Chains that compare

A chain that compares a column with a number is read as the query that does, however the number is
spelled, and is written for it.

A numeral among the arguments of a call is taken whole, whether or not JSON shows its number so.
-/

section Numeral

open Text

variable {bound : Nat} {text digits : List Char}

theorem not_digit_behind {fraction power : List Char} (behind : IsFraction fraction) (last : IsPower power) :
    ∀ c ∈ (fraction ++ power).head?, c.isDigit = false := by
  intro c first
  rcases behind.head_append last c first with rfl | rfl <;> decide

theorem not_digit_power {power : List Char} (last : IsPower power) :
    ∀ c ∈ power.head?, c.isDigit = false :=
  not_digit_behind .none last

theorem takeFraction_power {fraction power : List Char} (behind : IsFraction fraction) (last : IsPower power) :
    takeFraction (fraction ++ power) = (fraction, power) := by
  cases behind with
  | none =>
      refine takeFraction_plain fun c first => ?_
      cases last with
      | none => cases first
      | letter _ _ =>
          obtain rfl := Option.some.inj first
          decide
  | @point digits some =>
      have taken := takeWhile_append_stop some.2 (not_digit_power last)
      have left := dropWhile_append_stop some.2 (not_digit_power last)
      obtain ⟨c, more, rfl⟩ := List.exists_cons_of_ne_nil some.1
      rw [List.cons_append, takeFraction, taken, left]

theorem beginsWithDigit_of_areDigits (some : AreDigits digits) : Json.beginsWithDigit digits = true := by
  obtain ⟨c, rest, rfl⟩ := List.exists_cons_of_ne_nil some.1
  exact some.2 c (by simp)

theorem takeExponent_power {power : List Char} (last : IsPower power) : takeExponent power = (power, []) := by
  cases last with
  | none => rfl
  | @letter sign digits signed some =>
      have begins := beginsWithDigit_of_areDigits some
      have whole : digits.takeWhile Char.isDigit = digits := List.takeWhile_eq_self_iff.mpr some.2
      have none : digits.dropWhile Char.isDigit = [] := List.dropWhile_eq_nil_iff.mpr some.2
      have taken : takeExponentDigits 'e' (sign ++ digits) sign digits = ('e' :: (sign ++ digits), []) := by
        rw [takeExponentDigits_begins begins, whole, none]
        rfl
      refine Eq.trans ?_ taken
      simp only [List.mem_cons, List.not_mem_nil, or_false] at signed
      rcases signed with rfl | rfl | rfl
      · obtain ⟨c, more, rfl⟩ := List.exists_cons_of_ne_nil some.1
        have digit := some.2 c (by simp)
        refine takeExponent_unsigned (.inl rfl) ?_ ?_
        · rintro rfl
          exact absurd digit (by decide)
        · rintro rfl
          exact absurd digit (by decide)
      · rfl
      · rfl

/-- A numeral is taken whole behind its sign. -/
theorem readDigits_unsigned (unsigned : IsUnsigned text) (sign : List Char) :
    readDigits sign text = .ok (numberValue (sign ++ text), []) := by
  obtain @⟨whole, fraction, power, some, behind, last⟩ := unsigned
  have stop := not_digit_behind behind last
  have taken := takeWhile_append_stop some.2 stop
  have left := dropWhile_append_stop some.2 stop
  obtain ⟨c, more, rfl⟩ := List.exists_cons_of_ne_nil some.1
  unfold readDigits
  rw [List.append_assoc, taken, left]
  simp only [takeFraction_power behind last, takeExponent_power last, List.append_assoc]

theorem readNumber_numeral (numeral : IsNumeral text) : readNumber text = .ok (numberValue text, []) := by
  cases numeral with
  | negative unsigned =>
      rw [readNumber_minus]
      exact readDigits_unsigned unsigned ['-']
  | plain unsigned =>
      have read := readDigits_unsigned unsigned []
      obtain ⟨c, more, rfl, digit⟩ := unsigned.head
      rw [readNumber_plain (by rintro rfl; exact absurd digit (by decide)), read, List.nil_append]

/-- A numeral among arguments is read as the number that JSON makes of it, or as a string. -/
theorem argument_numeral (numeral : IsNumeral text) : argument bound text = numberValue text := by
  have trimmed : trim text = text := trim_of_solid fun c member => isBlank_numberChar (numeral.chars c member)
  have read := readNumber_numeral numeral
  obtain ⟨c, more, rfl⟩ := List.exists_cons_of_ne_nil numeral.ne_nil
  have plain := numeral.chars c (by simp)
  have flat := isFlat_numberChar plain
  have array : c ≠ '[' := by
    rintro rfl
    exact absurd flat.2.1 (by decide)
  have object : c ≠ '{' := by
    rintro rfl
    exact absurd flat.2.1 (by decide)
  have other : bracketedJson? (c :: more) = none := by
    unfold bracketedJson?
    split
    · next same => exact absurd (List.cons.inj same).1 object
    · next same => exact absurd (List.cons.inj same).1 array
    · rfl
  have scalar : readScalar (c :: more) = .ok (numberValue (c :: more), []) := by
    rw [readScalar, if_neg (by simp [flat.1]), read]
  rw [argument, trimmed, other]
  simp only
  rw [literal?, skipSpaces_solid (isBlank_numberChar plain), readLiteral_scalar array object, scalar]
  rfl

def Spelling.ofNumeral (text : List Char) (numeral : IsNumeral text) : Spelling where
  text := text
  value := numberValue text
  depth := 0
  laid := .of_solid fun c member =>
    have plain := numeral.chars c member
    ⟨isFlat_numberChar plain, isBlank_numberChar plain, comma_numberChar plain⟩
  begins := by
    obtain ⟨c, rest, rfl⟩ := List.exists_cons_of_ne_nil numeral.ne_nil
    exact begins_numberChars (numeral.chars c (by simp))
  trimmed := trim_of_solid fun c member => isBlank_numberChar (numeral.chars c member)
  read _ _ := argument_numeral numeral

end Numeral

open Value

variable {options : Options} {client table column numeral : String} {op : Operator} {value : Value}

theorem method_comparison (compares : op ∈ comparisons) : op.method = some op.tag := by
  revert compares
  cases op <;> decide

theorem tag_comparison (compares : op ∈ comparisons) :
    op.tag ≠ "" ∧ (∀ c ∈ op.tag.toList, isNameCharacter c = true) ∧ Operator.ofMethod? op.tag = some op :=
  name_of_method (method_comparison compares)

def fromCall (table : String) : SpelledCall where
  method := "from"
  arguments := [.ofLiteral (.string table) (stable_string table)]
  full := by decide
  named := by decide

def plainSelect : SpelledCall where
  method := "select"
  arguments := []
  full := by decide
  named := by decide

def comparisonCall (compares : op ∈ comparisons) (column : String) (spelling : Spelling) : SpelledCall where
  method := op.tag
  arguments := [.ofLiteral (.string column) (stable_string column), spelling]
  full := (tag_comparison compares).1
  named := (tag_comparison compares).2.1

theorem applySegment_select (table : String) :
    applySegment options { query := { table, operation := .select } } (.call "select" []) =
      .ok { query := { table, operation := .select, columns := [.star] } } := by
  have plain : ∀ column ∈ [Column.star], column.IsPlain := by
    intro column member
    rw [List.mem_singleton.mp member]
    exact .star
  have applied := @applySelect_readList options { table, operation := .select, columns := [.star] }
    { query := { table, operation := .select } } plain (List.forall_mem_nil _) (.inl (by simp)) (Nat.zero_le _)
    none false
  have classified : Call.classify "select" [] = .ok (.select "*" none false) := rfl
  rw [applySegment]
  simp only [classified, ok_bind]
  exact applied

theorem applySegment_comparison (compares : op ∈ comparisons) (value : Json) (parsed : Parsed)
    (alone : parsed.query.embeds = []) :
    applySegment options parsed (.call op.tag [.string column, value]) =
      .ok { parsed with query := { parsed.query with
        filters := parsed.query.filters ++ [{ column, op, value := Value.ofJson value }] } } := by
  have found := (tag_comparison compares).2.2
  have plain : Call.filterValue op value = Value.ofJson value := by
    rw [Call.filterValue]
    rintro text rfl
    exact absurd compares (by decide)
  have classified : Call.classify op.tag [.string column, value] =
      .ok (.filter { column, op, value := Value.ofJson value }) := by
    unfold Call.classify
    have first : Arguments.string { method := op.tag, values := [.string column, value] } 0 = .ok column := rfl
    have second : Arguments.value { method := op.tag, values := [.string column, value] } 1 = .ok value := rfl
    simp only [found, first, second, ok_bind, plain]
    rfl
  rw [applySegment]
  simp only [classified, ok_bind]
  refine congrArg Except.ok (routeFilter_main ?_)
  rw [IsMain, alone]
  exact List.forall_mem_nil _

def comparisonCode (client table column : String) (op : Operator) (literal : String) : String :=
  client ++ ".from(" ++ stringLiteral table ++ ").select()." ++ op.tag ++ "(" ++ stringLiteral column ++ ", " ++
    literal ++ ")"

theorem toList_comparisonCode (compares : op ∈ comparisons) (spelling : Spelling) {literal : String}
    (spelled : literal.toList = spelling.text) :
    (comparisonCode client table column op literal).toList = client.toList ++ SpelledCall.charsOf
      [fromCall table, plainSelect, comparisonCall compares column spelling] := by
  simp [comparisonCode, SpelledCall.charsOf, SpelledCall.chars, SpelledCall.inner, fromCall, plainSelect,
    comparisonCall, Spelling.ofLiteral, literalChars, Chain.literal, listed, spelled]

theorem read_comparison (name : IsClient client) (free : client ∉ ["auth", "storage"])
    (compares : op ∈ comparisons) (spelling : Spelling) (deep : spelling.depth < options.maxDepth)
    {literal : String} (spelled : literal.toList = spelling.text)
    (small : (comparisonCode client table column op literal).utf8ByteSize ≤ options.maxInputLength) :
    read options (comparisonCode client table column op literal) =
      .ok (.query { query := comparing table column op (Value.ofJson spelling.value) }) := by
  have found := @SpelledCall.segments_charsOf options.maxDepth (fromCall table)
    [plainSelect, comparisonCall compares column spelling] client name (by
      intro call member
      simp only [List.mem_cons, List.not_mem_nil, or_false] at member
      rcases member with rfl | rfl | rfl
      · exact Nat.zero_lt_of_lt deep
      · exact Nat.zero_lt_of_lt deep
      · exact Nat.max_lt.mpr ⟨Nat.zero_lt_of_lt deep, Nat.max_lt.mpr ⟨deep, Nat.zero_lt_of_lt deep⟩⟩)
  have selected := @applySegment_select options table
  have compared := @applySegment_comparison options column op compares spelling.value
    { query := { table, operation := .select, columns := [.star] } } rfl
  rw [read, Options.checkSize_ok small, ok_bind, toList_comparisonCode compares spelling spelled]
  have root : SpelledCall.segment (fromCall table) = .call "from" [.string table] := rfl
  have start : SpelledCall.segment plainSelect = .call "select" [] := rfl
  have last : SpelledCall.segment (comparisonCall compares column spelling) =
      .call op.tag [.string column, spelling.value] := rfl
  simp only [found, ok_bind, List.map_cons, List.map_nil, root, start, last, splitRoot_client free, foldChain_table,
    List.foldlM_cons, List.foldlM_nil, selected, compared]
  rfl

theorem toJson_number (text : String) : (Value.number text).toJson = numberValue text.toList := by
  rw [toJson, numberValue]
  cases Json.Number.ofText? text.toList with
  | none => simp
  | some number => rfl

theorem held_eq (text : String) : Value.ofJson (numberValue text.toList) = (Value.number text).held := by
  rw [held, toJson_number]

/-- The literal of a string is a spelling of it. -/
theorem exists_spelling_string {text : String} (shown : value.toJson = .string text) :
    ∃ spelling : Spelling, (literal value.toJson).toList = spelling.text ∧ spelling.depth = 0 ∧
      Value.ofJson spelling.value = value.held.held := by
  refine ⟨.ofLiteral (.string text) (stable_string text), ?_, rfl, ?_⟩
  · rw [Spelling.text_ofLiteral, shown, literalChars]
  · rw [held, held, shown]
    rfl

/-- The literal of a number is a numeral, or a string where JSON has no number. -/
theorem exists_spelling (spells : value.Spells numeral) :
    ∃ spelling : Spelling, (literal value.toJson).toList = spelling.text ∧ spelling.depth = 0 ∧
      Value.ofJson spelling.value = value.held.held := by
  cases spells with
  | string numeric => exact exists_spelling_string rfl
  | number written =>
      cases read : Json.Number.ofText? numeral.toList with
      | none =>
          have shown : (Value.number numeral).toJson = .string numeral := by rw [toJson, read]
          exact exists_spelling_string shown
      | some number =>
          have shown : (Value.number numeral).toJson = .number number := by rw [toJson, read]
          have once : (Value.number numeral).held = .number number.text := by rw [held, shown, ofJson]
          have digits : number.text.toList = number.chars := String.toList_ofList
          refine ⟨.ofNumeral number.chars (isNumeral_jsonNumber number), ?_, rfl, ?_⟩
          · rw [shown]
            exact digits
          · rw [once, ← held_eq, digits]
            rfl

theorem write_comparison (compares : op ∈ comparisons) (value : Value) :
    write client (comparing table column op value) =
      .ok { code := comparisonCode client table column op (literal value.toJson), warnings := [] } := by
  have called : filterCallOf column { column, op, value } =
      .ok { method := op.tag, arguments := [stringLiteral column, literal value.toJson] } := by
    have method := method_comparison compares
    have said : methodValue { column, op, value } = literal value.toJson := by
      simp only [comparisons, List.mem_cons, List.not_mem_nil, or_false] at compares
      rcases compares with rfl | rfl | rfl | rfl | rfl | rfl <;> cases value <;> rfl
    have plain : op.searchesText = false := plain_of_method method
    rw [filterCallOf, filterCall, if_neg (by simp), if_neg (by simp [plain]), method]
    simp only [said]
  have selects : selectCall (comparing table column op value) = { method := "select" } := rfl
  have text : client ++ String.join ([{ method := "from", arguments := [stringLiteral table] }, { method := "select" },
      { method := op.tag, arguments := [stringLiteral column, literal value.toJson] } ].map MethodCall.text) =
      comparisonCode client table column op (literal value.toJson) := by
    rw [← String.toList_inj]
    simp [MethodCall.text, comparisonCode]
  rw [← text, ← selects]
  unfold write
  simp [operationCalls, comparing, called, Embed.paths, mutationCalls, pagingCalls, embedLimitCalls, singleCalls,
    String.append_assoc]

end QueryNotation.Chain
