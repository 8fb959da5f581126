import Mathlib.Tactic.IntervalCases
import QueryNotation.Proofs.Chain.Literal
import QueryNotation.Proofs.Comparison
import QueryNotation.Proofs.Sql.Identifier
import QueryNotation.Proofs.Sql.Tree
import QueryNotation.Sql.Token.Scan

namespace QueryNotation.Sql

/-! # The tokens of a text

Words, symbols and numerals with spaces between them are the tokens of their text.

A text is scanned with as many rounds as it has characters.  More rounds find nothing else, so that
what is left behind a token may be scanned on its own.
-/

open Text

variable {bound : Nat} {c : Char} {text rest after name : List Char} {token : Token} {tokens : List Token}

theorem scanUpTo?_mono {more : Nat} (found : Token.scanUpTo? bound text = some tokens) (least : bound ≤ more) :
    Token.scanUpTo? more text = some tokens := by
  fun_induction Token.scanUpTo? bound text generalizing tokens more with
  | case1 bound => cases more <;> exact found
  | case2 text full => cases found
  | case3 bound rest induction =>
      obtain ⟨more, rfl⟩ : ∃ others, more = others + 1 := ⟨more - 1, by omega⟩
      rw [Token.scanUpTo?]
      exact induction found (Nat.le_of_succ_le_succ least)
  | case4 bound rest induction =>
      obtain ⟨more, rfl⟩ : ∃ others, more = others + 1 := ⟨more - 1, by omega⟩
      obtain ⟨behind, skipped, found⟩ := Option.bind_eq_some_iff.mp found
      rw [Token.scanUpTo?, skipped]
      exact induction behind found (Nat.le_of_succ_le_succ least)
  | case5 bound c rest dash slash blank induction =>
      obtain ⟨more, rfl⟩ : ∃ others, more = others + 1 := ⟨more - 1, by omega⟩
      rw [Token.scanUpTo?.eq_5 _ _ _ dash slash, if_pos blank]
      exact induction found (Nat.le_of_succ_le_succ least)
  | case6 bound c rest dash slash solid induction =>
      obtain ⟨more, rfl⟩ : ∃ others, more = others + 1 := ⟨more - 1, by omega⟩
      obtain ⟨⟨token, after⟩, read, found⟩ := Option.bind_eq_some_iff.mp found
      obtain ⟨others, behind, same⟩ := Option.bind_eq_some_iff.mp found
      have rest := induction after behind (Nat.le_of_succ_le_succ least)
      rw [Token.scanUpTo?.eq_5 _ _ _ dash slash, if_neg solid, read]
      simp only [Option.bind_eq_bind, Option.bind_some, rest]
      exact same

theorem scan?_nil : Token.scan? [] = some [] :=
  rfl

theorem scan?_space (rest : List Char) : Token.scan? (' ' :: rest) = Token.scan? rest := by
  rw [Token.scan?, List.length_cons, Token.scanUpTo?]
  · exact if_pos (by decide)
  · exact fun _ same _ => absurd same (by decide)
  · exact fun _ same _ => absurd same (by decide)

/-- A token that opens no comment is taken whole. -/
theorem scan?_token (solid : isBlank c = false) (dash : c = '-' → rest.head? ≠ some '-') (slash : c ≠ '/')
    (read : Token.read? (c :: rest) = some (token, after)) (shorter : after.length ≤ rest.length)
    (behind : Token.scan? after = some tokens) : Token.scan? (c :: rest) = some (token :: tokens) := by
  have found : Token.scanUpTo? rest.length after = some tokens := scanUpTo?_mono behind shorter
  rw [Token.scan?, List.length_cons, Token.scanUpTo?]
  · rw [if_neg (by simp [solid]), read]
    simp only [Option.bind_eq_bind, Option.bind_some, found]
    rfl
  · rintro more same rfl
    exact dash same rfl
  · exact fun _ same _ => slash same

/-- A word that stands bare: no character of it is a blank or a mark. -/
structure IsBareWord (name : List Char) : Prop where
  first : ∃ c rest, name = c :: rest ∧ isNameStart c = true
  parts : ∀ c ∈ name, isNamePart c = true ∧ isBlank c = false

instance (name : List Char) : Decidable (IsBareWord name) :=
  decidable_of_iff (name.head?.any isNameStart = true ∧ ∀ c ∈ name, isNamePart c = true ∧ isBlank c = false) <| by
    refine ⟨fun ⟨first, parts⟩ => ⟨?_, parts⟩, fun word => ⟨?_, word.parts⟩⟩
    · cases name with
      | nil => cases first
      | cons c rest => exact ⟨c, rest, rfl, first⟩
    · obtain ⟨c, rest, rfl, start⟩ := word.first
      exact start

/-- What a word ends in front of: neither more of it nor a mark that makes a string of it. -/
def EndsName (text : List Char) : Prop :=
  ∀ c ∈ text.head?, isNamePart c = false ∧ c ≠ '\'' ∧ c ≠ '&'

theorem EndsName.space (rest : List Char) : EndsName (' ' :: rest) := by
  intro c first
  obtain rfl := Option.some.inj first
  decide

theorem isNameStart_apart (start : isNameStart c = true) :
    c ∉ ['\'', '"', '$', '-', '/'] ∧ c.isDigit = false := by
  have apart : ∀ mark ∈ ['\'', '"', '$', '-', '/'], isNameStart mark = false := by decide
  refine ⟨fun member => ?_, ?_⟩
  · rw [apart c member] at start
    cases start
  · cases digit : c.isDigit with
    | false => rfl
    | true =>
        simp only [isNameStart, Bool.or_eq_true, isAlpha_iff, isUpper_iff, isLower_iff, beq_iff_eq,
          decide_eq_true_eq] at start
        rw [isDigit_iff] at digit
        rcases start with ((upper | lower) | rfl) | large
        · omega
        · omega
        · exact absurd digit (by decide)
        · omega

theorem readLetteredString?_none (mark : ∀ c ∈ text.head?, c ≠ '\'' ∧ c ≠ '&') (letter : Char) :
    readLetteredString? letter text = none := by
  unfold readLetteredString?
  split
  · exact absurd rfl (mark '\'' rfl).1
  · exact absurd rfl (mark '&' rfl).2
  · rfl

theorem read?_word (word : IsBareWord name) (ends : EndsName rest) :
    Token.read? (name ++ rest) = some (.word (String.ofList name) false, rest) := by
  obtain ⟨⟨c, more, rfl, start⟩, parts⟩ := word
  obtain ⟨apart, digit⟩ := isNameStart_apart start
  simp only [List.mem_cons, List.not_mem_nil, or_false, not_or] at apart
  have plain : ∀ d ∈ more, isNamePart d = true := fun d member => (parts d (by simp [member])).1
  have mark : ∀ d ∈ (more ++ rest).head?, d ≠ '\'' ∧ d ≠ '&' := by
    intro d first
    cases more with
    | nil => exact (ends d first).2
    | cons e others =>
        obtain rfl := Option.some.inj first
        have part := plain e (by simp)
        refine ⟨?_, ?_⟩ <;> rintro rfl <;> exact absurd part (by decide)
  have stop : ∀ d ∈ rest.head?, isNamePart d = false := fun d first => (ends d first).1
  have taken := takeWhile_append_stop plain stop
  have left := dropWhile_append_stop plain stop
  rw [List.cons_append, Token.read?, if_neg apart.1, if_neg apart.2.1, if_neg apart.2.2.1,
    if_neg (by simp [digit]), if_pos start, readLetteredString?_none mark]
  · simp only [taken, left]
  · rintro _ _ rfl _
    exact absurd start (by decide)

theorem scan?_word (word : IsBareWord name) (ends : EndsName rest) (behind : Token.scan? rest = some tokens) :
    Token.scan? (name ++ rest) = some (.word (String.ofList name) false :: tokens) := by
  have read := read?_word word ends
  obtain ⟨⟨c, more, rfl, start⟩, parts⟩ := word
  have apart := (isNameStart_apart start).1
  simp only [List.mem_cons, List.not_mem_nil, or_false, not_or] at apart
  exact scan?_token (parts c (by simp)).2 (fun dash => absurd dash apart.2.2.2.1) apart.2.2.2.2 read (by simp) behind

theorem scan?_keyword (word : String) (plain : IsBareWord word.toList) (behind : Token.scan? rest = some tokens) :
    Token.scan? (word.toList ++ ' ' :: rest) = some (.word word false :: tokens) := by
  rw [← scan?_space] at behind
  rw [scan?_word plain (.space rest) behind, String.ofList_toList]

theorem isNamePart_nameChar (plain : isNameChar c = true) : isNamePart c = true := by
  by_cases small : c.toNat < 0x80
  · simp only [isNameChar, isLetterOrNumeral, if_pos small, Char.isAlphanum, Bool.or_eq_true, beq_iff_eq] at plain
    simp only [isNamePart, isNameStart, Bool.or_eq_true, beq_iff_eq]
    tauto
  · have large : 0x80 ≤ c.toNat := by omega
    simp [isNamePart, isNameStart, large]

theorem IsBare.isBareWord {name : String} (bare : IsBare name) : IsBareWord name.toList where
  first := by
    have shape := bare
    unfold IsBare isBareName at shape
    simp only [Bool.and_eq_true] at shape
    obtain ⟨⟨_, plain⟩, first⟩ := shape
    split at first
    · cases first
    · next c rest same =>
      refine ⟨c, rest, same, ?_⟩
      have part := List.all_eq_true.mp plain c (by simp [same])
      by_cases small : c.toNat < 0x80
      · simp only [isNumeral, if_pos small, Bool.not_eq_true'] at first
        simp only [isLetterOrNumeral, if_pos small, Char.isAlphanum, first, Bool.or_false, Bool.or_eq_true] at part
        simp only [isNameStart, Bool.or_eq_true]
        exact .inl part
      · have large : 0x80 ≤ c.toNat := by omega
        simp [isNameStart, large]
  parts c member :=
    have plain := bare.isName.plain c member
    ⟨isNamePart_nameChar plain, isBlank_nameChar plain⟩

theorem takeDigits_append {digits : List Char} (plain : ∀ c ∈ digits, c.isDigit = true)
    (stop : ∀ c ∈ rest.head?, c.isDigit = false ∧ c ≠ '_') : takeDigits (digits ++ rest) = (digits, rest) := by
  induction digits with
  | nil =>
      cases rest with
      | nil => rfl
      | cons c more =>
          obtain ⟨other, score⟩ := stop c rfl
          unfold takeDigits
          simp [other, score]
  | cons c more induction =>
      have others := induction fun d member => plain d (by simp [member])
      rw [List.cons_append]
      unfold takeDigits
      simp only [plain c (by simp), Bool.true_or, if_true, others]

theorem takeExponent_power {power : List Char} (last : IsPower power) : takeExponent power = (power, []) := by
  cases last with
  | none => rfl
  | @letter sign digits signed some =>
      have whole : digits.takeWhile Char.isDigit = digits := List.takeWhile_eq_self_iff.mpr some.2
      obtain ⟨c, more, rfl⟩ := List.exists_cons_of_ne_nil some.1
      have digit := some.2 c (by simp)
      simp only [List.mem_cons, List.not_mem_nil, or_false] at signed
      rcases signed with rfl | rfl | rfl
      · rw [List.nil_append, takeExponent, if_pos (.inl rfl), whole]
        · simp
        · rintro _ same
          rw [(List.cons.inj same).1] at digit
          exact absurd digit (by decide)
        · rintro _ same
          rw [(List.cons.inj same).1] at digit
          exact absurd digit (by decide)
      · rw [List.singleton_append, takeExponent, if_pos (.inl rfl), whole]
        simp
      · rw [List.singleton_append, takeExponent, if_pos (.inl rfl), whole]
        simp

/-- What stands behind the whole digits of a numeral continues neither them nor a base. -/
theorem head_fraction {fraction power : List Char} (behind : IsFraction fraction) (last : IsPower power) :
    ∀ c ∈ (fraction ++ power).head?, c.isDigit = false ∧ c ≠ '_' ∧ c ≠ 'x' := by
  intro c first
  rcases behind.head_append last c first with rfl | rfl <;> decide

theorem readNumber_unsigned (unsigned : IsUnsigned text) :
    readNumber text = (.constant (.number (String.ofList text) false), []) := by
  obtain @⟨whole, fraction, power, some, behind, last⟩ := unsigned
  have stop := head_fraction behind last
  have first := takeDigits_append some.2 fun c member => ⟨(stop c member).1, (stop c member).2.1⟩
  have second {digits : List Char} (plain : ∀ c ∈ digits, c.isDigit = true) :
      takeDigits (digits ++ power) = (digits, power) :=
    takeDigits_append plain fun c member =>
      have stop := head_fraction .none last c member
      ⟨stop.1, stop.2.1⟩
  have exponent := takeExponent_power last
  rw [List.append_assoc]
  unfold readNumber
  simp only [first]
  split
  · next base =>
    rw [base] at stop
    exact absurd rfl (stop 'x' rfl).2.2
  · cases behind with
    | point digits => simp only [List.cons_append, second digits.2, exponent, List.append_assoc, List.nil_append]
    | none =>
        have none := second (List.forall_mem_nil _)
        cases last with
        | none => simp [takeDigits, takeExponent]
        | letter =>
            rw [List.nil_append] at none
            simp [none, exponent]

/-- The tokens of a numeral: a minus sign is one of its own. -/
def numeralTokens (text : String) : List Token :=
  match text.toList with
  | '-' :: digits => [.symbol "-", .constant (.number (String.ofList digits) false)]
  | _ => [.constant (.number text false)]

theorem scan?_unsigned (unsigned : IsUnsigned text) :
    Token.scan? text = some [.constant (.number (String.ofList text) false)] := by
  have solid := fun c member => Chain.isBlank_numberChar (unsigned.chars c member)
  have number := readNumber_unsigned unsigned
  obtain ⟨c, more, rfl, digit⟩ := unsigned.head
  have other : ∀ mark ∈ ['\'', '"', '$', '-', '/'], c ≠ mark := by
    rintro mark member rfl
    revert digit
    simp only [List.mem_cons, List.not_mem_nil, or_false] at member
    rcases member with rfl | rfl | rfl | rfl | rfl <;> decide
  simp only [List.mem_cons, List.not_mem_nil, or_false, forall_eq_or_imp, forall_eq] at other
  have read : Token.read? (c :: more) = some (.constant (.number (String.ofList (c :: more)) false), []) := by
    rw [Token.read?, if_neg other.1, if_neg other.2.1, if_neg other.2.2.1, if_pos digit, number]
    rintro _ _ rfl _
    exact absurd digit (by decide)
  exact scan?_token (solid c (by simp)) (fun dash => absurd dash other.2.2.2.1) other.2.2.2.2 read (Nat.zero_le _)
    scan?_nil

theorem mem_digits (digit : c.isDigit = true) : c ∈ ['0', '1', '2', '3', '4', '5', '6', '7', '8', '9'] := by
  have range := isDigit_iff.mp digit
  have same : c = Char.ofNat c.toNat := (Char.ofNat_toNat c).symm
  rw [same]
  obtain ⟨low, high⟩ := range
  generalize c.toNat = code at low high
  interval_cases code <;> decide

theorem scan?_numeral (numeral : IsNumeral text) :
    Token.scan? text = some (numeralTokens (String.ofList text)) := by
  cases numeral with
  | plain unsigned =>
      rw [scan?_unsigned unsigned]
      obtain ⟨c, more, rfl, digit⟩ := unsigned.head
      unfold numeralTokens
      split
      · next same =>
        rw [String.toList_ofList] at same
        rw [(List.cons.inj same).1] at digit
        exact absurd digit (by decide)
      · rfl
  | @negative digits unsigned =>
      have behind := scan?_unsigned unsigned
      obtain ⟨c, more, rfl, digit⟩ := unsigned.head
      have sign : c ≠ '-' := by
        rintro rfl
        exact absurd digit (by decide)
      have read : Token.read? ('-' :: c :: more) = some (.symbol "-", c :: more) := by
        -- The symbols that begin with a minus sign are told apart by the character behind it.
        have known := mem_digits digit
        simp only [List.mem_cons, List.not_mem_nil, or_false] at known
        rcases known with rfl | rfl | rfl | rfl | rfl | rfl | rfl | rfl | rfl | rfl <;> rfl
      rw [scan?_token (by decide) (fun _ => by simpa using sign) (by decide) read le_rfl behind]
      simp [numeralTokens]

/-- The statement for the rows of a table that meet a condition. -/
def filteredText (table condition : String) : String :=
  "SELECT * FROM " ++ table ++ " WHERE " ++ condition

def filteredTokens (table : String) (condition : List Token) : List Token :=
  .word "SELECT" false :: .symbol "*" :: .word "FROM" false :: .word table false :: .word "WHERE" false :: condition

theorem read?_star (rest : List Char) : Token.read? ('*' :: ' ' :: rest) = some (.symbol "*", ' ' :: rest) :=
  rfl

theorem scan?_filtered {table condition : String} (named : IsBare table)
    (scanned : Token.scan? condition.toList = some tokens) :
    Token.scan? (filteredText table condition).toList = some (filteredTokens table tokens) := by
  have chars : (filteredText table condition).toList = "SELECT".toList ++ ' ' :: '*' :: ' ' ::
      ("FROM".toList ++ ' ' :: (table.toList ++ ' ' :: ("WHERE".toList ++ ' ' :: condition.toList))) := by
    have front : "SELECT * FROM ".toList = "SELECT".toList ++ ' ' :: '*' :: ' ' :: ("FROM".toList ++ [' ']) := by
      decide
    have middle : " WHERE ".toList = ' ' :: ("WHERE".toList ++ [' ']) := by decide
    unfold filteredText
    simp only [String.toList_append, front, middle, List.append_assoc, List.cons_append, List.nil_append]
  have filter := scan?_keyword "WHERE" (by decide) scanned
  have tables := scan?_keyword "FROM" (by decide) (scan?_keyword table named.isBareWord filter)
  rw [← scan?_space] at tables
  rw [chars]
  exact scan?_keyword "SELECT" (by decide) (scan?_token (by decide) (fun same => absurd same (by decide)) (by decide)
    (read?_star _) le_rfl tables)

def comparisonText (table column : String) (op : Operator) (numeral : String) : String :=
  "SELECT * FROM " ++ table ++ " WHERE " ++ column ++ " " ++ op.symbol ++ " " ++ numeral

def conditionTokens (column : String) (op : Operator) (numeral : String) : List Token :=
  .word column false :: .symbol (treeSymbol op) :: numeralTokens numeral

variable {column : String} {op : Operator}

theorem read?_symbol (compares : op ∈ comparisons) (rest : List Char) :
    ∃ c more, op.symbol.toList = c :: more ∧ (isBlank c = false ∧ c ≠ '-' ∧ c ≠ '/') ∧
      Token.read? (c :: (more ++ ' ' :: rest)) = some (.symbol (treeSymbol op), ' ' :: rest) := by
  simp only [comparisons, List.mem_cons, List.not_mem_nil, or_false] at compares
  rcases compares with rfl | rfl | rfl | rfl | rfl | rfl
  · exact ⟨'=', [], by decide, by decide, rfl⟩
  · exact ⟨'!', ['='], by decide, by decide, rfl⟩
  · exact ⟨'>', [], by decide, by decide, rfl⟩
  · exact ⟨'>', ['='], by decide, by decide, rfl⟩
  · exact ⟨'<', [], by decide, by decide, rfl⟩
  · exact ⟨'<', ['='], by decide, by decide, rfl⟩

theorem scan?_symbol (compares : op ∈ comparisons) (behind : Token.scan? rest = some tokens) :
    Token.scan? (op.symbol.toList ++ ' ' :: rest) = some (.symbol (treeSymbol op) :: tokens) := by
  obtain ⟨c, more, shape, ⟨solid, dash, slash⟩, read⟩ := read?_symbol compares rest
  rw [← scan?_space] at behind
  rw [shape, List.cons_append]
  exact scan?_token solid (fun same => absurd same dash) slash read (by simp) behind

theorem comparisonText_eq (table column : String) (op : Operator) (numeral : String) :
    comparisonText table column op numeral = filteredText table (column ++ " " ++ op.symbol ++ " " ++ numeral) := by
  unfold comparisonText filteredText
  simp only [String.append_assoc]

/-- A column, the symbol of a comparison and what stands behind it, with spaces between them. -/
theorem scan?_compared {right : String} (held : IsBare column) (compares : op ∈ comparisons)
    (scanned : Token.scan? right.toList = some tokens) :
    Token.scan? (column ++ " " ++ op.symbol ++ " " ++ right).toList =
      some (.word column false :: .symbol (treeSymbol op) :: tokens) := by
  have space : " ".toList = [' '] := by decide
  simp only [String.toList_append, space, List.append_assoc, List.cons_append, List.nil_append]
  exact scan?_keyword column held.isBareWord (scan?_symbol compares scanned)

end QueryNotation.Sql
