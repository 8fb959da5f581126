import QueryNotation.Proofs.Chain.Comparison
import QueryNotation.Proofs.Rest.Comparison
import QueryNotation.Proofs.Sql.Comparison
import QueryNotation.Proofs.Sql.Deletion

namespace QueryNotation

/-! # Numbers across notations

A statement and a request say a number with the digits that it has.  A chain says it as JSON does,
so with a chain at either end of a conversion the digits are those that JSON shows.
-/

open Sql (readText)

variable {options : Options} {source target : Form} {table column text numeral : String} {op : Operator}
  {value : Value} {parsed : Parsed}

def comparisonText (options : Options) (form : Form) (table column : String) (op : Operator)
    (spelled : String) : String :=
  match form with
  | .sql => Sql.comparisonText table column op spelled
  | .rest => Rest.comparisonText table column op spelled
  | .chain => Chain.comparisonCode options.clientName table column op spelled

/-- A comparison that every notation has: the names stand bare in a statement and begin nothing
else there, and no service has the name of the client. -/
structure IsComparable (options : Options) (table column : String) (op : Operator) : Prop where
  client : Chain.IsClient options.clientName
  apart : options.clientName ∉ ["auth", "storage"]
  deep : 5 ≤ options.maxDepth
  named : Sql.Grammar.IsFree Sql.Grammar.tableWords table
  plain : table ≠ "rpc"
  held : Sql.Grammar.IsFree Sql.Grammar.formWords column
  compares : op ∈ comparisons

/-- What is read where a value is compared: the numeral of a statement, the token of a request, and
the argument of a chain in any spelling. -/
inductive Denotes : Form → String → Value → Prop
  | statement {spelled : String} (numeral : IsNumeral spelled.toList) : Denotes .sql spelled (.number spelled)
  | request (spelled : String) : Denotes .rest spelled (.ofToken spelled)
  | chain {spelled : String} (spelling : Chain.Spelling) (flat : spelling.depth = 0)
    (same : spelled.toList = spelling.text) : Denotes .chain spelled (.ofJson spelling.value)

section Comparison

variable (comparable : IsComparable options table column op) {spelled : String} (denotes : Denotes source spelled value)
  (small : (comparisonText options source table column op spelled).utf8ByteSize ≤ options.maxInputLength)

include comparable denotes small

theorem readText_comparison : readText options source (comparisonText options source table column op spelled) =
    .ok { query := comparing table column op value } := by
  cases denotes with
  | statement numeral =>
      rw [readText, comparisonText]
      exact Sql.read_comparison comparable.deep comparable.named comparable.held comparable.compares numeral small
  | request spelled =>
      rw [readText, comparisonText]
      exact Rest.read_comparison comparable.named.bare comparable.held.bare comparable.plain comparable.compares small
  | chain spelling flat same =>
      have deep : spelling.depth < options.maxDepth := by
        have deep := comparable.deep
        omega
      have read := Chain.read_comparison comparable.client comparable.apart comparable.compares spelling deep same small
      unfold readText comparisonText Chain.readQuery
      simp only [read, ok_bind]
      rfl

/-- A conversion writes the query that is read; a chain that compares calls no service. -/
theorem convert_comparison : convert options source target (comparisonText options source table column op spelled) =
    Conversion.ofParsed options target { query := comparing table column op value } := by
  have read := readText_comparison comparable denotes small
  cases denotes with
  | statement numeral =>
      unfold readText at read
      unfold convert
      simp only [read, ok_bind]
  | request spelled =>
      unfold readText at read
      unfold convert Conversion.ofRequest
      obtain ⟨request, sent, read⟩ := ok_of_bind read
      simp only [sent, read, ok_bind]
  | chain spelling flat same =>
      have deep : spelling.depth < options.maxDepth := by
        have deep := comparable.deep
        omega
      have query : Chain.read options (comparisonText options .chain table column op spelled) = _ :=
        Chain.read_comparison comparable.client comparable.apart comparable.compares spelling deep same small
      unfold readText at read
      unfold convert
      simp only [read, query, ok_bind]
      exact ite_self _

end Comparison

def spelling (target : Form) (value : Value) : String :=
  match target with
  | .sql | .rest => value.bareText
  | .chain => Chain.literal value.toJson

theorem ofParsed_comparing (comparable : IsComparable options table column op) (spells : value.Spells numeral) :
    ∃ result, Conversion.ofParsed options target { query := comparing table column op value } = .ok result ∧
      result.output = comparisonText options target table column op (spelling target value) := by
  have named : Text.allBlank table.toList = false := by
    obtain ⟨first, rest, shape⟩ := List.exists_cons_of_ne_nil comparable.named.bare.isName.ne_nil
    have inside : first ∈ table.toList := by simp [shape]
    exact Text.allBlank_false inside (Text.isBlank_nameChar (comparable.named.bare.isName.plain first inside))
  have valid := @validate_comparing table column op value named
  unfold Conversion.ofParsed
  simp only [valid, ok_bind]
  cases target with
  | sql =>
      have written := @Sql.write_comparison (.ofOptions options) _ _ _ _ _ comparable.named.bare comparable.held.bare
        comparable.compares spells
      simp only [Conversion.toSql, written, ok_bind]
      refine ⟨_, rfl, ?_⟩
      unfold comparisonText spelling
      rw [spells.bareText]
  | rest => exact ⟨_, rfl, Rest.text_comparison comparable.compares value⟩
  | chain =>
      have written := @Chain.write_comparison options.clientName table column op comparable.compares value
      simp only [Conversion.toChain, written, ok_bind]
      exact ⟨_, rfl, rfl⟩

def heard (source : Form) (numeral : String) : Value :=
  match source with
  | .sql | .rest => .number numeral
  | .chain => (Value.number numeral).held

def kept (target : Form) (value : Value) : Value :=
  match target with
  | .sql => .number value.bareText
  | .rest => .ofToken value.bareText
  | .chain => value.held.held

theorem denotes_heard (numeric : isNumeric numeral = true) (source : Form) :
    Denotes source numeral (heard source numeral) := by
  have number := isNumeral_of_isNumeric numeric
  cases source with
  | sql => exact .statement number
  | rest =>
      -- The token of a numeral might have been one of a keyword or a list.
      unfold heard
      rw [← Value.ofToken_number numeric]
      exact .request numeral
  | chain =>
      unfold heard
      rw [← Chain.held_eq]
      exact .chain (.ofNumeral numeral.toList number) rfl rfl

theorem denotes_kept (spells : value.Spells numeral) (target : Form) :
    Denotes target (spelling target value) (kept target value) := by
  cases target with
  | sql =>
      refine .statement ?_
      rw [spelling, spells.bareText]
      exact spells.numeral
  | rest => exact .request _
  | chain =>
      obtain ⟨spelling, same, flat, held⟩ := Chain.exists_spelling spells
      unfold kept
      rw [← held]
      exact .chain spelling flat same

theorem spells_heard (source : Form) (numeric : isNumeric numeral = true) :
    ∃ shown, (heard source numeral).Spells shown := by
  have number : (Value.number numeral).Spells numeral := .number (isNumeral_of_isNumeric numeric)
  cases source with
  | sql => exact ⟨numeral, number⟩
  | rest => exact ⟨numeral, number⟩
  | chain => exact Value.spells_held numeric

def carried (source target : Form) (numeral : String) : Value :=
  kept target (heard source numeral)

/-- Between statements and requests every digit is kept. -/
theorem carried_apart (numeric : isNumeric numeral = true) (first : source ≠ .chain) (second : target ≠ .chain) :
    carried source target numeral = .number numeral := by
  have heard : heard source numeral = .number numeral := by
    cases source with
    | chain => exact absurd rfl first
    | _ => rfl
  rw [carried, heard]
  cases target with
  | sql => rfl
  | rest => exact Value.ofToken_number numeric
  | chain => exact absurd rfl second

/-- With a chain at either end, the digits are those that JSON shows. -/
theorem carried_shown {shown : String} (once : (Value.number numeral).held = .number shown)
    (again : (Value.number shown).held = .number shown) (numeric : isNumeric shown = true)
    (chain : source = .chain ∨ target = .chain) : carried source target numeral = .number shown := by
  have settled : kept target (.number shown) = .number shown := by
    cases target with
    | sql => rfl
    | rest => exact Value.ofToken_number numeric
    | chain => rw [kept, again, again]
  unfold carried
  cases source with
  | chain => rw [heard, once, settled]
  | sql =>
      obtain rfl := chain.resolve_left (by decide)
      rw [heard, kept, once, again]
  | rest =>
      obtain rfl := chain.resolve_left (by decide)
      rw [heard, kept, once, again]

/-- A comparison with a decimal number is converted from every notation into every other, and what
is written is read as the same comparison with the value that the number ends up as.  Every digit is
kept between statements and requests, and a chain keeps the digits that JSON shows: all of them for
whole numbers of 64 bits. -/
theorem convert_number (comparable : IsComparable options table column op) (numeric : isNumeric numeral = true)
    (source target : Form)
    (small : (comparisonText options source table column op numeral).utf8ByteSize ≤ options.maxInputLength) :
    ∃ result,
      convert options source target (comparisonText options source table column op numeral) = .ok result ∧
      (result.output.utf8ByteSize ≤ options.maxInputLength →
        readText options target result.output =
          .ok { query := comparing table column op (carried source target numeral) }) ∧
      (source ≠ .chain → target ≠ .chain → carried source target numeral = .number numeral) ∧
      (∀ shown, (Value.number numeral).held = .number shown → (Value.number shown).held = .number shown →
        isNumeric shown = true → source = .chain ∨ target = .chain →
        carried source target numeral = .number shown) ∧
      ∀ count : Int, -2 ^ 63 ≤ count → count < 2 ^ 64 → numeral = toString count →
        carried source target numeral = .number numeral := by
  obtain ⟨shown, spells⟩ := spells_heard source numeric
  obtain ⟨result, written, output⟩ := @ofParsed_comparing options target _ _ _ _ _ comparable spells
  refine ⟨result, ?_, ?_, carried_apart numeric, fun shown once again => carried_shown once again, ?_⟩
  · rw [convert_comparison comparable (denotes_heard numeric source) small, written]
  · intro room
    rw [output] at room ⊢
    exact readText_comparison comparable (denotes_kept spells target) room
  · rintro count low high rfl
    have held := Value.held_whole low high
    by_cases chain : source = .chain ∨ target = .chain
    · exact carried_shown held held numeric chain
    · rw [not_or] at chain
      exact carried_apart numeric chain.1 chain.2

theorem convert_number_least :
    IsComparable {} "t" "a" .gte ∧ isNumeric "-9223372036854775808" = true ∧
      ∃ result,
        convert {} .sql .chain "SELECT * FROM t WHERE a >= -9223372036854775808" = .ok result ∧
        result.output = "supabase.from('t').select().gte('a', -9223372036854775808)" ∧
        readText {} .chain result.output =
          .ok { query := comparing "t" "a" .gte (.number "-9223372036854775808") } := by
  have comparable : IsComparable {} "t" "a" .gte :=
    { client := ⟨by decide, by decide⟩, apart := by decide, deep := by decide, named := by decide +kernel,
      plain := by decide, held := by decide +kernel, compares := by decide }
  have numeric : isNumeric "-9223372036854775808" = true := by decide +kernel
  have text : comparisonText {} .sql "t" "a" .gte "-9223372036854775808" =
      "SELECT * FROM t WHERE a >= -9223372036854775808" := by decide +kernel
  have output : (convert {} .sql .chain "SELECT * FROM t WHERE a >= -9223372036854775808").map Conversion.output =
      .ok "supabase.from('t').select().gte('a', -9223372036854775808)" := by decide +kernel
  obtain ⟨result, converted, back, _, _, whole⟩ :=
    convert_number comparable numeric .sql .chain (by decide +kernel)
  rw [text] at converted
  rw [converted] at output
  have shown : result.output = "supabase.from('t').select().gte('a', -9223372036854775808)" :=
    Except.ok.inj output
  have kept := whole (-9223372036854775808) (by decide) (by decide) (by decide +kernel)
  refine ⟨comparable, numeric, result, converted, shown, ?_⟩
  rw [back (by rw [shown]; decide +kernel), kept]

/-- The rational number that decimal text stands for. -/
def decimalValue (text : String) : ℚ :=
  let digits := text.toList.filter (· != '-')
  let places := ((digits.dropWhile (· != '.')).drop 1).length
  let magnitude : ℚ := Text.digitsValue 0 (digits.filter Char.isDigit) / 10 ^ places
  if text.toList.head? = some '-' then -magnitude else magnitude

/-- A chain shows the nearest number of 64 bits, so a number that is none of these is another one
there. -/
theorem number_rounded :
    isNumeric "0.10000000000000000001" = true ∧
      comparisonText {} .sql "t" "a" .eq "0.10000000000000000001" =
        "SELECT * FROM t WHERE a = 0.10000000000000000001" ∧
      (convert {} .sql .chain "SELECT * FROM t WHERE a = 0.10000000000000000001").map Conversion.output =
        .ok "supabase.from('t').select().eq('a', 0.1)" ∧
      (readText {} .chain "supabase.from('t').select().eq('a', 0.1)").map
        (fun parsed => parsed.query.filters.map Filter.value) = .ok [.number "0.1"] ∧
      decimalValue "0.1" ≠ decimalValue "0.10000000000000000001" :=
  ⟨by decide +kernel, by decide +kernel, by decide +kernel, by decide +kernel, by decide +kernel⟩

end QueryNotation
