import QueryNotation.Proofs.Chain.Value
import QueryNotation.Proofs.Sql.Deletion
import QueryNotation.Proofs.Sql.Numeral

namespace QueryNotation

/-! # Numbers that readers accept

Numbers are written unquoted, so they are meant to be decimal text.  A request keeps to that.  A
statement does not where its numerals do not, and a chain does not where JSON shows an exponent.
-/

open Sql (readText)

variable {options : Options} {parsed : Parsed}

theorem ofWire_of_readFilter {column text : String} {filter : Filter}
    (read : Rest.readFilter column text = .ok filter) : ∃ op token, filter.value = Value.ofWire op token := by
  unfold Rest.readFilter at read
  dsimp only at read
  split at read
  · cases read
  · split at read
    · cases read
    · split at read
      · cases read
      · split at read
        · cases read
        · obtain rfl := Except.ok.inj read
          exact ⟨_, _, rfl⟩

theorem ofWire_of_filtersFor {bound : Nat} {embeds : List Embed} {destination : Option Embed.Place}
    {pairs : List (String × String)} {filters : List Filter}
    (read : Rest.filtersFor bound embeds destination pairs = .ok filters) :
    ∀ filter ∈ filters, ∃ op token, filter.value = Value.ofWire op token := by
  intro filter member
  obtain ⟨pair, _, read⟩ := ok_of_mapM read filter member
  exact ofWire_of_readFilter read

/-- The numbers of a request are decimal. -/
theorem numeric_of_request {request : RawRequest} (accepted : Rest.read options request = .ok parsed) :
    ∀ number ∈ parsed.query.numbers, isNumeric number = true := by
  obtain ⟨chosen, _, _, all⟩ := Rest.filtersFor_of_read accepted
  intro number member
  obtain ⟨filter, listed, inside⟩ := Query.mem_numbers.mp member
  have wire : ∃ op token, filter.value = Value.ofWire op token := by
    rcases List.mem_append.mp listed with main | embedded
    · exact ofWire_of_filtersFor (all none _ rfl) filter main
    · obtain ⟨place, filters, there, below⟩ := Embed.placed_of_filtersBelow _ filter embedded
      exact ofWire_of_filtersFor (all (some place) filters there) filter below
  obtain ⟨op, token, same⟩ := wire
  rw [same] at inside
  exact Value.numeric_of_mem_numbers (Value.hasNumeric_ofWire op token) number inside

/-- The text of a number that JSON shows with an exponent. -/
def IsScientific (text : String) : Prop :=
  ∃ number : Json.Number, text = number.text ∧ 'e' ∈ text.toList

/-- The numbers of a chain are decimal, or have an exponent. -/
theorem numeric_of_chain {text : String} (accepted : Chain.readQuery options text = .ok parsed) :
    ∀ number ∈ parsed.query.numbers, isNumeric number = true ∨ IsScientific number := by
  intro number member
  obtain ⟨filter, listed, inside⟩ := Query.mem_numbers.mp member
  rcases Chain.hasArguments_readQuery accepted filter listed with ⟨json, same⟩ | ⟨op, token, same⟩
  · rw [same] at inside
    obtain ⟨shown, rfl⟩ := Value.jsonNumber_of_mem json number inside
    exact (isNumeric_jsonNumber shown).imp_right fun exponent => ⟨shown, rfl, exponent⟩
  · rw [same] at inside
    exact .inl (Value.numeric_of_mem_numbers (Value.hasNumeric_ofWire op token) number inside)

/-- The numbers of a statement that are not decimal are the numerals of its condition that are not. -/
theorem numerals_of_statement {text : String} (accepted : Sql.read options text = .ok parsed) :
    ∃ statement, Sql.Statement.ofText options.maxDepth text.toList = .ok [statement] ∧
      ∀ number, isNumeric number = false →
        (number ∈ parsed.query.numbers ↔ number ∈ statement.numerals) := by
  obtain ⟨_, _, accepted⟩ := ok_of_bind accepted
  split at accepted
  · cases accepted
  · cases accepted
  · cases accepted
  · next statement tree =>
    exact ⟨statement, tree, fun number broken => Sql.Statement.numbers_read accepted broken⟩
  · cases accepted

/-- Which numbers an accepted text puts into filters, of the main table and of embeds.  Those of a
request are decimal.  Those of a statement are as decimal as its numerals are, and those of a chain
are decimal unless JSON shows them with an exponent. -/
theorem read_numbers (options : Options) (source : Form) (text : String) (parsed : Parsed)
    (accepted : readText options source text = .ok parsed) :
    (source = .rest → ∀ number ∈ parsed.query.numbers, isNumeric number = true) ∧
      (source = .sql → ∃ statement,
        Sql.Statement.ofText options.maxDepth text.toList = .ok [statement] ∧
          ∀ number, isNumeric number = false →
            (number ∈ parsed.query.numbers ↔ number ∈ statement.numerals)) ∧
      (source = .chain → ∀ number ∈ parsed.query.numbers, isNumeric number = true ∨ IsScientific number) := by
  refine ⟨?_, ?_, ?_⟩
  · rintro rfl
    obtain ⟨request, _, accepted⟩ := ok_of_bind accepted
    exact numeric_of_request accepted
  · rintro rfl
    exact numerals_of_statement accepted
  · rintro rfl
    exact numeric_of_chain accepted

/-- A minus sign is put in front of a numeral that has one already, and exponents are kept. -/
theorem numbers_undecimal :
    (readText {} .sql "SELECT * FROM t WHERE a = - -5").map (·.query.numbers) = .ok ["--5"] ∧
      (readText {} .sql "SELECT * FROM t WHERE a = 1e5").map (·.query.numbers) = .ok ["1e5"] ∧
      (readText {} .chain "db.from('t').select().eq('a', 1e16)").map (·.query.numbers) = .ok ["1e+16"] ∧
      ∀ number ∈ ["--5", "1e5", "1e+16"], isNumeric number = false := by
  refine ⟨?_, ?_, ?_, ?_⟩ <;> decide +kernel

theorem read_numbers_request :
    ∃ parsed, readText {} .rest "GET /t?a=in.(1,-2.5,x)&b.c=eq.3&select=*,b(c)" = .ok parsed ∧
      parsed.query.numbers = ["1", "-2.5", "3"] ∧
      ∀ number ∈ parsed.query.numbers, isNumeric number = true := by
  have reads : (readText {} .rest "GET /t?a=in.(1,-2.5,x)&b.c=eq.3&select=*,b(c)").map
      (·.query.numbers) = .ok ["1", "-2.5", "3"] := by decide +kernel
  obtain ⟨parsed, accepted, numbers⟩ := ok_of_map reads
  exact ⟨parsed, accepted, numbers, (read_numbers {} .rest _ parsed accepted).1 rfl⟩

end QueryNotation
