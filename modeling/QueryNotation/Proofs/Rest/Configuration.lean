import QueryNotation.Proofs.Chain.Tagged
import QueryNotation.Proofs.Rest.Filter

namespace QueryNotation.Rest

/-! # Text-search configurations on the wire

A configuration stands in parentheses behind the tag, in front of the point that ends the operator.
The reader looks for that point before it looks for the parenthesis, so a point in a configuration,
such as the one behind a schema, is taken for it.
-/

open Text Operator Chain

variable {op : Operator} {column text config schema name inner : String} {negated : Bool}

def searchFilter (column : String) (op : Operator) (text config : String) (negated : Bool) : Filter where
  column := column
  op := op
  value := .string text
  negated := negated
  config := some config

theorem wireToken_search (searches : op.searchesText = true) (text : String) :
    Value.wireToken op (.string text) = text := by
  unfold Value.wireToken
  rw [if_pos searches, Value.bareText]

theorem ofWire_search (searches : op.searchesText = true) (text : String) :
    Value.ofWire op text = .string text := by
  unfold Value.ofWire
  rw [if_pos searches]

theorem fitsWire_search (searches : op.searchesText = true) (text : String) :
    Value.FitsWire op (.string text) := by
  unfold Value.FitsWire
  rw [if_pos searches]
  exact ⟨text, rfl⟩

theorem filterText_search (searches : op.searchesText = true) :
    filterText (searchFilter column op text config negated) =
      markedToken negated (op.tag ++ "(" ++ config ++ ")") ++ "." ++ text := by
  have token : Value.wireToken op (.string text) = text := wireToken_search searches text
  cases negated <;> simp [filterText, searchFilter, markedToken, token, String.append_assoc]

/-- A search whose configuration holds no point is read back. -/
theorem readFilter_plain (searches : op.searchesText = true) (plain : '.' ∉ config.toList) :
    readFilter column (filterText (searchFilter column op text config negated)) =
      .ok (searchFilter column op text config negated) := by
  have fits : FitsFilter (searchFilter column op text config negated) := by
    refine ⟨rfl, fitsWire_search searches text, fun found same => ?_⟩
    obtain rfl := Option.some.inj same
    exact ⟨searches, plain⟩
  exact readFilter_filterText fits

/-- What the reader takes for the operator: the tag and the configuration up to its first point. -/
def cutTag (op : Operator) (schema : String) : String :=
  op.tag ++ "(" ++ schema

theorem toList_cutTag (op : Operator) (schema : String) :
    (cutTag op schema).toList = op.tag.toList ++ '(' :: schema.toList := by
  simp [cutTag]

theorem point_cutTag (plain : '.' ∉ schema.toList) : '.' ∉ (cutTag op schema).toList := by
  intro member
  rw [toList_cutTag, List.mem_append, List.mem_cons] at member
  obtain tag | paren | inside := member
  · exact (tag_plain op _ tag).1 rfl
  · exact absurd paren (by decide)
  · exact plain inside

theorem markedToken_cutTag : markedToken negated (cutTag op schema) ≠ "not" := by
  intro same
  have paren : '(' ∈ (markedToken negated (cutTag op schema)).toList := by
    cases negated <;> simp [markedToken, toList_cutTag]
  rw [same] at paren
  exact absurd paren (by decide)

theorem splitConfig_cutTag (op : Operator) (schema : String) :
    splitConfig (cutTag op schema).toList =
      (dropTail? [')'] schema.toList).map fun inner => (op.tag.toList, some inner) := by
  have absent : '(' ∉ op.tag.toList := fun member => (tag_plain op _ member).2 rfl
  rw [splitConfig, toList_cutTag, cutFirst_append absent]
  cases closed : dropTail? [')'] schema.toList <;> simp only [closed, Option.map]

/-- The rest of the configuration goes to the value. -/
theorem filterText_pointed (searches : op.searchesText = true) :
    filterText (searchFilter column op text (schema ++ "." ++ name) negated) =
      markedToken negated (cutTag op schema) ++ "." ++ (name ++ ")." ++ text) := by
  rw [filterText_search searches]
  cases negated <;> simp [markedToken, cutTag, String.append_assoc]

/-- Unless a parenthesis is closed in front of the point, the configuration is taken for open. -/
theorem readFilter_pointed (searches : op.searchesText = true) (plain : '.' ∉ schema.toList)
    (stays : ∀ inner, schema ≠ inner ++ ")") :
    readFilter column (filterText (searchFilter column op text (schema ++ "." ++ name) negated)) =
      .error (.openConfig column
        (filterText (searchFilter column op text (schema ++ "." ++ name) negated))) := by
  have opened : dropTail? [')'] schema.toList = none := by
    rw [Option.eq_none_iff_forall_not_mem]
    intro inner found
    apply stays (String.ofList inner)
    apply String.toList_injective
    simpa using eq_of_dropTail? found
  rw [filterText_pointed searches,
    readFilter_tokenText column _ (point_cutTag plain) markedToken_cutTag, splitConfig_cutTag, opened]
  rfl

/-- A parenthesis closed in front of the point ends the configuration there. -/
theorem readFilter_closed (searches : op.searchesText = true) (plain : '.' ∉ inner.toList) :
    readFilter column (filterText (searchFilter column op text (inner ++ ")" ++ "." ++ name) negated)) =
      .ok (searchFilter column op (name ++ ")." ++ text) inner negated) := by
  have point : '.' ∉ (inner ++ ")").toList := by simp [plain]
  have closed : dropTail? [')'] (inner ++ ")").toList = some inner.toList := by
    rw [String.toList_append]
    exact dropTail?_append inner.toList [')']
  rw [filterText_pointed searches,
    readFilter_tokenText column _ (point_cutTag point) markedToken_cutTag, splitConfig_cutTag, closed]
  simp [ofTag?_tag, searches, tokenFilter, searchFilter, ofWire_search searches]

theorem exists_point (member : '.' ∈ config.toList) :
    ∃ schema name, config = schema ++ "." ++ name ∧ '.' ∉ schema.toList := by
  obtain ⟨before, after, shape, plain⟩ := List.eq_append_cons_of_mem member
  refine ⟨String.ofList before, String.ofList after, ?_, by simpa using plain⟩
  apply String.toList_injective
  simp [shape]

/-- A text search comes back from its parameter exactly if its configuration holds no point.  With
one, it is refused as open, or, where a parenthesis is closed right in front of the first point,
read with what stands before it as the configuration and with the rest in front of the value. -/
theorem readFilter_configuration (searches : op.searchesText = true)
    (column text config : String) (negated : Bool) :
    (readFilter column (filterText (searchFilter column op text config negated)) =
        .ok (searchFilter column op text config negated) ↔ '.' ∉ config.toList) ∧
      (∀ schema name, config = schema ++ "." ++ name → '.' ∉ schema.toList →
        (∀ inner, schema ≠ inner ++ ")") →
        readFilter column (filterText (searchFilter column op text config negated)) =
          .error (.openConfig column (filterText (searchFilter column op text config negated)))) ∧
      ∀ inner name, config = inner ++ ")" ++ "." ++ name → '.' ∉ inner.toList →
        readFilter column (filterText (searchFilter column op text config negated)) =
          .ok (searchFilter column op (name ++ ")." ++ text) inner negated) := by
  refine ⟨⟨fun kept member => ?_, readFilter_plain searches⟩, ?_, ?_⟩
  · obtain ⟨schema, name, rfl, plain⟩ := exists_point member
    by_cases closed : ∃ inner, schema = inner ++ ")"
    · obtain ⟨inner, rfl⟩ := closed
      have before : '.' ∉ inner.toList := fun inside => plain (by simp [inside])
      have moved := (readFilter_closed searches before).symm.trans kept
      have lengths := congrArg String.length
        (Option.some.inj (congrArg Filter.config (Except.ok.inj moved)))
      simp only [String.length_append] at lengths
      have point : ".".length = 1 := rfl
      omega
    · rw [readFilter_pointed searches plain (not_exists.mp closed)] at kept
      cases kept
  · rintro schema name rfl plain stays
    exact readFilter_pointed searches plain stays
  · rintro inner name rfl plain
    exact readFilter_closed searches plain

/-- The point behind a schema is taken for the one behind the operator; behind a parenthesis, it
moves a part of the name to the value. -/
theorem schema_refused :
    filterText (searchFilter "body" .fullText "cat" "pg_catalog.english" false) =
        "fts(pg_catalog.english).cat" ∧
      readFilter "body" "fts(pg_catalog.english).cat" =
        .error (.openConfig "body" "fts(pg_catalog.english).cat") ∧
      readFilter "body" (filterText (searchFilter "body" .fullText "cat" "a).b" true)) =
        .ok (searchFilter "body" .fullText "b).cat" "a" true) :=
  ⟨rfl, rfl, rfl⟩

/-- Parentheses and points in the value, and an open parenthesis in the configuration, are kept. -/
theorem readFilter_configuration_open :
    Operator.webText.searchesText = true ∧
      readFilter "body" "not.wfts(english(uk).3.5 (x)" =
        .ok (searchFilter "body" .webText "3.5 (x)" "english(uk" true) := by
  have searches : Operator.webText.searchesText = true := rfl
  have plain : '.' ∉ "english(uk".toList := by decide
  obtain ⟨kept, -⟩ := readFilter_configuration searches "body" "3.5 (x)" "english(uk" true
  exact ⟨searches, kept.mpr plain⟩

end QueryNotation.Rest
