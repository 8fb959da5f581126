import QueryNotation.Proofs.Comparison
import QueryNotation.Proofs.Rest.Settled
import QueryNotation.Proofs.Rest.Text

namespace QueryNotation.Rest

/-! # Requests that compare

A request that compares a column with a numeral is read as the query that does, and is written
for it.
-/

open Value Text

variable {options : Options} {table column numeral : String} {op : Operator} {value : Value} {bound : Nat}

def comparisonText (table column : String) (op : Operator) (numeral : String) : String :=
  "GET /" ++ String.ofList (percentEncode isEscapedInPath table.toList) ++ "?" ++
    QueryString.encode [(column, op.tag ++ "." ++ numeral)]

theorem wireToken_comparison (compares : op ∈ comparisons) (value : Value) :
    wireToken op value = value.bareText := by
  simp only [comparisons, List.mem_cons, List.not_mem_nil, or_false] at compares
  rcases compares with rfl | rfl | rfl | rfl | rfl | rfl <;> rfl

theorem ofWire_comparison (compares : op ∈ comparisons) (token : String) : ofWire op token = ofToken token := by
  simp only [comparisons, List.mem_cons, List.not_mem_nil, or_false] at compares
  rcases compares with rfl | rfl | rfl | rfl | rfl | rfl <;> rfl

theorem params_comparison (compares : op ∈ comparisons) (value : Value) :
    params (comparing table column op value) = [(column, op.tag ++ "." ++ value.bareText)] := by
  have unsent : sendsSelect (comparing table column op value) = false := rfl
  have text : filterText { column, op, value } = op.tag ++ "." ++ value.bareText := by
    unfold filterText
    simp [wireToken_comparison compares]
  unfold params
  rw [unsent, ← text]
  rfl

theorem text_comparison (compares : op ∈ comparisons) (value : Value) :
    (write (comparing table column op value)).request.text = comparisonText table column op value.bareText := by
  have url : (write (comparing table column op value)).request.url =
      "/" ++ String.ofList (percentEncode isEscapedInPath table.toList) ++ "?" ++
        QueryString.encode (params (comparing table column op value)) := rfl
  have lead : "GET /" = "GET" ++ " " ++ "/" := by decide
  have word : (write (comparing table column op value)).request.method.word = "GET" := rfl
  have headers : (write (comparing table column op value)).request.headers = [] := rfl
  have body : (write (comparing table column op value)).request.body = none := rfl
  unfold Request.text comparisonText
  rw [url, word, headers, body, params_comparison compares, lead]
  simp only [List.map_nil, String.join_nil, String.append_empty, String.append_assoc]

/-- The size of a request is within that of its text. -/
theorem sizeOf_raw_le (request : Request) : sizeOf request.raw ≤ request.text.utf8ByteSize := by
  obtain ⟨method, path, query, headers, body⟩ := request
  have url : path.utf8ByteSize + (QueryString.encode query).utf8ByteSize ≤
      (Request.url { method, path, query, headers, body }).utf8ByteSize := by
    unfold Request.url
    cases query with
    | nil => simp [QueryString.encode]
    | cons pair rest =>
        simp only [List.isEmpty_cons, Bool.false_eq_true, if_false, String.utf8ByteSize_append, Request.queryString]
        omega
  unfold Request.text sizeOf Request.raw Request.queryString
  simp only [String.utf8ByteSize_append]
  cases body with
  | none =>
      dsimp only [Option.map_none]
      omega
  | some body =>
      simp only [Option.map_some, String.utf8ByteSize_append]
      omega

theorem returns_comparison (named : Sql.IsBare table) (held : Sql.IsBare column) (plain : table ≠ "rpc")
    (value : Value) : Returns bound sentFilter (comparing table column op value) where
  items column listed := by
    rw [List.mem_singleton.mp listed]
    exact Column.isItem_star
  embeds := by simp [comparing]
  distinct := by simp [comparing]
  below := by simp [comparing, Embed.paths]
  filters filter listed parsed := by
    rw [List.mem_singleton.mp listed]
    exact applyParam_bare held rfl
  order := by simp [comparing]
  target := by simp [comparing]
  unread := by simp [comparing]
  call := by simp [comparing]
  named := named.isName.full
  plain := plain
  free filter listed := by
    rw [List.mem_singleton.mp listed]
    rintro (same : column = "select")
    exact absurd held (by rw [same]; decide)
  alone _ := rfl
  shallow := by simp [comparing, Embed.greatestDepth]
  range := by simp [comparing]
  body := .none
  counted := by simp [comparing]
  single := ⟨by simp [comparing], by simp [comparing]⟩
  upserts := by simp [comparing]

theorem read_comparison (named : Sql.IsBare table) (held : Sql.IsBare column) (plain : table ≠ "rpc")
    (compares : op ∈ comparisons)
    (small : (comparisonText table column op numeral).utf8ByteSize ≤ options.maxInputLength) :
    (RawRequest.ofText (comparisonText table column op numeral) >>= read options) =
      .ok { query := comparing table column op (ofToken numeral) } := by
  have text : (write (comparing table column op (.number numeral))).request.text =
      comparisonText table column op numeral := by
    have same := @text_comparison table column op compares (.number numeral)
    rwa [bareText] at same
  have fits : sizeOf (write (comparing table column op (.number numeral))).request.raw ≤ options.maxInputLength :=
    (sizeOf_raw_le _).trans (text ▸ small)
  have sent := RawRequest.ofText_text (isSendable_write (comparing table column op (.number numeral)))
  have value : ofWire op (wireToken op (.number numeral)) = ofToken numeral := by
    rw [wireToken_comparison compares, ofWire_comparison compares, bareText]
  rw [← text, sent, ok_bind, read_returning (returns_comparison named held plain _) fits, ← value]
  rfl

end QueryNotation.Rest
