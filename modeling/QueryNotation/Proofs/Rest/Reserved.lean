import QueryNotation.Proofs.Rest.Roundtrip
import QueryNotation.Proofs.Text.Separated

namespace QueryNotation.Rest

/-! # Filters on columns that are named like parameters

The key of a filter on such a column is also the key of the parameter, so the value has
to tell them apart.  No filter is taken for a count or a select list, and only one whose
value is a word that may stand in an order is taken for an order.
-/

open Text

variable {bound : Nat} {filter : Filter} {parsed : Parsed} {query : Query}

/-- The words that may stand behind the column of an order. -/
def orderModifiers : List String :=
  ["asc", "desc", "nullsfirst", "nullslast"]

theorem mem_orderModifiers {item next : OrderItem} {word : String}
    (applied : applyModifier item word = some next) : word ∈ orderModifiers := by
  unfold applyModifier at applied
  split at applied
  · decide
  · decide
  · decide
  · decide
  · cases applied

theorem mem_orderModifiers_of_foldlM {item last : OrderItem} {modifiers : List String}
    (applied : modifiers.foldlM applyModifier item = some last) :
    ∀ word ∈ modifiers, word ∈ orderModifiers := by
  induction modifiers generalizing item with
  | nil => exact List.forall_mem_nil _
  | cons word rest induction =>
      rw [List.foldlM_cons] at applied
      obtain ⟨next, here, behind⟩ := Option.bind_eq_some_iff.mp applied
      exact List.forall_mem_cons.mpr ⟨mem_orderModifiers here, induction behind⟩

/-- What reads as an item of an order has only such words behind its first point. -/
theorem modifiers_of_readOrderItem {text front : List Char} {rest : List (List Char)} {item : OrderItem}
    (cut : pieces (· == '.') text = front :: rest) (read : readOrderItem text = .ok item) :
    ∀ piece ∈ rest, String.ofList piece ∈ orderModifiers := by
  unfold readOrderItem at read
  simp only [cut] at read
  split at read
  · cases read
  · split at read
    · next applied =>
      intro piece member
      exact mem_orderModifiers_of_foldlM applied _ (List.mem_map_of_mem member)
    · cases read

theorem readOrderItem_of_readOrder {text : String} {items : List OrderItem}
    (absent : ',' ∉ text.toList) (trimmed : trim text.toList = text.toList) (full : text.toList ≠ [])
    (read : readOrder bound text = .ok items) : ∃ item, readOrderItem text.toList = .ok item := by
  obtain ⟨parts, split, read⟩ := ok_of_bind read
  cases found : splitTopLevel ',' bound text.toList with
  | error fault =>
      rw [found] at split
      cases split
  | ok pieces =>
      rw [found] at split
      obtain rfl := Except.ok.inj split
      obtain ⟨whole, scanned, rfl⟩ := ok_of_map found
      obtain rfl := topLevelPieces_whole scanned absent
      have single : [text.toList].map trim = [text.toList] := by rw [List.map_singleton, trimmed]
      have kept : [text.toList].filter (!·.isEmpty) = [text.toList] := by simp [full]
      rw [single, kept, List.mapM_cons] at read
      obtain ⟨item, here, -⟩ := ok_of_bind read
      exact ⟨item, here⟩

/-- A scalar whose text holds none of the marks of orders. -/
def IsSimple : Value → Prop
  | .string text => ∀ c ∈ text.toList, c ≠ '.' ∧ c ≠ ',' ∧ isBlank c = false
  | .list _ => False
  | _ => True

theorem wireToken_simple {op : Operator} {value : Value} (fits : value.FitsWire op)
    (simple : IsSimple value) : Value.wireToken op value = Value.bareText value := by
  unfold Value.FitsWire at fits
  unfold Value.wireToken
  split
  · rfl
  · next plain =>
    rw [if_neg plain] at fits
    cases op
    case oneOf =>
      obtain ⟨items, rfl, -⟩ := fits
      exact simple.elim
    case is =>
      cases value with
      | string text => exact fits.2 text rfl
      | _ => rfl
    case like | ilike =>
      obtain ⟨text, rfl, absent⟩ := fits
      exact Value.replaceChar_of_absent absent
    all_goals rfl

theorem numeric_of_fits {op : Operator} {text : String} (fits : (Value.number text).FitsWire op) :
    isNumeric text = true := by
  unfold Value.FitsWire at fits
  split at fits
  · obtain ⟨other, same⟩ := fits
    cases same
  · cases op <;> simp [Value.IsToken] at fits <;> exact fits

/-- The texts that hold none of the marks of orders but points. -/
def IsPointed (text : List Char) : Prop :=
  ∀ c ∈ text, c ≠ ',' ∧ isBlank c = false

theorem isPointed_bareText {op : Operator} {value : Value} (fits : value.FitsWire op)
    (simple : IsSimple value) : IsPointed (Value.bareText value).toList := by
  cases value with
  | null => exact show ∀ c ∈ "null".toList, _ by decide
  | bool value => cases value <;> exact show ∀ c ∈ String.toList _, _ by decide
  | number text =>
      intro c member
      rcases Value.numeric_mem (numeric_of_fits fits) member with rfl | digit | rfl
      · decide
      · exact ⟨by rintro rfl; exact absurd digit (by decide),
          isBlank_alphanum (isAlphanum_iff.mpr (.inr (.inr digit)))⟩
      · decide
  | string text => exact fun c member => (simple c member).2
  | list items => exact simple.elim

theorem numeric_piece_other {text : String} (numeric : isNumeric text = true) {piece : List Char}
    (listed : piece ∈ pieces (· == '.') text.toList) : String.ofList piece ∉ orderModifiers := by
  intro word
  have letters : ∀ word ∈ orderModifiers, word.toList.any Char.isLower = true := by decide
  obtain ⟨c, inside, lower⟩ := List.any_eq_true.mp (letters _ word)
  rw [String.toList_ofList] at inside
  rcases Value.numeric_mem numeric (of_mem_pieces listed inside).1 with rfl | digit | rfl
  · exact absurd lower (by decide)
  · rw [isLower_iff] at lower
    rw [isDigit_iff] at digit
    omega
  · exact absurd lower (by decide)

/-- Something in such a value is no word of an order, unless it is such a word itself. -/
theorem exists_other_piece {op : Operator} {value : Value} (fits : value.FitsWire op)
    (simple : IsSimple value) (other : ∀ text, value = .string text → text ∉ orderModifiers) :
    ∃ piece ∈ pieces (· == '.') (Value.bareText value).toList, String.ofList piece ∉ orderModifiers := by
  have whole (text : String) (absent : ∀ c ∈ text.toList, (c == '.') = false) (free : text ∉ orderModifiers) :
      ∃ piece ∈ pieces (· == '.') text.toList, String.ofList piece ∉ orderModifiers := by
    refine ⟨text.toList, ?_, by rwa [String.ofList_toList]⟩
    rw [pieces_of_absent absent]
    exact List.mem_singleton_self _
  cases value with
  | null => exact whole "null" (by decide) (by decide)
  | bool value =>
      cases value with
      | true => exact whole "true" (by decide) (by decide)
      | false => exact whole "false" (by decide) (by decide)
  | number text =>
      obtain ⟨piece, listed⟩ := List.exists_mem_of_ne_nil _ (pieces_ne_nil (· == '.') text.toList)
      exact ⟨piece, listed, numeric_piece_other (numeric_of_fits fits) listed⟩
  | string text => exact whole text (fun c member => by simpa using (simple c member).1) (other text rfl)
  | list items => exact simple.elim

theorem head_filterText (filter : Filter) :
    ∃ c rest, (filterText filter).toList = c :: rest ∧ c.isLower = true := by
  have tag : ∃ c rest, filter.op.tag.toList = c :: rest ∧ c.isLower = true := by
    cases filter.op <;> exact ⟨_, _, rfl, by decide⟩
  obtain ⟨c, rest, shape, lower⟩ := tag
  rw [toList_filterText, Operator.frontText.eq_def, shape]
  cases filter.negated with
  | true => exact ⟨'n', _, rfl, by decide⟩
  | false => exact ⟨c, _, rfl, lower⟩

/-- The parameter of a filter is no count. -/
theorem unsigned?_filterText (filter : Filter) : unsigned? (trim (filterText filter).toList) = none := by
  obtain ⟨c, rest, shape, lower⟩ := head_filterText filter
  have alphanum : c.isAlphanum = true := isAlphanum_iff.mpr (.inr (.inl lower))
  have begins : ∃ more, trim (filterText filter).toList = c :: more := by
    rw [shape, trim, trimStart_cons (isBlank_alphanum alphanum)]
    exact ⟨_, trimEnd_append_cons (isBlank_alphanum alphanum) [] rest⟩
  obtain ⟨more, trimmed⟩ := begins
  rw [trimmed]
  refine unsigned?_of_letter ?_ ?_ more
  · rw [isLower_iff] at lower
    by_contra digit
    rw [Bool.not_eq_false, isDigit_iff] at digit
    omega
  · rintro rfl
    exact absurd lower (by decide)

/-- What has no word of an order behind its first point is no order. -/
theorem readOrder_other {text : String} {front rest : List Char} (shape : text.toList = front ++ '.' :: rest)
    (cut : '.' ∉ front) (plain : IsPointed text.toList)
    (other : ∃ piece ∈ pieces (· == '.') rest, String.ofList piece ∉ orderModifiers) :
    (readOrder bound text).toBool = false := by
  cases read : readOrder bound text with
  | error fault => rfl
  | ok items =>
      have absent : ',' ∉ text.toList := fun member => (plain _ member).1 rfl
      have trimmed : trim text.toList = text.toList := trim_of_solid fun c member => (plain c member).2
      obtain ⟨item, read⟩ := readOrderItem_of_readOrder absent trimmed (by simp [shape]) read
      have points : ∀ c ∈ front, (c == '.') = false := by
        intro c member
        rw [beq_eq_false_iff_ne]
        rintro rfl
        exact cut member
      obtain ⟨piece, listed, free⟩ := other
      rw [shape] at read
      exact absurd (modifiers_of_readOrderItem (pieces_append points rfl rest) read piece listed) free

/-- A filter whose parameter cannot be taken for an order. -/
structure IsUnordered (filter : Filter) : Prop where
  bare : filter.config = none
  simple : IsSimple filter.value
  apart : filter.negated = false → ∀ text, filter.value = .string text → text ∉ orderModifiers

theorem readOrder_filterText (fits : FitsFilter filter) (unordered : IsUnordered filter) :
    (readOrder bound (filterText filter)).toBool = false := by
  obtain ⟨bare, simple, apart⟩ := unordered
  have token := wireToken_simple fits.value simple
  have shape := toList_filterText filter
  rw [Operator.frontText.eq_def, bare, token] at shape
  simp only [List.append_nil] at shape
  have tagged : IsPointed filter.op.tag.toList := by
    unfold IsPointed
    cases filter.op <;> decide
  have unpointed : '.' ∉ filter.op.tag.toList := fun member => (Operator.tag_plain filter.op _ member).1 rfl
  have plain : IsPointed (filterText filter).toList := by
    intro c member
    rw [shape, List.mem_append, List.mem_append, List.mem_cons] at member
    rcases member with not | tag | rfl | value
    · split at not
      · exact (show IsPointed ['n', 'o', 't', '.'] by unfold IsPointed; decide) c not
      · cases not
    · exact tagged c tag
    · decide
    · exact isPointed_bareText fits.value simple c value
  -- Behind a negation the tag itself is the piece that no order has.
  cases negated : filter.negated with
  | true =>
      have behind : (filterText filter).toList =
          ['n', 'o', 't'] ++ '.' :: (filter.op.tag.toList ++ '.' :: (Value.bareText filter.value).toList) := by
        rw [shape, negated]
        rfl
      refine readOrder_other behind (by decide) plain ⟨filter.op.tag.toList, ?_, ?_⟩
      · rw [pieces_append (fun c member => beq_eq_false_iff_ne.mpr (Operator.tag_plain filter.op c member).1) rfl]
        exact List.mem_cons_self
      · rw [String.ofList_toList]
        cases filter.op <;> decide
  | false =>
      rw [negated, if_neg Bool.false_ne_true, List.nil_append] at shape
      exact readOrder_other shape unpointed plain (exists_other_piece fits.value simple (apart negated))

/-- A filter on a column that is named like a parameter is read as the filter. -/
theorem reservedFilter?_filterText (fits : FitsFilter filter) (named : filter.column ∈ reservedKeys)
    (unordered : filter.column = "order" → IsUnordered filter) :
    reservedFilter? bound filter.column (filterText filter) = some filter := by
  have unread : readsAsParameter? bound filter.column (filterText filter) = some false := by
    simp only [reservedKeys, List.mem_cons, List.not_mem_nil, or_false] at named
    rcases named with same | same | same | same | same | same <;> rw [same, readsAsParameter?]
    · rw [unsigned?_filterText]
      rfl
    · rw [unsigned?_filterText]
      rfl
    · rw [readOrder_filterText fits (unordered same)]
  rw [reservedFilter?, unread, readFilter_filterText fits]
  rfl

theorem applyParam_named (fits : FitsFilter filter) (word : IsWord filter.column)
    (alone : filter.column ∉ ["or", "and"]) (unordered : filter.column = "order" → IsUnordered filter)
    (parsed : Parsed) :
    applyParam bound parsed (filter.column, filterText filter) = .ok (addFilter filter parsed) := by
  by_cases named : filter.column ∈ reservedKeys
  · rw [applyParam, reservedFilter?_filterText fits named unordered]
  · exact applyParam_filter fits word named (isLogicKey_pointless (word.absent (by decide)) alone)

/-- A read as its request tells of it: it carries no body, and a single object is wished for
together with the rows that a mutation would answer with. -/
def heardRead (query : Query) : Query :=
  let answers := query.returning || query.single = some .maybeOne
  { query with
    body := none
    onConflict := none
    ignoreDuplicates := false
    single := query.single.map fun _ => if answers && !query.head then .maybeOne else .one
    returning := answers && (query.head || query.single.isNone) }

/-- The reads over plain names that come back from their requests with every filter. -/
structure FitsRead (query : Query) : Prop where
  reads : query.operation = .select
  named : query.table ≠ ""
  plain : query.table ≠ "rpc"
  columns : ∀ column ∈ query.columns, column.IsPlain
  embeds : ∀ embed ∈ query.embeds, embed.IsNamed
  distinct : (query.embeds.map Embed.name).Nodup
  below : ∀ entry ∈ Embed.paths query.embeds, FitsEmbed entry.2
  filters : ∀ filter ∈ query.filters, FitsFilter filter ∧ IsWord filter.column ∧
    filter.column ∉ ["or", "and"] ∧ (filter.column = "order" → IsUnordered filter)
  order : ∀ item ∈ query.order, IsWord item.column
  range : ∀ range ∈ query.range, range.1 ≤ range.2

theorem sendsSelect_heardRead (reads : query.operation = .select) :
    sendsSelect (heardRead query) = sendsSelect query := by
  have heard : (heardRead query).operation = .select := reads
  rw [sendsSelect, sendsSelect, heard, reads]
  rfl

theorem params_heardRead (reads : query.operation = .select) : params (heardRead query) = params query := by
  have heard : (heardRead query).operation = .select := reads
  rw [params, params, sendsSelect_heardRead reads, heard, reads]
  rfl

theorem headers_heardRead (reads : query.operation = .select) : headers (heardRead query) = headers query := by
  have heard : (heardRead query).operation = .select := reads
  have wished : (heardRead query).single.isSome = query.single.isSome := Option.isSome_map
  have answers : ((heardRead query).returning || decide ((heardRead query).single = some .maybeOne)) =
      (query.returning || decide (query.single = some .maybeOne)) := by
    unfold heardRead
    rcases query.single with _ | _ | _ <;> cases query.returning <;> cases query.head <;> rfl
  rw [headers, headers, preferences, preferences, bodyOf, bodyOf, wished, answers, heard, reads]
  rfl

/-- The request does not tell a read from what is heard of it. -/
theorem request_heardRead (reads : query.operation = .select) :
    (write (heardRead query)).request = (write query).request := by
  have heard : (heardRead query).operation = .select := reads
  have bare : bodyOf (heardRead query) = bodyOf query := by rw [bodyOf, bodyOf, heard, reads]
  unfold write
  rw [params_heardRead reads, headers_heardRead reads, bare]
  rfl

theorem fitsSingle_heardRead (reads : query.operation = .select) : FitsSingle (heardRead query) where
  one single := by
    rintro ⟨-, present, returning⟩
    have present : query.head = false := present
    unfold heardRead at single returning
    rw [present] at single returning
    revert single returning
    rcases query.single with _ | _ | _ <;> cases query.returning <;> simp
  maybeOne single := by
    refine ⟨reads, ?_⟩
    unfold heardRead at single ⊢
    revert single
    rcases query.single with _ | _ | _ <;> cases query.returning <;> cases query.head <;> simp

theorem whole_of_unsent (reads : query.operation = .select) (unsent : sendsSelect query = false) :
    query.selectsAll = true ∧ query.embeds = [] := by
  simpa [sendsSelect, reads] using unsent

theorem FitsRead.listedColumns_eq (fits : FitsRead query) :
    listedColumns (heardRead query) = Embed.shown query.columns query.embeds := by
  rw [listedColumns, sendsSelect_heardRead fits.reads]
  cases sent : sendsSelect query with
  | true => exact (Embed.shown_of_full (full_of_sent sent)).symm
  | false =>
      obtain ⟨all, none⟩ := whole_of_unsent fits.reads sent
      have heard : (heardRead query).operation = .select := fits.reads
      rw [if_neg Bool.false_ne_true, if_pos heard, none]
      rcases columns_of_selectsAll fits.columns all with empty | star
      · rw [empty]
        rfl
      · rw [star]
        rfl

theorem FitsRead.returns (fits : FitsRead query) (shallow : Embed.greatestDepth query.embeds ≤ bound) :
    Returns bound id (heardRead query) where
  items column listed := (fits.columns column listed).isItem
  embeds := fits.embeds
  distinct := fits.distinct
  below := fits.below
  filters filter listed parsed := by
    obtain ⟨fitting, word, alone, unordered⟩ := fits.filters filter listed
    exact applyParam_named fitting word alone unordered parsed
  order item listed := (fits.order item listed).isName
  target given := by cases given
  unread _ given := by cases given
  call same := by cases fits.reads.symm.trans same
  named := fits.named
  plain := fits.plain
  free filter listed same := by
    obtain ⟨fitting, -, -, unordered⟩ := fits.filters filter listed
    rw [reservedFilter?_filterText fitting (by simp [reservedKeys, same]) unordered]
    rfl
  alone unsent := (whole_of_unsent fits.reads ((sendsSelect_heardRead fits.reads).symm.trans unsent)).2
  shallow := shallow
  range := fits.range
  body := .none
  counted _ := fits.reads
  single := fitsSingle_heardRead fits.reads
  upserts ignoring := by cases ignoring

/-- A read comes back with every filter at its place, also where a column is named like a
parameter, and with its columns, order and counts; a list that names nothing names all. -/
theorem read_reserved {options : Options} (fits : FitsRead query)
    (small : sizeOf (write query).request.raw ≤ options.maxInputLength)
    (shallow : Embed.greatestDepth query.embeds ≤ options.maxDepth) :
    read options (write query).request.raw =
      .ok { query := { heardRead query with
        columns := Embed.shown query.columns query.embeds
        embeds := Embed.mapAll Embed.starred query.embeds } } := by
  rw [← request_heardRead fits.reads] at small ⊢
  rw [read_returning (fits.returns shallow) small, List.map_id, fits.listedColumns_eq]
  rfl

/-- Filters on columns that are named like every parameter, beside the parameters themselves. -/
def namesakes : Query := {
  table := "events"
  operation := .select
  columns := [{ name := "id" }]
  filters := [
    { column := "limit", op := .eq, value := .number "5" },
    { column := "offset", op := .lt, value := .number "100", negated := true },
    { column := "select", op := .eq, value := .string "all" },
    { column := "on_conflict", op := .is, value := .null },
    { column := "columns", op := .neq, value := .bool true },
    { column := "order", op := .gt, value := .number "1.5" },
    { column := "order", op := .eq, value := .string "desc", negated := true }]
  order := [{ column := "id", descending := true }]
  limit := some 10
  offset := some 20
  embeds := [{
    relation := "posts"
    columns := []
    filters := [{ column := "select", op := .eq, value := .string "desc" }]
    order := [{ column := "title" }]
    limit := some 3 }] }

theorem namesakes_fit : FitsRead namesakes where
  reads := rfl
  named := by decide
  plain := by decide
  columns := by
    intro column member
    rw [List.mem_singleton.mp member]
    exact .named (by decide) (by simp) (by simp)
  embeds := by
    intro embed member
    rw [List.mem_singleton.mp member]
    exact .intro (by decide) (by simp) (by simp) (by decide) (by simp)
  distinct := by decide
  below := by
    intro entry member
    simp only [namesakes, Embed.paths, Embed.pathsFrom, Embed.pathsBelow, List.flatMap_cons,
      List.flatMap_nil, List.append_nil, List.mem_singleton] at member
    rw [member]
    refine ⟨?_, by decide⟩
    intro filter listed
    rw [List.mem_singleton.mp listed]
    exact ⟨⟨rfl, show Value.ofToken "desc" = .string "desc" by decide, by simp⟩, by decide, by decide⟩
  filters := by
    intro filter member
    simp only [namesakes, List.mem_cons, List.not_mem_nil, or_false] at member
    rcases member with rfl | rfl | rfl | rfl | rfl | rfl | rfl
    · exact ⟨⟨rfl, show isNumeric "5" = true by decide, by simp⟩, by decide, by decide, by simp⟩
    · exact ⟨⟨rfl, show isNumeric "100" = true by decide, by simp⟩, by decide, by decide, by simp⟩
    · exact ⟨⟨rfl, show Value.ofToken "all" = .string "all" by decide, by simp⟩, by decide, by decide, by simp⟩
    · exact ⟨⟨rfl, ⟨trivial, by simp⟩, by simp⟩, by decide, by decide, by simp⟩
    · exact ⟨⟨rfl, trivial, by simp⟩, by decide, by decide, by simp⟩
    · exact ⟨⟨rfl, show isNumeric "1.5" = true by decide, by simp⟩, by decide, by decide,
        fun _ => ⟨rfl, trivial, by simp⟩⟩
    · exact ⟨⟨rfl, show Value.ofToken "desc" = .string "desc" by decide, by simp⟩, by decide, by decide,
        fun _ => ⟨rfl, show ∀ c ∈ "desc".toList, _ by decide, by simp⟩⟩
  order := by decide
  range := by
    rintro range ⟨⟩

theorem read_reserved_namesakes : sizeOf (write namesakes).request.raw ≤ 65536 ∧
    Embed.greatestDepth namesakes.embeds ≤ 32 ∧
    read {} (write namesakes).request.raw = .ok { query := { heardRead namesakes with
      columns := Embed.shown namesakes.columns namesakes.embeds
      embeds := Embed.mapAll Embed.starred namesakes.embeds } } := by
  have small : sizeOf (write namesakes).request.raw ≤ 65536 := by decide +kernel
  have shallow : Embed.greatestDepth namesakes.embeds ≤ 32 := by decide
  exact ⟨small, shallow, read_reserved namesakes_fit small shallow⟩

/-- Whether a query comes back with its columns, its filters and those of its embeds. -/
def comesBack (query : Query) : Bool :=
  match read {} (write query).request.raw with
  | .error _ => false
  | .ok parsed => parsed.query.columns = query.columns ∧ parsed.query.filters = query.filters ∧
      parsed.query.embeds.map Embed.filters = query.embeds.map Embed.filters

/-- Reads that miss one condition each. -/
def misread : List Query :=
  let events : Query := { table := "events", operation := .select, columns := [.star] }
  let above (filter : Filter) : Query := { events with filters := [filter] }
  let below (filter : Filter) : Embed := { relation := "posts", columns := [.star], filters := [filter] }
  [ above { column := "order", op := .eq, value := .string "desc" },
    above { column := "or", op := .eq, value := .number "1" },
    above { column := "limit", op := .eq, value := .string "5" },
    above { column := "order", op := .eq, value := .number "1", connective := .or },
    { events with embeds := [below { column := "and", op := .eq, value := .number "1" }] },
    { events with embeds := [below { column := "limit", op := .eq, value := .number "5" }] },
    -- The second embed has the name of the first.
    { events with embeds := [{ relation := "posts", columns := [.star] },
      below { column := "select", op := .eq, value := .number "1" }] },
    { events with table := "rpc" },
    { events with range := some (5, 2) },
    { events with columns := [] }]

/-- An order, a group and a count are read where a filter was meant. -/
theorem misread_lost :
    (read {} { method := "GET", path := "/events", query := "order=eq.desc" }).toOption.map
        (fun parsed => (parsed.query.filters, parsed.query.order)) =
      some ([], [{ column := "eq", descending := true }]) ∧
    ∀ query ∈ misread, comesBack query = false :=
  ⟨by decide +kernel, by decide +kernel⟩

end QueryNotation.Rest
