import QueryNotation.Proofs.Json.Printer
import QueryNotation.Proofs.Request.QueryString
import QueryNotation.Request.Text

namespace QueryNotation.RawRequest

/-! # Reading back the text of a request

The lines of a request are its request line, one line for each header and, behind a blank
line, its body.  Each is found again when it holds no line feed and ends with no blank.

The text of a request has a request line, whatever its path holds.  The path that is read from it ends at
the first blank or question mark, so the request is read back just when there is none.
-/

open Text

variable {request : Request}

/-- What stands between two line feeds and is kept by trimming behind. -/
structure IsLine (part : List Char) : Prop where
  whole : '\n' ∉ part
  last : ∀ c ∈ part.getLast?, isBlank c = false

theorem intercalate_cons (first : List Char) (rest : List (List Char)) :
    ['\n'].intercalate (first :: rest) = first ++ rest.flatMap fun part => '\n' :: part := by
  induction rest generalizing first with
  | nil => simp
  | cons next more induction => simp [List.intercalate_cons_cons, induction]

theorem dropReturn_line {part : List Char} (line : IsLine part) : dropReturn part = part := by
  have other : dropTail? ['\r'] part = none := by
    rw [Option.eq_none_iff_forall_not_mem]
    intro front found
    have blank := line.last '\r' (by rw [eq_of_dropTail? found, List.getLast?_concat]; rfl)
    exact absurd blank (by decide)
  rw [dropReturn, other]
  rfl

section Lines

variable {front : List (List Char)} {last : List Char} (each : ∀ part ∈ front ++ [last], IsLine part)
  (full : last ≠ [])

include each full

/-- Lines that are joined are found again. -/
theorem lines_intercalate : lines (['\n'].intercalate (front ++ [last])) = front ++ [last] := by
  have cut : pieces (· == '\n') (['\n'].intercalate (front ++ [last])) = front ++ [last] := by
    refine pieces_intercalate rfl (by simp) fun part listed c member => ?_
    rw [beq_eq_false_iff_ne]
    rintro rfl
    exact (each part listed).whole member
  have same : front.map dropReturn = front :=
    (List.map_congr_left fun part listed => dropReturn_line (each part (by simp [listed]))).trans
      (List.map_id front)
  unfold lines
  rw [cut, List.reverse_append]
  simp [same, full]

/-- Trimming keeps lines that begin and end with something. -/
theorem trim_lines (head : ∀ c ∈ (['\n'].intercalate (front ++ [last])).head?, isBlank c = false) :
    trim (['\n'].intercalate (front ++ [last])) = ['\n'].intercalate (front ++ [last]) := by
  refine trim_eq_self head ?_
  have behind : ∃ before, ['\n'].intercalate (front ++ [last]) = before ++ last := by
    clear each head
    induction front with
    | nil => exact ⟨[], by simp⟩
    | cons part more induction =>
        obtain ⟨before, shape⟩ := induction
        refine ⟨part ++ '\n' :: before, ?_⟩
        have some : ∃ next others, more ++ [last] = next :: others :=
          List.exists_cons_of_ne_nil (by simp)
        obtain ⟨next, others, list⟩ := some
        rw [List.cons_append, list, List.intercalate_cons_cons, ← list, shape]
        simp
  obtain ⟨before, shape⟩ := behind
  rw [shape, List.getLast?_append_of_ne_nil _ full]
  exact (each last (by simp)).last

end Lines

/-- A header that its line says in full. -/
structure IsHeader (header : String × String) : Prop where
  name : ∀ c ∈ header.1.toList, isBlank c = false ∧ c ≠ ':'
  plain : ∀ c ∈ header.1.toList.head?, c ≠ '{' ∧ c ≠ '['
  full : header.2 ≠ ""
  whole : '\n' ∉ header.2.toList
  first : ∀ c ∈ header.2.toList.head?, isBlank c = false
  last : ∀ c ∈ header.2.toList.getLast?, isBlank c = false

def headerLine (header : String × String) : List Char :=
  header.1.toList ++ ':' :: ' ' :: header.2.toList

namespace IsHeader

variable {header : String × String}

theorem headerOfLine? (fits : IsHeader header) :
    RawRequest.headerOfLine? (headerLine header) = some header := by
  have absent : ':' ∉ header.1.toList := fun member => (fits.name ':' member).2 rfl
  have name : trim header.1.toList = header.1.toList :=
    trim_of_solid fun c member => (fits.name c member).1
  have value : trim (' ' :: header.2.toList) = header.2.toList :=
    trim_eq_self fits.first fits.last
  have plain : ¬ (header.1.toList.head? = some '{' ∨ header.1.toList.head? = some '[') := by
    rintro (first | first)
    · exact (fits.plain _ first).1 rfl
    · exact (fits.plain _ first).2 rfl
  unfold RawRequest.headerOfLine? headerLine
  simp only [cutFirst_append absent, name, value, if_neg plain, String.ofList_toList]

theorem not_blank (_ : IsHeader header) : allBlank (headerLine header) = false :=
  allBlank_false (show ':' ∈ headerLine header by simp [headerLine]) (by decide)

theorem line (fits : IsHeader header) : IsLine (headerLine header) where
  whole := by
    intro member
    simp only [headerLine, List.mem_append, List.mem_cons] at member
    rcases member with name | same | same | value
    · exact absurd (fits.name '\n' name).1 (by decide)
    · exact absurd same (by decide)
    · exact absurd same (by decide)
    · exact fits.whole value
  last := by
    have full : header.2.toList ≠ [] := by simpa using fits.full
    have shape : headerLine header = (header.1.toList ++ [':', ' ']) ++ header.2.toList := by
      simp [headerLine]
    rw [shape, List.getLast?_append_of_ne_nil _ full]
    exact fits.last

end IsHeader

theorem splitHeaders_lines {headers : Headers} (fits : ∀ header ∈ headers, IsHeader header)
    {rest body : List (List Char)} (behind : splitHeaders rest = ([], body)) :
    splitHeaders (headers.map headerLine ++ rest) = (headers, body) := by
  induction headers with
  | nil => exact behind
  | cons header more induction =>
      have here := fits header (by simp)
      have others := induction fun other member => fits other (by simp [member])
      rw [List.map_cons, List.cons_append, splitHeaders, if_neg (by simp [here.not_blank]),
        here.headerOfLine?]
      simp only [others]

/-- The requests whose text says them in full; every body does. -/
structure IsSendable (request : Request) : Prop where
  path : ∀ c ∈ request.path.toList, isBlank c = false ∧ c ≠ '?'
  full : request.path ≠ ""
  headers : ∀ header ∈ request.headers, IsHeader header

theorem encode_solid (pairs : List (String × String)) :
    ∀ c ∈ (QueryString.encode pairs).toList, isBlank c = false := by
  have escape (text : String) : ∀ c ∈ (QueryString.escape text).toList, isBlank c = false := by
    rw [QueryString.escape, String.toList_ofList]
    exact percentEncode_solid (by decide +kernel) _
  intro c member
  rw [QueryString.encode, String.toList_intercalate] at member
  rcases of_mem_intercalate member with rfl | ⟨part, listed, inside⟩
  · decide
  · obtain ⟨text, written, rfl⟩ := List.mem_map.mp listed
    obtain ⟨pair, _, rfl⟩ := List.mem_map.mp written
    simp only [String.toList_append, List.mem_append] at inside
    rcases inside with (key | equals) | value
    · exact escape _ c key
    · rw [List.mem_singleton.mp (show c ∈ ['='] from equals)]
      decide
    · exact escape _ c value

/-- The address of a request holds no blanks, and its path ends where the parameters begin. -/
theorem url_solid (fits : IsSendable request) : ∀ c ∈ request.url.toList, isBlank c = false := by
  intro c member
  unfold Request.url at member
  split at member
  · exact (fits.path c member).1
  · simp only [String.toList_append, List.mem_append, String.reduceToList, List.mem_singleton] at member
    rcases member with (path | rfl) | query
    · exact (fits.path c path).1
    · decide
    · exact encode_solid _ c query

theorem cutFirst_url (fits : IsSendable request) :
    cutFirst '?' request.url.toList =
      if request.query.isEmpty then none
      else some (request.path.toList, request.queryString.toList) := by
  have absent : '?' ∉ request.path.toList := fun member => (fits.path '?' member).2 rfl
  unfold Request.url
  split
  · exact cutFirst_of_absent absent
  · rw [String.toList_append, String.toList_append, List.append_assoc]
    exact cutFirst_append absent _

/-- The path and the parameters are told apart. -/
theorem ofTarget_url (fits : IsSendable request) :
    ofTarget request.method.word.toList request.url.toList =
      { method := request.method.word, path := request.path, query := request.queryString } := by
  unfold ofTarget
  rw [cutFirst_url fits]
  by_cases none : request.query.isEmpty = true
  · have empty : request.queryString = "" := by
      rw [Request.queryString, List.isEmpty_iff.mp none]
      rfl
    simp [none, empty, Request.url]
  · simp [none]

theorem url_ne_nil (fits : IsSendable request) : request.url.toList ≠ [] := by
  have full : request.path.toList ≠ [] := by simpa using fits.full
  unfold Request.url
  split
  · exact full
  · simp [full]

theorem method_solid (method : Method) : ∀ c ∈ method.word.toList, isBlank c = false := by
  cases method <;> decide

theorem requestLine_last (fits : IsSendable request) :
    ∀ c ∈ (request.method.word.toList ++ ' ' :: request.url.toList).getLast?, isBlank c = false := by
  intro c last
  rw [List.getLast?_append_of_ne_nil _ (by simp), List.getLast?_cons_of_ne_nil (url_ne_nil fits)] at last
  exact url_solid fits c (List.mem_of_getLast? last)

theorem requestLine_head (method : Method) (rest : List Char) :
    ∀ c ∈ (method.word.toList ++ rest).head?, isBlank c = false := by
  cases method <;> rintro c ⟨⟩ <;> decide

/-- The method and the address are the words of the request line. -/
theorem words_requestLine (fits : IsSendable request) :
    words isBlank (trim (request.method.word.toList ++ ' ' :: request.url.toList)) =
      [request.method.word.toList, request.url.toList] := by
  have method : request.method.word.toList ≠ [] := by cases request.method <;> decide
  have joined := @words_intercalate isBlank ' ' rfl [request.method.word.toList, request.url.toList]
    (by simpa using ⟨method_solid _, url_solid fits⟩) (by simpa [method] using url_ne_nil fits)
  rw [trim_eq_self (requestLine_head _ _) (requestLine_last fits)]
  simpa using joined

def bodyLines (request : Request) : List (List Char) :=
  match request.body with
  | some body => [[], body.chars]
  | none => []

def requestLines (request : Request) : List (List Char) :=
  (request.method.word.toList ++ ' ' :: request.url.toList) ::
    (request.headers.map headerLine ++ bodyLines request)

theorem toList_text (request : Request) :
    request.text.toList = ['\n'].intercalate (requestLines request) := by
  have headers : (String.join (request.headers.map fun header =>
      "\n" ++ header.1 ++ ": " ++ header.2)).toList =
      (request.headers.map headerLine).flatMap fun part => '\n' :: part := by
    rw [String.toList_join, List.flatMap_map, List.flatMap_map]
    refine List.flatMap_congr fun header _ => ?_
    simp [headerLine]
  rw [requestLines, intercalate_cons, List.flatMap_append, ← headers, Request.text]
  unfold bodyLines
  cases request.body with
  | none => simp
  | some body => simp [Json.text]

theorem requestLine_line (fits : IsSendable request) :
    IsLine (request.method.word.toList ++ ' ' :: request.url.toList) where
  whole := by
    intro member
    rcases List.mem_append.mp member with method | behind
    · exact absurd (method_solid _ '\n' method) (by decide)
    · rcases List.mem_cons.mp behind with same | address
      · exact absurd same (by decide)
      · exact absurd (url_solid fits '\n' address) (by decide)
  last := requestLine_last fits

theorem requestLines_line (fits : IsSendable request) : ∀ part ∈ requestLines request, IsLine part := by
  intro part member
  unfold requestLines bodyLines at member
  rcases List.mem_cons.mp member with rfl | behind
  · exact requestLine_line fits
  · rcases List.mem_append.mp behind with header | body
    · obtain ⟨given, listed, rfl⟩ := List.mem_map.mp header
      exact (fits.headers given listed).line
    · split at body
      · next json sent =>
        simp only [List.mem_cons, List.not_mem_nil, or_false] at body
        rcases body with rfl | rfl
        · exact ⟨List.not_mem_nil, by simp⟩
        · exact ⟨fun line => absurd (Json.isPrinted_chars json '\n' line) (by decide), Json.last_solid json⟩
      · cases body

theorem requestLines_last (request : Request) :
    ∃ front last, requestLines request = front ++ [last] ∧ last ≠ [] := by
  unfold requestLines bodyLines
  have full : request.method.word.toList ++ ' ' :: request.url.toList ≠ [] := by simp
  generalize request.method.word.toList ++ ' ' :: request.url.toList = first at full
  cases request.body with
  | some json =>
      refine ⟨first :: (request.headers.map headerLine ++ [[]]), json.chars, ?_, Json.chars_ne_nil json⟩
      simp
  | none =>
      rcases List.eq_nil_or_concat request.headers with none | ⟨before, header, shape⟩
      · exact ⟨[], first, by rw [none]; rfl, full⟩
      · refine ⟨first :: before.map headerLine, headerLine header, ?_, by simp [headerLine]⟩
        rw [shape]
        simp

theorem splitHeaders_body (request : Request) : splitHeaders (bodyLines request) =
    ([], (request.body.map Json.chars).toList) := by
  unfold bodyLines
  cases request.body with
  | none => rfl
  | some json => rfl

/-- The text of a request is read as the request. -/
theorem ofText_text (fits : IsSendable request) : ofText request.text = .ok request.raw := by
  obtain ⟨front, last, shape, full⟩ := requestLines_last request
  have each := requestLines_line fits
  have head : ∀ c ∈ (['\n'].intercalate (requestLines request)).head?, isBlank c = false := by
    rw [requestLines, intercalate_cons, List.append_assoc]
    exact requestLine_head _ _
  have trimmed : trim request.text.toList = ['\n'].intercalate (requestLines request) := by
    rw [toList_text]
    rw [shape] at each head ⊢
    exact trim_lines each full head
  have found : lines (trim request.text.toList) = requestLines request := by
    rw [trimmed]
    rw [shape] at each ⊢
    exact lines_intercalate each full
  unfold ofText
  simp only [found, requestLines, List.head?_cons, Option.getD_some, words_requestLine fits,
    List.drop_succ_cons, List.drop_zero, splitHeaders_lines fits.headers (splitHeaders_body request),
    ofTarget_url fits]
  unfold Request.raw
  cases request.body with
  | none => rfl
  | some json =>
      have kept : trim json.chars = json.chars := trim_eq_self (Json.head_solid json) (Json.last_solid json)
      simp [kept, Json.chars_ne_nil, Json.text]

section AnyPath

variable {request : Request} {raw : RawRequest} {lead text : List Char}

def endsPath (c : Char) : Bool :=
  isBlank c || c == '?'

/-- A text that a path may hold and go on. -/
def IsPathText (text : String) : Prop :=
  ∀ c ∈ text.toList, endsPath c = false

instance (text : String) : Decidable (IsPathText text) :=
  inferInstanceAs (Decidable (∀ c ∈ text.toList, endsPath c = false))

theorem isPathText_append {front back : String} :
    IsPathText (front ++ back) ↔ IsPathText front ∧ IsPathText back := by
  unfold IsPathText
  rw [String.toList_append, List.forall_mem_append]

/-- A front of a text that trimming and cutting into lines leave alone. -/
structure IsLead (lead : List Char) : Prop where
  head : ∀ c ∈ lead.head?, isBlank c = false
  last : ∀ c ∈ lead.getLast?, isBlank c = false
  whole : '\n' ∉ lead
  full : lead ≠ []

namespace IsLead

theorem trim (fits : IsLead lead) (front : lead <+: text) : lead <+: Text.trim text := by
  obtain ⟨rest, rfl⟩ := front
  obtain ⟨c, more, shape⟩ := List.exists_cons_of_ne_nil fits.full
  have kept : trimStart (lead ++ rest) = lead ++ rest := by
    rw [shape, List.cons_append, trimStart_cons (fits.head c (by rw [shape]; rfl))]
  rw [Text.trim, kept]
  rcases List.eq_nil_or_concat lead with none | ⟨before, d, whole⟩
  · exact absurd none fits.full
  · rw [List.concat_eq_append] at whole
    have solid : isBlank d = false := fits.last d (by rw [whole, List.getLast?_concat]; rfl)
    rw [whole, List.append_assoc, List.singleton_append, trimEnd_append_cons solid]
    exact ⟨trimEnd rest, by simp⟩

theorem dropReturn (fits : IsLead lead) (front : lead <+: text) : lead <+: dropReturn text := by
  unfold RawRequest.dropReturn
  cases dropped : dropTail? ['\r'] text with
  | none => exact front
  | some kept =>
      rw [eq_of_dropTail? dropped] at front
      rcases List.prefix_concat_iff.mp front with whole | inside
      · have blank := fits.last '\r' (by rw [whole, List.getLast?_concat]; rfl)
        exact absurd blank (by decide)
      · exact inside

theorem pieces (fits : IsLead lead) (front : lead <+: text) :
    ∃ first more, Text.pieces (· == '\n') text = first :: more ∧ lead <+: first := by
  have whole := fits.whole
  obtain ⟨rest, rfl⟩ := front
  clear fits
  induction lead with
  | nil =>
      obtain ⟨first, more, shape⟩ := List.exists_cons_of_ne_nil (pieces_ne_nil (· == '\n') rest)
      exact ⟨first, more, shape, List.nil_prefix⟩
  | cons c behind induction =>
      obtain ⟨first, more, shape, inside⟩ := induction fun member => whole (List.mem_cons_of_mem c member)
      have other : (c == '\n') = false := beq_eq_false_iff_ne.mpr fun same => whole (by simp [same])
      refine ⟨c :: first, more, ?_, List.cons_prefix_cons.mpr ⟨rfl, inside⟩⟩
      rw [List.cons_append, Text.pieces, other, shape]
      rfl

theorem lines (fits : IsLead lead) (front : lead <+: text) :
    ∃ line, (lines text).head? = some line ∧ lead <+: line := by
  obtain ⟨first, more, cut, inside⟩ := fits.pieces front
  have full : first ≠ [] := by
    rintro rfl
    exact fits.full (List.prefix_nil.mp inside)
  unfold RawRequest.lines
  rw [cut]
  rcases List.eq_nil_or_concat more with rfl | ⟨before, last, rfl⟩
  · exact ⟨first, by simp [full], inside⟩
  · exact ⟨_, by simp, fits.dropReturn inside⟩

end IsLead

theorem isLead_method (method : Method) : IsLead (method.word.toList ++ [' ', '/']) where
  head := requestLine_head method [' ', '/']
  last c member := by
    rw [List.getLast?_append_of_ne_nil _ (List.cons_ne_nil _ _)] at member
    obtain rfl : '/' = c := Option.some.inj member
    decide
  whole := by cases method <;> decide
  full := by simp

theorem words_lead {line : List Char} {method : Method} (front : method.word.toList ++ [' ', '/'] <+: line) :
    ∃ target more, words isBlank line = method.word.toList :: target :: more := by
  obtain ⟨rest, rfl⟩ := front
  have cut : Text.pieces isBlank (method.word.toList ++ [' ', '/'] ++ rest) =
      method.word.toList :: Text.pieces isBlank ('/' :: rest) := by
    rw [List.append_assoc]
    exact pieces_append (method_solid method) rfl ('/' :: rest)
  have full : method.word.toList ≠ [] := by cases method <;> decide
  obtain ⟨first, more, shape⟩ := List.exists_cons_of_ne_nil (pieces_ne_nil isBlank rest)
  have target : Text.pieces isBlank ('/' :: rest) = ('/' :: first) :: more := by
    rw [Text.pieces, shape]
    rfl
  refine ⟨'/' :: first, more.filter (!·.isEmpty), ?_⟩
  rw [words, cut, target]
  simp [full]

/-- The text of a request whose path begins with a slash has a request line. -/
theorem ofText_lead (slash : request.path.toList.head? = some '/') :
    ∃ raw, ofText request.text = .ok raw ∧ raw.method = request.method.word := by
  have front : request.method.word.toList ++ [' ', '/'] <+: request.text.toList := by
    obtain ⟨rest, shape⟩ := List.head?_eq_some_iff.mp slash
    have url : ∃ more, request.url.toList = '/' :: more := by
      unfold Request.url
      split
      · exact ⟨rest, shape⟩
      · simp [shape]
    obtain ⟨more, address⟩ := url
    rw [toList_text, requestLines, intercalate_cons, address]
    simp [List.append_assoc]
  have fits := isLead_method request.method
  obtain ⟨line, first, inside⟩ := fits.lines (fits.trim front)
  obtain ⟨target, more, found⟩ := words_lead (fits.trim inside)
  unfold ofText
  simp only [first, Option.getD_some, found]
  exact ⟨_, rfl, by unfold ofTarget; simp⟩

theorem path_ofTarget (method : List Char) {target : List Char} (solid : ∀ c ∈ target, isBlank c = false) :
    IsPathText (ofTarget method target).path := by
  have safe {front : List Char} (inside : ∀ c ∈ front, c ∈ target) (absent : '?' ∉ front) :
      ∀ c ∈ front, endsPath c = false := by
    intro c member
    have other : c ≠ '?' := by
      rintro rfl
      exact absent member
    simp [endsPath, solid c (inside c member), other]
  unfold IsPathText ofTarget
  cases cut : cutFirst '?' target with
  | none =>
      simp only [Option.getD_none, String.toList_ofList]
      exact safe (fun _ member => member) (cutFirst_eq_none_iff.mp cut)
  | some parts =>
      obtain ⟨path, query⟩ := parts
      obtain ⟨shape, absent⟩ := cutFirst_eq_some cut
      simp only [Option.getD_some, String.toList_ofList]
      exact safe (fun c member => by simp [shape, member]) absent

/-- No path is read that a request line would end. -/
theorem path_ofText {text : String} (read : ofText text = .ok raw) : IsPathText raw.path := by
  unfold ofText at read
  dsimp only at read
  split at read
  · next method target more found =>
    obtain rfl := Except.ok.inj read
    have listed : target ∈ method :: target :: more := by simp
    rw [← found] at listed
    exact path_ofTarget method (of_mem_words listed).1
  · cases read

/-- A request is read back from its text just when nothing in its path ends the request line. -/
theorem ofText_eq_raw_iff (slash : request.path.toList.head? = some '/')
    (headers : ∀ header ∈ request.headers, IsHeader header) :
    ∃ raw, ofText request.text = .ok raw ∧ raw.method = request.method.word ∧
      (raw = request.raw ↔ IsPathText request.path) := by
  obtain ⟨raw, read, method⟩ := ofText_lead slash
  refine ⟨raw, read, method, ?_, fun safe => ?_⟩
  · rintro rfl
    exact path_ofText read
  · have full : request.path ≠ "" := by
      intro empty
      rw [empty] at slash
      cases slash
    have fits : IsSendable request := ⟨fun c member => by simpa [endsPath] using safe c member, full, headers⟩
    exact Except.ok.inj (read.symm.trans (ofText_text fits))

end AnyPath

end QueryNotation.RawRequest
