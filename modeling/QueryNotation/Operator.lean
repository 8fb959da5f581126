import QueryNotation.Text.EditDistance

namespace QueryNotation

/-! # Filter operators

Each operator has one entry that gives its tag on the wire, its SQL symbol or
keyword, the function that wraps its value when it searches text, and its method
in a client chain.  Every notation reads the same entries, so a tag means the
same in each.
-/

/-- The operators a filter may use. -/
inductive Operator where
  | eq
  | neq
  | gt
  | gte
  | lt
  | lte
  | like
  | ilike
  /-- Matches a regular expression. -/
  | matches
  /-- Matches a regular expression in either case. -/
  | imatches
  | contains
  | containedBy
  | overlaps
  | strictlyLeft
  | strictlyRight
  | notExtendRight
  | notExtendLeft
  | adjacent
  /-- Is null, true, false or unknown. -/
  | is
  /-- Is one of a list. -/
  | oneOf
  /-- Text search with the query language. -/
  | fullText
  /-- Text search with plain words. -/
  | plainText
  /-- Text search for a phrase. -/
  | phraseText
  /-- Text search as on the web. -/
  | webText
deriving DecidableEq, Repr, Inhabited

namespace Operator

/-- How an operator is written. -/
structure Entry where
  /-- The tag on the wire. -/
  tag : String
  /-- The SQL symbol or keyword. -/
  symbol : String
  /-- The function that makes a text-search query of the value. -/
  searchFunction : Option String
  /-- The method in a client chain. -/
  method : Option String
deriving DecidableEq, Repr

def entry : Operator → Entry
  | .eq => ⟨"eq", "=", none, some "eq"⟩
  | .neq => ⟨"neq", "!=", none, some "neq"⟩
  | .gt => ⟨"gt", ">", none, some "gt"⟩
  | .gte => ⟨"gte", ">=", none, some "gte"⟩
  | .lt => ⟨"lt", "<", none, some "lt"⟩
  | .lte => ⟨"lte", "<=", none, some "lte"⟩
  | .like => ⟨"like", "LIKE", none, some "like"⟩
  | .ilike => ⟨"ilike", "ILIKE", none, some "ilike"⟩
  | .matches => ⟨"match", "~", none, none⟩
  | .imatches => ⟨"imatch", "~*", none, none⟩
  | .contains => ⟨"cs", "@>", none, some "contains"⟩
  | .containedBy => ⟨"cd", "<@", none, some "containedBy"⟩
  | .overlaps => ⟨"ov", "&&", none, some "overlaps"⟩
  | .strictlyLeft => ⟨"sl", "<<", none, some "rangeLt"⟩
  | .strictlyRight => ⟨"sr", ">>", none, some "rangeGt"⟩
  | .notExtendRight => ⟨"nxr", "&<", none, some "rangeLte"⟩
  | .notExtendLeft => ⟨"nxl", "&>", none, some "rangeGte"⟩
  | .adjacent => ⟨"adj", "-|-", none, some "rangeAdjacent"⟩
  | .is => ⟨"is", "IS", none, some "is"⟩
  | .oneOf => ⟨"in", "IN", none, some "in"⟩
  | .fullText => ⟨"fts", "@@", some "to_tsquery", none⟩
  | .plainText => ⟨"plfts", "@@", some "plainto_tsquery", none⟩
  | .phraseText => ⟨"phfts", "@@", some "phraseto_tsquery", none⟩
  | .webText => ⟨"wfts", "@@", some "websearch_to_tsquery", none⟩

/-- All operators, in the order in which they are looked up and listed. -/
def all : List Operator :=
  [.eq, .neq, .gt, .gte, .lt, .lte, .like, .ilike, .matches, .imatches, .contains, .containedBy,
    .overlaps, .strictlyLeft, .strictlyRight, .notExtendRight, .notExtendLeft, .adjacent, .is,
    .oneOf, .fullText, .plainText, .phraseText, .webText]

def tag (op : Operator) : String :=
  op.entry.tag

/-- The SQL symbol or keyword. -/
def symbol (op : Operator) : String :=
  op.entry.symbol

/-- The function that makes a text-search query of the value. -/
def searchFunction (op : Operator) : Option String :=
  op.entry.searchFunction

def method (op : Operator) : Option String :=
  op.entry.method

def searchesText (op : Operator) : Bool :=
  op.searchFunction.isSome

def ofTag? (tag : String) : Option Operator :=
  all.find? fun op => op.tag = tag

def ofMethod? (method : String) : Option Operator :=
  all.find? fun op => op.method = some method

/-- The operator with a symbol, those that search text left out.  Inequality has
two symbols. -/
def ofSymbol? (symbol : String) : Option Operator :=
  if symbol = "<>" then some .neq
  else all.find? fun op => op.symbol = symbol && !op.searchesText

/-- The operator with a text-search function, in any ASCII case. -/
def ofSearchFunction? (name : String) : Option Operator :=
  all.find? fun op =>
    match op.searchFunction with
    | some function => function.toLower = name.toLower
    | none => false

theorem ofTag?_tag (op : Operator) : ofTag? op.tag = some op := by
  cases op <;> decide

/-- The greatest distance of a tag worth suggesting, by the size of what was
written in bytes. -/
def suggestionDistance (size : Nat) : Nat :=
  if size ≤ 2 then 1 else if size ≤ 5 then 2 else 3

/-- The tag nearest to what was written, the first of those at the same distance. -/
def closestTag? (written : String) : Option String :=
  let distances := all.map fun op => (op.tag, Text.editDistance written.toList op.tag.toList)
  let greatest := suggestionDistance written.utf8ByteSize
  let near := distances.filter fun (_, distance) => distance ≤ greatest
  let least := near.foldl
    (fun (best : Option (String × Nat)) (candidate : String × Nat) =>
      match best with
      | some found => if candidate.2 < found.2 then some candidate else some found
      | none => some candidate)
    none
  least.map Prod.fst

end Operator

end QueryNotation
