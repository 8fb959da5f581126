import QueryNotation.Chain.Literal
import QueryNotation.Fault

namespace QueryNotation.Chain

/-! # Segments of a chain

A chain is a list of names between points; a name with parentheses behind it is a
call.  What client code writes around a chain is dropped first, and each run of
blanks outside strings becomes one space.
-/

open Text

/-- One segment of a chain. -/
inductive Segment where
  | property (name : String)
  | call (name : String) (arguments : List Json)
deriving DecidableEq, Repr, Inhabited

def dropWord (word : String) (text : List Char) : List Char :=
  match dropLead? word.toList text with
  | some rest => trimStart rest
  | none => text

/-- Drop a binding such as `const x =` from the front of a text. -/
def dropBinding (word : String) (text : List Char) : List Char :=
  match dropLead? word.toList text with
  | some rest =>
    match cutFirst '=' rest with
    | some (_, value) => trimStart value
    | none => text
  | none => text

/-- Drop the semicolons at the end of a text, and the blanks in front of them. -/
def dropSemicolons (text : List Char) : List Char :=
  trimEnd (text.reverse.dropWhile (· == ';')).reverse

/-- Drop each of the things around a chain once. -/
def unwrapOnce (text : List Char) : List Char :=
  let text := dropSemicolons text
  let text := ["await ", "return "].foldl (fun text word => dropWord word text) text
  ["const ", "let ", "var "].foldl (fun text word => dropBinding word text) text

/-- Drop what is around a chain until nothing more can be dropped. -/
def unwrap : Nat → List Char → List Char
  | 0, text => text
  | bound + 1, text =>
    let next := unwrapOnce text
    if next = text then text else unwrap bound next

/-- Turn each run of blanks outside strings into one space.  `pending` tells that
blanks have been passed, `started` that something stands in front of them. -/
def collapse (quoting : Quoting) (pending started : Bool) : List Char → List Char
  | [] => []
  | c :: rest =>
    if !quoting.isOpen && isBlank c then collapse quoting true started rest
    else
      (if pending && started then [' '] else []) ++
        c :: collapse (quoting.step c) false true rest

/-- The bare chain, without what is around it and with single spaces. -/
def normalize (text : List Char) : List Char :=
  let text := trim text
  collapse .outside false false (unwrap text.length text)

def dropSpaces (text : List Char) : List Char :=
  text.dropWhile (· == ' ')

def unexpected {α : Type} (rest : List Char) : Outcome α :=
  .error (.brokenChain (String.ofList rest))

/-- Pass over type arguments, which stand between angle brackets. -/
def dropTypeArguments : List Char → Outcome (List Char)
  | '<' :: rest =>
    match cutFirst '>' rest with
    | some (_, behind) => .ok (dropSpaces behind)
    | none => unexpected ('<' :: rest)
  | text => .ok text

/-- Read the arguments of a call, if a parenthesis opens here.  `whole` is the
chain, for messages. -/
def readArguments (bound : Nat) (whole text : List Char) :
    Outcome (Option (List Json) × List Char) := do
  match text with
  | '(' :: _ =>
    let (bracket, behind) ← (upToClose bound text).mapError (Fault.ofNesting bound whole)
    -- The bracket still has its opening parenthesis.
    let inner := bracket.drop 1
    let found ← (splitTopLevel ',' bound inner).mapError (Fault.ofNesting bound inner)
    return (some (found.map (argument bound)), behind)
  | _ => return (none, text)

def readSegment (bound : Nat) (whole text : List Char) : Outcome (Segment × List Char) := do
  let text := dropSpaces text
  match text.takeWhile isNameCharacter with
  | [] => unexpected text
  | name =>
    let rest ← dropTypeArguments (dropSpaces (text.dropWhile isNameCharacter))
    let (arguments, behind) ← readArguments bound whole rest
    let segment := match arguments with
      | some values => Segment.call (String.ofList name) values
      | none => .property (String.ofList name)
    return (segment, dropSpaces behind)

/-- Read the segments of a chain.  Each takes at least one character. -/
def readSegments (bound : Nat) (whole : List Char) : Nat → List Char → Outcome (List Segment)
  | 0, text => unexpected text
  | count + 1, text => do
    let (segment, rest) ← readSegment bound whole text
    match rest with
    | [] => return [segment]
    | '?' :: '.' :: rest' | '.' :: rest' =>
      let more ← readSegments bound whole count rest'
      return segment :: more
    | _ => unexpected rest

def segments (bound : Nat) (chain : List Char) : Outcome (List Segment) :=
  readSegments bound chain (chain.length + 1) chain

end QueryNotation.Chain
