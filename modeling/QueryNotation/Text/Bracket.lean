import QueryNotation.Text.Blank

namespace QueryNotation.Text

/-! # Quotes and brackets

One scan carries two things over a text: whether it stands inside a quoted
string, and how many brackets are open.  A string begins with an apostrophe, a
quotation mark or a backquote, ends with the same mark, and a backslash in it
takes the next character along.  Brackets inside strings do not count, and the
three kinds of bracket close each other.

`splitTopLevel` cuts at the separators that stand outside every string and
bracket, `upToClose` finds the end of a bracket, and `findTopLevel` the first
place of a character outside all brackets.
-/

/-- Where a scan stands with respect to strings. -/
inductive Quoting where
  | outside
  | inside (mark : Char)
  | escaped (mark : Char)
deriving DecidableEq, Repr

def isQuoteMark (c : Char) : Bool :=
  c == '\'' || c == '"' || c == '\x60'

namespace Quoting

def step : Quoting → Char → Quoting
  | .outside, c => if isQuoteMark c then .inside c else .outside
  | .inside mark, c =>
    if c = '\\' then .escaped mark else if c = mark then .outside else .inside mark
  | .escaped mark, _ => .inside mark

def covers : Quoting → Char → Bool
  | .outside, c => isQuoteMark c
  | _, _ => true

def isOpen : Quoting → Bool
  | .outside => false
  | _ => true

end Quoting

def isOpener (c : Char) : Bool :=
  c == '(' || c == '[' || c == '{'

def isCloser (c : Char) : Bool :=
  c == ')' || c == ']' || c == '}'

/-- Why a text cannot be scanned. -/
inductive NestingFault where
  /-- More brackets are open than the bound admits. -/
  | tooDeep
  /-- A bracket closes that none opened, or the text ends inside a bracket or string. -/
  | unbalanced
deriving DecidableEq, Repr

/-- The number of open brackets after a character outside strings. -/
def stepDepth (bound depth : Nat) (c : Char) : Except NestingFault Nat :=
  if isOpener c then
    if depth < bound then .ok (depth + 1) else .error .tooDeep
  else if isCloser c then
    match depth with
    | 0 => .error .unbalanced
    | depth + 1 => .ok depth
  else .ok depth

def consFirst (c : Char) : List (List Char) → List (List Char)
  | [] => [[c]]
  | piece :: more => (c :: piece) :: more

/-- The pieces between the separators outside strings and brackets. -/
def topLevelPieces (separator : Char) (bound : Nat) :
    Quoting → Nat → List Char → Except NestingFault (List (List Char))
  | quoting, depth, [] =>
    if depth ≠ 0 || quoting.isOpen then .error .unbalanced else .ok [[]]
  | quoting, depth, c :: rest =>
    if quoting.covers c then
      (topLevelPieces separator bound (quoting.step c) depth rest).map (consFirst c)
    else if c = separator ∧ depth = 0 then
      (topLevelPieces separator bound quoting depth rest).map ([] :: ·)
    else
      match stepDepth bound depth c with
      | .error fault => .error fault
      | .ok depth' => (topLevelPieces separator bound quoting depth' rest).map (consFirst c)

/-- The trimmed pieces between the separators outside strings and brackets.
Empty pieces are dropped, so a separator too many does no harm. -/
def splitTopLevel (separator : Char) (bound : Nat) (text : List Char) :
    Except NestingFault (List (List Char)) :=
  (topLevelPieces separator bound .outside 0 text).map fun found =>
    (found.map trim).filter (!·.isEmpty)

/-- The characters before the closer that brings the depth back to zero, and
those behind it. -/
def scanToClose (bound : Nat) :
    Quoting → Nat → List Char → Except NestingFault (List Char × List Char)
  | _, _, [] => .error .unbalanced
  | quoting, depth, c :: rest =>
    if quoting.covers c then
      (scanToClose bound (quoting.step c) depth rest).map fun (before, after) =>
        (c :: before, after)
    else
      match stepDepth bound depth c with
      | .error fault => .error fault
      | .ok depth' =>
        if depth' = 0 ∧ isCloser c then .ok ([], rest)
        else (scanToClose bound quoting depth' rest).map fun (before, after) => (c :: before, after)

/-- A bracket that `text` begins with: its opener and content, and the text
behind its closer. -/
def upToClose (bound : Nat) (text : List Char) : Except NestingFault (List Char × List Char) :=
  scanToClose bound .outside 0 text

/-- The characters before the first `target` outside strings and brackets, and
those from it on. -/
def scanFor (target : Char) (bound : Nat) :
    Quoting → Nat → List Char → Except NestingFault (Option (List Char × List Char))
  | _, _, [] => .ok none
  | quoting, depth, c :: rest =>
    let prepend := Option.map fun (found : List Char × List Char) => (c :: found.1, found.2)
    if quoting.covers c then
      (scanFor target bound (quoting.step c) depth rest).map prepend
    else if c = target ∧ depth = 0 then .ok (some ([], c :: rest))
    else
      match stepDepth bound depth c with
      | .error fault => .error fault
      | .ok depth' => (scanFor target bound quoting depth' rest).map prepend

/-- Cut `text` in front of the first `target` outside strings and brackets. -/
def findTopLevel (target : Char) (bound : Nat) (text : List Char) :
    Except NestingFault (Option (List Char × List Char)) :=
  scanFor target bound .outside 0 text

end QueryNotation.Text
