namespace QueryNotation.Sql

/-! # SQL tokens

Constants, names and the tokens that a statement is cut into, with their text.
-/

/-- Repeat `mark` where it stands alone.  A pair of marks, and a mark behind a
backslash, stay as they are, so a text that is quoted already is left alone. -/
def repeatMark (mark : Char) (previous : Char) : List Char → List Char
  | [] => []
  | c :: rest =>
    if c = mark then
      if previous = '\\' then c :: repeatMark mark previous rest
      else
        match rest with
        | [] => [mark, mark]
        | d :: rest' =>
          if d = mark then mark :: mark :: repeatMark mark mark rest'
          else mark :: mark :: repeatMark mark mark (d :: rest')
    else c :: repeatMark mark c rest

def quoteWith (mark : Char) (text : String) : String :=
  String.ofList (mark :: repeatMark mark '\x00' text.toList ++ [mark])

/-- A constant of a statement. -/
inductive Constant where
  /-- The digits as they stand; `long` when an `L` follows them. -/
  | number (digits : String) (long : Bool)
  | string (text : String)
  /-- `E'…'`, with its escapes undone. -/
  | escaped (text : String)
  /-- `N'…'` -/
  | national (text : String)
  /-- `X'…'` -/
  | hexadecimal (text : String)
  /-- `B'…'` -/
  | bits (text : String)
  /-- `U&'…'`, with its escapes undone. -/
  | unicode (text : String)
  /-- `$tag$…$tag$` -/
  | dollar (tag : String) (text : String)
  /-- A parameter to be bound. -/
  | parameter (name : String)
  | bool (value : Bool)
  | null
deriving DecidableEq, Repr

def escapedCharacter (c : Char) : List Char :=
  if c = '\'' then ['\\', '\'']
  else if c = '\\' then ['\\', '\\']
  else if c = '\n' then ['\\', 'n']
  else if c = '\t' then ['\\', 't']
  else if c = '\r' then ['\\', 'r']
  else [c]

/-- The hexadecimal digits of a number, at least `width` of them. -/
def hexDigits (width value : Nat) : List Char :=
  let digits := (Nat.toDigits 16 value).map Char.toUpper
  List.replicate (width - digits.length) '0' ++ digits

def unicodeCharacter (c : Char) : List Char :=
  if c = '\'' then ['\'', '\'']
  else if c = '\\' then ['\\', '\\']
  else if c.toNat < 0x80 then [c]
  else if c.toNat ≤ 0xFFFF then '\\' :: hexDigits 4 c.toNat
  else '\\' :: '+' :: hexDigits 6 c.toNat

def Constant.text : Constant → String
  | .number digits long => if long then digits ++ "L" else digits
  | .string text => quoteWith '\'' text
  | .escaped text => String.ofList ('E' :: '\'' :: text.toList.flatMap escapedCharacter ++ ['\''])
  | .national text => "N'" ++ text ++ "'"
  | .hexadecimal text => "X'" ++ text ++ "'"
  | .bits text => "B'" ++ text ++ "'"
  | .unicode text =>
    String.ofList ('U' :: '&' :: '\'' :: text.toList.flatMap unicodeCharacter ++ ['\''])
  | .dollar tag text => "$" ++ tag ++ "$" ++ text ++ "$" ++ tag ++ "$"
  | .parameter name => name
  | .bool value => if value then "true" else "false"
  | .null => "NULL"

/-- A name, with the mark that it stands between. -/
structure Name where
  value : String
  mark : Option Char := none
deriving DecidableEq, Repr

def Name.text (name : Name) : String :=
  match name.mark with
  | some mark => quoteWith mark name.value
  | none => name.value

def Name.path (names : List Name) : String :=
  String.intercalate "." (names.map Name.text)

/-- A token of a statement. -/
inductive Token where
  /-- A keyword or a name; `quoted` when it stands between quotation marks. -/
  | word (text : String) (quoted : Bool)
  | constant (value : Constant)
  /-- An operator or a punctuation mark of the language. -/
  | symbol (text : String)
  /-- A run of operator characters that is no operator of the language. -/
  | customOperator (text : String)
deriving DecidableEq, Repr

/-- The word in capitals, if the token may be a keyword. -/
def Token.keyword? : Token → Option String
  | .word text false => some (String.ofList (text.toList.map Char.toUpper))
  | _ => none

end QueryNotation.Sql
