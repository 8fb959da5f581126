namespace QueryNotation.Text

/-! # UTF-8

Characters are written as one to four bytes.  Reading accepts any bytes: each
longest beginning of a character that is not continued counts as one
replacement character, as does each byte that can begin none.
-/

def encodeUtf8 (text : List Char) : List UInt8 :=
  text.flatMap String.utf8EncodeChar

def replacement : Char := '\uFFFD'

def isContinuation (byte : UInt8) : Bool :=
  0x80 ≤ byte && byte ≤ 0xBF

/-- The second bytes that may follow the first byte of three. -/
def isSecondOfThree (first second : UInt8) : Bool :=
  if first = 0xE0 then 0xA0 ≤ second && second ≤ 0xBF
  else if first = 0xED then 0x80 ≤ second && second ≤ 0x9F
  else isContinuation second

/-- The second bytes that may follow the first byte of four. -/
def isSecondOfFour (first second : UInt8) : Bool :=
  if first = 0xF0 then 0x90 ≤ second && second ≤ 0xBF
  else if first = 0xF4 then 0x80 ≤ second && second ≤ 0x8F
  else isContinuation second

/-- The character of a code put together from payload bits. -/
def ofPayload (high : Nat) (continuations : List UInt8) : Char :=
  Char.ofNat (continuations.foldl (fun code byte => code * 64 + byte.toNat % 64) high)

/-- The text that the bytes denote. -/
def decodeUtf8 : List UInt8 → List Char
  | [] => []
  | a :: rest =>
    if a < 0x80 then Char.ofNat a.toNat :: decodeUtf8 rest
    else if 0xC2 ≤ a && a ≤ 0xDF then
      match rest with
      | b :: rest' =>
        if isContinuation b then ofPayload (a.toNat % 32) [b] :: decodeUtf8 rest'
        else replacement :: decodeUtf8 (b :: rest')
      | [] => [replacement]
    else if 0xE0 ≤ a && a ≤ 0xEF then
      match rest with
      | b :: rest' =>
        if isSecondOfThree a b then
          match rest' with
          | c :: rest'' =>
            if isContinuation c then ofPayload (a.toNat % 16) [b, c] :: decodeUtf8 rest''
            else replacement :: decodeUtf8 (c :: rest'')
          | [] => [replacement]
        else replacement :: decodeUtf8 (b :: rest')
      | [] => [replacement]
    else if 0xF0 ≤ a && a ≤ 0xF4 then
      match rest with
      | b :: rest' =>
        if isSecondOfFour a b then
          match rest' with
          | c :: rest'' =>
            if isContinuation c then
              match rest'' with
              | d :: rest''' =>
                if isContinuation d then
                  ofPayload (a.toNat % 8) [b, c, d] :: decodeUtf8 rest'''
                else replacement :: decodeUtf8 (d :: rest''')
              | [] => [replacement]
            else replacement :: decodeUtf8 (c :: rest'')
          | [] => [replacement]
        else replacement :: decodeUtf8 (b :: rest')
      | [] => [replacement]
    else replacement :: decodeUtf8 rest

end QueryNotation.Text
