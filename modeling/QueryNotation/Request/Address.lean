import QueryNotation.Text.Blank
import QueryNotation.Text.Cut
import QueryNotation.Text.Percent
import QueryNotation.Text.Unsigned

namespace QueryNotation.Address

/-! # Absolute addresses

An address begins with `http://` or `https://`; only its path matters, but its
host and port must be well formed.  Dot segments of the path are resolved, and a
backslash separates like a slash.
-/

open Text

/-- Why an address is refused. -/
inductive Fault where
  | emptyHost
  | invalidDomain
  | invalidPort
  | invalidIpv4
  | invalidIpv6
deriving DecidableEq, Repr

def Fault.message : Fault → String
  | .emptyHost => "empty host"
  | .invalidDomain => "invalid international domain name"
  | .invalidPort => "invalid port number"
  | .invalidIpv4 => "invalid IPv4 address"
  | .invalidIpv6 => "invalid IPv6 address"

def isAbsolute (path : List Char) : Bool :=
  "http://".toList.isPrefixOf path || "https://".toList.isPrefixOf path

/-- The characters that separate the parts of a path. -/
def isSlash (c : Char) : Bool :=
  c == '/' || c == '\\'

def endsAuthority (c : Char) : Bool :=
  isSlash c || c == '?' || c == '#'

/-- The ASCII characters that no domain holds. -/
def isForbidden (c : Char) : Bool :=
  isAsciiControl c ||
    [' ', '"', '#', '%', '/', ':', '<', '>', '?', '@', '[', '\\', ']', '^', '\x60', '{', '|',
      '}'].contains c

/-- The number that one part of a numeric host denotes: decimal, octal behind a
zero, hexadecimal behind `0x`. -/
def hostNumber? (part : List Char) : Option Nat :=
  let digits (base : Nat) (text : List Char) : Option Nat :=
    text.foldl
      (fun value c =>
        match value, hexValue? c with
        | some value, some digit => if digit < base then some (value * base + digit) else none
        | _, _ => none)
      (some 0)
  match part with
  | [] => none
  | '0' :: 'x' :: rest | '0' :: 'X' :: rest => digits 16 rest
  | '0' :: rest => digits 8 rest
  | text => digits 10 text

/-- The parts of a host that dots separate, a last empty part left out. -/
def hostParts (host : List Char) : List (List Char) :=
  let parts := pieces (· == '.') host
  if parts.getLast? = some [] ∧ parts.length > 1 then parts.dropLast else parts

def endsInNumber (host : List Char) : Bool :=
  match (hostParts host).getLast? with
  | some last =>
    (!last.isEmpty && last.all Char.isDigit) ||
      match last with
      | '0' :: 'x' :: rest | '0' :: 'X' :: rest => rest.all fun c => (hexValue? c).isSome
      | _ => false
  | none => false

/-- True for a numeric host: at most four numbers, of which the last fills the
bytes that the others leave. -/
def isIpv4 (host : List Char) : Bool :=
  match (hostParts host).mapM hostNumber? with
  | none => false
  | some numbers =>
    match numbers.getLast? with
    | none => false
    | some last =>
      numbers.length ≤ 4 && numbers.dropLast.all (· ≤ 255) &&
        last < 1 <<< (8 * (5 - numbers.length))

def checkHost (host : List Char) : Except Fault Unit :=
  match host with
  | [] => .error .emptyHost
  | '[' :: rest =>
    match dropTail? [']'] rest with
    | some inner =>
      if inner.any (· == ':') && inner.all (fun c => (hexValue? c).isSome || c == ':' || c == '.')
      then .ok ()
      else .error .invalidIpv6
    | none => .error .invalidIpv6
  | _ =>
    let domain := decodeUtf8 (percentDecode (encodeUtf8 host))
    if domain.any isForbidden then .error .invalidDomain
    else if endsInNumber domain && !isIpv4 domain then .error .invalidIpv4
    else .ok ()

/-- Check the port of an address, which may be empty. -/
def checkPort (port : List Char) : Except Fault Unit :=
  if port.all Char.isDigit && digitsValue 0 port ≤ 65535 then .ok ()
  else .error .invalidPort

/-- The host and the port of an authority behind its user, if it names one.
A colon inside brackets does not begin a port. -/
def splitPort (authority : List Char) : List Char × Option (List Char) :=
  match authority with
  | '[' :: _ =>
    match cutLast ']' authority with
    | some (inner, ':' :: port) => (inner ++ [']'], some port)
    | some (inner, _) => (inner ++ [']'], none)
    | none => (authority, none)
  | _ =>
    match cutFirst ':' authority with
    | some (host, port) => (host, some port)
    | none => (authority, none)

/-- True for a segment that stands for the place itself. -/
def isDot (segment : List Char) : Bool :=
  [".", "%2e"].contains (String.ofList segment).toLower

/-- True for a segment that stands for the place above. -/
def isDoubleDot (segment : List Char) : Bool :=
  ["..", ".%2e", "%2e.", "%2e%2e"].contains (String.ofList segment).toLower

/-- Resolve the dot segments; `above` holds the segments passed, backwards. -/
def resolve (above : List (List Char)) : List (List Char) → List (List Char)
  | [] => above.reverse
  | segment :: rest =>
    if isDoubleDot segment then
      resolve (if rest.isEmpty then [] :: above.drop 1 else above.drop 1) rest
    else if isDot segment then resolve (if rest.isEmpty then [] :: above else above) rest
    else resolve (segment :: above) rest

def path (address : List Char) : Except Fault (List Char) := do
  let address := address.filter fun c => c != '\t' && c != '\n' && c != '\r'
  let behindScheme := (address.dropWhile (· != ':')).drop 1
  let rest := behindScheme.dropWhile isSlash
  let authority := rest.takeWhile (!endsAuthority ·)
  let (host, port) := splitPort (((cutLast '@' authority).map Prod.snd).getD authority)
  checkHost host
  checkPort (port.getD [])
  let path := (rest.dropWhile (!endsAuthority ·)).takeWhile fun c => c != '?' && c != '#'
  let segments := resolve [] ((pieces isSlash path).drop 1)
  return '/' :: List.intercalate ['/'] segments

end QueryNotation.Address
