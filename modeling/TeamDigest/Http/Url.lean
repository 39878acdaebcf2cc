import TeamDigest.Error
import TeamDigest.Text.Percent
import TeamDigest.Text.Pieces

/-!
# Addresses of web resources

Addresses are read leniently, as browsers read them: slashes may lean either
way, the case of scheme and host does not matter, dot segments are resolved,
and characters that must not stand in an address are percent-coded.  The
written form of an address is then unique.
-/

namespace TeamDigest.Http

open Text

/-- The address of a web resource. -/
structure Url where
  scheme : String
  /-- User name and password, where the address holds them. -/
  login : Option (String × String)
  host : String
  /-- The port, where it is not the usual one of the scheme. -/
  port : Option Nat
  /-- The path, from its first slash on. -/
  path : String
  query : Option String
  fragment : Option String
  deriving DecidableEq

namespace Url

/-! ## Characters -/

/-- Control characters and characters beyond ASCII are never kept. -/
def isPlain (c : Char) : Bool := 0x20 < c.toNat && c.toNat < 0x7F

/-- What may stand in a fragment. -/
def keptInFragment (c : Char) : Bool :=
  isPlain c && c ≠ '"' && c ≠ '<' && c ≠ '>' && c ≠ '\x60'

/-- What may stand in a path. -/
def keptInPath (c : Char) : Bool :=
  keptInFragment c && c ≠ '#' && c ≠ '?' && c ≠ '\x7b' && c ≠ '\x7d'

/-- What may stand in a query. -/
def keptInQuery (c : Char) : Bool :=
  isPlain c && c ≠ '"' && c ≠ '<' && c ≠ '>' && c ≠ '#' && c ≠ '\x27'

/-- Holds of both kinds of slash. -/
def isSlash (c : Char) : Bool := c = '/' || c = '\\'

/-- What must not stand in the name of a host. -/
def isForbiddenInHost (c : Char) : Bool :=
  c.toNat ≤ 0x20 || 0x7F ≤ c.toNat || "#/:<>?@[\\]^|%".toList.contains c

/-! ## Hosts -/

/-- A number of a numeric address: hexadecimal after `0x`, octal after `0`,
else decimal. -/
def hostNumber? (cs : List Char) : Option Nat :=
  let value? (base : Nat) (ds : List Char) : Option Nat :=
    ds.foldlM (fun n c => do
      let d ← hexValue? c
      if d < base then some (n * base + d) else none) 0
  match cs with
  | [] => none
  | '0' :: x :: rest =>
    if x = 'x' || x = 'X' then value? 16 rest else value? 8 (x :: rest)
  | _ => value? 10 cs

/-- Holds of names whose last part is a number, so that they can only be
numeric addresses. -/
def endsInNumber (parts : List (List Char)) : Bool :=
  let parts := match parts.reverse with
    | [] :: (p :: rest) => p :: rest
    | all => all
  match parts with
  | [] => false
  | last :: _ => !last.isEmpty && (last.all isAsciiDigit || (hostNumber? last).isSome)

/-- The value of a numeric address: all numbers but the last are bytes, and the
last one fills the bytes that are left. -/
def ipv4Value? (parts : List (List Char)) : Option Nat := do
  let parts := match parts.reverse with
    | [] :: (p :: rest) => (p :: rest).reverse
    | _ => parts
  if 4 < parts.length then none
  let numbers ← parts.mapM hostNumber?
  let last ← numbers.getLast?
  let bytes := numbers.dropLast
  if bytes.any (255 < ·) || Nat.pow 256 (4 - bytes.length) ≤ last then none
  let head := bytes.foldl (fun n byte => n * 256 + byte) 0
  some (head * Nat.pow 256 (4 - bytes.length) + last)

/-- A numeric address in its usual form. -/
def ipv4Text (n : Nat) : String :=
  join "." ([n / 16777216, n / 65536 % 256, n / 256 % 256, n % 256].map decimal)

/-- The host that is meant. -/
def readHost (cs : List Char) : Except UrlFault String :=
  match cs with
  | '[' :: rest =>
    let isPart (c : Char) : Bool := (hexValue? c).isSome || c = ':' || c = '.'
    if rest.getLast? = some ']' && rest.dropLast.all isPart then
      .ok (String.ofList (cs.map Char.toLower))
    else .error .invalidIpv6
  | _ =>
    match percentDecode? cs with
    | none => .error .invalidHost
    | some decoded =>
      let name := decoded.map Char.toLower
      if name.isEmpty then .error .emptyHost
      else if name.any isForbiddenInHost then .error .invalidHost
      else
        let parts := cut '.' name
        if endsInNumber parts then
          match ipv4Value? parts with
          | some n => .ok (ipv4Text n)
          | none => .error .invalidIpv4
        else .ok (String.ofList name)

/-- The usual port of a scheme. -/
def usualPort (scheme : String) : Nat := if scheme = "https" then 443 else 80

/-- The port behind a host, without its colon. -/
def readPort (scheme : String) (cs : List Char) : Except UrlFault (Option Nat) :=
  if cs.isEmpty then .ok none
  else if cs.all isAsciiDigit && numeralValue cs < 65536 then
    .ok (if numeralValue cs = usualPort scheme then none else some (numeralValue cs))
  else .error .invalidPort

/-- The host and the port; colons inside of brackets belong to the host. -/
def hostAndPort (cs : List Char) : List Char × List Char :=
  let bracketed := cs.takeWhile (· ≠ ']')
  let (inside, outside) :=
    if cs.head? = some '[' && bracketed.length < cs.length then
      (cs.take (bracketed.length + 1), cs.drop (bracketed.length + 1))
    else ([], cs)
  (inside ++ outside.takeWhile (· ≠ ':'), (outside.dropWhile (· ≠ ':')).drop 1)

/-- Splits user name and password off, up to the last commercial at. -/
def splitLogin (cs : List Char) : Option (String × String) × List Char :=
  match (cut '@' cs).reverse with
  | last :: first :: rest =>
    let info := (join "@" ((first :: rest).reverse.map String.ofList)).toList
    let decode (cs : List Char) : String := String.ofList ((percentDecode? cs).getD cs)
    let name := info.takeWhile (· ≠ ':')
    let password := (info.dropWhile (· ≠ ':')).drop 1
    (if info.isEmpty then none else some (decode name, decode password), last)
  | _ => (none, cs)

/-! ## Paths -/

/-- Segments that stand for the directory itself. -/
def isDot (segment : List Char) : Bool :=
  let s := segment.map Char.toLower
  s = ['.'] || s = ['%', '2', 'e']

/-- Segments that stand for the directory above. -/
def isDotDot (segment : List Char) : Bool :=
  let s := String.ofList (segment.map Char.toLower)
  ["..", ".%2e", "%2e.", "%2e%2e"].contains s

/-- The segments with dots resolved, last one first. -/
def resolve : List (List Char) → List (List Char) → List (List Char)
  | done, [] => done
  | done, [s] =>
    if isDotDot s then [] :: done.drop 1 else if isDot s then [] :: done else s :: done
  | done, s :: t :: rest =>
    if isDotDot s then resolve (done.drop 1) (t :: rest)
    else if isDot s then resolve done (t :: rest)
    else resolve (s :: done) (t :: rest)

/-- The path that is meant, given what stands between host and query. -/
def pathText (cs : List Char) : String :=
  let cs := cs.map fun c => if c = '\\' then '/' else c
  let segments := cut '/' (if cs.head? = some '/' then cs.drop 1 else cs)
  let resolved := (resolve [] segments).reverse
  String.join (resolved.map fun s => "/" ++ String.ofList (percentEncode keptInPath s))

/-! ## Addresses -/

/-- The scheme in front of the first colon, in lower case. -/
def splitScheme? (cs : List Char) : Option (String × List Char) := do
  let (scheme, rest) ← splitAtFirst ':' cs
  let isLetter (c : Char) : Bool := ('a' ≤ c && c ≤ 'z') || ('A' ≤ c && c ≤ 'Z')
  let first ← scheme.head?
  if isLetter first &&
      scheme.all (fun c => isLetter c || isAsciiDigit c || c = '+' || c = '-' || c = '.') then
    some (String.ofList (scheme.map Char.toLower), rest)
  else none

/-- Without the blanks around it, and without tabs and line ends. -/
def cleaned (cs : List Char) : List Char :=
  let isOuter (c : Char) : Bool := c.toNat ≤ 0x20
  let cs := (cs.dropWhile isOuter).reverse.dropWhile isOuter |>.reverse
  cs.filter fun c => c ≠ '\t' && c ≠ '\n' && c ≠ '\r'

/-- What follows the scheme of a web address. -/
def ofRest (scheme : String) (rest : List Char) : Except UrlFault Url := do
  let rest := rest.dropWhile isSlash
  let endsAuthority (c : Char) : Bool := isSlash c || c = '?' || c = '#'
  let authority := rest.takeWhile fun c => !endsAuthority c
  let rest := rest.dropWhile fun c => !endsAuthority c
  let (login, authority) := splitLogin authority
  let (hostPart, portPart) := hostAndPort authority
  let host ← readHost hostPart
  let port ← readPort scheme portPart
  let beforeFragment := rest.takeWhile (· ≠ '#')
  let fragment := rest.dropWhile (· ≠ '#')
  let path := beforeFragment.takeWhile (· ≠ '?')
  let query := beforeFragment.dropWhile (· ≠ '?')
  let part? (keeps : Char → Bool) : List Char → Option String
    | [] => none
    | _ :: cs => some (String.ofList (percentEncode keeps cs))
  pure
    { scheme, login, host, port, path := pathText path
      query := part? keptInQuery query
      fragment := part? keptInFragment fragment }

/-- Reads an address. -/
def read (s : String) : Except TransportFault Url :=
  let cs := cleaned s.toList
  match splitScheme? cs with
  | none => .error (.url .noScheme)
  | some (scheme, rest) =>
    if scheme = "http" || scheme = "https" then
      match ofRest scheme rest with
      | .ok url => .ok url
      | .error fault => .error (.url fault)
    else .error (.scheme (scheme ++ ":" ++ String.ofList rest))

/-- The address as text, without user name and password. -/
def text (u : Url) : String :=
  u.scheme ++ "://" ++ u.host ++
    ((u.port.map fun p => ":" ++ decimal p).getD "") ++ u.path ++
    ((u.query.map ("?" ++ ·)).getD "") ++ ((u.fragment.map ("#" ++ ·)).getD "")

/-- Pairs of names and values as they stand in a query. -/
def formText (pairs : List (String × String)) : String :=
  join "&" (pairs.map fun (name, value) =>
    String.ofList (formEncode name.toList) ++ "=" ++ String.ofList (formEncode value.toList))

/-- The address with more pairs in its query. -/
def addPairs (u : Url) (pairs : List (String × String)) : Url :=
  let before := (u.query.filter (· ≠ "")).map (· ++ "&")
  { u with query := some (before.getD "" ++ formText pairs) }

end Url

end TeamDigest.Http
