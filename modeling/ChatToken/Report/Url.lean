import ChatToken.Report.Address
import ChatToken.Text.Punycode

/-! # Locators

A locator names a scheme and, behind two slashes, who asks, a host and a port, and then a path. In
the schemes of the web a path always starts with a slash, backslashes count as slashes, and a host
is written in lower case or as an address in its shortest form. Characters that may not stand in a
part are written as octets behind percent signs. Queries and fragments are not kept.
-/
namespace ChatToken

structure Url where
  scheme : List Char
  /-- Empty if nobody is named. -/
  user : List Char := []
  password : Option (List Char) := none
  host : Option (List Char) := none
  /-- The port, unless it is the usual one of the scheme. -/
  port : Option Nat := none
  path : List Char
  deriving DecidableEq, Repr

namespace Url

/-! ## Characters -/

def hexPair (n : Nat) : List Char :=
  let digit (d : Nat) : Char := if d < 10 then Char.ofNat (48 + d) else Char.ofNat (55 + d)
  [digit (n / 16), digit (n % 16)]

def percentEncoded (c : Char) : List Char :=
  (String.singleton c).toUTF8.toList.flatMap fun b => '%' :: hexPair b.toNat

def encode (reserved : List Char) (cs : List Char) : List Char :=
  cs.flatMap fun c =>
    if c < ' ' || '~' < c || reserved.contains c then percentEncoded c else [c]

def pathReserved : List Char := " \"<>`#?\x7b\x7d".toList

def userReserved : List Char := pathReserved ++ "/:;=@[\\]^|".toList

def decodeOctets : List Char → List UInt8
  | [] => []
  | c :: rest =>
    match c, rest with
    | '%', x :: y :: more =>
      match SocketAddress.digit? 16 x, SocketAddress.digit? 16 y with
      | some h, some l => UInt8.ofNat (h * 16 + l) :: decodeOctets more
      | _, _ => '%'.toNat.toUInt8 :: decodeOctets (x :: y :: more)
    | c, rest => (String.singleton c).toUTF8.toList ++ decodeOctets rest

/-- Spaces and control characters around a locator are ignored, and so are line ends and tabs inside
it. -/
def trimmed (cs : List Char) : List Char :=
  let drop (cs : List Char) := cs.dropWhile (· ≤ ' ')
  ((drop (drop cs).reverse).reverse).filter fun c => c != '\t' && c != '\n' && c != '\r'

/-! ## Schemes -/

def scheme? (cs : List Char) : Option (List Char × List Char) :=
  let name := cs.takeWhile fun c => c.isAlphanum || c == '+' || c == '-' || c == '.'
  match cs.drop name.length with
  | ':' :: rest =>
    if name.head?.any Char.isAlpha then some (name.map Char.toLower, rest) else none
  | _ => none

def webSchemes : List (List Char × Nat) :=
  [("http".toList, 80), ("https".toList, 443), ("ws".toList, 80), ("wss".toList, 443),
    ("ftp".toList, 21)]

def usualPort? (scheme : List Char) : Option Nat := (webSchemes.find? (·.1 = scheme)).map (·.2)

def isWeb (scheme : List Char) : Bool := (usualPort? scheme).isSome

/-! ## Hosts -/

/-- The value of a part of an address: octal behind a zero, hexadecimal behind `0x`. -/
def addressPart? (cs : List Char) : Option Nat :=
  let digits (base : Nat) (ds : List Char) : Option Nat :=
    if ds.all (SocketAddress.isDigit base) then some (SocketAddress.valueOf base ds) else none
  match cs with
  | [] => none
  | '0' :: 'x' :: ds => digits 16 ds
  | '0' :: 'X' :: ds => digits 16 ds
  | '0' :: d :: ds => digits 8 (d :: ds)
  | ds => digits 10 ds

def splitOn (sep : Char) : List Char → List (List Char)
  | [] => [[]]
  | c :: rest =>
    match splitOn sep rest with
    | part :: parts => if c = sep then [] :: part :: parts else (c :: part) :: parts
    | [] => [[]]

def labels (host : List Char) : List (List Char) :=
  let parts := splitOn '.' host
  if 1 < parts.length && parts.getLast? == some [] then parts.dropLast else parts

/-- A host whose last label is a number has to be an address. -/
def endsInNumber (host : List Char) : Bool :=
  match (labels host).getLast? with
  | some [] => false
  | some last => last.all Char.isDigit || "0x".toList.isPrefixOf last && (addressPart? last).isSome
  | none => false

/-- An address of up to four parts, of which the last one fills what the others leave. -/
def address? (host : List Char) : Option (List Char) := do
  let parts ← (labels host).mapM addressPart?
  let last ← parts.getLast?
  let front := parts.dropLast
  if 3 < front.length || front.any (255 < ·) || Nat.pow 256 (4 - front.length) ≤ last then none
  else
    let value := (List.range front.length).foldl
      (fun v i => v + front.getD i 0 * Nat.pow 256 (3 - i)) last
    return (SocketAddress.dotted (value / 16777216) (value / 65536 % 256) (value / 256 % 256)
      (value % 256)).toList

def forbiddenInHost (c : Char) : Bool := c ≤ ' ' || "#/:<>?@[\\]^|%\x7f".toList.contains c

def webHost? (host : List Char) : Option (List Char) :=
  match host with
  | '[' :: rest =>
    if rest.getLast? = some ']' then
      match SocketAddress.v6 rest.dropLast with
      | some (groups, []) => some ('[' :: (SocketAddress.shortGroups groups).toList ++ [']'])
      | _ => none
    else none
  | _ => do
    let decoded ← String.fromUTF8? (ByteArray.mk (decodeOctets host).toArray)
    let parts := (splitOn '.' (decoded.toList.map Char.toLower)).map Text.Punycode.label
    let name := ['.'].intercalate parts
    if name.isEmpty || name.any forbiddenInHost then none
    else if endsInNumber name then address? name
    else return name

/-! ## Authorities -/

def splitUser (cs : List Char) : Option (List Char) × List Char :=
  if cs.contains '@' then
    let host := (cs.reverse.takeWhile (· != '@')).reverse
    (some (cs.take (cs.length - host.length - 1)), host)
  else (none, cs)

/-- Splits a host from its port. A colon in square brackets belongs to the host. -/
def splitPort (cs : List Char) : List Char × Option (List Char) :=
  let inside := if cs.head? = some '[' then (cs.takeWhile (· != ']')).length else 0
  let host := cs.take inside ++ (cs.drop inside).takeWhile (· != ':')
  match cs.drop host.length with
  | ':' :: port => (host, some port)
  | _ => (host, none)

def port? (scheme port : List Char) : Option (Option Nat) :=
  if !port.all Char.isDigit then none
  else
    let n := SocketAddress.valueOf 10 port
    if 65535 < n then none
    else some (if port.isEmpty || usualPort? scheme = some n then none else some n)

def authority? (scheme cs : List Char) : Option Url := do
  let (user, rest) := splitUser cs
  let (host, port) := splitPort rest
  let web := isWeb scheme
  let named := (user.getD []).takeWhile (· != ':')
  let secret := ((user.getD []).drop named.length).drop 1
  let host ←
    if web then webHost? host
    else if host.any fun c => forbiddenInHost c && c != '%' then none
    else some host
  if host.isEmpty && (user.isSome || port.isSome) then none
  else
    return {
      scheme
      user := encode userReserved named
      password := if secret.isEmpty then none else some (encode userReserved secret)
      host := some host
      port := ← port? scheme (port.getD [])
      path := [] }

/-! ## Paths -/

def isDot (segment : List Char) : Bool :=
  segment == ['.'] || segment.map Char.toLower == "%2e".toList

def isDoubleDot (segment : List Char) : Bool :=
  ["..", ".%2e", "%2e.", "%2e%2e"].any fun s => segment.map Char.toLower == s.toList

/-- Follows the segments of a path. The last one leaves an empty segment if it is made of dots. -/
def follow (done : List (List Char)) : List (List Char) → List (List Char)
  | [] => done
  | [last] =>
    if isDoubleDot last then done.dropLast ++ [[]]
    else if isDot last then done ++ [[]]
    else done ++ [last]
  | segment :: rest =>
    if isDoubleDot segment then follow done.dropLast rest
    else if isDot segment then follow done rest
    else follow (done ++ [segment]) rest

def pathOf (cs : List Char) : List Char :=
  (follow [] (splitOn '/' cs)).flatMap fun segment => '/' :: encode pathReserved segment

def ofChars? (cs : List Char) : Option Url := do
  let (scheme, rest) ← scheme? (trimmed cs)
  let rest := rest.takeWhile fun c => c != '?' && c != '#'
  let slashes := fun cs => List.map (fun c => if c = '\\' then '/' else c) cs
  if isWeb scheme then
    let rest := (slashes rest).dropWhile (· == '/')
    let named := rest.takeWhile (· != '/')
    let url ← authority? scheme named
    return { url with path := pathOf ((rest.drop named.length).drop 1) }
  else if scheme = "file".toList then
    let rest := slashes rest
    let rest := if "//".toList.isPrefixOf rest then (rest.drop 2).dropWhile (· != '/') else rest
    return { scheme, path := pathOf (if rest.head? = some '/' then rest.drop 1 else rest) }
  else
    match rest with
    | '/' :: '/' :: rest =>
      let named := rest.takeWhile (· != '/')
      let url ← authority? scheme named
      let behind := rest.drop named.length
      return { url with path := if behind.isEmpty then [] else pathOf (behind.drop 1) }
    | '/' :: rest => return { scheme, path := pathOf rest }
    | opaque_ => return { scheme, path := encode [] opaque_ }

end Url

end ChatToken
