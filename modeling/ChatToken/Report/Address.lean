/-! # Socket addresses

Numeric addresses with a port, such as `127.0.0.1:8125` and `[::1]:8125`. Four numbers below 256
without leading zeros make an address of the old kind. Eight groups of up to four hexadecimal digits
make one of the new kind, where `::` stands for groups of zeros and the last two groups may be
written as an address of the old kind.
-/
namespace ChatToken

inductive IpAddress where
  | v4 (a b c d : Nat)
  | v6 (groups : List Nat)
  deriving DecidableEq, Repr

structure SocketAddress where
  ip : IpAddress
  port : Nat
  deriving DecidableEq, Repr

namespace SocketAddress

def digit? (base : Nat) (c : Char) : Option Nat :=
  let v :=
    if '0' ≤ c ∧ c ≤ '9' then some (c.toNat - '0'.toNat)
    else if 'a' ≤ c ∧ c ≤ 'f' then some (c.toNat - 'a'.toNat + 10)
    else if 'A' ≤ c ∧ c ≤ 'F' then some (c.toNat - 'A'.toNat + 10)
    else none
  v.filter (· < base)

def isDigit (base : Nat) (c : Char) : Bool := (digit? base c).isSome

def valueOf (base : Nat) (digits : List Char) : Nat :=
  digits.foldl (fun acc c => acc * base + (digit? base c).getD 0) 0

def number (base most bound : Nat) (leadingZero : Bool) (cs : List Char) :
    Option (Nat × List Char) :=
  let digits := cs.takeWhile (isDigit base)
  let v := valueOf base digits
  if digits.isEmpty || most < digits.length || bound ≤ v then none
  else if !leadingZero && digits.head? == some '0' && 1 < digits.length then none
  else some (v, cs.drop digits.length)

def char (c : Char) : List Char → Option (List Char)
  | d :: rest => if c = d then some rest else none
  | [] => none

def octet (cs : List Char) : Option (Nat × List Char) := number 10 3 256 false cs

def v4 (cs : List Char) : Option (List Nat × List Char) := do
  let (a, cs) ← octet cs
  let (b, cs) ← octet (← char '.' cs)
  let (c, cs) ← octet (← char '.' cs)
  let (d, cs) ← octet (← char '.' cs)
  some ([a, b, c, d], cs)

def groups (taken : Nat) : Nat → List Char → List Nat × Bool × List Char
  | 0, cs => ([], false, cs)
  | room + 1, cs =>
    let body := if taken = 0 then some cs else char ':' cs
    let old := if room = 0 then none else body.bind v4
    match old with
    | some ([a, b, c, d], rest) => ([a * 256 + b, c * 256 + d], true, rest)
    | _ =>
      match body.bind (number 16 4 65536 true) with
      | none => ([], false, cs)
      | some (g, rest) =>
        let (more, last, rest) := groups (taken + 1) room rest
        (g :: more, last, rest)

def v6 (cs : List Char) : Option (List Nat × List Char) := do
  let (front, old, rest) := groups 0 8 cs
  if front.length = 8 then some (front, rest)
  else if old then none
  else
    let rest ← char ':' rest
    let rest ← char ':' rest
    let (back, _, rest) := groups 0 (7 - front.length) rest
    some (front ++ List.replicate (8 - front.length - back.length) 0 ++ back, rest)

def port? (cs : List Char) : Option Nat := do
  let (p, rest) ← number 10 cs.length 65536 true cs
  if rest.isEmpty then some p else none

def ofChars? (cs : List Char) : Option SocketAddress :=
  let old := do
    let (bytes, rest) ← v4 cs
    match bytes with
    | [a, b, c, d] => some { ip := .v4 a b c d, port := ← port? (← char ':' rest) }
    | _ => none
  let new := do
    let (gs, rest) ← v6 (← char '[' cs)
    some { ip := .v6 gs, port := ← port? (← char ':' (← char ']' rest)) }
  old <|> new

def ip? (cs : List Char) : Option IpAddress :=
  match v4 cs, v6 cs with
  | some ([a, b, c, d], []), _ => some (.v4 a b c d)
  | _, some (gs, []) => some (.v6 gs)
  | _, _ => none

def hex (n : Nat) : String := String.ofList (Nat.toDigits 16 n)

def dotted (a b c d : Nat) : String := ".".intercalate ([a, b, c, d].map toString)

def longestZeros (gs : List Nat) : Nat × Nat :=
  (List.range gs.length).foldl (fun best i =>
    let run := ((gs.drop i).takeWhile (· == 0)).length
    if best.2 < run then (i, run) else best) (0, 0)

def groupsText (gs : List Nat) : String := ":".intercalate (gs.map hex)

def shortGroups (gs : List Nat) : String :=
  let (at_, run) := longestZeros gs
  if run < 2 then groupsText gs
  else groupsText (gs.take at_) ++ "::" ++ groupsText (gs.drop (at_ + run))

def v6Text (gs : List Nat) : String :=
  match gs with
  | [0, 0, 0, 0, 0, 0xffff, x, y] => "::ffff:" ++ dotted (x / 256) (x % 256) (y / 256) (y % 256)
  | _ => shortGroups gs

def text (s : SocketAddress) : String :=
  (match s.ip with
    | .v4 a b c d => dotted a b c d
    | .v6 gs => "[" ++ v6Text gs ++ "]") ++ ":" ++ toString s.port

end SocketAddress

end ChatToken
