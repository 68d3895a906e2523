/-! # Names in ASCII

A name with other characters is written with its ASCII characters first. Behind a hyphen follow, in
the order of the other characters, the numbers that say how far each of them is from the one before,
in characters and in places. A number is written in base 36 with its last digit marked by being
small, where what counts as small adapts to the size of the numbers before.
-/
namespace ChatToken.Text.Punycode

def base : Nat := 36

def digit (d : Nat) : Char := if d < 26 then Char.ofNat (97 + d) else Char.ofNat (22 + d)

/-- Divides by 35 until at most 455 is left, and counts the divisions. -/
def shrink : Nat → Nat → Nat → Nat × Nat
  | 0, delta, k => (delta, k)
  | steps + 1, delta, k =>
    if 455 < delta then shrink steps (delta / 35) (k + base) else (delta, k)

def adapt (delta points : Nat) (first : Bool) : Nat :=
  let delta := if first then delta / 700 else delta / 2
  let (delta, k) := shrink 16 (delta + delta / points) 0
  k + 36 * delta / (delta + 38)

def number (bias : Nat) : Nat → Nat → Nat → List Char
  | 0, _, _ => []
  | room + 1, q, k =>
    let t := max 1 (min 26 (k - bias))
    if q < t then [digit q]
    else digit (t + (q - t) % (base - t)) :: number bias room ((q - t) / (base - t)) (k + base)

structure State where
  delta : Nat := 0
  bias : Nat := 72
  written : Nat
  out : List Char

def insert (n basics : Nat) (s : State) (c : Char) : State :=
  if c.toNat < n then { s with delta := s.delta + 1 }
  else if c.toNat = n then
    { delta := 0
      bias := adapt s.delta (s.written + 1) (s.written == basics)
      written := s.written + 1
      out := s.out ++ number s.bias 40 s.delta base }
  else s

def insertFrom (name : List Char) (basics : Nat) : Nat → Nat → State → List Char
  | 0, _, s => s.out
  | room + 1, n, s =>
    match (name.map Char.toNat).filter (n ≤ ·) with
    | [] => s.out
    | m :: ms =>
      let next := ms.foldl min m
      let s := { s with delta := s.delta + (next - n) * (s.written + 1) }
      let s := name.foldl (insert next basics) s
      insertFrom name basics room (next + 1) { s with delta := s.delta + 1 }

def encode (name : List Char) : List Char :=
  let basics := name.filter fun c => c.toNat < 128
  let out := if basics.isEmpty then [] else basics ++ ['-']
  insertFrom name basics.length name.length 128 { written := basics.length, out }

def label (name : List Char) : List Char :=
  if name.all fun c => c.toNat < 128 then name else 'x' :: 'n' :: '-' :: '-' :: encode name

end ChatToken.Text.Punycode
