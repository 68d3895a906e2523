/-! # Decimal and binary fractions

A decimal number is rounded to the nearest binary fraction of 53 bits, a half to the even neighbour.
Written out again, such a fraction gets the fewest digits that still round to it, and of those the
nearest, or the larger of two that are equally near.
-/
namespace ChatToken

structure Decimal where
  significand : Nat
  exponent : Int
  deriving DecidableEq, Repr

structure Binary where
  mantissa : Nat
  exponent : Int
  deriving DecidableEq, Repr

/-- The fraction `num / den`, rounded to a whole number, a half to the even one. -/
def roundDiv (num den : Nat) : Nat :=
  let q := num / den
  let twice := 2 * (num % den)
  if twice < den || twice == den && q % 2 == 0 then q else q + 1

def powerParts (base : Nat) (e : Int) : Nat × Nat :=
  if 0 ≤ e then (base.pow e.toNat, 1) else (1, base.pow (-e).toNat)

namespace Binary

def minExponent : Int := -1074

def maxExponent : Int := 971

/-- The nearest number of 53 bits to `num / den`, or nothing if that is beyond the finite ones. -/
def nearest? (num den : Nat) : Option Binary :=
  if num = 0 then some ⟨0, minExponent⟩
  else
    let scaled (q : Int) : Nat × Nat :=
      let (a, b) := powerParts 2 q
      (num * b, den * a)
    let guess := max minExponent ((Nat.log2 num : Int) - Nat.log2 den - 53)
    let (n, d) := scaled guess
    let q := if n / d < Nat.pow 2 53 then guess else guess + 1
    let (n, d) := scaled q
    let m := roundDiv n d
    let r : Binary := if m < Nat.pow 2 53 then ⟨m, q⟩ else ⟨Nat.pow 2 52, q + 1⟩
    if r.exponent ≤ maxExponent then some r else none

/-- The nearest number to a decimal one. Beyond the exponents of finite numbers the size of the
decimal alone decides. -/
def ofDecimal? (d : Decimal) : Option Binary :=
  let magnitude := ((Nat.toDigits 10 d.significand).length : Int) + d.exponent
  if d.significand = 0 || magnitude < -400 then some ⟨0, minExponent⟩
  else if 400 < magnitude then none
  else
    let (a, b) := powerParts 10 d.exponent
    nearest? (d.significand * a) b

/-- The multiple of `10 ^ k` that is nearest to the number, if it rounds to the number. Distances
are counted in quarters of the last bit. -/
def onGrid? (b : Binary) (k : Int) : Option Nat :=
  let (twoNum, twoDen) := powerParts 2 (b.exponent - 2)
  let (tenNum, tenDen) := powerParts 10 k
  let unit := twoNum * tenDen
  let step := tenNum * twoDen
  let below := if b.mantissa = Nat.pow 2 52 && minExponent < b.exponent then 1 else 2
  let value := 4 * b.mantissa * unit
  let low := (4 * b.mantissa - below) * unit
  let high := (4 * b.mantissa + 2) * unit
  let hits (c : Nat) : Bool :=
    if b.mantissa % 2 = 0 then low ≤ c * step && c * step ≤ high
    else low < c * step && c * step < high
  let floor := value / step
  let ceil := floor + 1
  match hits floor, hits ceil with
  | true, true => some (if value - floor * step < ceil * step - value then floor else ceil)
  | true, false => some floor
  | false, true => some ceil
  | false, false => none

def refine (b : Binary) : Nat → Int → Decimal
  | 0, k => ⟨0, k⟩
  | tries + 1, k =>
    match b.onGrid? k with
    | some c => ⟨c, k⟩
    | none => refine b tries (k - 1)

def shortest (b : Binary) : Decimal :=
  if b.mantissa = 0 then ⟨0, 0⟩
  else b.refine 24 (((Nat.log2 b.mantissa : Int) + b.exponent) * 30103 / 100000 + 2)

end Binary

def Decimal.positional (d : Decimal) : List Char :=
  let digits := Nat.toDigits 10 d.significand
  if 0 ≤ d.exponent then
    let zeros := if d.significand = 0 then 0 else d.exponent.toNat
    digits ++ List.replicate zeros '0' ++ ['.', '0']
  else
    let places := (-d.exponent).toNat
    let digits := List.replicate (places + 1 - digits.length) '0' ++ digits
    digits.take (digits.length - places) ++ '.' :: digits.drop (digits.length - places)

end ChatToken
