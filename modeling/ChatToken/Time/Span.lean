/-! # Spans of time

A span is a whole number of nanoseconds. Its text uses the largest of `s`, `ms`, `µs` and `ns` in
which the whole part is not zero, followed by the exact fraction without trailing zeros.
-/
namespace ChatToken

/-- A length of time, exact to the nanosecond. -/
structure Span where
  nanos : Nat
  deriving DecidableEq, Repr, Inhabited

namespace Span

def perSecond : Nat := 1000000000
def perMilli : Nat := 1000000
def perMicro : Nat := 1000

def zero : Span := ⟨0⟩

def ofParts (seconds nanos : Nat) : Span := ⟨seconds * perSecond + nanos⟩

def ofSeconds (seconds : Nat) : Span := ofParts seconds 0

def ofMillis (millis : Nat) : Span := ⟨millis * perMilli⟩

def seconds (d : Span) : Nat := d.nanos / perSecond

def subsecond (d : Span) : Nat := d.nanos % perSecond

theorem ofParts_seconds_subsecond (d : Span) : ofParts d.seconds d.subsecond = d := by
  cases d with
  | mk n => simp [ofParts, seconds, subsecond, Nat.div_add_mod']

def padded (width value : Nat) : List Char :=
  let digits := Nat.toDigits 10 value
  List.replicate (width - digits.length) '0' ++ digits

def dropTrailingZeros (digits : List Char) : List Char :=
  (digits.reverse.dropWhile (· == '0')).reverse

def inUnit (nanos width : Nat) (unit : String) : String :=
  let fraction := dropTrailingZeros (padded width (nanos % Nat.pow 10 width))
  let whole := Nat.toDigits 10 (nanos / Nat.pow 10 width)
  String.ofList (if fraction.isEmpty || width == 0 then whole else whole ++ '.' :: fraction) ++ unit

def text (d : Span) : String :=
  if perSecond ≤ d.nanos then inUnit d.nanos 9 "s"
  else if perMilli ≤ d.nanos then inUnit d.nanos 6 "ms"
  else if perMicro ≤ d.nanos then inUnit d.nanos 3 "µs"
  else inUnit d.nanos 0 "ns"

end Span

end ChatToken
