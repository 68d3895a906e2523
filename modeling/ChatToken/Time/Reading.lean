import ChatToken.Text.Blank
import ChatToken.Time.Span

/-! # Reading spans

A span is written as a sum of numbers with units, such as `1h 30m` or `2.5d`. Every number fits into
64 bits, and so does the sum in seconds. A fraction has to come out as a whole number of seconds, or
of nanoseconds in units up to a minute.
-/
namespace ChatToken.Span

inductive TimeUnit where
  | nanosecond | microsecond | millisecond | second | minute | hour | day | week | month | year
  deriving DecidableEq, Repr

namespace TimeUnit

def names : TimeUnit → List String
  | nanosecond => ["nanos", "nsec", "ns"]
  | microsecond => ["usec", "us", "µs"]
  | millisecond => ["millis", "msec", "ms"]
  | second => ["seconds", "second", "secs", "sec", "s"]
  | minute => ["minutes", "minute", "min", "mins", "m"]
  | hour => ["hours", "hour", "hr", "hrs", "h"]
  | day => ["days", "day", "d"]
  | week => ["weeks", "week", "wk", "wks", "w"]
  | month => ["months", "month", "M"]
  | year => ["years", "year", "yr", "yrs", "y"]

def all : List TimeUnit :=
  [nanosecond, microsecond, millisecond, second, minute, hour, day, week, month, year]

def ofName? (name : List Char) : Option TimeUnit :=
  all.find? fun u => u.names.contains (String.ofList name)

def nanos : TimeUnit → Nat
  | nanosecond => 1
  | microsecond => 1000
  | millisecond => 1000000
  | _ => 0

/-- Units of whole seconds, in seconds. A month has 30.44 days and a year 365.25. -/
def seconds : TimeUnit → Nat
  | second => 1
  | minute => 60
  | hour => 3600
  | day => 86400
  | week => 604800
  | month => 2630016
  | year => 31557600
  | _ => 0

/-- The grain of a fraction of the unit in nanoseconds. A nanosecond has no fractions. -/
def grain? : TimeUnit → Option Nat
  | nanosecond => none
  | microsecond | millisecond | second | minute => some 1
  | _ => some perSecond

end TimeUnit

def wordBound : Nat := Nat.pow 2 64

def word? (n : Nat) : Option Nat := if n < wordBound then some n else none

def plus? (d : Span) (seconds nanos : Nat) : Option Span := do
  let _ ← word? (d.subsecond + nanos)
  let sum : Span := ⟨d.nanos + seconds * perSecond + nanos⟩
  let _ ← word? sum.seconds
  return sum

structure Fraction where
  numerator : Nat
  denominator : Nat

def plusUnits? (d : Span) (n : Nat) (fraction : Option Fraction) (unit : TimeUnit) :
    Option Span := do
  let seconds ← word? (n * unit.seconds)
  let nanos ← word? (n * unit.nanos)
  let d ← d.plus? seconds nanos
  match fraction with
  | none => return d
  | some f =>
    let grain ← unit.grain?
    let total ← word? (f.numerator * ((unit.seconds * perSecond + unit.nanos) / grain))
    if total % f.denominator = 0 then
      let parts := total / f.denominator
      if grain = 1 then d.plus? 0 parts else d.plus? parts 0
    else none

def isUnitChar (c : Char) : Bool := c.isAlpha || c == 'µ'

/-- Reads digits, which may have white space among them, and adds them to a number. -/
def readDigits (n : Nat) : List Char → Option (Nat × List Char)
  | [] => some (n, [])
  | c :: rest =>
    if c.isDigit then do
      let n ← word? (n * 10 + (c.toNat - '0'.toNat))
      readDigits n rest
    else if Text.isBlank c then readDigits n rest
    else some (n, c :: rest)

def readFraction (f : Fraction) : List Char → Option (Fraction × List Char)
  | [] => some (f, [])
  | c :: rest =>
    if c.isDigit then do
      let denominator ← word? (f.denominator * 10)
      let numerator ← word? (f.numerator * 10 + (c.toNat - '0'.toNat))
      readFraction { numerator, denominator } rest
    else if Text.isBlank c then readFraction f rest
    else some (f, c :: rest)

/-- Reads a number with its unit. White space or the next number ends the unit. -/
def readTerm (d : Span) (cs : List Char) : Option (Span × List Char) := do
  let (n, rest) ← readDigits 0 cs
  let (fraction, rest) ←
    match rest with
    | '.' :: rest => do
      let (f, rest) ← readFraction ⟨0, 1⟩ rest
      if f.denominator = 1 then none else pure (some f, rest)
    | _ => pure (none, rest)
  let name := rest.takeWhile isUnitChar
  let rest := rest.drop name.length
  if rest.head?.all fun c => c.isDigit || Text.isBlank c then
    let unit ← TimeUnit.ofName? name
    let d ← d.plusUnits? n fraction unit
    return (d, rest)
  else none

def readTerms : Nat → Span → List Char → Option Span
  | 0, _, _ => none
  | room + 1, d, cs =>
    match cs.dropWhile Text.isBlank with
    | [] => some d
    | c :: rest =>
      if c.isDigit then do
        let (d, rest) ← readTerm d (c :: rest)
        readTerms room d rest
      else none

/-- Reads a span. A single zero needs no unit, and a text without any term is no span. -/
def ofChars? (cs : List Char) : Option Span :=
  if cs = ['0'] then some zero
  else if Text.isBlankText cs then none
  else readTerms (cs.length + 1) zero cs

end ChatToken.Span
