import ChatToken.Time.Span

/-! # Instants and timers

An instant is a number of nanoseconds on a clock that starts at zero. Timers run in whole
milliseconds, which are called ticks: a timer is due at the first tick that is not before its
deadline, and goes off once the ticks up to that one have been sounded. Timers that go off together
do so in the order of their ticks and then in the order in which they were set, which their tickets
record.
-/
namespace ChatToken

namespace Clock

def tick (now : Nat) : Nat := now / Span.perMilli

/-- The first tick that is not before `deadline`. -/
def dueTick (deadline : Nat) : Nat := (deadline + (Span.perMilli - 1)) / Span.perMilli

def horizon : Nat := Nat.pow 2 63 * Span.perSecond

/-- How far away a deadline is set that would lie beyond the clock's range. -/
def farAway : Span := Span.ofSeconds (86400 * 365 * 30)

def deadline (now : Nat) (d : Span) : Nat :=
  if now + d.nanos < horizon then now + d.nanos else now + farAway.nanos

/-- The instant after `now` at which the clock has just reached the tick `t`, if it moves in whole
milliseconds. -/
def jump (now : Nat) (t : Nat) : Nat := now + (t - tick now) * Span.perMilli

def elapsed (earlier later : Nat) : Span := ⟨later - earlier⟩

theorem tick_dueTick_le (deadline now : Nat) :
    dueTick deadline ≤ tick now → deadline ≤ now := by
  intro h
  simp only [dueTick, tick, Span.perMilli] at h
  omega

end Clock

/-- A timer that was set: the tick at which it is due, and when it was set in the order of all
timers. -/
structure Timer where
  due : Nat
  ticket : Nat
  deriving DecidableEq, Repr, Inhabited

namespace Timer

def set (now : Nat) (d : Span) (ticket : Nat) : Timer :=
  ⟨Clock.dueTick (Clock.deadline now d), ticket⟩

def isOff (t : Timer) (sounded : Nat) : Bool := t.due ≤ sounded

def before (a b : Timer) : Bool := a.due < b.due || (a.due == b.due && a.ticket ≤ b.ticket)

def insertSorted {α : Type} (e : Timer × α) : List (Timer × α) → List (Timer × α)
  | [] => [e]
  | first :: rest => if first.1.before e.1 then first :: insertSorted e rest else e :: first :: rest

/-- What the timers belong to that are off at the tick `sounded`, in the order in which they go
off. -/
def goingOff {α : Type} (sounded : Nat) (timers : List (Timer × α)) : List α :=
  let off := timers.filter fun t => t.1.isOff sounded
  (off.foldl (fun sorted e => insertSorted e sorted) []).map (·.2)

def nextDue? (timers : List Timer) : Option Nat := (timers.map (·.due)).min?

end Timer

end ChatToken
