import ChatToken.Network.Direct
import ChatToken.Stream.Run

/-! # Whether a server accepts a connection

What a registration comes to, told from what came in over the connection, from the end of its stream
and from the clock. The first message that decides counts; the looks of the caller only tell when it
comes to know.
-/
namespace ChatToken

namespace Registration

def accepts (m : Message) : Bool := ["376", "422"].contains m.command

def refuses (m : Message) : Bool := ["432", "433"].contains m.command

def decides (m : Message) : Bool := accepts m || refuses m

def decision (m : Message) : Except TokenError String :=
  if accepts m then .ok "" else .error (.protocol m.lastParam)

def decided? (ms : List Message) : Option (Except TokenError String) :=
  (ms.find? decides).map decision

end Registration

namespace Network

open Registration

abbrev lookOf (c : Nat) : Act := .event (.look c)

variable (n : Network) (c p : Nat) (timeout : Span)

def settled? (n : Network) (c : Nat) : List Act → Option (Except TokenError String)
  | [] => none
  | a :: as =>
    (if a = lookOf c then (n.pollExchange (.caller c)).1 else none).or
      ((n.act a).settled? c as)

def unlooked (c : Nat) (as : List Act) : List Act := as.takeWhile (· ≠ lookOf c)

def lookDue (as : List Act) : Nat :=
  Clock.dueTick (Clock.deadline (n.play (unlooked c as)).now timeout)

def TimedOut (as : List Act) : Prop :=
  lookOf c ∈ as ∧ n.lookDue c timeout as ≤ (n.play as).sounded

instance (as : List Act) : Decidable (n.TimedOut c timeout as) :=
  inferInstanceAs (Decidable (_ ∧ _))

def StillReads (as : List Act) : Prop := ((n.play as).peer p).isReading = true

instance (as : List Act) : Decidable (n.StillReads p as) := inferInstanceAs (Decidable (_ = _))

/-- What a look behind some acts comes back with if none before it has: what the messages have
decided, that the stream has ended, or that it took too long. -/
def lookOutcome (as : List Act) : Option (Except TokenError String) :=
  (decided? (n.conveyed p as)).or
    (if ¬ n.StillReads p as then some (.error .disconnected)
    else if n.TimedOut c timeout (as ++ [lookOf c]) then some (.error (.timeout timeout))
    else none)

/-- If a message decides, the timer has not gone off before the first one that does. -/
def DecidedInTime (as : List Act) : Prop :=
  ∀ first rest, as = first ++ rest → decided? (n.conveyed p first) = none →
    decided? (n.conveyed p as) ≠ none → ¬ n.TimedOut c timeout first

def EndedInTime (as : List Act) : Prop :=
  ∀ first rest, as = first ++ rest → n.StillReads p first → ¬ n.TimedOut c timeout first

/-- What a registration comes to that the caller `c` has opened in `n`, if the caller looks at it
behind the acts `as`. -/
structure Registers (as : List Act) : Prop where
  look : n.settled? c as = none →
    n.settled? c (as ++ [lookOf c]) = n.lookOutcome c p timeout as
  /-- The server accepts the connection by the first message that decides. -/
  accepted : n.DecidedInTime c p timeout as →
    (n.settled? c (as ++ [lookOf c]) = some (.ok "") ↔
      ∃ m, (n.conveyed p as).find? decides = some m ∧ accepts m = true)
  /-- It refuses the connection by the first message that decides. -/
  refused : n.DecidedInTime c p timeout as → ∀ reason,
    (n.settled? c (as ++ [lookOf c]) = some (.error (.protocol reason)) ↔
      ∃ m, (n.conveyed p as).find? decides = some m ∧ refuses m = true ∧ m.lastParam = reason)
  /-- If no message decides, the end of the stream does. -/
  ended : decided? (n.conveyed p as) = none → ¬ n.StillReads p as →
    n.EndedInTime c p timeout as →
    n.settled? c (as ++ [lookOf c]) = some (.error .disconnected)
  /-- If the stream does not end either, it is the timer. -/
  waits : decided? (n.conveyed p as) = none → n.StillReads p as →
    n.settled? c (as ++ [lookOf c]) =
      if n.TimedOut c timeout (as ++ [lookOf c]) then some (.error (.timeout timeout))
      else none
  /-- What the messages have advertised is known as soon as they have come. -/
  capabilities : ((n.play as).peer p).capabilities = Capabilities.known (n.conveyed p as)
  /-- A ping is answered at once, as long as something can be sent. -/
  answered : n.StillReads p as → ((n.play as).peer p).connected = true → ∀ line m,
    Message.parse? line = some m → m.command = "PING" →
    ((n.play (as ++ [.event (.receive p (.line line))])).peer p).sent =
      ((n.play as).peer p).sent ++ [.of "PONG" m.params]

end Network

end ChatToken
