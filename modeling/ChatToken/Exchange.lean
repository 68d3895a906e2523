import ChatToken.Peer
import ChatToken.Time.Clock
import ChatToken.Token.Reply

/-! # Exchanges

An exchange waits for the response to a request. It listens to one connection from the moment it is
created, and classifies every message it gets in the order of arrival, until one completes or
rejects the response. The pieces of the response are put together in that order. Its timer is set
when it is looked at for the first time. Waiting messages are read before the end of the stream
counts, and the end of the stream counts before the timer.
-/
namespace ChatToken

structure Exchange (μ : Type) where
  peer : Nat
  listener : Nat
  matcher : μ
  timeout : Span
  since : Nat
  /-- The pieces of the response so far. -/
  payload : String := ""
  timer : Option Timer := none
  deriving DecidableEq, Repr

namespace Exchange

variable {μ : Type}

/-- What reading some messages led to: the result if one of them settled the exchange, the exchange
after them, and the pieces that came with more to follow. -/
structure Reading (μ : Type) where
  result : Option (Except TokenError String)
  exchange : Exchange μ
  pieces : List String

def listen (p : Peer) (place : Nat) (matcher : μ) (timeout : Span) (now : Nat) :
    Exchange μ × Peer :=
  let (id, p) := p.subscribe
  ({ peer := place, listener := id, matcher, timeout, since := now }, p)

def read (classify : μ → Message → Verdict × μ) (x : Exchange μ) : List Message → Reading μ
  | [] => { result := none, exchange := x, pieces := [] }
  | m :: rest =>
    match classify x.matcher m with
    | (.skip, s) => read classify { x with matcher := s } rest
    | (.fragment piece, s) =>
      let r := read classify { x with matcher := s, payload := x.payload ++ piece } rest
      { r with pieces := piece :: r.pieces }
    | (.complete piece, s) =>
      { result := some (.ok (x.payload ++ piece))
        exchange := { x with matcher := s }
        pieces := [] }
    | (.reject e, s) =>
      { result := some (.error e), exchange := { x with matcher := s }, pieces := [] }

/-- Sets the timer, unless it was set before. -/
def arm (x : Exchange μ) (now : Nat) (ticket : Nat) : Exchange μ :=
  { x with timer := some (x.timer.getD (Timer.set now x.timeout ticket)) }

def timedOut (x : Exchange μ) (sounded : Nat) : Bool := x.timer.any (·.isOff sounded)

/-- Looks at an exchange at `now`, when the ticks up to `sounded` have been sounded, with the given
messages waiting for it. `open_` says whether more messages can come, and `ticket` is for the timer
if it has to be set. -/
def poll (classify : μ → Message → Verdict × μ) (now sounded ticket : Nat) (open_ : Bool)
    (unread : List Message) (x : Exchange μ) : Reading μ :=
  let x := x.arm now ticket
  let r := x.read classify unread
  match r.result with
  | some _ => r
  | none =>
    if !open_ then { r with result := some (.error .disconnected) }
    else if r.exchange.timedOut sounded then { r with result := some (.error (.timeout x.timeout)) }
    else r

def look (classify : μ → Message → Verdict × μ) (now sounded ticket : Nat) (x : Exchange μ)
    (p : Peer) : Reading μ × Peer :=
  (x.poll classify now sounded ticket (p.listeners.isRegistered x.listener)
      (p.listeners.unread x.listener),
    { p with listeners := p.listeners.drain x.listener })

end Exchange

end ChatToken
