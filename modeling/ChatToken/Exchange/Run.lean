import ChatToken.Exchange

/-! # Runs of an exchange

What can happen to an exchange, in any order: its connection delivers messages and goes away, others
come to listen to the same connection and stop, the clock moves, timers go off, and the exchange is
looked at. An exchange that was resolved is not looked at any more.
-/
namespace ChatToken.Exchange

inductive Event where
  | deliver (m : Message)
  | disconnect
  | join
  | leave (id : Nat)
  | pass (nanos : Nat)
  | sound
  | poll
  deriving DecidableEq, Repr

structure World (μ : Type) where
  now : Nat
  sounded : Nat
  tickets : Nat
  peer : Peer
  exchange : Exchange μ
  /-- What the exchange was resolved with. -/
  result : Option (Except TokenError String) := none

namespace World

variable {μ : Type}

def start (p : Peer) (matcher : μ) (timeout : Span) (now sounded tickets : Nat) : World μ :=
  let (exchange, peer) := listen p 0 matcher timeout now
  { now, sounded, tickets, peer, exchange }

def look (classify : μ → Message → Verdict × μ) (w : World μ) : World μ :=
  let (r, peer) := w.exchange.look classify w.now w.sounded w.tickets w.peer
  { w with
    tickets := w.tickets + 1
    exchange := r.exchange
    result := r.result
    peer := if r.result.isSome then peer.hangUp w.exchange.listener else peer }

def step (classify : μ → Message → Verdict × μ) (w : World μ) : Event → World μ
  | .deliver m => { w with peer := w.peer.dispatch m }
  | .disconnect => { w with peer := w.peer.disconnect }
  | .join => { w with peer := w.peer.subscribe.2 }
  | .leave id => if id = w.exchange.listener then w else { w with peer := w.peer.hangUp id }
  | .pass nanos => { w with now := w.now + nanos }
  | .sound => { w with sounded := Clock.tick w.now }
  | .poll => if w.result.isSome then w else w.look classify

def run (classify : μ → Message → Verdict × μ) (w : World μ) (es : List Event) : World μ :=
  es.foldl (step classify) w

end World

end ChatToken.Exchange
