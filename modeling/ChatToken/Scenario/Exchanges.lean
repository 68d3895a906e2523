import ChatToken.Network

/-! # Scenarios of exchanges

Exchanges on a single connection that the user starts, looks at, waits for and drops. Nothing
happens to an exchange unless it is looked at or waited for.
-/
namespace ChatToken.Scenario

inductive ExchangeAction where
  | start (name : String) (timeout : Span) (matcher : Matcher)
  | poll (name : String)
  | await (name : String)
  | drop (name : String)
  | deliver (line : String)
  | disconnect
  | advance (by_ : Span)
  deriving Repr

inductive ExchangeAnswer where
  | nothing
  | flag (value : Bool)
  | pending
  | result (result : Except TokenError String)
  | brokenLine (line : String)
  | hung
  deriving Repr

structure Exchanges where
  net : Network
  kept : Table String Holder := {}
  started : Nat := 0
  deriving Repr

namespace Exchanges

def start (peer : String) : Exchanges := { net := { peers := [{ name := peer }] } }

def patience : Span := Span.ofSeconds 86400

def forget (s : Exchanges) (name : String) : Exchanges :=
  match s.kept.get? name with
  | none => s
  | some h => { s with net := s.net.closeExchange h, kept := s.kept.erase name }

def await (h : Holder) (limit : Nat) : Nat → Network → ExchangeAnswer × Network
  | 0, n => (.hung, n.closeExchange h)
  | jumps + 1, n =>
    match n.pollExchange h with
    | (some r, n) => (.result r, n)
    | (none, n) =>
      if limit ≤ n.sounded then (.hung, n.closeExchange h)
      else
        await h limit jumps (n.jump (match n.nextDue? with
          | some due => min due limit
          | none => limit))

def act (s : Exchanges) : ExchangeAction → ExchangeAnswer × Exchanges
  | .start name timeout matcher =>
    let h := .caller s.started
    let s := { s with net := s.net.openExchange h 0 matcher timeout, started := s.started + 1 }
    let s := s.forget name
    (.nothing, { s with kept := s.kept.insert name h })
  | .poll name =>
    match s.kept.get? name with
    | none => (.nothing, s)
    | some h =>
      match s.net.pollExchange h with
      | (some r, net) => (.result r, { s with net, kept := s.kept.erase name })
      | (none, net) => (.pending, { s with net })
  | .await name =>
    match s.kept.get? name with
    | none => (.nothing, s)
    | some h =>
      let limit := Clock.dueTick (s.net.now + patience.nanos)
      let (answer, net) := await h limit (s.net.exchanges.size + 2) s.net
      (answer, { s with net, kept := s.kept.erase name })
  | .drop name => (.flag (s.kept.contains name), s.forget name)
  | .deliver line =>
    match s.net.deliverLines 0 [line] with
    | (none, net) => (.nothing, { s with net })
    | (some line, net) => (.brokenLine line, { s with net })
  | .disconnect => (.nothing, { s with net := s.net.disconnect 0 })
  | .advance d => (.nothing, { s with net := s.net.advance d })

end Exchanges

end ChatToken.Scenario
