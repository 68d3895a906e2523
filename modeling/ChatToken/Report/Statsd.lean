import ChatToken.Report.Address
import ChatToken.Report.Log
import ChatToken.Report.Metric

/-! # Sending metrics to a statsd server

The server is given as `host:port`. The first configuration that succeeds is kept; later ones are
checked and reported, but change nothing.
-/
namespace ChatToken

inductive StatsdError where
  /-- There is no port. -/
  | invalidAddress
  | invalidPort
  /-- The host has no addresses. -/
  | noAddress
  /-- The host is not numeric, and could not be looked up. -/
  | lookupFailed
  deriving DecidableEq, Repr

namespace StatsdError

def kind : StatsdError → String
  | invalidAddress | invalidPort => "InvalidInput"
  | noAddress => "NotFound"
  | lookupFailed => "Uncategorized"

def message : StatsdError → String
  | invalidAddress => "invalid socket address"
  | invalidPort => "invalid port value"
  | noAddress => "statsd host did not resolve"
  | lookupFailed => "failed to lookup address information: Temporary failure in name resolution"

end StatsdError

structure StatsdClient where
  address : SocketAddress
  namePrefix : String
  tags : List (String × String)
  deriving DecidableEq, Repr

namespace StatsdClient

def splitPort (cs : List Char) : Option (List Char × List Char) :=
  let port := cs.reverse.takeWhile (· != ':')
  if port.length = cs.length then none
  else some (cs.take (cs.length - port.length - 1), port.reverse)

def signedPort (cs : List Char) : Option Nat :=
  match cs with
  | '+' :: rest => SocketAddress.port? rest
  | _ => SocketAddress.port? cs

/-- The address that `host` stands for. No host at all has no addresses. -/
def resolve : Option String → Except StatsdError SocketAddress
  | none => .error .noAddress
  | some host =>
    match SocketAddress.ofChars? host.toList with
    | some a => .ok a
    | none =>
      match splitPort host.toList with
      | none => .error .invalidAddress
      | some (name, port) =>
        match signedPort port with
        | none => .error .invalidPort
        | some port =>
          match SocketAddress.ip? name with
          | some ip => .ok { ip, port }
          | none => .error .lookupFailed

def started (c : StatsdClient) : LogEvent :=
  { level := .info, target := LogEvent.metricsTarget, message := "Reporting metrics to statsd",
    fields := [("addr", .text c.address.text), ("prefix", .text c.namePrefix)] }

def keptFirst : LogEvent :=
  { level := .warn, target := LogEvent.metricsTarget,
    message := "Metrics were configured twice, keeping the first configuration" }

def configure (current : Option StatsdClient) (namePrefix : String) (host : Option String)
    (tags : List (String × String)) : Except StatsdError (StatsdClient × List LogEvent) :=
  match resolve host with
  | .error e => .error e
  | .ok address =>
    let c : StatsdClient := { address, namePrefix, tags }
    match current with
    | none => .ok (c, [c.started])
    | some first => .ok (first, [c.started, keptFirst])

def lines (c : StatsdClient) (notice : Notice) : List String :=
  (Metric.ofNotice notice).map (Metric.line c.namePrefix c.tags)

end StatsdClient

end ChatToken
