import ChatToken.Network
import ChatToken.Stream.Capabilities
import ChatToken.Stream.Lines

/-! # Connections over streams

Every line that comes in over a stream is read as a message. A ping is answered, advertised
capabilities are noted, and then the message reaches the listeners. If a ping cannot be answered, or
no more lines come in, all listeners are dropped.
-/
namespace ChatToken

namespace Peer

def overStream (address : String) : Peer :=
  { name := address, link := .stream true, capabilities := {} }

def pong (m : Message) : Message := .of "PONG" m.params

def queue (p : Peer) (m : Message) : Option Peer :=
  if p.connected then some { p with sent := p.sent ++ [m] } else none

/-- What a message does to a connection before it reaches the listeners. -/
def handle (p : Peer) (m : Message) : Option Peer :=
  if m.command = "PING" then p.queue (pong m)
  else if m.command = Capabilities.command then
    some { p with capabilities := Capabilities.applyAll p.capabilities m }
  else some p

def written (p : Peer) : List String := p.sent.flatMap Message.lines

def endReading (p : Peer) : Peer := { p with link := .stream false, listeners := p.listeners.clear }

def endWriting (p : Peer) : Peer := { p with connected := false }

def isReading (p : Peer) : Bool := p.link == .stream true

def isWriting (p : Peer) : Bool := p.link != .memory && p.connected

end Peer

namespace Network

def connect (n : Network) (address : String) : Network :=
  { n with peers := n.peers ++ [Peer.overStream address] }.note [.connected n.peers.length]

def endStream (n : Network) (p : Nat) : Network :=
  ((n.onPeer p Peer.endReading).note [.streamEnded p]).wakeAll (n.loadsListening p)

def accept (n : Network) (p : Nat) (m : Message) : Network :=
  let n := if m.command = "PING" then n.note (n.sendNotices p (Peer.pong m)) else n
  match (n.peer p).handle m with
  | some changed => (n.onPeer p fun _ => changed).deliver p m
  | none => n.endStream p

/-- Takes in what came out of a stream. A line that is no message has no effect. -/
def receive (n : Network) (p : Nat) (r : Received) : Network :=
  if (n.peer p).isReading then
    match r with
    | .line line =>
      let n := n.note [.lineReceived p line]
      match Message.parse? line with
      | some m => n.accept p m
      | none => n
    | .failed reason => (n.note [.readFailed reason]).endStream p
  else n

def receiveAll (n : Network) (p : Nat) (rs : List Received) : Network :=
  rs.foldl (fun n r => n.receive p r) n

def finishStream (n : Network) (p : Nat) : Network :=
  if (n.peer p).isReading then n.endStream p else n

/-- A line that was handed over cannot be written, and no more lines are taken. -/
def failWriting (n : Network) (p : Nat) (reason : String) : Network :=
  if (n.peer p).isWriting then (n.onPeer p Peer.endWriting).note [.writeFailed reason] else n

def openRegistration (n : Network) (h : Holder) (p : Nat) (nick : String) (timeout : Span) :
    Sending × Network :=
  let n := n.openExchange h p .registration timeout
  match n.send p "NICK" [nick] with
  | (.sent, n) => n.send p "USER" [nick, "0", "*", nick]
  | other => other

end Network

end ChatToken
