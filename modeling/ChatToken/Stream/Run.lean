import ChatToken.Network.Run

/-! # Runs of a connection over a stream

What can happen to a connection over a stream, in any order: lines and the end of the stream come
in, listeners come, read and go, commands are sent, and the sending side breaks.
-/
namespace ChatToken

namespace Capabilities

def note (known : Table String String) (m : Message) : Table String String :=
  if m.command = command then applyAll known m else known

def known (ms : List Message) : Table String String := ms.foldl note {}

end Capabilities

namespace Network

inductive Call where
  | receive (r : Received)
  | finishStream
  | subscribe
  | unsubscribe (id : Nat)
  | send (command : String) (args : List String)
  /-- A listener takes everything that waits for it. -/
  | read (id : Nat)
  /-- The receiving side of a listener is gone. -/
  | close (id : Nat)
  | failWriting (reason : String)
  deriving DecidableEq, Repr

def call (n : Network) (p : Nat) : Call → Network
  | .receive r => n.receive p r
  | .finishStream => n.finishStream p
  | .subscribe => n.onPeer p fun q => q.subscribe.2
  | .unsubscribe id => n.onPeer p (·.unsubscribe id)
  | .send command args => (n.send p command args).2
  | .read id => n.onPeer p fun q => { q with listeners := q.listeners.drain id }
  | .close id => n.onPeer p fun q => { q with listeners := q.listeners.close id }
  | .failWriting reason => n.failWriting p reason

def calls (n : Network) (p : Nat) (cs : List Call) : Network := cs.foldl (fun n c => n.call p c) n

def gather {α : Type} (f : Peer → Call → List α) (n : Network) (p : Nat) : List Call → List α
  | [] => []
  | c :: cs => f (n.peer p) c ++ gather f (n.call p c) p cs

end Network

namespace Peer

open Network (Call)

/-- The line that a call hands over for sending. A ping is answered with its own parameters. -/
def queues (q : Peer) : Call → List String
  | .send command args => if q.connected then [(Message.of command args).text] else []
  | .receive (.line line) =>
    match Message.parse? line with
    | none => []
    | some m =>
      if q.isReading && q.connected && m.command = "PING" then [(Message.of "PONG" m.params).text]
      else []
  | _ => []

def takes (q : Peer) : Call → List Message
  | .receive r => Network.accepted q r
  | _ => []

def reads (id : Nat) (q : Peer) (c : Call) : List Message :=
  if c = .read id then q.listeners.unread id else []

end Peer

namespace Network

def queued (n : Network) (p : Nat) (cs : List Call) : List String := n.gather Peer.queues p cs

def taken (n : Network) (p : Nat) (cs : List Call) : List Message := n.gather Peer.takes p cs

def heard (n : Network) (p id : Nat) (cs : List Call) : List Message :=
  n.gather (Peer.reads id) p cs

def Call.message? : Call → Option Message
  | .receive (.line line) => Message.parse? line
  | _ => none

def Call.breaks : Call → Bool
  | .receive (.failed _) | .finishStream | .failWriting _ => true
  | _ => false

end Network

end ChatToken
