import ChatToken.Listeners
import ChatToken.Message.Parse
import ChatToken.Message.Render
import ChatToken.Text.Quoted
import ChatToken.Token.Reply

/-! # Connections

A connection to a chat server. It records what is sent over it and hands the messages that come in
to its listeners. A connection in memory can answer token requests with prepared lines; once it is
disconnected nothing can be sent any more, and new listeners are dropped right away. A connection
over a stream can still take lines when none come in any more, and then keeps new listeners.
-/
namespace ChatToken

/-- Prepared answers to token requests. The request number `n`, counted from one, is answered with
the `n`-th list of lines, or with the last one if there are fewer. -/
structure PreparedReplies where
  replies : List (List String)
  answered : Nat := 0
  deriving DecidableEq, Repr

namespace PreparedReplies

/-- Writes the number of a request in place of every `\x7bn\x7d`. -/
def fillNumber (n : Nat) : List Char → List Char
  | '\x7b' :: 'n' :: '\x7d' :: rest => Nat.toDigits 10 n ++ fillNumber n rest
  | c :: rest => c :: fillNumber n rest
  | [] => []

def next (r : PreparedReplies) : List String × PreparedReplies :=
  let n := r.answered + 1
  let lines := (r.replies[n - 1]? <|> r.replies.getLast?).getD []
  (lines.map fun l => String.ofList (fillNumber n l.toList), { r with answered := n })

end PreparedReplies

inductive Link where
  | memory
  /-- A stream of lines. The flag says that lines can still come in. -/
  | stream (reading : Bool)
  deriving DecidableEq, Repr, Inhabited

structure Peer where
  /-- The name, or the address of the server behind a stream. -/
  name : String
  link : Link := .memory
  listeners : Listeners := {}
  /-- The commands sent so far, the oldest first. -/
  sent : List Message := []
  capabilities : Table String String := ({} : Table String String).insert Reply.extjwt "1"
  replies : Option PreparedReplies := none
  connected : Bool := true
  deriving Repr, Inhabited

namespace Peer

def shown (p : Peer) : String :=
  match p.link with
  | .memory => "MockPeer(" ++ Text.quote p.name ++ ")"
  | .stream _ => "IrcPeer(" ++ Text.quote p.name ++ ")"

def sendFailure (p : Peer) : String :=
  match p.link with
  | .memory => "disconnected"
  | .stream _ => "connection closed"

def dropsNew (p : Peer) : Bool := p.link == .memory && !p.connected

def subscribe (p : Peer) : Nat × Peer :=
  let (id, ls) := p.listeners.add
  (id, { p with listeners := if p.dropsNew then ls.remove id else ls })

def unsubscribe (p : Peer) (id : Nat) : Peer :=
  { p with listeners := p.listeners.remove id }

def hangUp (p : Peer) (id : Nat) : Peer :=
  let p := p.unsubscribe id
  { p with listeners := p.listeners.close id }

def disconnect (p : Peer) : Peer :=
  { p with connected := false, listeners := p.listeners.clear }

def dispatch (p : Peer) (m : Message) : Peer :=
  { p with listeners := p.listeners.dispatch m }

/-- Sends a command. The answer is the reason why it cannot be sent, or the lines that the
connection delivers before anything else happens. -/
def send (p : Peer) (command : String) (args : List String) : Except String (List String) × Peer :=
  if p.connected then
    let m := Message.of command args
    let p := { p with sent := p.sent ++ [m] }
    if m.command = Reply.extjwt then
      match p.replies with
      | none => (.ok [], p)
      | some r =>
        let (lines, r) := r.next
        (.ok lines, { p with replies := some r })
    else (.ok [], p)
  else (.error p.sendFailure, p)

def sentCount (p : Peer) (command : String) : Nat :=
  (p.sent.filter fun m => m.command = command).length

/-- What is advertised under a name. Streams keep the names in upper case. -/
def capability? (p : Peer) (name : String) : Option String :=
  p.capabilities.get? (match p.link with
    | .memory => name
    | .stream _ => Message.upperText name)

def setCapability (p : Peer) (name : String) (value : Option String) : Peer :=
  { p with capabilities := match value with
      | some v => p.capabilities.insert name v
      | none => p.capabilities.erase name }

end Peer

end ChatToken
