import ChatToken.Network.Secrecy
import ChatToken.Report.Filter

/-! # What streams log

The part of the program that talks to servers logs when a connection begins and ends, who it is
accepted as, every line that passes, and what fails when a line is read or written. A client connects
to a server, asks to be accepted under a name, and finds out by a look at the answer; other things may
happen before and after.
-/
namespace ChatToken

namespace LogEvent

def quote (address line : String) : LogEvent :=
  ofNotice.stream .trace ("< " ++ line) [("addr", .text address)]

/-- The same event, or one that quotes a line with another text in it. -/
def Requoted (e e' : LogEvent) : Prop :=
  e' = e ∨ ∃ address line line', Message.LineReworded line line' ∧
    e = quote address line ∧ e' = quote address line'

end LogEvent

namespace Network

inductive Act.Reworded : Act → Act → Prop where
  | same (a : Act) : Reworded a a
  | event {e e' : Event} : e.Reworded e' → Reworded (.event e) (.event e')

def dial (n : Network) (address : String) (c : Nat) (nick : String) (timeout : Span) : Network :=
  ((n.connect address).openRegistration (.caller c) n.peers.length nick timeout).2

def confirm (n : Network) (c p : Nat) (nick : String) : Network :=
  match n.pollExchange (.caller c) with
  | (some (.ok _), n) => n.note [.registered p nick]
  | (_, n) => n

/-- Everything the streams have logged, at every level. -/
def streamLog (n : Network) : List LogEvent :=
  (n.notices.filterMap (LogEvent.ofNotice (fun p => (n.peer p).shown) fun p =>
    (n.peer p).name)).filter (·.target = LogEvent.streamTarget)

def streamLogThrough (n : Network) (directives : List LogDirective) : List LogEvent :=
  n.streamLog.filter (LogDirective.passes directives)

def reads (n : Network) : Act → List String
  | .event (.receive p (.line line)) => if (n.peer p).isReading then [line] else []
  | _ => []

def readIn (n : Network) : List Act → List String
  | [] => []
  | a :: as => n.reads a ++ (n.act a).readIn as

structure Client where
  address : String
  caller : Nat
  nick : String
  timeout : Span
  deriving DecidableEq, Repr

variable (client : Client) (n : Network)

/-- The network after a client has dialled, some acts have happened, the client has looked whether
it was accepted, and some more have happened. -/
def served (before after : List Act) : Network :=
  (((n.dial client.address client.caller client.nick client.timeout).play before).confirm
    client.caller n.peers.length client.nick).play after

def readWhile (before after : List Act) : List String :=
  (n.dial client.address client.caller client.nick client.timeout).readIn before ++
    (served client n before []).readIn after

end Network

end ChatToken
