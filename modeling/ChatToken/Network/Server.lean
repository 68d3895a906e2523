import ChatToken.Network.Run
import ChatToken.Token.Response

/-! # Servers that answer every request

A server that answers the token requests it gets with one response each, in the order in which it
got them and whenever it likes. The requests are counted from zero, whoever has sent them.
-/
namespace ChatToken.Network

def requests (n : Network) (p : Nat) (es : List Event) : Nat :=
  ((n.sentSince (n.after es) p).filter fun m => m.command = Reply.extjwt).length

def responded (n : Network) (p : Nat) (es : List Event) : List Message :=
  (n.delivered p es).filter fun m => ¬ m.Unrelated

/-- At every point of a run, what `p` has delivered of its responses is a beginning of the responses
to the requests that it has got by then. -/
def Answered (n : Network) (p : Nat) (answer : Nat → Response) (es : List Event) : Prop :=
  ∀ es', es' <+: es → n.responded p es' <+: Response.first answer (n.requests p es')

/-- During some events the load `ref` has sent the request number `k` to `p`, which had delivered
`ms` of its responses by then. -/
def Requested (n : Network) (ref : LoadRef) (p : Nat) (es : List Event) (k : Nat)
    (ms : List Message) : Prop :=
  ∃ first mid, es = first ++ .turn ref :: mid ∧ (n.after first).asks? ref = some p ∧
    ((n.after first).peer p).connected = true ∧ n.requests p first = k ∧ n.responded p first = ms

end ChatToken.Network
