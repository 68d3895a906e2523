import ChatToken.Scenario.Tokens
import ChatToken.Token.Response

/-! # Getting tokens again and again

A user gets the token of one peer at regular intervals, and in between nothing happens but that time
passes.
-/
namespace ChatToken

/-! ## A connection that answers at once -/

namespace Peer

def behindRequests (q : Peer) (args : List String) : Nat → Peer
  | 0 => q
  | k + 1 => ((q.behindRequests args k).send Reply.extjwt args).2

/-- Token requests with the given arguments can be sent over the connection from now on, and each is
answered before anything else happens. The answer behind `k` others is a response that carries the
text `text k`, which is not empty, perhaps with unrelated messages around it. -/
def AnswersWith (q : Peer) (args : List String) (text : Nat → String) : Prop :=
  ∀ k, ∃ (lines : List String) (ms : List Message) (r : Response),
    ((q.behindRequests args k).send Reply.extjwt args).1 = .ok lines ∧
    lines.map Message.parse? = ms.map some ∧
    (ms.filter fun m => ¬ m.Unrelated) = r.messages ∧ r.payload = text k ∧ text k ≠ ""

end Peer

/-! ## Steps -/

namespace Scenario.Tokens

def getting (handle p : Nat) : Step := { kind := .wait (.get handle p) none }

def pausing (pause : Span) : Step := { kind := .act (.advance pause) }

/-- The scenario when a token is got for the time number `i`, counted from zero, with a pause behind
every time. -/
def beforeGet (s : Tokens) (handle p : Nat) (pause : Span) : Nat → Tokens
  | 0 => s
  | i + 1 => (((s.beforeGet handle p pause i).step (getting handle p)).2.step (pausing pause)).2

end Scenario.Tokens

end ChatToken
