import ChatToken.Stream.Registration
import ChatToken.Token.Reply

/-! # Matchers

How the messages of an exchange are classified: as replies to a token request, as answers to a
registration, or by a prepared list of verdicts, one for each message with a given command.
-/
namespace ChatToken

/-- A verdict that was prepared without knowing the message. A piece that is not given is the
message's last parameter. -/
inductive PreparedVerdict where
  | skip
  | fragment (piece : Option String)
  | complete (piece : Option String)
  | reject (error : TokenError)
  deriving DecidableEq, Repr

def PreparedVerdict.verdict (m : Message) : PreparedVerdict → Verdict
  | skip => .skip
  | fragment piece => .fragment (piece.getD m.lastParam)
  | complete piece => .complete (piece.getD m.lastParam)
  | reject e => .reject e

inductive Matcher where
  | extjwt
  | registration
  | prepared (command : String) (verdicts : List PreparedVerdict)
  deriving DecidableEq, Repr

namespace Matcher

def classify : Matcher → Message → Verdict × Matcher
  | extjwt, m => (Reply.classify m, extjwt)
  | registration, m => (Registration.classify m, registration)
  | prepared command verdicts, m =>
    if m.command = command then
      match verdicts with
      | [] => (.skip, prepared command [])
      | v :: rest => (v.verdict m, prepared command rest)
    else (.skip, prepared command verdicts)

end Matcher

end ChatToken
