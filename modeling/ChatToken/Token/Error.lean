import ChatToken.Time.Span

/-! # Failures of a token request

Every way in which acquiring a token can fail, with the text that is shown for it and a short name
for tags. Only `unsupported` is ever remembered; after every other failure the next lookup asks
again.
-/
namespace ChatToken

inductive TokenError where
  | timeout (after : Span)
  | unsupported (command : String)
  /-- A cached token is older than allowed. -/
  | stale (age : Span)
  | protocol (detail : String)
  /-- The response is unusable. -/
  | malformed (detail : String)
  /-- The stream of messages ended before the response was complete. -/
  | disconnected
  | sendFailed (cause : String)
  /-- The load died without a result. -/
  | internal
  deriving DecidableEq, Repr, Inhabited

namespace TokenError

def message : TokenError → String
  | timeout after => "no response within " ++ after.text
  | unsupported command => "peer does not support " ++ command
  | stale age => "token is stale after " ++ age.text
  | protocol detail => "protocol error: " ++ detail
  | malformed detail => "malformed response: " ++ detail
  | disconnected => "peer disconnected"
  | sendFailed cause => "failed to send request: " ++ cause
  | internal => "internal error"

def tag : TokenError → String
  | timeout _ => "timeout"
  | unsupported _ => "unsupported"
  | stale _ => "stale"
  | protocol _ => "protocol"
  | malformed _ => "malformed"
  | disconnected => "disconnected"
  | sendFailed _ => "send-failed"
  | internal => "internal"

end TokenError

end ChatToken
