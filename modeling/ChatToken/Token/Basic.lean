import ChatToken.Time.Clock

/-! # Tokens

A token is a text together with the instant at which the response that carried it was complete.
-/
namespace ChatToken

structure Token where
  value : String
  acquiredAt : Nat
  deriving DecidableEq, Repr, Inhabited

namespace Token

def age (t : Token) (now : Nat) : Span := Clock.elapsed t.acquiredAt now

def size (t : Token) : Nat := t.value.utf8ByteSize

/-- A token as it is shown: its size and age, not its text. -/
def shown (t : Token) (now : Nat) : String :=
  "Token \x7b len: " ++ toString t.size ++ ", age: " ++ (t.age now).text ++ " \x7d"

end Token

structure TokenConfig where
  /-- The age up to which a cached token is handed out. -/
  maxTokenAge : Span := Span.ofSeconds 15
  /-- How long a peer is left alone that does not know the command. -/
  unsupportedTtl : Span := Span.ofSeconds 300
  /-- How long to wait for the complete response. -/
  requestTimeout : Span := Span.ofSeconds 10
  /-- The service to request a token for, instead of the server itself. -/
  service : Option String := none
  deriving DecidableEq, Repr, Inhabited

end ChatToken
