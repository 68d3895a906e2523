import ChatToken.Token.Reply

/-! # Registration

A server accepts a new connection by the end of its welcome, or refuses the name it asks for.
-/
namespace ChatToken.Registration

def isWelcomeEnd (m : Message) : Bool := m.command == "376" || m.command == "422"

def isRefusal (m : Message) : Bool := m.command == "432" || m.command == "433"

def classify (m : Message) : Verdict :=
  if isWelcomeEnd m then .complete ""
  else if isRefusal m then .reject (.protocol m.lastParam)
  else .skip

end ChatToken.Registration
