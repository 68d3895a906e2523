import ChatToken.Loader.Basic
import ChatToken.Token.Basic
import ChatToken.Token.Error
import ChatToken.Token.Marks

/-! # Token managers

A token manager keeps what is known about the peers that tokens were asked from: a loader with the
tokens, and the marks of the peers that do not know the command. Peers are numbered.
-/
namespace ChatToken

structure Manager where
  config : TokenConfig
  loader : Loader Nat Token TokenError := {}
  marks : Marks Nat
  deriving DecidableEq, Repr

namespace Manager

def new (config : TokenConfig) : Manager := { config, marks := { ttl := config.unsupportedTtl } }

instance : Inhabited Manager := ⟨new {}⟩

def staleness (config : TokenConfig) (now : Nat) (t : Token) : Option TokenError :=
  if config.maxTokenAge.nanos < (t.age now).nanos then some (.stale (t.age now)) else none

end Manager

/-- A token may not be empty. -/
def Token.ofPayload (now : Nat) (payload : String) : Except TokenError Token :=
  if payload.isEmpty then .error (.malformed "empty token")
  else .ok { value := payload, acquiredAt := now }

/-- What a caller gets from a load. A peer without support is no failure but has no token. -/
def Ending.outcome (e : Ending Token TokenError) : Except TokenError (Option Token) :=
  match e.resolve .internal with
  | .ok t => .ok (some t)
  | .error (.unsupported _) => .ok none
  | .error e => .error e

end ChatToken
