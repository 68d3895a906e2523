/-! # Chat messages

A message is a command with an ordered list of parameters, and possibly the name of where it came
from. Commands are kept in upper case, where only the letters `a` to `z` have an upper case.
-/
namespace ChatToken

structure Message where
  source : Option String
  command : String
  /-- The parameters in order, the trailing one included. -/
  params : List String
  deriving DecidableEq, Repr, Inhabited

namespace Message

def upper (cs : List Char) : List Char := cs.map Char.toUpper

def upperText (s : String) : String := String.ofList (upper s.toList)

/-- Equality up to the case of the letters `a` to `z`. -/
def sameLetters (a b : String) : Bool := upper a.toList == upper b.toList

def of (command : String) (params : List String) : Message where
  source := none
  command := upperText command
  params := params

def param? (m : Message) (i : Nat) : Option String := m.params[i]?

def lastParam? (m : Message) : Option String := m.params.getLast?

/-- The last parameter, or the empty text of a message without parameters. -/
def lastParam (m : Message) : String := m.lastParam?.getD ""

end Message

end ChatToken
