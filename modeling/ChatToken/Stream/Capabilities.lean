import ChatToken.Message.Basic
import ChatToken.Table

/-! # Advertised capabilities

A server advertises what it can do in messages with the command `005`. All but their first and last
parameters are tokens: `NAME=value` or `NAME` advertises a capability, and `-NAME` withdraws one. A
name is kept in upper case, and withdrawn as it is written.
-/
namespace ChatToken.Capabilities

def command : String := "005"

def tokens (m : Message) : List String := (m.params.drop 1).take (m.params.length - 2)

def split (token : String) : String × String :=
  let name := token.toList.takeWhile (· != '=')
  (String.ofList name, String.ofList ((token.toList.drop name.length).drop 1))

def withdrawn? (name : String) : Option String :=
  match name.toList with
  | '-' :: rest => some (String.ofList rest)
  | _ => none

def apply (known : Table String String) (token : String) : Table String String :=
  let (name, value) := split token
  match withdrawn? name with
  | some name => known.erase name
  | none => known.insert (Message.upperText name) value

def applyAll (known : Table String String) (m : Message) : Table String String :=
  (tokens m).foldl apply known

end ChatToken.Capabilities
