import ChatToken.Listeners
import ChatToken.Message.Parse
import ChatToken.Message.Render

/-! # Scenarios of listeners

A user that registers listeners under names of its own and reads what they got.
-/
namespace ChatToken.Scenario

inductive ListeningAction where
  | add (name : String)
  | remove (name : String)
  | compare (name other : String)
  | close (name : String)
  | clear
  | dispatch (line : String)
  | drain (name : String)
  deriving Repr

inductive ListeningAnswer where
  | nothing
  | flag (value : Bool)
  | added (id : Nat)
  | invalidLine
  | drained (lines : List String) (isOpen : Bool)
  deriving Repr

structure Listening where
  listeners : Listeners := {}
  names : Table String Nat := {}
  deriving Repr, Inhabited

namespace Listening

def close (s : Listening) (name : String) : Listening :=
  match s.names.get? name with
  | none => s
  | some id => { s with listeners := s.listeners.close id }

def hasInbox (s : Listening) (name : String) : Bool :=
  (s.names.get? name).any s.listeners.hasInbox

def below : Option Nat → Option Nat → Bool
  | none, some _ => true
  | some a, some b => a < b
  | _, none => false

def act (s : Listening) : ListeningAction → ListeningAnswer × Listening
  | .add name =>
    let s := s.close name
    let (id, listeners) := s.listeners.add
    (.added id, { listeners, names := s.names.insert name id })
  | .remove name =>
    match s.names.get? name with
    | none => (.nothing, s)
    | some id =>
      (.flag (s.listeners.isRegistered id), { s with listeners := s.listeners.remove id })
  | .compare name other => (.flag (below (s.names.get? name) (s.names.get? other)), s)
  | .close name => (.flag (s.hasInbox name), s.close name)
  | .clear => (.nothing, { s with listeners := s.listeners.clear })
  | .dispatch line =>
    match Message.parse? line with
    | none => (.invalidLine, s)
    | some m => (.nothing, { s with listeners := s.listeners.dispatch m })
  | .drain name =>
    match s.names.get? name with
    | none => (.nothing, s)
    | some id =>
      if s.listeners.hasInbox id then
        (.drained ((s.listeners.unread id).map Message.text) (s.listeners.isRegistered id),
          { s with listeners := s.listeners.drain id })
      else (.nothing, s)

end Listening

end ChatToken.Scenario
