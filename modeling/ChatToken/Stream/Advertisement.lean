import ChatToken.Stream.Capabilities
import Mathlib.Data.List.Forall2

/-! # What tokens advertise

What a token says, told from the form of its text, and what is advertised under a name after some
tokens: the last one about the name decides. Two names are the same up to the case of letters.
-/
namespace ChatToken

structure Advertisement where
  withdrawn : Bool
  name : String
  value : String
  deriving DecidableEq, Repr

namespace Advertisement

/-- A text, its key and the value behind the key, which may be left out. -/
inductive Keyed : List Char → List Char → List Char → Prop where
  | bare {key : List Char} (hkey : '=' ∉ key) : Keyed key key []
  | valued {key value : List Char} (hkey : '=' ∉ key) : Keyed (key ++ '=' :: value) key value

/-- A token says this: a hyphen at the head of its key stands for a withdrawal. -/
inductive IsSaidBy (token : String) : Advertisement → Prop where
  | advertised {name value : List Char} (hkeyed : Keyed token.toList name value)
    (hhead : name.head? ≠ some '-') : IsSaidBy token
      { withdrawn := false, name := String.ofList name, value := String.ofList value }
  | withdrawn {name value : List Char} (hkeyed : Keyed token.toList ('-' :: name) value) :
    IsSaidBy token
      { withdrawn := true, name := String.ofList name, value := String.ofList value }

def ofToken (token : String) : Advertisement :=
  match Capabilities.withdrawn? (Capabilities.split token).1 with
  | some name => { withdrawn := true, name, value := (Capabilities.split token).2 }
  | none =>
    { withdrawn := false, name := (Capabilities.split token).1
      value := (Capabilities.split token).2 }

def isAbout (name : String) (a : Advertisement) : Bool := Message.sameLetters a.name name

def answer (a : Advertisement) : Option String := if a.withdrawn then none else some a.value

/-- A withdrawal of a name that has small letters does not count. -/
def counts (a : Advertisement) : Bool := !a.withdrawn || a.name == Message.upperText a.name

end Advertisement

namespace Capabilities

def tokensOf (ms : List Message) : List String :=
  (ms.filter (·.command == command)).flatMap fun m => m.params.tail.dropLast

def Said (ms : List Message) (ads : List Advertisement) : Prop :=
  List.Forall₂ Advertisement.IsSaidBy (tokensOf ms) ads

def lastSaid (name : String) (ads : List Advertisement) : Option String :=
  (ads.filter (·.isAbout name)).getLast?.bind Advertisement.answer

end Capabilities

end ChatToken
