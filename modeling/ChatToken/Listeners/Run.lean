import ChatToken.Scenario.Listening

/-! # Runs of a set of listeners

What can happen to a set of listeners and to the receivers behind it, in any order, and what the
listener that was added at some moment is to get from what happens afterwards.
-/
namespace ChatToken.Listeners

inductive Event where
  | add
  | remove (id : Nat)
  | dispatch (m : Message)
  | clear
  /-- The receiver of a listener closes. What waits there is all that it still gets. -/
  | close (id : Nat)
  /-- The oldest messages waiting for a listener are read, as many as there are up to `count`. -/
  | read (id count : Nat)
  deriving DecidableEq, Repr

def read (ls : Listeners) (id count : Nat) : Listeners :=
  { ls with inboxes := ls.inboxes.adjust id (·.drop count) }

def step (ls : Listeners) : Event → Listeners
  | .add => ls.add.2
  | .remove id => ls.remove id
  | .dispatch m => ls.dispatch m
  | .clear => ls.clear
  | .close id => ls.close id
  | .read id count => ls.read id count

def after (ls : Listeners) (es : List Event) : Listeners := es.foldl step ls

/-- The answer to a removal: whether there was a registration to drop. -/
def removes (ls : Listeners) (id : Nat) : Bool := (ls.remove id).size < ls.size

def issued (ls : Listeners) : List Event → List Nat
  | [] => []
  | e :: es => (if e = .add then [ls.add.1] else []) ++ (ls.step e).issued es

/-- The messages that leave the inbox of `id` in an event: what is read, or was left at the end. -/
def takes (ls : Listeners) (id : Nat) : Event → List Message
  | .read id' count => if id' = id then (ls.unread id).take count else []
  | .close id' => if id' = id then ls.unread id else []
  | _ => []

def taken (ls : Listeners) (id : Nat) : List Event → List Message
  | [] => []
  | e :: es => ls.takes id e ++ (ls.step e).taken id es

def got (ls : Listeners) (id : Nat) (es : List Event) : List Message :=
  ls.taken id es ++ (ls.after es).unread id

def Event.silences (id : Nat) : Event → Bool
  | .remove id' | .close id' => id' = id
  | .clear => true
  | _ => false

def Event.message? : Event → Option Message
  | .dispatch m => some m
  | _ => none

/-- What is dispatched before `id` is removed, all are cleared or its receiver closes. -/
def heard (id : Nat) (es : List Event) : List Message :=
  (es.takeWhile fun e => !e.silences id).filterMap Event.message?

/-- The receiver of `id` closed and a dispatch came upon it. -/
def Dropped (id : Nat) (es : List Event) : Prop :=
  ∃ first m later, es = first ++ .close id :: later ∧ .dispatch m ∈ later

def Event.concerns (id : Nat) : Event → Bool
  | .remove id' | .close id' | .read id' _ => id' = id
  | .dispatch _ | .clear => true
  | .add => false

structure Seat where
  registered : Bool
  inbox : Option (List Message)
  deriving DecidableEq, Repr

def seat (ls : Listeners) (id : Nat) : Seat := ⟨ls.isRegistered id,ls.inboxes.get? id⟩

/-- What the listener that is added to `ls` can rely on while `es` happens. -/
structure Serves (ls : Listeners) (es : List Event) : Prop where
  messages : ls.add.2.got ls.add.1 es = heard ls.add.1 es
  registered : (ls.add.2.after es).isRegistered ls.add.1 = true ↔
    .remove ls.add.1 ∉ es ∧ .clear ∉ es ∧ ¬Dropped ls.add.1 es
  receiver : (ls.add.2.after es).hasInbox ls.add.1 = true ↔ .close ls.add.1 ∉ es
  /-- The stream of a receiver that did not close has no sender any more. -/
  ended : .close ls.add.1 ∉ es → ((ls.add.2.after es).isRegistered ls.add.1 = false ↔
    .remove ls.add.1 ∈ es ∨ .clear ∈ es)
  /-- It makes no difference what happens to other listeners, before and afterwards. -/
  alone : ∀ (ls' : Listeners) (es' : List Event), ls'.add.1 = ls.add.1 →
    es'.filter (·.concerns ls.add.1) = es.filter (·.concerns ls.add.1) →
    (ls'.add.2.after es').seat ls.add.1 = (ls.add.2.after es).seat ls.add.1 ∧
      ls'.add.2.taken ls.add.1 es' = ls.add.2.taken ls.add.1 es

end Listeners

namespace Scenario

open Listeners

def Listening.deeds (s : Listening) : ListeningAction → List Event
  | .add name => ((s.names.get? name).map Event.close).toList ++ [.add]
  | .remove name => ((s.names.get? name).map Event.remove).toList
  | .compare _ _ => []
  | .close name => ((s.names.get? name).map Event.close).toList
  | .clear => [.clear]
  | .dispatch line => ((Message.parse? line).map Event.dispatch).toList
  | .drain name =>
    (((s.names.get? name).filter s.listeners.hasInbox).map fun id =>
      Event.read id (s.listeners.unread id).length).toList

end Scenario

end ChatToken
