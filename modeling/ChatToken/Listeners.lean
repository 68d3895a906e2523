import ChatToken.Message.Basic
import ChatToken.Table

/-! # Listeners

A set of listeners to the messages of one connection. Every listener gets its own inbox, which
queues the messages that were dispatched while the listener was registered. Numbers of listeners
are never used twice. A listener whose inbox was closed stays registered until the next dispatch,
which drops it.
-/
namespace ChatToken

structure Listeners where
  nextId : Nat := 0
  registered : List Nat := []
  /-- The unread messages in every inbox that was not closed, the oldest first. -/
  inboxes : Table Nat (List Message) := {}
  deriving Repr, Inhabited

namespace Listeners

def add (ls : Listeners) : Nat × Listeners :=
  (ls.nextId,
    { nextId := ls.nextId + 1
      registered := ls.registered ++ [ls.nextId]
      inboxes := ls.inboxes.insert ls.nextId [] })

def isRegistered (ls : Listeners) (id : Nat) : Bool := ls.registered.contains id

/-- Drops the registration of `id`. Its inbox keeps the messages that it got. -/
def remove (ls : Listeners) (id : Nat) : Listeners :=
  { ls with registered := ls.registered.filter (· != id) }

def clear (ls : Listeners) : Listeners := { ls with registered := [] }

/-- Closes the inbox of `id` and discards what is in it. -/
def close (ls : Listeners) (id : Nat) : Listeners :=
  { ls with inboxes := ls.inboxes.erase id }

def hasInbox (ls : Listeners) (id : Nat) : Bool := ls.inboxes.contains id

/-- Puts `m` into the inbox of every registered listener, dropping those without one. -/
def dispatch (ls : Listeners) (m : Message) : Listeners :=
  { ls with
    registered := ls.registered.filter ls.hasInbox
    inboxes := ls.inboxes.mapValues fun id unread =>
      if ls.isRegistered id then unread ++ [m] else unread }

def unread (ls : Listeners) (id : Nat) : List Message := (ls.inboxes.get? id).getD []

def drain (ls : Listeners) (id : Nat) : Listeners :=
  { ls with inboxes := ls.inboxes.adjust id fun _ => [] }

def size (ls : Listeners) : Nat := ls.registered.length

end Listeners

end ChatToken
