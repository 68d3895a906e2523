import ChatToken.Table
import ChatToken.Time.Clock

/-! # Marks of peers without support

A peer that does not know the token command is marked, and is left alone as long as the mark is not
older than a fixed time. Expired marks are dropped when they are looked at, and all of them are
dropped whenever a peer is marked.
-/
namespace ChatToken

structure Marks (κ : Type) where
  ttl : Span
  since : Table κ Nat := {}
  deriving DecidableEq, Repr

namespace Marks

variable {κ : Type} [DecidableEq κ]

instance : Inhabited (Marks κ) := ⟨{ ttl := Span.zero }⟩

def fresh (ms : Marks κ) (now t : Nat) : Bool := (Clock.elapsed t now).nanos ≤ ms.ttl.nanos

inductive Standing where
  | unmarked
  | marked
  /-- The peer was marked, but too long ago. -/
  | expired
  deriving DecidableEq, Repr

def standing (ms : Marks κ) (now : Nat) (p : κ) : Standing :=
  match ms.since.get? p with
  | none => .unmarked
  | some t => if ms.fresh now t then .marked else .expired

def refresh (ms : Marks κ) (now : Nat) (p : κ) : Marks κ :=
  if ms.standing now p = .expired then { ms with since := ms.since.erase p } else ms

/-- Marks `p`, dropping all expired marks. -/
def mark (ms : Marks κ) (now : Nat) (p : κ) : Marks κ :=
  { ms with since := (ms.since.keep fun _ t => ms.fresh now t).insert p now }

def remove (ms : Marks κ) (p : κ) : Marks κ := { ms with since := ms.since.erase p }

/-- The number of marks kept, expired ones included. -/
def size (ms : Marks κ) : Nat := ms.since.size

end Marks

end ChatToken
