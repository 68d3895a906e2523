import ChatToken.Network
import ChatToken.Token.Marks

/-! # Runs of marks

What can happen to the marks of a manager, in any order: peers are marked, checked and removed, and
time passes. Beside the marks that are kept stands what ought to count: the last mark of a peer, if
the peer was not removed since and the mark is not too old.
-/
namespace ChatToken
namespace Marks

inductive Event (κ : Type) where
  | mark (peer : κ)
  | check (peer : κ)
  | remove (peer : κ)
  | pass (nanos : Nat)
  deriving DecidableEq, Repr

structure World (κ : Type) where
  marks : Marks κ
  now : Nat := 0
  deriving DecidableEq, Repr

namespace World

variable {κ : Type}

def new (ttl : Span) : World κ := { marks := { ttl } }

variable [DecidableEq κ]

def contains (w : World κ) (p : κ) : Bool := w.marks.standing w.now p = .marked

def step (w : World κ) : Event κ → World κ
  | .mark p => { w with marks := w.marks.mark w.now p }
  | .check p => { w with marks := w.marks.refresh w.now p }
  | .remove p => { w with marks := w.marks.remove p }
  | .pass nanos => { w with now := w.now + nanos }

def after (w : World κ) (es : List (Event κ)) : World κ := es.foldl step w

end World

variable {κ : Type}

def Event.nanos : Event κ → Nat
  | .pass nanos => nanos
  | .mark _ | .check _ | .remove _ => 0

def passed (es : List (Event κ)) : Nat := es.foldr (fun e nanos => e.nanos + nanos) 0

/-- The last mark of `p` was set `age` ago, and `p` was not removed since. -/
def LastMarked (p : κ) (es : List (Event κ)) (age : Nat) : Prop :=
  ∃ first later, es = first ++ .mark p :: later ∧ .mark p ∉ later ∧ .remove p ∉ later ∧
    passed later = age

/-- The last mark of `p` was not removed, and is not older than `ttl`. -/
def Counts (ttl : Span) (p : κ) (es : List (Event κ)) : Prop :=
  ∃ age, LastMarked p es age ∧ age ≤ ttl.nanos

/-- What an event does to the age of the last mark of `p`, if nothing is ever dropped. -/
def aged [DecidableEq κ] (p : κ) (age : Option Nat) : Event κ → Option Nat
  | .mark q => if q = p then some 0 else age
  | .check _ => age
  | .remove q => if q = p then none else age
  | .pass nanos => age.map (· + nanos)

def age? [DecidableEq κ] (p : κ) (es : List (Event κ)) : Option Nat := es.foldl (aged p) none

end Marks

/-- The manager `m` has the marks of `w`, and it is as late as there. -/
structure Network.HasMarks (n : Network) (m : Nat) (w : Marks.World Nat) : Prop where
  exists_manager : m < n.managers.length
  marks : (n.manager m).marks = w.marks
  now : n.now = w.now

end ChatToken
