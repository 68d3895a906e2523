import ChatToken.Loader.Basic

/-! # Runs of a loader

What can happen to a loader, in any order: users look keys up and invalidate them, the tasks of the
loads get on or die, time passes, and items come to be judged by another rule. An event that does
not fit the state, such as the end of a load that is over, changes nothing.
-/
namespace ChatToken.Loader

inductive Event (κ ι ε : Type) where
  | lookup (canStart : Bool) (key : κ)
  | invalidate (key : κ)
  | begin (load : Nat)
  | complete (load : Nat) (result : Except ε ι)
  /-- The task of a settled load lets its guard go. -/
  | letGo (load : Nat)
  | die (load : Nat)
  /-- The task of a load is gone, and those who wait are told. -/
  | handOver (load : Nat)
  | pass (nanos : Nat)
  | judge (rule : Nat → ι → Option ε)

/-- A loader, the clock, and the rule that says why an item is not valid at an instant. -/
structure World (κ ι ε : Type) where
  loader : Loader κ ι ε
  now : Nat
  rule : Nat → ι → Option ε

namespace World

variable {κ ι ε : Type}

def new (rule : Nat → ι → Option ε) : World κ ι ε := { loader := {}, now := 0, rule }

def invalid (w : World κ ι ε) : ι → Option ε := w.rule w.now

variable [DecidableEq κ]

def look (w : World κ ι ε) (canStart : Bool) (key : κ) : Lookup ι :=
  (w.loader.lookup w.invalid canStart key).1

def step (w : World κ ι ε) : Event κ ι ε → World κ ι ε
  | .lookup canStart key => { w with loader := (w.loader.lookup w.invalid canStart key).2.1 }
  | .invalidate key => { w with loader := (w.loader.invalidate key).2 }
  | .begin id => { w with loader := (w.loader.begin id).1 }
  | .complete id result => { w with loader := (w.loader.complete w.invalid id result).1 }
  | .letGo id => { w with loader := w.loader.letGo id }
  | .die id => { w with loader := w.loader.die id }
  | .handOver id => { w with loader := w.loader.handOver id }
  | .pass nanos => { w with now := w.now + nanos }
  | .judge rule => { w with rule }

def run (w : World κ ι ε) (events : List (Event κ ι ε)) : World κ ι ε := events.foldl step w

end World

end ChatToken.Loader
