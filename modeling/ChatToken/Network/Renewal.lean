import ChatToken.Network.Lookups
import ChatToken.Network.Seclusion

/-! # A manager that starts anew

A manager can be replaced by a new one with the same configuration. Two networks are the same for a
peer if the same can happen to it in both and if the same can be told there each time, whatever they
have for other peers and whatever numbers its loads have.
-/
namespace ChatToken.Network

def tasksOf (n : Network) (m : Nat) : List LoadRef :=
  (n.manager m).loader.tasks.keys.map (LoadRef.mk m)

/-- A new manager with the same configuration takes the place of the manager `m`, whose loads die. -/
def renew (n : Network) (m : Nat) : Network :=
  let n := (n.tasksOf m).foldl dropLoad n
  { n.onManager m fun g => .new g.config with
    ready := n.ready.filter (·.manager ≠ m)
    knownLost := n.knownLost.filter (·.manager ≠ m) }

def besides (m : Nat) (own : List LoadRef) : List LoadRef := own.filter (·.manager ≠ m)

/-- The same happens and can be told at `p`, whose loads are `own` in `n` and `own'` in `n'`: for every
run in one of the networks there is one in the other that comes to the same events for `p`, and
runs that do so cannot be told apart there. -/
structure SameAt (p : Nat) (own own' : List LoadRef) (n n' : Network) : Prop where
  forth : ∀ es, ∃ es', n'.secluded p own' es' = n.secluded p own es
  back : ∀ es', ∃ es, n.secluded p own es = n'.secluded p own' es'
  told : ∀ es es', n'.secluded p own' es' = n.secluded p own es →
    n'.transcript p own' es' = n.transcript p own es

/-- The manager `m` has stored what a load of `p` has ended with at `t`: its token, or that `p` does
not know the command. -/
structure Stored (n : Network) (m p t : Nat) (ending : Ending Token TokenError) : Prop where
  token : ∀ tok, ending = .loaded tok → (n.manager m).loader.cache.get? p = some tok
  mark : ∀ command, ending = .failed (.unsupported command) →
    (n.manager m).marks.since.get? p = some t

end ChatToken.Network
