import ChatToken.Network.Run

/-! # What can be told at one peer

What somebody can tell from a run who only has to do with one connection: what the managers answer
about it, what its loads come to, and what is sent over it, everything with its time. Loads are
counted for each connection, so that their numbers say nothing about the others. A run can be
reduced to the events that concern one connection and those that move the clock.
-/
namespace ChatToken.Network

/-- The loads that lookups of `p` have been answered with after the event `e`, if those before were
`own`, in the order in which they came up. -/
def issued (n : Network) (p : Nat) (own : List LoadRef) : Event → List LoadRef
  | .lookup m q =>
    if q = p then
      match (n.lookup m q).1 with
      | .pending ref => if ref ∈ own then own else own ++ [ref]
      | _ => own
    else own
  | _ => own

def issuedAfter (n : Network) (p : Nat) (own : List LoadRef) : List Event → List LoadRef
  | [] => own
  | e :: es => (n.step e).issuedAfter p (n.issued p own e) es

/-- A load with the number that it has among the loads `own` of its manager. -/
def place (own : List LoadRef) (ref : LoadRef) : LoadRef :=
  ⟨ref.manager, (own.filter (·.manager = ref.manager)).idxOf ref⟩

def callsOver (n : Network) (p c : Nat) : Bool :=
  (n.exchanges.get? (.caller c)).any (·.peer = p)

/-- An event as it is when only `p` is there, if it concerns `p` or moves the clock. -/
def secluded? (n : Network) (p : Nat) (own : List LoadRef) (e : Event) : Option Event :=
  match e with
  | .lookup _ q | .isUnsupported _ q | .forget _ q | .send q _ _ | .deliver q _ | .disconnect q
  | .receive q _ | .finishStream q | .failWriting q _ | .prepare q _ | .advertise q _ _ =>
    if q = p then some e else none
  | .observe ref => if ref ∈ own then some (.observe (place own ref)) else none
  | .turn ref => if ref ∈ own then some (.turn (place own ref)) else none
  | .die ref => if ref ∈ own then some (.die (place own ref)) else none
  | .listen c q _ _ =>
    if q = p ∧ n.exchanges.contains (.caller c) = false then some e else none
  | .look c | .hangUp c => if n.callsOver p c then some e else none
  | .pass _ | .sound => some e

def secluded (n : Network) (p : Nat) (own : List LoadRef) : List Event → List Event
  | [] => []
  | e :: es => (n.secluded? p own e).toList ++ (n.step e).secluded p (n.issued p own e) es

inductive Sight where
  | answered (manager : Nat) (answer : TokenLookup)
  | checked (manager : Nat) (marked : Bool)
  | observed (ref : LoadRef) (outcome : Option Outcome)
  | looked (caller : Nat) (result : Option (Except TokenError String))
  | sent (m : Message)
  deriving Repr

def placed (own : List LoadRef) : TokenLookup → TokenLookup
  | .pending ref => .pending (place own ref)
  | answer => answer

def answered (n : Network) (p : Nat) (own : List LoadRef) (e : Event) : List Sight :=
  match e with
  | .lookup m q =>
    if q = p then [.answered m (placed (n.issued p own e) (n.lookup m q).1)] else []
  | .isUnsupported m q => if q = p then [.checked m (n.isUnsupported m q).1] else []
  | .observe ref => if ref ∈ own then [.observed (place own ref) (n.observe ref).1] else []
  | .look c => if n.callsOver p c then [.looked c (n.pollExchange (.caller c)).1] else []
  | _ => []

def sights (n : Network) (p : Nat) (own : List LoadRef) (e : Event) : List Sight :=
  n.answered p own e ++ (n.sentSince (n.step e) p).map .sent

def transcript (n : Network) (p : Nat) (own : List LoadRef) : List Event → List (Nat × Sight)
  | [] => []
  | e :: es =>
    (n.sights p own e).map (n.now, ·) ++ (n.step e).transcript p (n.issued p own e) es

end ChatToken.Network
