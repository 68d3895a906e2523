import ChatToken.Network.Run

/-! # Lookups and those who hold them

Whoever looks a token up holds the answer, polls it as often as they like until it has its result,
and can drop it at any time. A load that ends hands over what it has ended with, unless everybody
who waited for it has gone. That is kept for those who still wait, and goes with the last of them.
-/
namespace ChatToken

inductive Fate where
  | held
  /-- It was polled when its result was there. -/
  | got (outcome : Outcome)
  | dropped
  deriving Repr

structure Holding where
  answer : TokenLookup
  fate : Fate := .held
  deriving Repr

/-- Somebody still waits for the load `ref`. -/
def Holding.awaits (h : Holding) (ref : LoadRef) : Bool :=
  match h.fate with
  | .held => h.answer == .pending ref
  | _ => false

structure Lookups where
  net : Network
  made : List Holding := []
  /-- What loads have handed over, as long as somebody waits for it. -/
  received : Table LoadRef (Ending Token TokenError) := {}
  deriving Repr

namespace Lookups

inductive Step where
  | poll (lookup : Nat)
  | drop (lookup : Nat)
  | event (e : Network.Event)
  deriving DecidableEq, Repr

def holds (l : Lookups) (ref : LoadRef) : Bool := l.made.any (·.awaits ref)

/-- What is there for those who wait once an event has taken place. If it ends a load, what the load
ends with is handed over. -/
def handedOver (l : Lookups) (e : Network.Event) : Table LoadRef (Ending Token TokenError) :=
  match e.holder? with
  | some (.load ref) =>
    match l.net.ending? ref, (l.net.step e).ending? ref with
    | none, some ending => if l.holds ref then l.received.insert ref ending else l.received
    | _, _ => l.received
  | _ => l.received

def gained (n : Network) : Network.Event → List Holding
  | .lookup m p => [{ answer := (n.lookup m p).1 }]
  | _ => []

def happen (l : Lookups) (e : Network.Event) : Lookups where
  net := l.net.step e
  made := l.made ++ gained l.net e
  received := l.handedOver e

def letGo (l : Lookups) (i : Nat) (fate : Fate) : Lookups :=
  let l := { l with made := l.made.modify i fun h => { h with fate } }
  { l with received := l.received.keep fun ref _ => l.holds ref }

def result? (l : Lookups) : TokenLookup → Option Outcome
  | .ready t => some (.ok (some t))
  | .unsupported => some (.ok none)
  | .pending ref => (l.received.get? ref).map Ending.outcome

/-- The poll of a lookup that is held, as an event of the network: who polls the lookup of a load
that was lost is the first to report it. -/
def glance : TokenLookup → List Network.Event
  | .pending ref => [.observe ref]
  | _ => []

def poll (l : Lookups) (i : Nat) : Lookups :=
  match l.made[i]? with
  | some ⟨answer, .held⟩ =>
    let l := { l with net := l.net.after (glance answer) }
    match l.result? answer with
    | some outcome => l.letGo i (.got outcome)
    | none => l
  | _ => l

def drop (l : Lookups) (i : Nat) : Lookups :=
  match l.made[i]? with
  | some ⟨_, .held⟩ => l.letGo i .dropped
  | _ => l

def step (l : Lookups) : Step → Lookups
  | .poll i => l.poll i
  | .drop i => l.drop i
  | .event e => l.happen e

def start (peers : List Peer) (configs : List TokenConfig) : Lookups :=
  { net := Network.start peers configs }

def after (l : Lookups) (steps : List Step) : Lookups := steps.foldl step l

/-! ## What can be told from a run -/

def others (steps : List Step) : List Network.Event :=
  steps.filterMap fun
    | .event e => some e
    | _ => none

def events (l : Lookups) : Step → List Network.Event
  | .poll i =>
    match l.made[i]? with
    | some ⟨answer, .held⟩ => glance answer
    | _ => []
  | .drop _ => []
  | .event e => [e]

def course (l : Lookups) : List Step → List Network.Event
  | [] => []
  | s :: steps => l.events s ++ (l.step s).course steps

/-- What is sent during some steps: when, over which connection, and which command. -/
def sends (l : Lookups) : List Step → List (Nat × Nat × Message)
  | [] => []
  | s :: steps =>
    ((List.range l.net.peers.length).flatMap fun p =>
      (l.net.sentSince (l.step s).net p).map (l.net.now, p, ·)) ++ (l.step s).sends steps

def isKept (l : Lookups) (i : Nat) : Bool :=
  match l.made[i]? with
  | some ⟨_, .held⟩ | some ⟨_, .got _⟩ => true
  | _ => false

/-- The result that the lookup `i` has got, or would get now. -/
def outcome? (l : Lookups) (i : Nat) : Option Outcome :=
  match l.made[i]? with
  | some ⟨answer, .held⟩ => l.result? answer
  | some ⟨_, .got outcome⟩ => some outcome
  | _ => none

end Lookups

/-- Two networks are the same but for what was reported. -/
structure Network.Agrees (n n' : Network) : Prop where
  now : n'.now = n.now
  sounded : n'.sounded = n.sounded
  peers : n'.peers = n.peers
  managers : n'.managers = n.managers
  exchanges : n'.exchanges = n.exchanges
  ready : n'.ready = n.ready
  tickets : n'.tickets = n.tickets

end ChatToken
