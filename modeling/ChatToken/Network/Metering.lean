import ChatToken.Network.Run
import ChatToken.Report.Metric

/-! # A manager and its metrics

Runs of a single manager whose metrics are watched. A lookup may be made where no load can be
started. It may also be overtaken between its two looks, at the mark of its peer and at the tokens:
then the peer can be marked in between, and the load that the lookup starts finds the mark.
-/
namespace ChatToken

/-! ## Metrics -/

namespace Metric

def isCount (name : String) (tags : List (String × String)) (x : Metric) : Bool :=
  x.kind = .counter && x.name = name && tags.all (x.tags.contains ·)

def total (name : String) (tags : List (String × String)) (ms : List Metric) : Nat :=
  (ms.filter (isCount name tags)).foldr (fun x n => x.value + n) 0

end Metric

namespace Network

def metrics (n : Network) : List Metric := n.notices.flatMap Metric.ofNotice

def counted (n : Network) (name : String) (tags : List (String × String)) : Nat :=
  Metric.total name tags n.metrics

/-! ## Lookups in parts -/

/-- The part of a lookup behind the marks. It gives no answer if it would have to start a load and
cannot. -/
def seekIn (n : Network) (canStart : Bool) (m p : Nat) : Option TokenLookup × Network :=
  let g := n.manager m
  let (answer, loader, notices) := g.loader.lookup (Manager.staleness g.config n.now) canStart p
  let n := (n.onManager m fun g => { g with loader }).note (notices.map .loader)
  match answer with
  | .cached t => (some (.ready t), n)
  | .loading id => (some (.pending ⟨m, id⟩), if id = g.loader.nextLoad then n.wake ⟨m, id⟩ else n)
  | .refused => (none, n)

def lookupIn (n : Network) (canStart : Bool) (m p : Nat) : Option TokenLookup × Network :=
  match n.checkMark m p with
  | (true, n) => (some .unsupported, n.note [.markHit])
  | (false, n) => n.seekIn canStart m p

/-- The task of `ref` is about to find that its peer was marked since the lookup. -/
def isWithheld (n : Network) (ref : LoadRef) : Bool :=
  match (n.manager ref.manager).loader.tasks.get? ref.load with
  | some t => !t.begun && (n.manager ref.manager).marks.standing n.now t.key = .marked
  | none => false

end Network

def Ending.isLost {ι ε : Type} : Ending ι ε → Bool
  | .lost => true
  | .loaded _ | .failed _ => false

def Loader.lostLoads {κ ι ε : Type} (l : Loader κ ι ε) : Nat :=
  (l.endings.keep fun _ e => e.isLost).size

/-! ## Runs -/

structure Metering where
  net : Network
  /-- The peers of the lookups that were overtaken and have not gone on. -/
  overtaken : List Nat := []

namespace Metering

inductive Event where
  | net (e : Network.Event)
  /-- A lookup where no load can be started. -/
  | outside (peer : Nat)
  /-- A lookup looks at the mark of its peer, and is overtaken if it has to go on. -/
  | check (peer : Nat)
  /-- A lookup that was overtaken goes on. -/
  | goOn (peer : Nat) (canStart : Bool)
  deriving DecidableEq, Repr

def start (peers : List Peer) (config : TokenConfig) : Metering :=
  { net := Network.start peers [config] }

def isOwn (e : Network.Event) : Bool := e.manager?.all (· = 0)

def step (s : Metering) : Event → Metering
  | .net e => if isOwn e then { s with net := s.net.step e } else s
  | .outside p => { s with net := (s.net.lookupIn false 0 p).2 }
  | .check p =>
    match s.net.checkMark 0 p with
    | (true, n) => { s with net := n.note [.markHit] }
    | (false, n) => { net := n, overtaken := s.overtaken ++ [p] }
  | .goOn p canStart =>
    if p ∈ s.overtaken then
      { net := (s.net.seekIn canStart 0 p).2, overtaken := s.overtaken.erase p }
    else s

def after (s : Metering) (es : List Event) : Metering := es.foldl step s

/-! ## What can be told from a run -/

/-- The lookups that come to their end in an event, with an answer or without one. -/
def lookups (s : Metering) : Event → Nat
  | .net (.lookup 0 _) => 1
  | .net _ => 0
  | .outside _ => 1
  | .check p => if (s.net.checkMark 0 p).1 then 1 else 0
  | .goOn p _ => if p ∈ s.overtaken then 1 else 0

def refusals (s : Metering) : Event → Nat
  | .outside p => if (s.net.lookupIn false 0 p).1.isNone then 1 else 0
  | .goOn p canStart =>
    if p ∈ s.overtaken ∧ (s.net.seekIn canStart 0 p).1.isNone then 1 else 0
  | .net _ | .check _ => 0

/-- The loads that an event stops because their peer is marked. -/
def withheld (s : Metering) : Event → Nat
  | .net (.turn ref) => if isOwn (.turn ref) ∧ s.net.isWithheld ref then 1 else 0
  | _ => 0

def times (count : Metering → Event → Nat) (s : Metering) : List Event → Nat
  | [] => 0
  | e :: es => count s e + times count (s.step e) es

/-- The metrics of the manager agree with each other, and with as many lookups, lookups without an
answer and withheld requests. -/
structure AddsUp (n : Network) (lookups refusals withheld : Nat) : Prop where
  lookups : lookups = n.counted "tokens.unsupported.hit" [] + n.counted "caches.access" []
  accesses : n.counted "caches.access" [] = n.counted "caches.memory.hit" [] +
    n.counted "caches.channel.hit" [] + n.counted "caches.channel.miss" [] + refusals
  evictions : n.counted "caches.invalid" [] ≤ n.counted "caches.channel.miss" [] + refusals
  loads : n.counted "caches.channel.miss" [] = (n.manager 0).loader.runningLoads +
    (n.manager 0).loader.lostLoads + withheld + n.counted "tokens.request" []
  marks : n.counted "tokens.unsupported.marked" [] =
    n.counted "tokens.request" [("status", "unsupported")]

end Metering

end ChatToken
