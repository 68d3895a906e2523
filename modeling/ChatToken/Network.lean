import ChatToken.Exchange
import ChatToken.Notice
import ChatToken.Peer
import ChatToken.Token.Manager
import ChatToken.Token.Matcher

/-! # Managers at work

Token managers, the connections they use, the exchanges that are going on, and the clock. Every
load is carried out by a task, and every task that has something to do stands in one line, in the
order in which it got it: when it was started, when a message came for its exchange, when its
connection went away, or when its timer went off. A task that gets its turn works until it has to
wait.
-/
namespace ChatToken

structure LoadRef where
  manager : Nat
  load : Nat
  deriving DecidableEq, Repr, Inhabited

/-- On whose behalf an exchange goes on. -/
inductive Holder where
  | load (ref : LoadRef)
  | caller (number : Nat)
  deriving DecidableEq, Repr

structure Network where
  now : Nat := 0
  /-- The tick up to which timers have gone off. -/
  sounded : Nat := 0
  peers : List Peer := []
  managers : List Manager := []
  /-- The exchanges that are neither resolved nor dropped. -/
  exchanges : Table Holder (Exchange Matcher) := {}
  ready : List LoadRef := []
  /-- How many timers were set. -/
  tickets : Nat := 0
  /-- The lost loads that somebody has found out about. -/
  knownLost : List LoadRef := []
  /-- Everything that was reported, the oldest first. -/
  notices : List Notice := []
  deriving Repr, Inhabited

inductive TokenLookup where
  | ready (token : Token)
  | unsupported
  | pending (ref : LoadRef)
  deriving DecidableEq, Repr

inductive Sending where
  | sent
  | failed (cause : String)
  /-- A prepared answer held a line that is no message. -/
  | broken (line : String)
  deriving DecidableEq, Repr

abbrev Outcome := Except TokenError (Option Token)

namespace Network

def note (n : Network) (notices : List Notice) : Network :=
  { n with notices := n.notices ++ notices }

def onPeer (n : Network) (i : Nat) (f : Peer → Peer) : Network :=
  { n with peers := n.peers.modify i f }

def onManager (n : Network) (i : Nat) (f : Manager → Manager) : Network :=
  { n with managers := n.managers.modify i f }

def peer (n : Network) (i : Nat) : Peer := n.peers.getD i default

def manager (n : Network) (i : Nat) : Manager := n.managers.getD i default

/-! ## Tasks in line -/

def wake (n : Network) (ref : LoadRef) : Network :=
  if n.ready.contains ref then n else { n with ready := n.ready ++ [ref] }

def wakeAll (n : Network) (refs : List LoadRef) : Network := refs.foldl wake n

/-- The loads whose exchanges listen to the connection `p`, in the order of their listeners. -/
def loadsListening (n : Network) (p : Nat) : List LoadRef :=
  n.exchanges.entries.filterMap fun (h, x) =>
    match h with
    | .load ref =>
      if x.peer = p ∧ (n.peer p).listeners.isRegistered x.listener then some ref else none
    | .caller _ => none

/-! ## Messages -/

def deliver (n : Network) (p : Nat) (m : Message) : Network :=
  (n.onPeer p (·.dispatch m)).wakeAll (n.loadsListening p)

/-- Delivers lines up to the first one that is no message, which is returned. -/
def deliverLines (n : Network) (p : Nat) : List String → Option String × Network
  | [] => (none, n)
  | line :: rest =>
    match Message.parse? line with
    | none => (some line, n)
    | some m => deliverLines (n.deliver p m) p rest

def disconnect (n : Network) (p : Nat) : Network :=
  (n.onPeer p Peer.disconnect).wakeAll (n.loadsListening p)

/-! ## Exchanges -/

def openExchange (n : Network) (h : Holder) (p : Nat) (matcher : Matcher) (timeout : Span) :
    Network :=
  let (x, changed) := Exchange.listen (n.peer p) p matcher timeout n.now
  { n.onPeer p fun _ => changed with exchanges := n.exchanges.insert h x }

/-- Stops listening, because the exchange is resolved or dropped. -/
def closeExchange (n : Network) (h : Holder) : Network :=
  match n.exchanges.get? h with
  | none => n
  | some x =>
    { (n.onPeer x.peer (·.hangUp x.listener)).note [.listenerRemoved x.peer x.listener] with
      exchanges := n.exchanges.erase h }

/-- What there is to report about the result of an exchange: an internal error means that something
was lost. -/
def resultNotices : Except TokenError String → List Notice
  | .error .internal => [.loadLost]
  | _ => []

def pollExchange (n : Network) (h : Holder) : Option (Except TokenError String) × Network :=
  match n.exchanges.get? h with
  | none => (none, n)
  | some x =>
    let (r, changed) := x.look Matcher.classify n.now n.sounded n.tickets (n.peer x.peer)
    let n := n.note (r.pieces.map fun piece => .pieceReceived piece.utf8ByteSize)
    let n := n.onPeer x.peer fun _ => changed
    let n := { n with
      tickets := n.tickets + 1
      exchanges := n.exchanges.adjust h fun _ => r.exchange }
    match r.result with
    | none => (none, n)
    | some result => (some result, (n.note (resultNotices result)).closeExchange h)

/-! ## Requests -/

def sendNotices (n : Network) (p : Nat) (m : Message) : List Notice :=
  match (n.peer p).link with
  | .memory => []
  | .stream _ => [.lineSent p m.text]

def send (n : Network) (p : Nat) (command : String) (args : List String) : Sending × Network :=
  let n := n.note (n.sendNotices p (Message.of command args))
  let (answer, changed) := (n.peer p).send command args
  let n := n.onPeer p fun _ => changed
  match answer with
  | .error cause => (.failed cause, n)
  | .ok lines =>
    match n.deliverLines p lines with
    | (none, n) => (.sent, n)
    | (some line, n) => (.broken line, n)

def openRequest (n : Network) (h : Holder) (p : Nat) (service : Option String) (timeout : Span) :
    Sending × Network :=
  (n.openExchange h p .extjwt timeout).send p Reply.extjwt (Reply.anyTarget :: service.toList)

def statusOf : Except TokenError Token → String
  | .ok _ => "ok"
  | .error e => e.tag

def noteRequest (n : Network) (since : Nat) (result : Except TokenError Token) : Network :=
  n.note [.requestEnded (statusOf result) (Clock.tick (n.now - since))]

def failRequest (n : Network) (h : Holder) (cause : String) : Except TokenError Token × Network :=
  let result := .error (.sendFailed cause)
  (result, (n.noteRequest n.now result).closeExchange h)

def pollRequest (n : Network) (h : Holder) : Option (Except TokenError Token) × Network :=
  let since := ((n.exchanges.get? h).map (·.since)).getD n.now
  match n.pollExchange h with
  | (none, n) => (none, n)
  | (some result, n) =>
    let result := result.bind (Token.ofPayload n.now)
    (some result, n.noteRequest since result)

/-! ## Loads -/

/-- Looks at the mark of a peer: whether it counts. A mark that has expired is dropped. -/
def checkMark (n : Network) (m p : Nat) : Bool × Network :=
  let standing := (n.manager m).marks.standing n.now p
  let n := n.onManager m fun g => { g with marks := g.marks.refresh n.now p }
  match standing with
  | .marked => (true, n)
  | .unmarked => (false, n)
  | .expired => (false, n.note [.markExpired p])

def markPeer (n : Network) (m p : Nat) : Network :=
  let n := n.onManager m fun g => { g with marks := g.marks.mark n.now p }
  n.note [.peerMarked (n.manager m).marks.size]

def finishLoad (n : Network) (ref : LoadRef) (result : Except TokenError Token) : Network :=
  let g := n.manager ref.manager
  let (loader, notices) := g.loader.finish (Manager.staleness g.config n.now) ref.load result
  (n.onManager ref.manager fun g => { g with loader }).note (notices.map .loader)

def concludeLoad (n : Network) (ref : LoadRef) (p : Nat) (result : Except TokenError Token) :
    Network :=
  let n := match result with
    | .ok t => n.note [.tokenAcquired p t.size]
    | .error (.unsupported _) => (n.note [.supportMissing p]).markPeer ref.manager p
    | .error e => n.note [.requestFailed p e]
  n.finishLoad ref result

def dropLoad (n : Network) (ref : LoadRef) : Network :=
  let n := n.closeExchange (.load ref)
  let n := n.onManager ref.manager fun g => { g with loader := g.loader.abandon ref.load }
  { n with ready := n.ready.filter (· != ref) }

def continueLoad (n : Network) (ref : LoadRef) (p : Nat) : Network :=
  match n.pollRequest (.load ref) with
  | (none, n) => n
  | (some result, n) => n.concludeLoad ref p result

/-- The first turn of a load of the peer `p`: sends the request, unless the peer was marked since
the load was started. -/
def beginLoad (n : Network) (ref : LoadRef) (p : Nat) : Network :=
  let g := n.manager ref.manager
  let (loader, notices) := g.loader.begin ref.load
  let n := (n.onManager ref.manager fun g => { g with loader }).note (notices.map .loader)
  match n.checkMark ref.manager p with
  | (true, n) => (n.note [.requestWithheld p]).finishLoad ref (.error (.unsupported Reply.extjwt))
  | (false, n) =>
    match n.openRequest (.load ref) p g.config.service g.config.requestTimeout with
    | (.sent, n) => n.continueLoad ref p
    | (.failed cause, n) =>
      let (result, n) := n.failRequest (.load ref) cause
      n.concludeLoad ref p result
    | (.broken _, n) => n.dropLoad ref

def runLoad (n : Network) (ref : LoadRef) : Network :=
  match (n.manager ref.manager).loader.tasks.get? ref.load with
  | none => n
  | some t => if t.begun then n.continueLoad ref t.key else n.beginLoad ref t.key

def runNext (n : Network) : Network :=
  match n.ready with
  | [] => n
  | ref :: rest => runLoad { n with ready := rest } ref

def run (n : Network) : Nat → Network
  | 0 => n
  | turns + 1 => if n.ready.isEmpty then n else run n.runNext turns

/-- A bound for the turns that the tasks in line can take: only the first turn of a task gives
others something to do, and no task more than one turn. -/
def turnBound (n : Network) : Nat :=
  (n.ready.length + 1) * (n.ready.length + n.exchanges.size + 1)

def settle (n : Network) : Network := n.run n.turnBound

/-! ## The clock -/

def timers (n : Network) : List (Timer × Holder) :=
  n.exchanges.entries.filterMap fun (h, x) => x.timer.map (·, h)

/-- Sounds the ticks up to now, which wakes the tasks whose timers go off. -/
def soundTimers (n : Network) : Network :=
  let n := { n with sounded := Clock.tick n.now }
  n.wakeAll ((Timer.goingOff n.sounded n.timers).filterMap fun h =>
    match h with
    | .load ref => some ref
    | .caller _ => none)

/-- Moves the clock. The tasks in line get their turns before timers go off. -/
def advance (n : Network) (d : Span) : Network :=
  { n with now := n.now + d.nanos }.settle.soundTimers

def jump (n : Network) (t : Nat) : Network :=
  { n with now := Clock.jump n.now t }.soundTimers

def nextDue? (n : Network) : Option Nat :=
  Timer.nextDue? ((n.timers.map (·.1)).filter fun t => !t.isOff n.sounded)

/-! ## What callers do -/

/-- Looks a token up, which starts a request if nothing is known about the peer. -/
def lookup (n : Network) (m p : Nat) : TokenLookup × Network :=
  match n.checkMark m p with
  | (true, n) => (.unsupported, n.note [.markHit])
  | (false, n) =>
    let g := n.manager m
    let (answer, loader, notices) := g.loader.lookup (Manager.staleness g.config n.now) true p
    let n := (n.onManager m fun g => { g with loader }).note (notices.map .loader)
    match answer with
    | .cached t => (.ready t, n)
    | .loading id => (.pending ⟨m, id⟩, if id = g.loader.nextLoad then n.wake ⟨m, id⟩ else n)
    | .refused => (.unsupported, n)

def isUnsupported (n : Network) (m p : Nat) : Bool × Network := n.checkMark m p

def forget (n : Network) (m p : Nat) : Network :=
  let g := n.manager m
  let (item, loader) := g.loader.invalidate p
  let wasMarked := g.marks.since.contains p
  (n.onManager m fun _ => { g with loader, marks := g.marks.remove p }).note
    [.peerForgotten p item.isSome wasMarked]

def observe (n : Network) (ref : LoadRef) : Option Outcome × Network :=
  match (n.manager ref.manager).loader.ending? ref.load with
  | none => (none, n)
  | some .lost =>
    (some (Ending.outcome .lost),
      if n.knownLost.contains ref then n
      else { n.note [.loadLost] with knownLost := n.knownLost ++ [ref] })
  | some e => (some e.outcome, n)

def shutDown (n : Network) : Network :=
  ((List.range n.managers.length).flatMap fun m =>
    (n.manager m).loader.tasks.keys.map fun id => ⟨m, id⟩).foldl dropLoad n

end Network

end ChatToken
