import ChatToken.Upload

/-! # Scenarios of token managers

A scenario is a list of steps that a user of token managers takes, one after the other. Most steps
are over at once. Some wait for a result: while one waits, the tasks that stand in line get their
turns, further actions can take place, and once nothing else is left to do the clock jumps to the
next timer. A wait that lasts longer than a day is given up.
-/
namespace ChatToken.Scenario

inductive Promise where
  | known (outcome : Outcome)
  | awaited (ref : LoadRef)
  deriving Repr

def Promise.ofLookup : TokenLookup → Promise
  | .ready t => .known (.ok (some t))
  | .unsupported => .known (.ok none)
  | .pending ref => .awaited ref

inductive Action where
  | lookup (manager peer : Nat) (keptAs : Option String)
  | poll (name : String)
  | drop (name : String)
  | isUnsupported (manager peer : Nat)
  | forget (manager peer : Nat)
  | showConfig (manager : Nat)
  | cloneManager (manager : Nat)
  | deliver (peer : Nat) (lines : List String)
  | prepare (peer : Nat) (replies : List (List String))
  | disconnect (peer : Nat)
  | advance (by_ : Span)
  | capability (peer : Nat) (name : String)
  | setCapability (peer : Nat) (name : String) (value : Option String)
  | send (peer : Nat) (command : String) (args : List String)
  | showSent (peer : Nat)
  | samePeer (peer other : Nat)
  deriving Repr

inductive Wait where
  | get (manager peer : Nat)
  | getAll (manager : Nat) (peers : List Nat)
  | promise (name : String)
  | request (peer : Nat) (service : Option String) (timeout : Span)
  | attach (manager : Nat) (uploads : List Upload)
  | sends (peer count : Nat)
  deriving Repr

inductive Meanwhile where
  | act (action : Action)
  | awaitSends (peer count : Nat)
  deriving Repr

inductive StepKind where
  | act (action : Action)
  | wait (wait : Wait) (meanwhile : Option (List Meanwhile))
  deriving Repr

structure Step where
  kind : StepKind
  /-- Whether the tasks in line get their turns before the step is over. -/
  settles : Bool := true
  deriving Repr

inductive Answer where
  | nothing
  | flag (value : Bool)
  | looked (lookup : TokenLookup) (now : Nat)
  | pending
  | outcome (outcome : Outcome)
  | outcomes (outcomes : List Outcome)
  | config (config : TokenConfig)
  | brokenLine (line : String)
  | value (value : Option String)
  | sendResult (failure : Option TokenError)
  | sentLines (lines : List String) (requests : Nat)
  | attached (summary : AttachSummary) (uploads : List Upload)
  | missing
  | hung
  | withMeanwhile (answer : Answer) (meanwhile : List Answer)
  deriving Repr

structure Tokens where
  net : Network
  /-- The manager behind every handle that the user has. -/
  handles : List Nat
  kept : Table String Promise := {}
  deriving Repr

namespace Tokens

def start (peers : List String) (managers : List TokenConfig) : Tokens :=
  { net := { peers := peers.map fun name => { name }, managers := managers.map Manager.new }
    handles := List.range managers.length }

def manager (s : Tokens) (handle : Nat) : Nat := s.handles.getD handle 0

def onNet (s : Tokens) (f : Network → Network) : Tokens := { s with net := f s.net }

def observe (n : Network) : Promise → Option Outcome × Network
  | .known o => (some o, n)
  | .awaited ref => n.observe ref

def refresh (n : Network) (c : Promise) : Promise × Network :=
  match observe n c with
  | (some o, n) => (.known o, n)
  | (none, n) => (c, n)

def sentText (p : Peer) : Answer :=
  .sentLines (p.sent.map Message.text) (p.sentCount Reply.extjwt)

def act (s : Tokens) : Action → Answer × Tokens
  | .lookup m p keptAs =>
    let (answer, net) := s.net.lookup (s.manager m) p
    (.looked answer net.now,
      { s with
        net
        kept := match keptAs with
          | some name => s.kept.insert name (Promise.ofLookup answer)
          | none => s.kept })
  | .poll name =>
    match s.kept.get? name with
    | none => (.nothing, s)
    | some c =>
      match observe s.net c with
      | (none, net) => (.pending, { s with net })
      | (some o, net) => (.outcome o, { s with net, kept := s.kept.erase name })
  | .drop name => (.flag (s.kept.contains name), { s with kept := s.kept.erase name })
  | .isUnsupported m p =>
    let (marked, net) := s.net.isUnsupported (s.manager m) p
    (.flag marked, { s with net })
  | .forget m p => (.nothing, s.onNet (·.forget (s.manager m) p))
  | .showConfig m => (.config (s.net.manager (s.manager m)).config, s)
  | .cloneManager m => (.nothing, { s with handles := s.handles ++ [s.manager m] })
  | .deliver p lines =>
    match s.net.deliverLines p lines with
    | (none, net) => (.nothing, { s with net })
    | (some line, net) => (.brokenLine line, { s with net })
  | .prepare p replies =>
    (.nothing, s.onNet (·.onPeer p fun q => { q with replies := some { replies } }))
  | .disconnect p => (.nothing, s.onNet (·.disconnect p))
  | .advance d => (.nothing, s.onNet (·.advance d))
  | .capability p name => (.value ((s.net.peer p).capability? name), s)
  | .setCapability p name value =>
    let s := s.onNet (·.onPeer p (·.setCapability name value))
    (.value ((s.net.peer p).capability? name), s)
  | .send p command args =>
    match s.net.send p command args with
    | (.sent, net) => (.sendResult none, { s with net })
    | (.failed cause, net) => (.sendResult (some (.sendFailed cause)), { s with net })
    | (.broken line, net) => (.brokenLine line, { s with net })
  | .showSent p => (sentText (s.net.peer p), s)
  | .samePeer p other => (.flag (p == other), s)

/-! ## Waiting -/

def patience : Span := Span.ofSeconds 86400

def lastTick (n : Network) : Nat := Clock.dueTick (n.now + patience.nanos)

inductive Job where
  | one (promise : Promise)
  | all (promises : List Promise)
  | request (holder : Holder)
  | batch (batch : UploadBatch)
  | sends (peer count : Nat)
  | over (answer : Answer)
  deriving Repr

def requestHolder : Holder := .caller 0

def sendResult : Except TokenError Token → Answer
  | .ok t => .outcome (.ok (some t))
  | .error e => .outcome (.error e)

def lookupAll (m : Nat) (n : Network) : List Nat → List Promise × Network
  | [] => ([], n)
  | p :: rest =>
    let (answer, n) := n.lookup m p
    let (promises, n) := lookupAll m n rest
    (Promise.ofLookup answer :: promises, n)

def begin (s : Tokens) : Wait → Job × Tokens
  | .get m p =>
    let (answer, net) := s.net.lookup (s.manager m) p
    (.one (Promise.ofLookup answer), { s with net })
  | .getAll m ps =>
    let (promises, net) := lookupAll (s.manager m) s.net ps
    (.all promises, { s with net })
  | .promise name =>
    match s.kept.get? name with
    | none => (.over .missing, s)
    | some c => (.one c, { s with kept := s.kept.erase name })
  | .request p service timeout =>
    match s.net.openRequest requestHolder p service timeout with
    | (.sent, net) => (.request requestHolder, { s with net })
    | (.failed cause, net) =>
      let (result, net) := net.failRequest requestHolder cause
      (.over (sendResult result), { s with net })
    | (.broken line, net) =>
      (.over (.brokenLine line), { s with net := net.closeExchange requestHolder })
  | .attach m uploads =>
    let (net, b) := UploadBatch.enlistAll s.net (s.manager m) uploads
    (.batch b, { s with net })
  | .sends p count => (.sends p count, s)

def refreshAll (n : Network) : List Promise → List Promise × Network
  | [] => ([], n)
  | c :: rest =>
    let (c, n) := refresh n c
    let (rest, n) := refreshAll n rest
    (c :: rest, n)

def known : Promise → Option Outcome
  | .known o => some o
  | .awaited _ => none

def look (n : Network) (job : Job) : Option Answer × Job × Network :=
  match job with
  | .one c =>
    let (c, n) := refresh n c
    ((known c).map .outcome, .one c, n)
  | .all promises =>
    let (promises, n) := refreshAll n promises
    ((promises.mapM known).map .outcomes, .all promises, n)
  | .request h =>
    match n.pollRequest h with
    | (some result, n) => (some (sendResult result), job, n)
    | (none, n) => (none, job, n)
  | .batch b =>
    let (n, waiting) := UploadBatch.observe n b.waiting
    let b := { b with waiting }
    if b.isResolved then
      let (n, b) := UploadBatch.concludeAll n b
      (some (.attached b.summary b.uploads), .batch b, n)
    else (none, .batch b, n)
  | .sends p count =>
    (if count ≤ (n.peer p).sent.length then some .nothing else none, job, n)
  | .over answer => (some answer, job, n)

structure Waiting where
  state : Tokens
  job : Job
  answer : Option Answer := none
  limit : Nat

/-- Looks at a wait, and gives it up if it is too late. What was waited for is dropped then. -/
def Waiting.look (w : Waiting) : Waiting :=
  if w.answer.isSome then w
  else
    let (answer, job, net) := Tokens.look w.state.net w.job
    if answer.isNone && w.limit ≤ net.sounded then
      { w with
        state := { w.state with net := net.closeExchange requestHolder }
        job
        answer := some .hung }
    else { w with state := { w.state with net }, job, answer }

def Waiting.turn (w : Waiting) : Waiting :=
  let w := w.look
  { w with state := w.state.onNet Network.settle }.look

/-- Lets the clock jump to the next timer, or to the first tick at which a wait is given up. -/
def Waiting.jump (w : Waiting) (limit : Nat) : Waiting :=
  let limit := if w.answer.isSome then limit else min limit w.limit
  let t := match w.state.net.nextDue? with
    | some due => min due limit
    | none => limit
  { w with state := w.state.onNet (·.jump t) }

/-- More jumps than this are not needed: every jump passes the timer of an exchange or a limit, and
waiting sets new timers only for the loads that have not begun. -/
def Waiting.jumpBound (w : Waiting) : Nat :=
  w.state.net.exchanges.size + w.state.net.ready.length + 3

def Waiting.awaitSends (p count limit : Nat) : Nat → Waiting → Answer × Waiting
  | 0, w => (.hung, w)
  | jumps + 1, w =>
    let w := w.turn
    if count ≤ (w.state.net.peer p).sent.length then (.nothing, w)
    else if limit ≤ w.state.net.sounded then (.hung, w)
    else awaitSends p count limit jumps (w.jump limit)

def Waiting.meanwhile (w : Waiting) : List Meanwhile → List Answer × Waiting
  | [] => ([], w)
  | .act action :: rest =>
    let w := w.turn
    let (answer, state) := w.state.act action
    let (answers, w) := meanwhile { w with state } rest
    (answer :: answers, w)
  | .awaitSends p count :: rest =>
    let w := w.turn
    let (answer, w) := awaitSends p count (lastTick w.state.net) w.jumpBound w
    let (answers, w) := meanwhile w rest
    (answer :: answers, w)

def Waiting.finish : Nat → Waiting → Answer × Tokens
  | 0, w => (w.answer.getD .hung, w.state)
  | jumps + 1, w =>
    let w := w.turn
    match w.answer with
    | some answer => (answer, w.state)
    | none => finish jumps (w.jump w.limit)

def wait (s : Tokens) (what : Wait) (during : Option (List Meanwhile)) : Answer × Tokens :=
  let limit := lastTick s.net
  match s.begin what with
  | (.over .missing, s) => (.missing, s)
  | (job, s) =>
    let w : Waiting := { state := s, job, limit }
    match during with
    | none => w.finish w.jumpBound
    | some acts =>
      let (answers, w) := w.look.meanwhile acts
      let (answer, s) := w.finish w.jumpBound
      (.withMeanwhile answer answers, s)

def step (s : Tokens) (st : Step) : Answer × Tokens :=
  let (answer, s) := match st.kind with
    | .act action => s.act action
    | .wait what during => s.wait what during
  (answer, if st.settles then s.onNet Network.settle else s)

def finish (s : Tokens) : List (String × Option Outcome) × Tokens :=
  let s := s.onNet Network.shutDown
  let (promises, net) := refreshAll s.net s.kept.values
  (s.kept.keys.zip (promises.map known), { s with net })

end Tokens

end ChatToken.Scenario
