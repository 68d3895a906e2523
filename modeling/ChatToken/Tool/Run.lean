import ChatToken.Network.Run
import ChatToken.Tool.Session

/-! # Runs of a session

What can happen to a session from outside, in any order, and what the tool does meanwhile. The tool
acts at the stops of its course: there what it waits for has come. What it did up to some point is
told by its trace, and what it was told by the outcomes of its lookups.
-/
namespace ChatToken

/-! ## What the tool ought to do -/

namespace FetchPlan

/-- What is seen of attempts that bring the tokens `ts`, with a pause before each but the first. The
last attempt goes on with `last`. -/
def attempts (plan : FetchPlan) (ts : List Token) (last : List FetchEvent) : List FetchEvent :=
  let attempt (t : Token) : List FetchEvent := [.paused plan.interval, .lookedUp, .printed t.value]
  (ts.flatMap attempt ++ last).tail

def tokens (ts : List Token) : List Outcome := ts.map fun t => .ok (some t)

/-- What the tool ought to do if its lookups end with the given outcomes, and how it ought to end.
Tokens are printed as long as they come and are asked for. Whatever ends that, nothing is looked up
any more, and the tool leaves and forgets the server behind all else. -/
inductive Fetches (plan : FetchPlan) : List Outcome → List FetchEvent → FetchEnd → Prop where
  | all (ts : List Token) (rest : List Outcome) (h : ts.length = plan.repeats) :
    Fetches plan (tokens ts ++ rest) (plan.attempts ts [] ++ [.quit, .forgot]) .succeeded
  | unsupported (ts : List Token) (rest : List Outcome) (h : ts.length < plan.repeats) :
    Fetches plan (tokens ts ++ .ok none :: rest)
      (plan.attempts ts [.paused plan.interval, .lookedUp] ++
        [.printed (plan.address ++ " does not support " ++ Reply.extjwt), .quit, .forgot])
      .succeeded
  | failed (ts : List Token) (e : TokenError) (rest : List Outcome) (h : ts.length < plan.repeats) :
    Fetches plan (tokens ts ++ .error e :: rest)
      (plan.attempts ts [.paused plan.interval, .lookedUp] ++ [.quit, .forgot]) (.failed e)
  | waiting (ts : List Token) (h : ts.length < plan.repeats) :
    Fetches plan (tokens ts) (plan.attempts ts [.paused plan.interval, .lookedUp]) .waiting

def deeds (plan : FetchPlan) : FetchStep → List FetchEvent
  | .pause _ => [.paused plan.interval]
  | .lookUp _ => [.lookedUp]
  | .leave _ => [.quit, .forgot]

end FetchPlan

namespace FetchEvent

def line? : FetchEvent → Option String
  | .printed line => some line
  | _ => none

/-- What is done to the network. The tool has one manager and one connection. -/
def call? : FetchEvent → Option Network.Event
  | .lookedUp => some (.lookup 0 0)
  | .quit => some (.send 0 "QUIT" ["done"])
  | .forgot => some (.forget 0 0)
  | .paused _ | .printed _ => none

end FetchEvent

namespace Network

/-- The event is no call of the tool: something comes out of a stream or goes wrong with it, time
passes, tasks have their turns, or somebody who waits has a look. -/
def Event.isPassive : Event → Bool
  | .observe _ | .turn _ | .look _ | .receive .. | .finishStream _ | .failWriting .. | .pass _
  | .sound => true
  | _ => false

/-- From `n` to `n'` the given calls were made in their order. Apart from that there were passive
events, reports, and timers that were set. -/
inductive Comes (n : Network) : List Event → Network → Prop where
  | refl : Comes n [] n
  | called {calls : List Event} {n' : Network} (e : Event) (h : Comes n calls n')
    (he : e.isPassive = false) : Comes n (calls ++ [e]) (n'.step e)
  | passed {calls : List Event} {n' : Network} (e : Event) (h : Comes n calls n')
    (he : e.isPassive = true) : Comes n calls (n'.step e)
  | noted {calls : List Event} {n' : Network} (notices : List Notice) (h : Comes n calls n') :
    Comes n calls (n'.note notices)
  | timed {calls : List Event} {n' : Network} (h : Comes n calls n') :
    Comes n calls { n' with tickets := n'.tickets + 1 }

/-- The exchange of `h` goes on, and its timer is set and has not gone off. -/
def IsTimed (n : Network) (h : Holder) : Prop :=
  ∃ x timer, n.exchanges.get? h = some x ∧ x.timer = some timer ∧ timer.isOff n.sounded = false

end Network

/-! ## Runs -/

namespace Session

inductive Event where
  | receive (bytes : List UInt8)
  | finishStream
  | failWriting (reason : String)
  /-- Time passes before one of the others. -/
  | pass (now : Nat)
  | moveTo (now : Nat)
  deriving DecidableEq, Repr

def meet (s : Session) : Event → Session
  | .receive bytes =>
    { s with reader := (s.reader.feed bytes).2, net := s.net.receiveAll 0 (s.reader.feed bytes).1 }
  | .finishStream => { s with net := (s.net.receiveAll 0 s.reader.finish).finishStream 0 }
  | .failWriting reason => { s with net := s.net.failWriting 0 reason }
  | .pass now => s.at_ now
  | .moveTo now => { s.at_ now with net := (s.at_ now).net.soundTimers }

def happen (s : Session) : Event → Session
  | .receive bytes => s.receive bytes
  | .finishStream => s.finishStream
  | .failWriting reason => s.failWriting reason
  | .pass now => s.at_ now
  | .moveTo now => s.moveTo now

def after (s : Session) (es : List Event) : Session := es.foldl happen s

/-! ## What the tool does -/

/-- The sessions whose steps are made when `s` goes on, in at most `steps` steps. -/
def stops : Nat → Session → List Session
  | 0, _ => []
  | steps + 1, s =>
    let s := { s with net := s.net.settle }
    match s.step with
    | some s' => s :: stops steps s'
    | none => []

def stopsIn (s : Session) : Event → List Session
  | .pass _ => []
  | e => stops (s.meet e).stepBound (s.meet e)

def stopsDuring (s : Session) : List Event → List Session
  | [] => []
  | e :: es => s.stopsIn e ++ (s.happen e).stopsDuring es

def course (s : Session) (es : List Event) : List Session :=
  stops s.stepBound s ++ s.goOn.stopsDuring es

def outcome? (s : Session) : Option Outcome :=
  match s.stage with
  | .asking _ _ (.ready t) => some (.ok (some t))
  | .asking _ _ .unsupported => some (.ok none)
  | .asking _ _ (.pending ref) => (s.net.observe ref).1
  | .registering | .pausing .. | .left _ => none

def deeds (s : Session) : List FetchEvent :=
  match s.stage with
  | .registering =>
    match (s.net.pollExchange holder).1 with
    | some (.ok _) => s.plan.deeds s.plan.first
    | _ => []
  | .pausing timer attempt =>
    if timer.isOff s.net.sounded then s.plan.deeds (.lookUp attempt) else []
  | .asking attempt _ _ =>
    match s.outcome? with
    | some o => (s.plan.printed o).map .printed ++ s.plan.deeds (s.plan.next attempt o)
    | none => []
  | .left _ => []

def trace (cs : List Session) : List (Nat × FetchEvent) :=
  cs.flatMap fun c => c.deeds.map (c.net.now, ·)

def outcomes (cs : List Session) : List Outcome := cs.filterMap outcome?

/-! ## What the tool did as planned -/

/-- The session stands where the plan puts it after some outcomes, and has done what the plan says.
A tool that was not accepted has done nothing. -/
def Follows (s : Session) (outcomes : List Outcome) (done : List FetchEvent) : Prop :=
  match s.stage with
  | .pausing _ attempt =>
    attempt = outcomes.length + 1 ∧ s.plan.run outcomes = (done ++ [.lookedUp], .waiting)
  | .asking attempt _ _ =>
    attempt = outcomes.length + 1 ∧ s.plan.run outcomes = (done, .waiting)
  | .left none => s.plan.run outcomes = (done, .succeeded)
  | .left (some (.noToken e)) => s.plan.run outcomes = (done, .failed e)
  | .registering | .left (some (.notRegistered _)) => outcomes = [] ∧ done = []
  | .left (some (.unreachable ..)) | .left (some (.unsent _)) => False

/-- How the registration went. The first stop is where it has a result: a session that was not
accepted has left there for good, and any other one has gone on. -/
def Registered : List Session → Session → Prop
  | [], s => s.stage = .registering
  | c :: later, s =>
    match (c.net.pollExchange holder).1 with
    | none => False
    | some (.error e) => later = [] ∧ s.stage = .left (some (.notRegistered e))
    | some (.ok _) => s.stage ≠ .registering ∧ ∀ e, s.stage ≠ .left (some (.notRegistered e))

/-- What the session has to wait for has not come, and there is a timer that ends the wait if nothing
else does: the registration has no result, the pause is not over, or the load that the lookup is
about runs. -/
def Awaits (s : Session) : Prop :=
  match s.stage with
  | .registering => s.net.IsTimed holder ∧ (s.net.pollExchange holder).1 = none
  | .pausing timer _ => timer.isOff s.net.sounded = false
  | .asking _ _ answer => ∃ load, answer = .pending ⟨0,load⟩ ∧
    (s.net.manager 0).loader.loading.get? 0 = some load ∧ s.net.ending? ⟨0,load⟩ = none ∧
    s.net.IsTimed (.load ⟨0,load⟩)
  | .left _ => True

/-- Nothing is left to do before something happens. -/
structure Halts (s : Session) : Prop where
  /-- No task stands in line. -/
  settled : s.net.ready = []
  awaits : s.Awaits

def isDone (s : Session) : Bool :=
  match s.stage with
  | .left none | .left (some (.noToken _)) => true
  | _ => false

/-- The session `s` has left at the stop `c`. What it sends then is that it leaves, if anything can
be sent, and only pongs are sent later; its manager knows nothing about the server any more. -/
structure LeftAt (c s : Session) : Prop where
  sent : ∃ pongs, (s.net.peer 0).sent = (c.net.peer 0).sent ++
    (if (c.net.peer 0).connected then [.of "QUIT" ["done"]] else []) ++ pongs ∧
    ∀ m ∈ pongs, m.command = "PONG"
  once : ∀ m ∈ (c.net.peer 0).sent, m.command ≠ "QUIT"
  forgotten : (s.net.manager 0).loader.cache.get? 0 = none ∧
    (s.net.manager 0).loader.loading.get? 0 = none ∧ (s.net.manager 0).marks.since.get? 0 = none

/-- The session `s`, which was started as `s₀` and has come along the stops `cs`, has done what its
plan says, and nothing else. -/
structure CarriesOut (s₀ : Session) (cs : List Session) (s : Session) : Prop where
  plan : s.plan = s₀.plan
  registered : Registered cs s
  follows : s.Follows (outcomes cs) ((trace cs).map (·.2))
  /-- Each lookup is made at a stop, and the session goes by what its manager says then. -/
  answered : ∀ before c c' later, cs ++ [s] = before ++ c :: c' :: later →
    ∀ attempt cached answer, c'.stage = .asking attempt cached answer →
      answer = (c.net.lookup 0 0).1
  printed : s.printed = ((trace cs).map (·.2)).filterMap FetchEvent.line?
  calls : s₀.net.Comes (((trace cs).map (·.2)).filterMap FetchEvent.call?) s.net
  /-- Nothing is done during a pause. -/
  pauses : ∀ before now d next later, trace cs = before ++ (now, .paused d) :: next :: later →
    Clock.deadline now d ≤ next.1
  /-- The timer of a pause is set when the pause begins. -/
  timer : ∀ timer attempt, s.stage = .pausing timer attempt → ∃ done now,
    trace cs = done ++ [(now, .paused s.plan.interval)] ∧
    timer.due = Clock.dueTick (Clock.deadline now s.plan.interval)
  halts : s.Halts
  leaves : s.isDone = true → ∃ before c, cs = before ++ [c] ∧ LeftAt c s

end Session

end ChatToken
