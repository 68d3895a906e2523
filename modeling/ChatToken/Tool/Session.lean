import ChatToken.Stream.Basic
import ChatToken.Tool.Fetch

/-! # A session of the tool

The tool's connection to one server from the registration to the end. A session changes when bytes
come in, when the stream ends and when time passes; after each of these it goes on as far as it can
without waiting.
-/
namespace ChatToken

inductive SessionFailure where
  | unreachable (address reason : String)
  | unsent (reason : String)
  | notRegistered (e : TokenError)
  | noToken (e : TokenError)
  deriving DecidableEq, Repr

namespace SessionFailure

def chain : SessionFailure → List String
  | unreachable address reason => ["failed to connect to " ++ address, reason]
  | unsent reason => [reason]
  | notRegistered e => ["registration failed", e.message]
  | noToken e => ["failed to get a token", e.message]

end SessionFailure

inductive SessionStage where
  | registering
  | pausing (timer : Timer) (attempt : Nat)
  | asking (attempt : Nat) (cached : Bool) (answer : TokenLookup)
  | left (failure : Option SessionFailure)
  deriving DecidableEq, Repr

structure Session where
  plan : FetchPlan
  nick : String
  net : Network
  reader : LineReader := {}
  stage : SessionStage := .registering
  printed : List String := []
  deriving Repr

namespace Session

def holder : Holder := .caller 0

def registrationTimeout : Span := Span.ofSeconds 30

def start (plan : FetchPlan) (nick : String) (config : TokenConfig) : Session :=
  let net := Network.connect { managers := [Manager.new config] } plan.address
  match net.openRegistration holder 0 nick registrationTimeout with
  | (.sent, net) => { plan, nick, net }
  | (.failed reason, net) => { plan, nick, net, stage := .left (some (.unsent reason)) }
  | (.broken line, net) => { plan, nick, net, stage := .left (some (.unsent line)) }

def leave (s : Session) (failure : Option SessionFailure) : Session :=
  let (_, net) := s.net.send 0 "QUIT" ["done"]
  { s with net := net.forget 0 0, stage := .left failure }

def follow (s : Session) : FetchStep → Session
  | .pause attempt =>
    let timer := Timer.set s.net.now s.plan.interval s.net.tickets
    { s with
      net := { s.net with tickets := s.net.tickets + 1 }
      stage := .pausing timer attempt }
  | .lookUp attempt =>
    let (answer, net) := s.net.lookup 0 0
    let cached := match answer with
      | .pending _ => false
      | _ => true
    { s with net, stage := .asking attempt cached answer }
  | .leave failure => s.leave (failure.map .noToken)

def conclude (s : Session) (attempt : Nat) (cached : Bool) (o : Outcome) : Session :=
  let notices := match o with
    | .ok (some t) => [Notice.tokenFetched attempt cached (t.age s.net.now)]
    | _ => []
  { s with net := s.net.note notices, printed := s.printed ++ s.plan.printed o }.follow
    (s.plan.next attempt o)

def welcome (s : Session) : Session :=
  let net := s.net.note [.registered 0 s.nick]
  let advertised := ((net.peer 0).capability? Reply.extjwt).isSome
  let net := if advertised then net else net.note [.tokensNotAdvertised 0]
  { s with net }.follow s.plan.first

def step (s : Session) : Option Session :=
  match s.stage with
  | .registering =>
    match s.net.pollExchange holder with
    | (none, _) => none
    | (some (.ok _), net) => some { s with net }.welcome
    | (some (.error e), net) => some { s with net, stage := .left (some (.notRegistered e)) }
  | .pausing timer attempt =>
    if timer.isOff s.net.sounded then some (s.follow (.lookUp attempt)) else none
  | .asking attempt cached (.ready t) => some (s.conclude attempt cached (.ok (some t)))
  | .asking attempt cached .unsupported => some (s.conclude attempt cached (.ok none))
  | .asking attempt cached (.pending ref) =>
    match s.net.observe ref with
    | (none, _) => none
    | (some o, net) => some ({ s with net }.conclude attempt cached o)
  | .left _ => none

def look (s : Session) : Session :=
  match s.stage with
  | .registering => { s with net := (s.net.pollExchange holder).2 }
  | _ => s

def turn : Nat → Session → Session
  | 0, s => s
  | steps + 1, s =>
    let s := { s with net := s.net.settle }
    match s.step with
    | some s => turn steps s
    | none => s.look

/-- Every attempt takes at most two steps. -/
def stepBound (s : Session) : Nat := 2 * s.plan.repeats + 4

def goOn (s : Session) : Session := turn s.stepBound s

def receive (s : Session) (bytes : List UInt8) : Session :=
  let (received, reader) := s.reader.feed bytes
  { s with reader, net := s.net.receiveAll 0 received }.goOn

def finishStream (s : Session) : Session :=
  { s with net := (s.net.receiveAll 0 s.reader.finish).finishStream 0 }.goOn

def failWriting (s : Session) (reason : String) : Session :=
  { s with net := s.net.failWriting 0 reason }.goOn

/-- Sets the clock, without anything going off yet. -/
def at_ (s : Session) (now : Nat) : Session :=
  { s with net := { s.net with now := max now s.net.now } }

def moveTo (s : Session) (now : Nat) : Session :=
  let s := s.at_ now
  { s with net := s.net.soundTimers }.goOn

def nextDue? (s : Session) : Option Nat :=
  let pause := match s.stage with
    | .pausing timer _ => [timer.due]
    | _ => []
  (pause ++ s.net.nextDue?.toList).min?

def sent (s : Session) : List String := (s.net.peer 0).written

end Session

end ChatToken
