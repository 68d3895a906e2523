import ChatToken.Stream.Basic

/-! # Runs of a network

What can happen to managers and their connections, in any order: a manager is asked or told to
forget, somebody who waits looks at a load, the task of a load gets a turn or dies, callers without
a manager exchange messages of their own, connections deliver and go away, and time passes. A call
of a manager and a turn of a task are one event each. An event that does not fit the state, such as
the turn of a task that is gone, changes nothing.
-/
namespace ChatToken.Network

inductive Event where
  | lookup (manager peer : Nat)
  | isUnsupported (manager peer : Nat)
  | forget (manager peer : Nat)
  | observe (ref : LoadRef)
  | turn (ref : LoadRef)
  | die (ref : LoadRef)
  /-- A caller without a manager starts an exchange, unless it has one. -/
  | listen (caller peer : Nat) (matcher : Matcher) (timeout : Span)
  | look (caller : Nat)
  | hangUp (caller : Nat)
  | send (peer : Nat) (command : String) (args : List String)
  | deliver (peer : Nat) (m : Message)
  | disconnect (peer : Nat)
  | receive (peer : Nat) (r : Received)
  | finishStream (peer : Nat)
  | failWriting (peer : Nat) (reason : String)
  /-- Token requests over a connection in memory are to be answered differently. -/
  | prepare (peer : Nat) (replies : Option PreparedReplies)
  | advertise (peer : Nat) (name : String) (value : Option String)
  | pass (nanos : Nat)
  /-- The ticks up to now are sounded. -/
  | sound
  deriving DecidableEq, Repr

def start (peers : List Peer) (configs : List TokenConfig) : Network :=
  { peers, managers := configs.map Manager.new }

def called (n : Network) (ref : LoadRef) : Network := { n with ready := n.ready.erase ref }

def step (n : Network) : Event → Network
  | .lookup m p => (n.lookup m p).2
  | .isUnsupported m p => (n.isUnsupported m p).2
  | .forget m p => n.forget m p
  | .observe ref => (n.observe ref).2
  | .turn ref => (n.called ref).runLoad ref
  | .die ref => n.dropLoad ref
  | .listen c p matcher timeout =>
    if n.exchanges.contains (.caller c) then n else n.openExchange (.caller c) p matcher timeout
  | .look c => (n.pollExchange (.caller c)).2
  | .hangUp c => n.closeExchange (.caller c)
  | .send p command args => (n.send p command args).2
  | .deliver p m => n.deliver p m
  | .disconnect p => n.disconnect p
  | .receive p r => n.receive p r
  | .finishStream p => n.finishStream p
  | .failWriting p reason => n.failWriting p reason
  | .prepare p replies => n.onPeer p fun q => { q with replies }
  | .advertise p name value => n.onPeer p (·.setCapability name value)
  | .pass nanos => { n with now := n.now + nanos }
  | .sound => n.soundTimers

def after (n : Network) (es : List Event) : Network := es.foldl step n

/-! ## What can be told from a run -/

/-- Every event of a run satisfies `P`, together with the network in which it happens. -/
def Always (P : Network → Event → Prop) (n : Network) : List Event → Prop
  | [] => True
  | e :: es => P n e ∧ Always P (n.step e) es

def Event.manager? : Event → Option Nat
  | .lookup m _ | .isUnsupported m _ | .forget m _ => some m
  | .observe ref | .turn ref | .die ref => some ref.manager
  | _ => none

def Event.holder? : Event → Option Holder
  | .turn ref | .die ref => some (.load ref)
  | .listen c .. | .look c | .hangUp c => some (.caller c)
  | _ => none

def sentSince (n later : Network) (p : Nat) : List Message :=
  (later.peer p).sent.drop (n.peer p).sent.length

def sentBy (n : Network) (m p : Nat) : List Event → List Message
  | [] => []
  | e :: es =>
    (if e.manager? = some m then n.sentSince (n.step e) p else []) ++ (n.step e).sentBy m p es

def sentFor (n : Network) (ref : LoadRef) (p : Nat) : List Event → List Message
  | [] => []
  | e :: es =>
    (if e = .turn ref then n.sentSince (n.step e) p else []) ++ (n.step e).sentFor ref p es

def ending? (n : Network) (ref : LoadRef) : Option (Ending Token TokenError) :=
  (n.manager ref.manager).loader.ending? ref.load

/-- The event `e` ends the load `ref`. -/
def Ends (n : Network) (e : Event) (ref : LoadRef) (ending : Ending Token TokenError) : Prop :=
  n.ending? ref = none ∧ (n.step e).ending? ref = some ending

instance (n : Network) (e : Event) (ref : LoadRef) (ending : Ending Token TokenError) :
    Decidable (n.Ends e ref ending) := inferInstanceAs (Decidable (_ ∧ _))

def request (c : TokenConfig) : Message :=
  Message.of Reply.extjwt (Reply.anyTarget :: c.service.toList)

def nextRef (n : Network) (m : Nat) : LoadRef := ⟨m, (n.manager m).loader.nextLoad⟩

/-- A lookup of `p` starts a new load, whose task sends a single request to `p`: in its first turn,
if the connection takes it then. The manager sends nothing else to `p` until this load has ended. -/
structure StartsRequest (n : Network) (m p : Nat) : Prop where
  answer : (n.lookup m p).1 = .pending (n.nextRef m)
  idle : (n.manager m).loader.loading.get? p = none
  fresh : (n.manager m).loader.tasks.get? (n.nextRef m).load = none ∧ n.ending? (n.nextRef m) = none
  queued : n.nextRef m ∈ (n.lookup m p).2.ready
  request : ∀ before later, .turn (n.nextRef m) ∉ before → .die (n.nextRef m) ∉ before →
    (n.lookup m p).2.sentFor (n.nextRef m) p (before ++ .turn (n.nextRef m) :: later) =
      if (((n.lookup m p).2.after before).peer p).connected then [request (n.manager m).config]
      else []
  alone : ∀ es, ((n.lookup m p).2.after es).ending? (n.nextRef m) = none →
    (n.lookup m p).2.sentBy m p es = (n.lookup m p).2.sentFor (n.nextRef m) p es

/-- The peer that the next turn of a load asks: that of a load whose task has not run yet, unless
it is marked. -/
def asks? (n : Network) (ref : LoadRef) : Option Nat :=
  match (n.manager ref.manager).loader.tasks.get? ref.load with
  | some ⟨p, .waiting⟩ =>
    if (n.manager ref.manager).marks.standing n.now p = .marked then none else some p
  | _ => none

/-- The messages in some lines, up to the first line that is none. -/
def messages : List String → List Message
  | [] => []
  | line :: rest =>
    match Message.parse? line with
    | none => []
    | some m => m :: messages rest

/-- What a connection delivers at once when a command is sent over it. -/
def answers (p : Peer) (command : String) (args : List String) : List Message :=
  match (p.send command args).1 with
  | .error _ => []
  | .ok lines => messages lines

def accepted (p : Peer) : Received → List Message
  | .failed _ => []
  | .line line =>
    match Message.parse? line with
    | none => []
    | some m => if p.isReading && (p.handle m).isSome then [m] else []

def delivers (n : Network) (p : Nat) : Event → List Message
  | .deliver p' m => if p' = p then [m] else []
  | .receive p' r => if p' = p then accepted (n.peer p) r else []
  | .send p' command args => if p' = p then answers (n.peer p) command args else []
  | .turn ref =>
    if n.asks? ref = some p then
      answers (n.peer p) Reply.extjwt
        (Reply.anyTarget :: (n.manager ref.manager).config.service.toList)
    else []
  | _ => []

def delivered (n : Network) (p : Nat) : List Event → List Message
  | [] => []
  | e :: es => n.delivers p e ++ (n.step e).delivered p es

/-- During some events the load `ref` has asked `p`, which has delivered `ms` since then. -/
def Asked (n : Network) (ref : LoadRef) (p : Nat) (es : List Event) (ms : List Message) : Prop :=
  ∃ first mid, es = first ++ .turn ref :: mid ∧ (n.after first).asks? ref = some p ∧
    (n.after first).delivered p (.turn ref :: mid) = ms

end ChatToken.Network
