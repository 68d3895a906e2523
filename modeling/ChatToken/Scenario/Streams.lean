import ChatToken.Stream.Basic

/-! # Scenarios of connections over streams

A client that registers with a server which follows a script. To see what the client has sent, the
server sends a ping and takes the lines up to its answer.
-/
namespace ChatToken.Scenario

structure ServerScript where
  bytes : List UInt8 := []
  closes : Bool := false
  deriving Repr

inductive StreamAction where
  | write (script : ServerScript) (sync : Bool)
  | clientSend (command : String) (args : List String)
  | quit (reason : String)
  | capabilities (names : List String)
  | get (script : ServerScript) (sync : Bool)
  | forget
  | isUnsupported
  | hangUp
  deriving Repr

inductive StreamAnswer where
  | nothing
  | lines (lines : List String)
  | sendFailed (e : TokenError)
  | values (values : List (Option String))
  | got (outcome : Outcome) (received : List String)
  | flag (value : Bool)
  deriving Repr

structure Streams where
  net : Network
  reader : LineReader := {}
  taken : Nat := 0
  syncs : Nat := 0
  deriving Repr

namespace Streams

def sent (s : Streams) : List String := (s.net.peer 0).written

def take (s : Streams) : List String × Streams :=
  (s.sent.drop s.taken, { s with taken := s.sent.length })

def feed (s : Streams) (script : ServerScript) : Streams :=
  let (received, reader) := s.reader.feed script.bytes
  let received := if script.closes then received ++ reader.finish else received
  let net := s.net.receiveAll 0 received
  let net := if script.closes then net.finishStream 0 else net
  { s with net := net.settle, reader }

def sync (s : Streams) : List String × Streams :=
  let name := "sync-" ++ toString (s.syncs + 1)
  let s := s.feed { bytes := ("PING :" ++ name ++ "\r\n").toUTF8.toList }
  let (lines, s) := { s with syncs := s.syncs + 1 }.take
  (lines.filter (· ≠ "PONG " ++ name), s)

inductive Refusal where
  | unreachable (reason : String)
  | unsent (reason : String)
  | rejected (e : TokenError)
  deriving Repr

namespace Refusal

def message (address : String) : Refusal → String
  | unreachable _ => "failed to connect to " ++ address
  | unsent reason => reason
  | rejected _ => "registration failed"

def causes : Refusal → List String
  | unreachable reason => [reason]
  | unsent _ => []
  | rejected e => [e.message]

end Refusal

def await (h : Holder) : Nat → Network → Except TokenError String × Network
  | 0, n => (.error .disconnected, n)
  | jumps + 1, n =>
    match n.pollExchange h with
    | (some r, n) => (r, n)
    | (none, n) =>
      match n.nextDue? with
      | some due => await h jumps (n.jump due)
      | none => (.error .disconnected, n)

def register (address nick : String) (config : TokenConfig) (timeout : Span)
    (welcome : ServerScript) : Except Refusal Streams × List String :=
  let h : Holder := .caller 0
  let net := Network.connect { managers := [Manager.new config] } address
  match net.openRegistration h 0 nick timeout with
  | (.sent, net) =>
    let s : Streams := { net := (net.pollExchange h).2 }
    let handshake := s.sent.take 2
    let s := { s with taken := 2 }.feed welcome
    match await h 3 s.net with
    | (.ok _, net) => (.ok { s with net := net.note [.registered 0 nick] }, handshake)
    | (.error e, _) => (.error (.rejected e), handshake)
  | (.failed reason, _) => (.error (.unsent reason), [])
  | (.broken line, _) => (.error (.unsent line), [])

def awaitLoad (ref : LoadRef) : Nat → Network → Outcome × Network
  | 0, n => (.error .internal, n)
  | jumps + 1, n =>
    match n.observe ref with
    | (some o, n) => (o, n)
    | (none, n) =>
      match n.nextDue? with
      | some due => awaitLoad ref jumps (n.jump due).settle
      | none => (.error .internal, n)

def get (s : Streams) (script : ServerScript) : Outcome × List String × Streams :=
  let (answer, net) := s.net.lookup 0 0
  let (asked, s) := { s with net := net.settle }.take
  let s := if asked.any (·.startsWith Reply.extjwt) then s.feed script else s
  match answer with
  | .ready t => (.ok (some t), asked, s)
  | .unsupported => (.ok none, asked, s)
  | .pending ref =>
    let (outcome, net) := awaitLoad ref 3 s.net
    let (more, s) := { s with net }.take
    (outcome, asked ++ more, s)

def brokenPipe : String := "Broken pipe (os error 32)"

def sendAndSync (s : Streams) (command : String) (args : List String) : StreamAnswer × Streams :=
  match s.net.send 0 command args with
  | (.failed cause, net) => (.sendFailed (.sendFailed cause), { s with net })
  | (_, net) =>
    let (lines, s) := { s with net }.sync
    (.lines lines, s)

def act (s : Streams) : StreamAction → StreamAnswer × Streams
  | .write script collects =>
    let s := s.feed script
    if collects then
      let (lines, s) := s.sync
      (.lines lines, s)
    else (.nothing, s)
  | .clientSend command args => s.sendAndSync command args
  | .quit reason =>
    let (_, net) := s.net.send 0 "QUIT" [reason]
    let (lines, s) := { s with net }.sync
    (.lines lines, s)
  | .capabilities names => (.values (names.map (s.net.peer 0).capability?), s)
  | .get script collects =>
    let (outcome, received, s) := s.get script
    if collects then
      let (more, s) := s.sync
      (.got outcome (received ++ more), s)
    else (.got outcome received, s)
  | .forget => (.nothing, { s with net := s.net.forget 0 0 })
  | .isUnsupported =>
    let (marked, net) := s.net.isUnsupported 0 0
    (.flag marked, { s with net })
  | .hangUp =>
    let net := (s.net.finishStream 0).failWriting 0 brokenPipe
    (.sendFailed (.sendFailed (net.peer 0).sendFailure), { s with net := net.settle })

end Streams

end ChatToken.Scenario
