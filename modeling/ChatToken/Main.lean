import ChatToken.Report.Layout
import ChatToken.Tool.Setup
import Std.Async.DNS
import Std.Async.TCP
import Std.Async.Timer
import Std.Async.UDP
import Std.Time.DateTime.Timestamp

/-! # The tool

Reads the command line, the environment and the configuration file, opens the connection, and
passes on what the session says: lines to the server, tokens to the output, events to the log and
metrics to their server.
-/
namespace ChatToken

open Std.Async Std.Net

def helpText : String :=
  "Usage: fileuploader-cli [OPTIONS] fetch [OPTIONS] <ADDR>\n\n" ++
  "Options:\n" ++
  "  -c, --config <FILE>          Path to your configuration file\n" ++
  "      --log-level <LEVEL>      Overrides the log level of the configuration file\n" ++
  "      --nick <NICK>            The nick to register with\n" ++
  "      --repeat <REPEAT>        How often to ask for a token\n" ++
  "      --interval <INTERVAL>    Pause between repeated requests\n" ++
  "      --service <SERVICE>      Request a token for this service\n" ++
  "  -h, --help                   Print help\n" ++
  "  -V, --version                Print version\n"

def obstacleOf : IO.Error → Config.Obstacle
  | .noFileOrDirectory _ _ _ => .missing
  | .permissionDenied _ _ _ => .denied
  | .inappropriateType _ code _ => if code = 20 then .notDirectory else .directory
  | .invalidArgument _ _ _ => .longName
  | _ => .directory

def openFile (path : String) : IO Config.File := do
  if path.contains '\x00' then return { path, content := .error .nullInName }
  try
    return { path, content := .ok (← IO.FS.readBinFile path) }
  catch e => return { path, content := .error (obstacleOf e) }

def systemReason (e : IO.Error) : String :=
  match e with
  | .noSuchThing _ code details | .resourceVanished code details | .timeExpired code details
  | .unsatisfiedConstraints code details | .otherError code details =>
    details.capitalize ++ " (os error " ++ toString (-code) ++ ")"
  | _ => toString e

structure Outlets where
  setup : Setup
  metrics : Option (StatsdClient × UDP.Socket)

def logEvent (o : Outlets) (e : LogEvent) : IO Unit := do
  let now ← Std.Time.Timestamp.now
  let instant := instantText (now.toNanosecondsSinceUnixEpoch.val.toNat / 1000)
  let line := if o.setup.config.logging.format = .json then e.json instant else e.plain instant
  IO.eprintln line

def reportFailure (o : Outlets) (f : ToolFailure) : IO Unit :=
  if o.setup.logsFailures then logEvent o (Setup.failureEvent f) else IO.eprintln f.text

def sendMetrics (o : Outlets) (notices : List Notice) : IO Unit :=
  match o.metrics with
  | none => pure ()
  | some (client, socket) =>
    for line in notices.flatMap client.lines do
      try (socket.send line.toUTF8).block catch _ => pure ()

def ipOf : IpAddress → Option IPAddr
  | .v4 a b c d => some (.v4 (.ofParts a.toUInt8 b.toUInt8 c.toUInt8 d.toUInt8))
  | .v6 gs =>
    if h : gs.length = 8 then some (.v6 ⟨⟨gs.toArray.map Nat.toUInt16, by simp [h]⟩⟩) else none

def socketAddress (ip : IPAddr) (port : Nat) : Std.Net.SocketAddress :=
  match ip with
  | .v4 addr => .v4 { addr, port := port.toUInt16 }
  | .v6 addr => .v6 { addr, port := port.toUInt16 }

def resolveServer (server : String) : IO (List Std.Net.SocketAddress) := do
  match SocketAddress.ofChars? server.toList with
  | some a => return (ipOf a.ip).toList.map fun ip => socketAddress ip a.port
  | none =>
    match StatsdClient.splitPort server.toList with
    | none => throw (.userError "invalid socket address")
    | some (name, port) =>
      match StatsdClient.signedPort port with
      | none => throw (.userError "invalid port value")
      | some port =>
        let found ← (DNS.getAddrInfo (String.ofList name) "").block
        return found.toList.map fun ip => socketAddress ip port

def connectTo (server : String) : IO TCP.Socket.Client := do
  let mut failure : IO.Error := .userError "failed to lookup address information"
  for address in ← resolveServer server do
    try
      let client ← TCP.Socket.Client.mk
      (client.connect address).block
      return client
    catch e => failure := e
  throw failure

structure Progress where
  sent : Nat := 0
  printed : Nat := 0
  noticed : Nat := 0

/-- Passes on what is new. The result says why a line cannot be sent. -/
def passOn (o : Outlets) (client : TCP.Socket.Client) (s : Session) (p : Progress) :
    IO (Option String × Progress) := do
  let notices := s.net.notices.drop p.noticed
  for e in o.setup.events notices do logEvent o e
  sendMetrics o notices
  for line in s.printed.drop p.printed do IO.println line
  (← IO.getStdout).flush
  let mut failure : Option String := none
  for line in s.sent.drop p.sent do
    if failure.isNone then
      try (client.send (line ++ "\n").toUTF8).block
      catch e => failure := some (systemReason e)
  return (failure, {
    sent := s.sent.length
    printed := s.printed.length
    noticed := s.net.notices.length })

inductive Occurrence where
  | came (bytes : ByteArray)
  | ended
  | due

def waitFor (client : TCP.Socket.Client) (reading : Bool) (now : Nat) (due : Option Nat) :
    IO Occurrence := do
  let received : Option ByteArray → Async Occurrence
    | some bytes => return .came bytes
    | none => return .ended
  let pauses ← due.toArray.mapM fun tick =>
    (Selector.sleep (Std.Time.Millisecond.Offset.ofNat (tick - Clock.tick now))).block
  let bytes := if reading then #[Selectable.case (client.recvSelector 8192) received] else #[]
  let timers := pauses.map fun pause => Selectable.case pause fun _ => return Occurrence.due
  try (Selectable.one (bytes ++ timers)).block
  catch _ => return .ended

/-- Runs a session to its end. -/
partial def converse (o : Outlets) (client : TCP.Socket.Client) (start : Nat) (s : Session)
    (p : Progress) : IO (Option SessionFailure) := do
  let (failure, p) ← passOn o client s p
  match failure with
  | some reason => converse o client start (s.failWriting reason) p
  | none =>
    match s.stage with
    | .left failure => return failure
    | _ =>
      let now := (← IO.monoNanosNow) - start
      let occurrence ← waitFor client (s.net.peer 0).isReading now s.nextDue?
      let now := (← IO.monoNanosNow) - start
      match occurrence with
      | .came bytes => converse o client start ((s.at_ now).receive bytes.toList) p
      | .ended => converse o client start (s.at_ now).finishStream p
      | .due => converse o client start (s.moveTo now) p

def openMetrics (client : StatsdClient) : IO UDP.Socket := do
  let socket ← UDP.Socket.mk
  match ipOf client.address.ip with
  | some ip => socket.connect (socketAddress ip client.address.port)
  | none => pure ()
  return socket

def runTool (setup : Setup) : IO UInt32 := do
  match setup.metrics with
  | .error f =>
    reportFailure { setup, metrics := none } f
    return 1
  | .ok (client, events) =>
    let socket ← client.mapM fun c => return (c, ← openMetrics c)
    let o : Outlets := { setup, metrics := socket }
    for e in events do
      if LogDirective.passes setup.directives e then logEvent o e
    let connection ←
      try Except.ok <$> connectTo setup.arguments.address
      catch e => pure (Except.error e)
    match connection with
    | .error e =>
      reportFailure o (.session (.unreachable setup.arguments.address (systemReason e)))
      return 1
    | .ok client =>
      let start ← IO.monoNanosNow
      match ← converse o client start setup.session.goOn {} with
      | none => return 0
      | some f =>
        reportFailure o (.session f)
        return 1

def runWith (arguments : Arguments) : IO UInt32 := do
  let env : Environment :=
    { directives := ← IO.getEnv "RUST_LOG", server := ← IO.getEnv "STATSD_SERVER" }
  let file ← arguments.configPath.mapM openFile
  match Setup.read arguments file env with
  | .ok setup => runTool setup
  | .error f =>
    IO.eprintln f.text
    return 1

end ChatToken

def main (words : List String) : IO UInt32 :=
  match ChatToken.CommandLine.parse words with
  | .ok arguments => ChatToken.runWith arguments
  | .error .help => do
    IO.print ChatToken.helpText
    return 0
  | .error .version => do
    IO.println "fileuploader-cli 0.4.0"
    return 0
  | .error (.invalid reason) => do
    IO.eprintln ("error: " ++ reason ++ "\n\n" ++ ChatToken.helpText)
    return 2
