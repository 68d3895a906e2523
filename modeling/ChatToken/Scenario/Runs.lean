import ChatToken.Tool.Setup

/-! # Scenarios of the whole tool

The tool runs against a server that follows a list of rules. A line from the tool is answered by the
first rule that fits, which is used up unless it is to be kept.
-/
namespace ChatToken.Scenario

structure Rule where
  starts : String
  lines : List String := []
  closes : Bool := false
  keep : Bool := false
  deriving Repr

def Rule.find : List Rule → String → Option Rule × List Rule
  | [], _ => (none, [])
  | r :: rest, line =>
    if line.startsWith r.starts then (some r, if r.keep then r :: rest else rest)
    else
      let (found, rest) := find rest line
      (found, r :: rest)

structure Run where
  session : Session
  rules : List Rule
  taken : Nat := 0
  closed : Bool := false

namespace Run

def answer (r : Run) (line : String) : Run :=
  match Rule.find r.rules line with
  | (none, _) => r
  | (some rule, rules) =>
    let text := String.join (rule.lines.map (· ++ "\r\n"))
    let session := r.session.receive text.toUTF8.toList
    let session := if rule.closes then session.finishStream else session
    { r with session, rules, closed := rule.closes }

def received (r : Run) : List String :=
  if r.closed then r.session.sent.take r.taken else r.session.sent

/-- Lets the server answer, or the clock jump, until the tool has left. -/
def finish : Nat → Run → Run
  | 0, r => r
  | steps + 1, r =>
    match r.session.stage with
    | .left _ => r
    | _ =>
      match if r.closed then none else r.session.sent[r.taken]? with
      | some line => finish steps ({ r with taken := r.taken + 1 }.answer line)
      | none =>
        match r.session.nextDue? with
        | some due =>
          let now := Clock.jump r.session.net.now due
          finish steps { r with session := r.session.moveTo now }
        | none => r

end Run

structure Seen where
  code : Nat
  output : List String := []
  received : List String := []
  log : List LogEvent := []
  errors : List String := []
  metrics : List String := []

def Seen.failed (setup : Option Setup) (events : List LogEvent) (f : ToolFailure) : Seen :=
  match setup with
  | some s =>
    if s.logsFailures then
      { code := 1
        log := (events ++ [Setup.failureEvent f]).filter (LogDirective.passes s.directives) }
    else { code := 1, errors := f.text.splitOn "\n" }
  | none => { code := 1, errors := f.text.splitOn "\n" }

def runSetup (s : Setup) (obstacle : Option String) (rules : List Rule) : Seen :=
  match s.metrics with
  | .error f => Seen.failed (some s) [] f
  | .ok (client, events) =>
    match obstacle with
    | some reason =>
      Seen.failed (some s) events (.session (.unreachable s.arguments.address reason))
    | none =>
      let r := Run.finish 100000 { session := s.session.goOn, rules }
      let notices := r.session.net.notices
      let events := events.filter (LogDirective.passes s.directives) ++ s.events notices
      let seen : Seen := match r.session.stage with
        | .left (some f) => Seen.failed (some s) events (.session f)
        | _ => { code := 0, log := events }
      { seen with
        output := r.session.printed
        received := r.received.filter fun line => !line.startsWith "QUIT"
        metrics := match client with
          | some c => notices.flatMap c.lines
          | none => [] }

def run (words : List String) (file : Option String → Option Config.File) (env : Environment)
    (obstacle : Option String) (rules : List Rule) : Seen :=
  match CommandLine.parse words with
  | .error .help => { code := 0 }
  | .error .version => { code := 0, output := ["fileuploader-cli 0.4.0"] }
  | .error (.invalid reason) => { code := 2, errors := ["error: " ++ reason] }
  | .ok arguments =>
    match Setup.read arguments (file arguments.configPath) env with
    | .error f => Seen.failed none [] f
    | .ok s => runSetup s obstacle rules

end ChatToken.Scenario
