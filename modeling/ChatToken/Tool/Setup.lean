import ChatToken.Config.Reading
import ChatToken.Report.Filter
import ChatToken.Report.Statsd
import ChatToken.Tool.CommandLine
import ChatToken.Tool.Session

/-! # Setting the tool up

The command line, the configuration file and the environment together say what the tool does, what
it logs and where it sends its metrics.
-/
namespace ChatToken

inductive ToolFailure where
  | config (e : Config.Error)
  | metrics (e : StatsdError)
  | session (f : SessionFailure)

namespace ToolFailure

def chain : ToolFailure → List String
  | config e => "failed loading config" :: e.message :: e.causes
  | metrics e => ["failed to set up metrics", e.message]
  | session f => f.chain

def indented (indent : Nat) (s : String) : String :=
  ("\n" ++ String.ofList (List.replicate indent ' ')).intercalate (s.splitOn "\n")

def numbered (n : Nat) : List String → List String
  | [] => []
  | c :: rest =>
    let number := toString n
    let room := String.ofList (List.replicate (5 - number.length) ' ')
    (room ++ number ++ ": " ++ indented 7 c) :: numbered (n + 1) rest

/-- The failure on a line of its own and its causes below. Several causes are numbered. -/
def text (f : ToolFailure) : String :=
  match f.chain with
  | [] => ""
  | [m] => m
  | [m, cause] => m ++ "\n\nCaused by:\n    " ++ indented 4 cause
  | m :: causes => m ++ "\n\nCaused by:\n" ++ "\n".intercalate (numbered 0 causes)

end ToolFailure

structure Environment where
  directives : Option String := none
  /-- Where metrics go if the configuration does not say so. -/
  server : Option String := none

structure Setup where
  arguments : Arguments
  config : Config
  directives : List LogDirective

namespace Setup

/-- Joins what was given. A level on the command line replaces the configured one, and directives in
the environment replace both. -/
def of (arguments : Arguments) (config : Config) (env : Environment) : Setup :=
  let level := arguments.level.getD config.logging.level
  { arguments
    config := { config with logging := { config.logging with level } }
    directives := LogDirective.ofText (env.directives.getD (LogDirective.ofLevel level)) }

def read (arguments : Arguments) (file : Option Config.File) (env : Environment) :
    Except ToolFailure Setup :=
  match Config.ofFile env.server file with
  | .ok config => .ok (of arguments config env)
  | .error e => .error (.config e)

def logsFailures (s : Setup) : Bool := s.directives.any (·.level != .off)

def plan (s : Setup) : FetchPlan :=
  { address := s.arguments.address
    repeats := s.arguments.repeats
    interval := s.arguments.interval }

def tokens (s : Setup) : TokenConfig :=
  { s.config.tokens with service := s.arguments.service.or s.config.tokens.service }

def sortedTags (tags : List (String × String)) : List (String × String) :=
  tags.mergeSort fun a b => a.1 ≤ b.1

def metrics (s : Setup) : Except ToolFailure (Option StatsdClient × List LogEvent) :=
  match s.config.metrics.statsd with
  | none => .ok (none, [])
  | some host =>
    let tags := sortedTags s.config.metrics.customTags.entries
    match StatsdClient.configure none s.config.metrics.namePrefix (some host) tags with
    | .ok (client, events) => .ok (some client, events)
    | .error e => .error (.metrics e)

def session (s : Setup) : Session := Session.start s.plan s.arguments.nick s.tokens

def failureEvent (f : ToolFailure) : LogEvent :=
  { level := .error, target := "fileuploader_cli::logging", message := f.text }

def events (s : Setup) (notices : List Notice) : List LogEvent :=
  let shown (_ : Nat) := (Peer.overStream s.arguments.address).shown
  let address (_ : Nat) := s.arguments.address
  (notices.filterMap (LogEvent.ofNotice shown address)).filter (LogDirective.passes s.directives)

end Setup

end ChatToken
