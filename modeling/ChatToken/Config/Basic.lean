import ChatToken.Report.Dsn
import ChatToken.Table
import ChatToken.Token.Basic

/-! # Configuration

Every setting has a default.
-/
namespace ChatToken

inductive LogFilter where
  | off | error | warn | info | debug | trace
  deriving DecidableEq, Repr

namespace LogFilter

def all : List LogFilter := [off, error, warn, info, debug, trace]

def name : LogFilter → String
  | off => "off"
  | error => "error"
  | warn => "warn"
  | info => "info"
  | debug => "debug"
  | trace => "trace"

/-- Reads a level: its number, counted from `off`, or its name in any letter case. No name at all
means errors. -/
def ofString? (s : String) : Option LogFilter :=
  let cs := s.toList
  let digits := if cs.head? = some '+' then cs.drop 1 else cs
  let number :=
    if digits.isEmpty || !digits.all Char.isDigit then none
    else all[digits.foldl (fun n d => n * 10 + (d.toNat - '0'.toNat)) 0]?
  let named :=
    if cs.isEmpty then some error
    else all.find? fun l => l.name.toList == cs.map Char.toLower
  number.or named

end LogFilter

inductive LogFormat where
  /-- Pretty on a terminal, and simplified everywhere else. -/
  | auto
  | pretty
  | simplified
  | json
  deriving DecidableEq, Repr

def LogFormat.names : List (String × LogFormat) :=
  [("auto", .auto), ("pretty", .pretty), ("simplified", .simplified), ("json", .json)]

structure Logging where
  level : LogFilter := .info
  format : LogFormat := .auto
  enableBacktraces : Bool := true
  deriving DecidableEq, Repr

structure MetricsConfig where
  statsd : Option String := none
  namePrefix : String := "fileuploader"
  customTags : Table String String := {}
  deriving DecidableEq, Repr

structure Config where
  logging : Logging := {}
  metrics : MetricsConfig := {}
  /-- Where internal errors are reported, if anywhere. -/
  dsn : Option Dsn := none
  tokens : TokenConfig := {}
  deriving DecidableEq, Repr

/-- The defaults. Metrics go to the server that the environment names. -/
def Config.default (server : Option String) : Config := { metrics := { statsd := server } }

end ChatToken
