import ChatToken.Config.Basic
import ChatToken.Report.Log

/-! # Log filters

A filter is a list of directives, each of which sets the level for the parts of the program whose
names start with a given text, or for all parts. Of the directives that fit a part, the one with the
longest name counts, and the later one of two with equal names.
-/
namespace ChatToken

structure LogDirective where
  /-- The start of the names of the parts; empty for all of them. -/
  target : String := ""
  level : LogFilter
  deriving DecidableEq, Repr

namespace LogFilter

def passes (f : LogFilter) : LogLevel → Bool
  | .error => f != off
  | .warn => f == warn || f == info || f == debug || f == trace
  | .info => f == info || f == debug || f == trace
  | .debug => f == debug || f == trace
  | .trace => f == trace

def isUpToInfo (f : LogFilter) : Bool := f == off || f == error || f == warn || f == info

end LogFilter

namespace LogDirective

/-- Reads a directive: a level, the name of a part, or both with an equals sign between them. A name
alone lets everything pass. -/
def ofString? (s : String) : Option LogDirective :=
  let name := s.toList.takeWhile (· != '=')
  match s.toList.drop name.length with
  | [] =>
    match LogFilter.ofString? s with
    | some level => if s.isEmpty then none else some { level }
    | none => some { target := s, level := .trace }
  | _ :: level =>
    (LogFilter.ofString? (String.ofList level)).map fun level =>
      { target := String.ofList name, level }

def ofText (s : String) : List LogDirective :=
  (s.toList.splitOn ',').filterMap fun part => ofString? (String.ofList part)

/-- The directives for a level. Beyond `info` only the program's own parts get chatty. -/
def ofLevel (level : LogFilter) : String :=
  if level.isUpToInfo then level.name
  else "info,fileuploader_cli=" ++ level.name ++ ",fileuploader_tokens=" ++ level.name

/-- The level for a part of the program. Without a directive that fits, only errors pass. -/
def levelFor (directives : List LogDirective) (target : String) : LogFilter :=
  let fitting := directives.filter fun d => d.target.toList.isPrefixOf target.toList
  let best := fitting.foldl (fun (best : Option LogDirective) d =>
    match best with
    | some b => if b.target.length ≤ d.target.length then some d else some b
    | none => some d) none
  match best with
  | some d => d.level
  | none => if directives.isEmpty then .error else .off

def passes (directives : List LogDirective) (e : LogEvent) : Bool :=
  (levelFor directives e.target).passes e.level

end LogDirective

end ChatToken
