import ChatToken.Config.Basic
import ChatToken.Time.Reading

/-! # The command line

`fetch ADDR` with options that say how often and as whom to ask, and options for the whole program,
which can stand on either side of the command. An option's value is the next word, or stands behind
an equals sign; a word of its own that starts with a hyphen is never a value. Every option can be
given once.
-/
namespace ChatToken

structure Arguments where
  configPath : Option String := none
  level : Option LogFilter := none
  address : String
  nick : String := "fileuploader"
  repeats : Nat := 1
  interval : Span := Span.ofSeconds 1
  service : Option String := none
  deriving DecidableEq, Repr

inductive CommandLineError where
  | help
  | version
  | invalid (reason : String)
  deriving DecidableEq, Repr

namespace CommandLine

inductive OptionName where
  | config | level | nick | repeats | interval | service
  deriving DecidableEq, Repr

def OptionName.isGlobal : OptionName → Bool
  | config => true
  | level => true
  | _ => false

def OptionName.all : List (String × OptionName) :=
  [("--config", config), ("-c", config), ("--log-level", level), ("--nick", nick),
    ("--repeat", repeats), ("--interval", interval), ("--service", service)]

structure Words where
  inFetch : Bool := false
  options : List (OptionName × String) := []
  address : Option String := none
  deriving Repr

def invalid {α : Type} (reason : String) : Except CommandLineError α := .error (.invalid reason)

/-- A word that could be an option. -/
def isHyphenated (word : String) : Bool :=
  match word.toList with
  | '-' :: _ :: _ => true
  | _ => false

def option? (word : String) : Option (OptionName × Option String) :=
  let cs := word.toList
  match cs with
  | '-' :: '-' :: _ =>
    let name := cs.takeWhile (· != '=')
    let value := if name.length < cs.length then some (String.ofList (cs.drop (name.length + 1)))
      else none
    (OptionName.all.find? (·.1 = String.ofList name)).map fun o => (o.2, value)
  | '-' :: 'c' :: '=' :: value => some (.config, some (String.ofList value))
  | '-' :: 'c' :: c :: value => some (.config, some (String.ofList (c :: value)))
  | ['-', 'c'] => some (.config, none)
  | _ => none

def addOption (w : Words) (o : OptionName) (value : String) : Except CommandLineError Words :=
  if w.options.any (·.1 = o) then invalid "the option cannot be used multiple times"
  else .ok { w with options := (o, value) :: w.options }

def addPositional (w : Words) (word : String) : Except CommandLineError Words :=
  if !w.inFetch then
    if word = "fetch" then .ok { w with inFetch := true }
    else if word = "help" then .error .help
    else invalid "unrecognized subcommand"
  else if w.address.isSome then invalid "unexpected argument found"
  else .ok { w with address := some word }

/-- Reads words. The flag says that the words from here on are no options. -/
def readWords (w : Words) (literal : Bool) : List String → Except CommandLineError Words
  | [] => .ok w
  | word :: rest =>
    if literal then do readWords (← addPositional w word) true rest
    else if word = "--" then readWords w true rest
    else if word = "--help" ∨ word = "-h" then .error .help
    else if !w.inFetch && (word = "--version" || word = "-V") then .error .version
    else
      match option? word with
      | some (o, value) =>
        if !w.inFetch && !o.isGlobal then invalid "unexpected argument found"
        else
          match value, rest with
          | some v, rest => do readWords (← addOption w o v) false rest
          | none, v :: rest =>
            if isHyphenated v then invalid "a value is required"
            else do readWords (← addOption w o v) false rest
          | none, [] => invalid "a value is required"
      | none =>
        if isHyphenated word then invalid "unexpected argument found"
        else do readWords (← addPositional w word) false rest

def number? (s : String) : Option Nat :=
  let cs := s.toList
  let digits := if cs.head? = some '+' then cs.drop 1 else cs
  if digits.isEmpty || !digits.all Char.isDigit then none
  else Span.word? (digits.foldl (fun n d => n * 10 + (d.toNat - '0'.toNat)) 0)

def value? (w : Words) (o : OptionName) : Option String := (w.options.find? (·.1 = o)).map (·.2)

def valueOr {α : Type} (w : Words) (o : OptionName) (default : α) (read : String → Option α) :
    Except CommandLineError α :=
  match value? w o with
  | none => .ok default
  | some s =>
    match read s with
    | some a => .ok a
    | none => invalid "invalid value"

def parse (words : List String) : Except CommandLineError Arguments := do
  let w ← readWords {} false words
  let level ← valueOr w .level none fun s => (LogFilter.ofString? s).map some
  let repeats ← valueOr w .repeats 1 number?
  let interval ← valueOr w .interval (Span.ofSeconds 1) fun s => Span.ofChars? s.toList
  match w.address with
  | none => invalid "required arguments were not provided"
  | some address =>
    return {
      configPath := value? w .config
      level
      address
      nick := (value? w .nick).getD "fileuploader"
      repeats
      interval
      service := value? w .service }

end CommandLine

end ChatToken
