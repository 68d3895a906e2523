import ChatToken.Report.Log

/-! # Layout of log events

An event is written as one JSON object, or as one line of plain text. Instants are written in
universal time to the microsecond.
-/
namespace ChatToken

/-! ## Instants -/

/-- The year, the month and the day that are `days` after the first of January 1970. The year is
taken to begin in March, so that the leap day is its last one. -/
def civilDate (days : Nat) : Nat × Nat × Nat :=
  let z := days + 719468
  let era := z / 146097
  let dayOfEra := z % 146097
  let yearOfEra := (dayOfEra - dayOfEra / 1460 + dayOfEra / 36524 - dayOfEra / 146096) / 365
  let dayOfYear := dayOfEra - (365 * yearOfEra + yearOfEra / 4 - yearOfEra / 100)
  let shifted := (5 * dayOfYear + 2) / 153
  let day := dayOfYear - (153 * shifted + 2) / 5 + 1
  let month := if shifted < 10 then shifted + 3 else shifted - 9
  (yearOfEra + era * 400 + if month ≤ 2 then 1 else 0, month, day)

def instantText (micros : Nat) : String :=
  let seconds := micros / 1000000
  let (year, month, day) := civilDate (seconds / 86400)
  let pad (width n : Nat) : String := String.ofList (Span.padded width n)
  pad 4 year ++ "-" ++ pad 2 month ++ "-" ++ pad 2 day ++ "T" ++ pad 2 (seconds / 3600 % 24) ++
    ":" ++ pad 2 (seconds / 60 % 60) ++ ":" ++ pad 2 (seconds % 60) ++ "." ++
    pad 6 (micros % 1000000) ++ "Z"

/-! ## JSON -/

def jsonEscape (c : Char) : List Char :=
  if c = '"' then ['\\', '"']
  else if c = '\\' then ['\\', '\\']
  else if c = '\n' then ['\\', 'n']
  else if c = '\r' then ['\\', 'r']
  else if c = '\t' then ['\\', 't']
  else if c = '\x08' then ['\\', 'b']
  else if c = '\x0c' then ['\\', 'f']
  else if c < ' ' then ['\\', 'u'] ++ Span.padded 2 0 ++
    List.replicate (2 - (Text.hexDigits c.toNat).length) '0' ++ Text.hexDigits c.toNat
  else [c]

def jsonString (s : String) : String :=
  String.ofList ('"' :: s.toList.flatMap jsonEscape ++ ['"'])

def LogValue.json : LogValue → String
  | text s => jsonString s
  | number n => toString n
  | flag b => if b then "true" else "false"

def LogEvent.json (instant : String) (e : LogEvent) : String :=
  let fields := [("timestamp", LogValue.text instant), ("level", .text e.level.name),
    ("message", .text e.message)] ++ e.fields ++ [("target", .text e.target)]
  "\x7b" ++ ",".intercalate (fields.map fun (k, v) => jsonString k ++ ":" ++ v.json) ++ "\x7d"

/-! ## Plain text -/

def LogValue.plain : LogValue → String
  | text s => s
  | number n => toString n
  | flag b => if b then "true" else "false"

def LogEvent.plain (instant : String) (e : LogEvent) : String :=
  let level := String.ofList (List.replicate (5 - e.level.name.length) ' ') ++ e.level.name
  let fields := e.fields.map fun (k, v) => " " ++ k ++ "=" ++ v.plain
  instant ++ " " ++ level ++ " " ++ e.target ++ ": " ++ e.message ++ String.join fields

end ChatToken
