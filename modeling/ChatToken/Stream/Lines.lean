/-! # Lines of a stream

A stream of bytes is cut at its line feeds. A carriage return before a line feed is dropped. A line
that is too long or no text ends the reading. At the end of the stream the rest counts as a line,
unless it is empty or a single carriage return.
-/
namespace ChatToken

inductive Received where
  | line (text : String)
  | failed (reason : String)
  deriving DecidableEq, Repr

structure LineReader where
  pending : List UInt8 := []
  deriving Repr, Inhabited

namespace LineReader

/-- The most bytes of a line, a carriage return included. -/
def maxLength : Nat := 8191

def lineFeed : UInt8 := 10

def carriageReturn : UInt8 := 13

def withoutReturn (bytes : List UInt8) : List UInt8 :=
  if bytes.getLast? = some carriageReturn then bytes.dropLast else bytes

def text (bytes : List UInt8) : Received :=
  match String.fromUTF8? ⟨(withoutReturn bytes).toArray⟩ with
  | some s => .line s
  | none => .failed "Unable to decode input as UTF8"

def next? (pending : List UInt8) : Option (Received × List UInt8) :=
  let line := pending.takeWhile (· != lineFeed)
  if maxLength < line.length then some (.failed "max line length exceeded", [])
  else
    match pending.drop line.length with
    | _ :: rest => some (text line, rest)
    | [] => none

def readLines : Nat → List UInt8 → List Received × List UInt8
  | 0, pending => ([], pending)
  | room + 1, pending =>
    match next? pending with
    | none => ([], pending)
    | some (.failed reason, rest) => ([.failed reason], rest)
    | some (.line s, rest) =>
      let (more, rest) := readLines room rest
      (.line s :: more, rest)

def feed (r : LineReader) (bytes : List UInt8) : List Received × LineReader :=
  let (received, pending) := readLines (r.pending.length + bytes.length) (r.pending ++ bytes)
  (received, { pending })

def finish (r : LineReader) : List Received :=
  if r.pending.isEmpty || r.pending == [carriageReturn] then [] else [text r.pending]

end LineReader

end ChatToken
