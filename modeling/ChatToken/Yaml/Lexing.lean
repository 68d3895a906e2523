import ChatToken.Yaml.Property
import ChatToken.Yaml.Scalar

/-! # Cutting a text into lexemes

Outside brackets, columns open and close block collections: a collection is open at the column of
its first entry until a line starts left of it. A key may be known as such only when the colon
behind it is read. Every lexeme that might be a key is therefore remembered, one for each open
bracket, until its line ends or a thousand characters have passed.
-/
namespace ChatToken.Yaml

/-- A lexeme that will be a key if a colon follows. -/
structure Candidate where
  /-- The number of lexemes before it. -/
  position : Nat
  mark : Mark
  /-- Nothing but a key may stand here. -/
  required : Bool

structure Lexing where
  cursor : Cursor
  pieces : List Piece := []
  /-- The columns of the open block collections, the innermost first. -/
  columns : List Nat := []
  keyAllowed : Bool := true
  candidate : Option Candidate := none
  /-- The candidates outside each open bracket, the innermost first. -/
  outer : List (Option Candidate) := []

structure Lexemes where
  pieces : List Piece
  ending : Except Fault Mark

namespace Lexing

def mark (s : Lexing) : Mark := s.cursor.mark

def inFlow (s : Lexing) : Bool := !s.outer.isEmpty

def margin (s : Lexing) : Nat :=
  match s.columns with
  | [] => 0
  | column :: _ => column + 1

def push (s : Lexing) (lexeme : Lexeme) (start stop : Mark) : Lexing :=
  { s with pieces := s.pieces ++ [⟨lexeme, start, stop⟩] }

/-- Puts a lexeme of no extent before those from `position` on. -/
def insert (s : Lexing) (position : Nat) (lexeme : Lexeme) (m : Mark) : Lexing :=
  { s with pieces := s.pieces.take position ++ ⟨lexeme, m, m⟩ :: s.pieces.drop position }

def sign (s : Lexing) (lexeme : Lexeme) (n : Nat) : Lexing :=
  let next := s.cursor.advance n
  { s.push lexeme s.mark next.mark with cursor := next }

/-! ## Keys -/

def missingColon {α : Type} (s : Lexing) (k : Candidate) : Except Fault α :=
  fault .noColon .simpleKey k.mark s.cursor

def dropCandidate (s : Lexing) : Except Fault Lexing :=
  match s.candidate with
  | some k => if k.required then s.missingColon k else .ok { s with candidate := none }
  | none => .ok s

def remember (s : Lexing) : Except Fault Lexing :=
  if s.keyAllowed then do
    let s ← s.dropCandidate
    return { s with candidate := some {
      position := s.pieces.length
      mark := s.mark
      required := !s.inFlow && s.margin == s.mark.column + 1 } }
  else .ok s

def isStale (s : Lexing) (k : Candidate) : Bool :=
  k.mark.line < s.mark.line || k.mark.index + 1024 < s.mark.index

def refresh (s : Lexing) : Option Candidate → Except Fault (Option Candidate)
  | some k =>
    if s.isStale k then if k.required then s.missingColon k else .ok none else .ok (some k)
  | none => .ok none

def refreshAll (s : Lexing) : Except Fault Lexing := do
  let outer ← s.outer.reverse.mapM s.refresh
  let candidate ← s.refresh s.candidate
  return { s with outer := outer.reverse, candidate }

/-! ## Columns -/

def openBlock (s : Lexing) (column : Nat) (position : Option Nat) (lexeme : Lexeme) (m : Mark) :
    Lexing :=
  if s.inFlow || column < s.margin then s
  else
    let s := { s with columns := column :: s.columns }
    s.insert (position.getD s.pieces.length) lexeme m

def closeBlocks (s : Lexing) (open_ : Nat → Bool) : Lexing :=
  if s.inFlow then s
  else
    let closed := s.columns.takeWhile fun column => !open_ column
    { s with
      columns := s.columns.drop closed.length
      pieces := s.pieces ++ closed.map fun _ => ⟨.blockEnd, s.mark, s.mark⟩ }

def closeRightOf (s : Lexing) (column : Nat) : Lexing := s.closeBlocks (· ≤ column)

def closeAll (s : Lexing) : Lexing := s.closeBlocks fun _ => false

/-! ## Signs and scalars -/

/-- Passes white space and comments, at most `room` lines of them. Where a block key may start, tabs
are no white space. -/
def skipSpace : Nat → Lexing → Lexing
  | 0, s => s
  | room + 1, s =>
    let tabs := s.inFlow || !s.keyAllowed
    let c := (s.cursor.skipWhile fun x => x == ' ' || tabs && x == '\t').skipComment
    if c.atBreak then
      skipSpace room { s with cursor := c.skipBreak, keyAllowed := s.keyAllowed || !s.inFlow }
    else { s with cursor := c }

def finish (s : Lexing) (lexeme : Lexeme) (stop : Mark) (next : Cursor) : Lexing :=
  { s.push lexeme s.mark stop with cursor := next }

def readDirective (s : Lexing) : Except Fault Lexing := do
  let s ← s.closeAll.dropCandidate
  let (lexeme, stop, next) ← directive s.cursor
  return { s with keyAllowed := false }.finish lexeme stop.mark next

def readDocumentMarker (s : Lexing) (lexeme : Lexeme) : Except Fault Lexing := do
  let s ← s.closeAll.dropCandidate
  return { s with keyAllowed := false }.sign lexeme 3

def openBracket (s : Lexing) (lexeme : Lexeme) : Except Fault Lexing := do
  let s ← s.remember
  return { s with
    outer := s.candidate :: s.outer, candidate := none, keyAllowed := true }.sign lexeme 1

def closeBracket (s : Lexing) (lexeme : Lexeme) : Except Fault Lexing := do
  let s ← s.dropCandidate
  let s :=
    match s.outer with
    | candidate :: outer => { s with candidate, outer }
    | [] => s
  return { s with keyAllowed := false }.sign lexeme 1

def readFlowEntry (s : Lexing) : Except Fault Lexing := do
  let s ← s.dropCandidate
  return { s with keyAllowed := true }.sign .flowEntry 1

def misplaced {α : Type} (s : Lexing) (problem : Problem) : Except Fault α :=
  .error { problem, at_ := s.mark }

def readBlockEntry (s : Lexing) : Except Fault Lexing :=
  if !s.inFlow && !s.keyAllowed then s.misplaced .entryHere
  else do
    let s ← (s.openBlock s.mark.column none .blockSequenceStart s.mark).dropCandidate
    return { s with keyAllowed := true }.sign .blockEntry 1

def readKey (s : Lexing) : Except Fault Lexing :=
  if !s.inFlow && !s.keyAllowed then s.misplaced .keyHere
  else do
    let s ← (s.openBlock s.mark.column none .blockMappingStart s.mark).dropCandidate
    return { s with keyAllowed := !s.inFlow }.sign .key 1

def readValue (s : Lexing) : Except Fault Lexing :=
  match s.candidate with
  | some k =>
    let s := s.insert k.position .key k.mark
    let s := s.openBlock k.mark.column (some k.position) .blockMappingStart k.mark
    .ok ({ s with candidate := none, keyAllowed := false }.sign .value 1)
  | none =>
    if !s.inFlow && !s.keyAllowed then s.misplaced .valueHere
    else
      let s := s.openBlock s.mark.column none .blockMappingStart s.mark
      .ok ({ s with keyAllowed := !s.inFlow }.sign .value 1)

def readName (s : Lexing) (during : Activity) (lexeme : List Char → Lexeme) :
    Except Fault Lexing := do
  let s ← s.remember
  let (name, next) ← name during s.cursor
  return { s with keyAllowed := false }.finish (lexeme name) next.mark next

def readTag (s : Lexing) : Except Fault Lexing := do
  let s ← s.remember
  let (lexeme, next) ← tag s.inFlow s.cursor
  return { s with keyAllowed := false }.finish lexeme next.mark next

def readBlockScalar (s : Lexing) (style : Style) : Except Fault Lexing := do
  let s ← s.dropCandidate
  let (text, stop, next) ← blockScalar (style == .literal) s.margin s.cursor
  return { s with keyAllowed := true }.finish (.scalar text style) stop next

def readQuoted (s : Lexing) (style : Style) : Except Fault Lexing := do
  let s ← s.remember
  let (text, next) ← quotedScalar (style == .doubleQuoted) s.cursor
  return { s with keyAllowed := false }.finish (.scalar text style) next.mark next

def readPlain (s : Lexing) : Except Fault Lexing := do
  let s ← s.remember
  let e ← plainScalar s.inFlow s.margin s.cursor
  return { s with keyAllowed := e.broken }.finish (.scalar e.text .plain) e.stop e.next

def isIndicator (x : Char) : Bool := "-?:,[]\x7b\x7d#&*!|>'\"%@`".toList.contains x

def startsPlain (inFlow : Bool) (x : Char) (then_ : Option Char) : Bool :=
  !(isIndicator x || endsWord (some x)) ||
    x == '-' && !then_.any isBlank ||
    !inFlow && (x == '?' || x == ':') && !endsWord then_

def readLexeme (s : Lexing) (x : Char) : Except Fault Lexing :=
  let c := s.cursor
  let alone := endsWord (c.ahead 1)
  if c.mark.column == 0 && x == '%' then s.readDirective
  else if c.atMarker '-' then s.readDocumentMarker .documentStart
  else if c.atMarker '.' then s.readDocumentMarker .documentEnd
  else if x == '[' then s.openBracket .flowSequenceStart
  else if x == '\x7b' then s.openBracket .flowMappingStart
  else if x == ']' then s.closeBracket .flowSequenceEnd
  else if x == '\x7d' then s.closeBracket .flowMappingEnd
  else if x == ',' then s.readFlowEntry
  else if x == '-' && alone then s.readBlockEntry
  else if x == '?' && (s.inFlow || alone) then s.readKey
  else if x == ':' && (s.inFlow || alone) then s.readValue
  else if x == '*' then s.readName .reference .reference
  else if x == '&' then s.readName .anchor .anchor
  else if x == '!' then s.readTag
  else if x == '|' && !s.inFlow then s.readBlockScalar .literal
  else if x == '>' && !s.inFlow then s.readBlockScalar .folded
  else if x == '\'' then s.readQuoted .singleQuoted
  else if x == '"' then s.readQuoted .doubleQuoted
  else if startsPlain s.inFlow x (c.ahead 1) then s.readPlain
  else fault .noToken .token c.mark c

/-- The end of the text closes what is open. It stands at the start of a line. -/
def readEnd (s : Lexing) : Except Fault (Lexing × Mark) := do
  let m := s.mark
  let m := if m.column = 0 then m else { m with line := m.line + 1, column := 0 }
  let s := { s with cursor := { s.cursor with mark := m } }
  let s ← s.closeAll.dropCandidate
  return (s, m)

def step (s : Lexing) : Except Fault (Lexing × Option Mark) := do
  let s ← (skipSpace (s.cursor.rest.length + 1) s).refreshAll
  let s := s.closeRightOf s.mark.column
  match s.cursor.peek with
  | none =>
    let (s, m) ← s.readEnd
    return (s, some m)
  | some x =>
    let s ← s.readLexeme x
    return (s, none)

/-- The lexemes that cannot become a key, nor stand behind one that can. -/
def settled (s : Lexing) : List Piece :=
  let open_ := (s.candidate :: s.outer).filterMap fun k =>
    k.bind fun k => if s.isStale k then none else some k.position
  s.pieces.take (open_.foldl min s.pieces.length)

/-- Reads at most `room` lexemes. What stands before a fault is delivered as far as it is settled
without the rest of the text. -/
def run : Nat → Lexing → Lexemes
  | 0, s => ⟨s.pieces, .ok s.mark⟩
  | room + 1, s =>
    match s.step with
    | .error e => ⟨s.settled, .error e⟩
    | .ok (s, some m) => ⟨s.pieces, .ok m⟩
    | .ok (s, none) => run room s

end Lexing

def isPrintable (c : Char) : Bool :=
  c == '\t' || c == '\n' || c == '\r' || c == '\u0085' || ' ' ≤ c && c ≤ '~' ||
    '\u00a0' ≤ c && c ≤ '\ufffd' || '\uffff' < c

/-- Cuts a text into lexemes. A byte order mark at its start takes up a column. -/
def Lexemes.ofChars (text : List Char) : Lexemes :=
  match text.dropWhile isPrintable with
  | [] =>
    let start : Cursor := { rest := text }
    let start := if start.looksAt '\ufeff' then start.advance 1 else start
    Lexing.run (text.length + 1) { cursor := start }
  | _ :: _ =>
    let before := text.takeWhile isPrintable
    ⟨[], .error {
      problem := .controlCharacter
      at_ := {}
      offset := before.foldl (fun n c => n + c.utf8Size) 0 }⟩

end ChatToken.Yaml
