import ChatToken.Yaml.Fault
import ChatToken.Yaml.Lexeme

/-! # Scalars

The text of a scalar that is plain, quoted, or a block of lines. A scalar in one line keeps its
blanks. Where it goes on in another line the blanks around the line end are dropped, one line end
reads as a space, and of several all but the first are kept; a block of lines keeps its line ends if
it is literal.
-/
namespace ChatToken.Yaml

/-! ## White space between words -/

structure Gap where
  blanks : List Char := []
  /-- The first line end. -/
  lead : List Char := []
  more : List Char := []
  broken : Bool := false

/-- What a first line end and the ones behind it read as. -/
def folded (lead more : List Char) : List Char :=
  if lead.head? = some '\n' then (if more.isEmpty then [' '] else more) else lead ++ more

def Gap.text (g : Gap) : List Char := if g.broken then folded g.lead g.more else g.blanks

/-- Reads white space, of at most `room` characters. Tabs may not stand left of `margin` once a line
has ended. -/
def gap (margin : Nat) (during : Activity) (start : Mark) :
    Nat → Gap → Cursor → Except Fault (Gap × Cursor)
  | 0, g, c => .ok (g, c)
  | room + 1, g, c =>
    match c.peek with
    | none => .ok (g, c)
    | some x =>
      if isBlank x then
        if g.broken && c.mark.column < margin && x == '\t' then fault .tabInIndent during start c
        else
          let g := if g.broken then g else { g with blanks := g.blanks ++ [x] }
          gap margin during start room g (c.advance 1)
      else if isBreak x then
        let (ended, next) := c.takeBreak
        let g :=
          if g.broken then { g with more := g.more ++ ended }
          else { g with lead := ended, broken := true }
        gap margin during start room g next
      else .ok (g, c)

/-! ## Plain scalars -/

/-- The characters of a plain scalar up to white space or the end of the scalar. A colon ends it if
a word ends there too; between brackets, commas and brackets end it, and the result is nothing if
one of them stands behind a colon. -/
def plainWord (inFlow : Bool) : List Char → Option (List Char)
  | [] => some []
  | x :: rest =>
    if isBlank x || isBreak x then some []
    else if inFlow && x == ':' && rest.head?.any ",?[]\x7b\x7d".toList.contains then none
    else if x == ':' && endsWord rest.head? then some []
    else if inFlow && ",[]\x7b\x7d".toList.contains x then some []
    else (plainWord inFlow rest).map (x :: ·)

/-- The length of the part of a word that `plainWord` could read before it failed. -/
def plainReach (inFlow : Bool) : List Char → Nat
  | [] => 0
  | x :: rest =>
    if inFlow && x == ':' && rest.head?.any ",?[]\x7b\x7d".toList.contains then 0
    else plainReach inFlow rest + 1

/-- A scalar that has been read: its text, the place where it ends, the cursor behind it and the
white space after it, and whether a line ended in that white space. -/
structure PlainEnd where
  text : List Char
  stop : Mark
  next : Cursor
  broken : Bool

/-- Reads the words of a plain scalar, at most `room`, of which all but the first line have to stand
at `margin` or right of it. -/
def plainWords (inFlow : Bool) (margin : Nat) (start : Mark) :
    Nat → PlainEnd → Gap → Except Fault PlainEnd
  | 0, e, _ => .ok e
  | room + 1, e, g => do
    let c := e.next
    if c.atDocumentMarker || c.looksAt '#' then return e
    else
      match plainWord inFlow c.rest with
      | none => fault .colonInFlow .plain start (c.advance (plainReach inFlow c.rest))
      | some word =>
        let next := c.advance word.length
        let e :=
          if word.isEmpty then e
          else { text := e.text ++ g.text ++ word, stop := next.mark, next, broken := false }
        if next.atBlank || next.atBreak then
          let (g, next) ← gap margin .plain start next.rest.length {} next
          let e := { e with next, broken := g.broken }
          if !inFlow && next.mark.column < margin then return e
          else plainWords inFlow margin start room e g
        else return e

def plainScalar (inFlow : Bool) (margin : Nat) (c : Cursor) : Except Fault PlainEnd :=
  plainWords inFlow margin c.mark (c.rest.length + 1) ⟨[], c.mark, c, false⟩ {}

/-! ## Quoted scalars -/

def digitsAfter (x : Char) : Option Nat :=
  if x = 'x' then some 2 else if x = 'u' then some 4 else if x = 'U' then some 8 else none

def escaped (x : Char) : Option Char :=
  match x with
  | '0' => some '\x00'
  | 'a' => some '\x07'
  | 'b' => some '\x08'
  | 't' => some '\t'
  | '\t' => some '\t'
  | 'n' => some '\n'
  | 'v' => some '\x0b'
  | 'f' => some '\x0c'
  | 'r' => some '\r'
  | 'e' => some '\x1b'
  | ' ' => some ' '
  | '"' => some '"'
  | '/' => some '/'
  | '\\' => some '\\'
  | 'N' => some '\u0085'
  | '_' => some '\u00a0'
  | 'L' => some '\u2028'
  | 'P' => some '\u2029'
  | _ => none

def escape (start : Mark) (c : Cursor) : Except Fault (Char × Cursor) :=
  match c.ahead 1 with
  | none => fault .unknownEscape .escape start c
  | some x =>
    match digitsAfter x, escaped x with
    | some n, _ =>
      let digits := (c.rest.drop 2).take n
      if digits.length = n && digits.all (fun d => (hexValue? d).isSome) then
        let value := digits.foldl (fun v d => v * 16 + (hexValue? d).getD 0) 0
        if value.isValidChar then .ok (Char.ofNat value, c.advance (n + 2))
        else fault .badCodePoint .escape start (c.advance 2)
      else fault .noHexDigit .escape start (c.advance 2)
    | none, some y => .ok (y, c.advance 2)
    | none, none => fault .unknownEscape .escape start c

/-- Reads the characters of a quoted scalar up to white space or the closing quote. The flag says
that a backslash before a line end was read, which takes the line end with it. -/
def quotedWord (double : Bool) (start : Mark) :
    Nat → Cursor → Except Fault (List Char × Bool × Cursor)
  | 0, c => .ok ([], false, c)
  | room + 1, c =>
    let along (x : Char) (next : Cursor) : Except Fault (List Char × Bool × Cursor) := do
      let (xs, broken, last) ← quotedWord double start room next
      return (x :: xs, broken, last)
    match c.peek with
    | none => .ok ([], false, c)
    | some x =>
      if isBlank x || isBreak x then .ok ([], false, c)
      else if !double && x == '\'' then
        if c.ahead 1 = some '\'' then along '\'' (c.advance 2) else .ok ([], false, c)
      else if double && x == '"' then .ok ([], false, c)
      else if double && x == '\\' then
        if (c.ahead 1).any isBreak then .ok ([], true, (c.advance 1).skipBreak)
        else do
          let (y, next) ← escape start c
          along y next
      else along x (c.advance 1)

def quotedWords (double : Bool) (start : Mark) :
    Nat → List Char → Cursor → Except Fault (List Char × Cursor)
  | 0, _, c => fault .unclosed .quoted start c
  | room + 1, text, c =>
    if c.atDocumentMarker then fault .documentMarker .quoted start c
    else if c.rest.isEmpty then fault .unclosed .quoted start c
    else do
      let (word, broken, next) ← quotedWord double start c.rest.length c
      let text := text ++ word
      if next.looksAt (if double then '"' else '\'') then return (text, next.advance 1)
      else
        let (g, next) ← gap 0 .quoted start next.rest.length { broken } next
        quotedWords double start room (text ++ g.text) next

def quotedScalar (double : Bool) (c : Cursor) : Except Fault (List Char × Cursor) :=
  quotedWords double c.mark (c.rest.length + 1) [] (c.advance 1)

/-! ## Blocks of lines -/

inductive Chomping where
  | strip | clip | keep
  deriving DecidableEq, Repr

/-- Reads the signs behind the one that opens a block: how its end is treated, and how far it is
indented, in either order. -/
def blockHeader (start : Mark) (c : Cursor) : Except Fault ((Chomping × Option Nat) × Cursor) := do
  let chomping (c : Cursor) : Option Chomping × Cursor :=
    if c.looksAt '+' then (some .keep, c.advance 1)
    else if c.looksAt '-' then (some .strip, c.advance 1)
    else (none, c)
  let indent (c : Cursor) : Except Fault (Option Nat × Cursor) :=
    match c.peek with
    | some d =>
      if d = '0' then fault .zeroIndent .block start c
      else if d.isDigit then .ok (some (d.toNat - '0'.toNat), c.advance 1)
      else .ok (none, c)
    | none => .ok (none, c)
  let (before, next) := chomping c
  let (width, next) ← indent next
  let (after, next) := if before.isNone && width.isSome then chomping next else (none, next)
  return (((before.or after).getD .clip, width), next)

/-- Reads the indentation of a line and the empty lines before it, at most `room` of them. Without a
known `indent` the widest of these lines decides. -/
def blockBreaks (start : Mark) (indent : Option Nat) :
    Nat → Nat → List Char → Mark → Cursor → Except Fault (Nat × List Char × Mark × Cursor)
  | 0, widest, breaks, stop, c => .ok (widest, breaks, stop, c)
  | room + 1, widest, breaks, stop, c =>
    let spaces := (c.rest.takeWhile (· == ' ')).length
    let next := c.advance (match indent with
      | none => spaces
      | some n => min spaces (n - c.mark.column))
    let widest := max widest next.mark.column
    if indent.all (next.mark.column < ·) && next.looksAt '\t' then
      fault .tabForIndent .block start next
    else if next.atBreak then
      let (ended, next) := next.takeBreak
      blockBreaks start indent room widest (breaks ++ ended) next.mark next
    else .ok (widest, breaks, stop, next)

/-- The lines of a block: what has been read of it, the end of its last line, the line ends behind
that one, whether the last line began with a blank, the end of the block and what follows it. -/
structure BlockLines where
  text : List Char := []
  lead : List Char := []
  more : List Char := []
  blank : Bool := false
  stop : Mark
  next : Cursor

def blockLines (literal : Bool) (start : Mark) (indent : Nat) :
    Nat → BlockLines → Except Fault BlockLines
  | 0, b => .ok b
  | room + 1, b =>
    if b.next.mark.column != indent || b.next.rest.isEmpty then .ok b
    else do
      let blank := b.next.atBlank
      let joint :=
        if !literal && b.lead.head? == some '\n' && !b.blank && !blank then
          if b.more.isEmpty then [' '] else b.more
        else b.lead ++ b.more
      let (line, next) := b.next.takeWhile fun x => !isBreak x
      let (lead, next) := next.takeBreak
      let (_, more, stop, next) ←
        blockBreaks start (some indent) (next.rest.length + 1) 0 [] next.mark next
      blockLines literal start indent room
        { text := b.text ++ joint ++ line, lead, more, blank, stop, next }

/-- Reads a block of lines inside a collection whose content starts at `margin`. -/
def blockScalar (literal : Bool) (margin : Nat) (c : Cursor) :
    Except Fault (List Char × Mark × Cursor) := do
  let ((chomping, width), next) ← blockHeader c.mark (c.advance 1)
  let next := next.skipBlanks.skipComment
  if !next.atLineEnd then fault .afterHeader .block c.mark next
  else
    let next := next.skipBreak
    let known := width.map (margin - 1 + ·)
    let (widest, more, stop, next) ←
      blockBreaks c.mark known (next.rest.length + 1) 0 [] next.mark next
    let indent := known.getD (max widest (max margin 1))
    let b ← blockLines literal c.mark indent (next.rest.length + 1) { more, stop, next }
    let tail :=
      match chomping with
      | .strip => []
      | .clip => b.lead
      | .keep => b.lead ++ b.more
    return (b.text ++ tail, b.stop, b.next)

end ChatToken.Yaml
