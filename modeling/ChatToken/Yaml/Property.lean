import ChatToken.Yaml.Fault
import ChatToken.Yaml.Lexeme

/-! # Directives, anchors and tags

The parts of a text that say something about the nodes beside them: which version and tag handles a
document uses, what a node is called, and which type it has.
-/
namespace ChatToken.Yaml

def uriOctet (during : Activity) (start : Mark) (c : Cursor) : Except Fault (Nat × Cursor) :=
  match c.rest with
  | '%' :: x :: y :: _ =>
    match hexValue? x, hexValue? y with
    | some h, some l => .ok (h * 16 + l, c.advance 3)
    | _, _ => fault .noUriOctet during start c
  | _ => fault .noUriOctet during start c

def uriTail (during : Activity) (start : Mark) :
    Nat → Nat → Cursor → Except Fault (Nat × Cursor)
  | 0, value, c => .ok (value, c)
  | more + 1, value, c => do
    let (octet, next) ← uriOctet during start c
    if octet / 64 = 2 then uriTail during start more (value * 64 + octet % 64) next
    else fault .oddTrailingOctet during start c

def uriEscape (during : Activity) (start : Mark) (c : Cursor) : Except Fault (Char × Cursor) := do
  let (octet, next) ← uriOctet during start c
  let (value, next) ←
    if octet < 0x80 then .ok (octet, next)
    else if octet / 32 = 6 then uriTail during start 1 (octet % 32) next
    else if octet / 16 = 14 then uriTail during start 2 (octet % 16) next
    else if octet / 8 = 30 then uriTail during start 3 (octet % 8) next
    else fault .oddLeadingOctet during start c
  return (Char.ofNat value, next)

/-- The characters of a tag. In angle brackets commas and square brackets belong to them too. -/
def isUriChar (verbatim : Bool) (c : Char) : Bool :=
  isNameChar c || ";/?:@&=+$.%!~*'()".toList.contains c || verbatim && ",[]".toList.contains c

def uriChars (verbatim : Bool) (during : Activity) (start : Mark) :
    Nat → Cursor → Except Fault (List Char × Cursor)
  | 0, c => .ok ([], c)
  | room + 1, c =>
    match c.peek with
    | some x =>
      if isUriChar verbatim x then do
        let (x, next) ← if x = '%' then uriEscape during start c else .ok (x, c.advance 1)
        let (xs, next) ← uriChars verbatim during start room next
        return (x :: xs, next)
      else .ok ([], c)
    | none => .ok ([], c)

/-- The characters of a tag behind `head`, of which the first one only marks it as a tag. Together
they may not be nothing. -/
def uri (verbatim : Bool) (head : List Char) (during : Activity) (start : Mark) (c : Cursor) :
    Except Fault (List Char × Cursor) := do
  let (xs, next) ← uriChars verbatim during start c.rest.length c
  if head.isEmpty && xs.isEmpty then fault .noUri during start next
  else return (head.drop 1 ++ xs, next)

/-- A name between exclamation marks. The second mark is missing if it is the start of a tag. -/
def tagHandle (directive : Bool) (start : Mark) (c : Cursor) : Except Fault (List Char × Cursor) :=
  let during := if directive then Activity.tagDirective else .tag
  if c.looksAt '!' then
    let (name, next) := (c.advance 1).takeWhile isNameChar
    if next.looksAt '!' then .ok ('!' :: name ++ ['!'], next.advance 1)
    else if directive && !name.isEmpty then fault .noHandle during start next
    else .ok ('!' :: name, next)
  else fault .noHandle during start c

def isClosedHandle (handle : List Char) : Bool := 1 < handle.length && handle.getLast? == some '!'

/-- The handle and the rest of a tag. A tag in angle brackets has no handle, and neither has the
single exclamation mark. -/
def tagBody (start : Mark) (c : Cursor) : Except Fault ((List Char × List Char) × Cursor) :=
  if c.ahead 1 = some '<' then do
    let (suffix, next) ← uri true [] .tag start (c.advance 2)
    if next.looksAt '>' then return (([], suffix), next.advance 1)
    else fault .noClosingAngle .tag start next
  else do
    let (handle, next) ← tagHandle false start c
    if isClosedHandle handle then
      let (suffix, next) ← uri false [] .tag start next
      return ((handle, suffix), next)
    else
      let (suffix, next) ← uri false handle .tag start next
      return (if suffix.isEmpty then ([], ['!']) else (['!'], suffix), next)

/-- Reads a tag, behind which a word has to end, or an entry of a collection in brackets. -/
def tag (inFlow : Bool) (c : Cursor) : Except Fault (Lexeme × Cursor) := do
  let ((handle, suffix), next) ← tagBody c.mark c
  if endsWord next.peek || inFlow && next.looksAt ',' then return (.tag handle suffix, next)
  else fault .noBlankAfterUri .tag c.mark next

def name (during : Activity) (c : Cursor) : Except Fault (List Char × Cursor) :=
  let (name, next) := (c.advance 1).takeWhile isNameChar
  if !name.isEmpty && (endsWord next.peek || next.peek.any "?:,]\x7d%@`".toList.contains) then
    .ok (name, next)
  else fault .oddName during c.mark next

def versionNumber (start : Mark) (c : Cursor) : Except Fault (Nat × Cursor) :=
  let (digits, next) := c.takeWhile Char.isDigit
  if digits.isEmpty then fault .noVersion .versionDirective start next
  else if 9 < digits.length then fault .longVersion .versionDirective start (c.advance 9)
  else .ok (digits.foldl (fun n d => n * 10 + (d.toNat - '0'.toNat)) 0, next)

def version (start : Mark) (c : Cursor) : Except Fault (Lexeme × Cursor) := do
  let (major, next) ← versionNumber start c.skipBlanks
  if next.looksAt '.' then
    let (minor, next) ← versionNumber start (next.advance 1)
    return (.version major minor, next)
  else fault .noVersionDot .versionDirective start next

def handle (start : Mark) (c : Cursor) : Except Fault (Lexeme × Cursor) := do
  let (handle, next) ← tagHandle true start c.skipBlanks
  if next.atBlank then
    let (stem, next) ← uri true [] .tagDirective start next.skipBlanks
    if endsWord next.peek then return (.handle handle stem, next)
    else fault .noBlankAfterUri .tagDirective start next
  else fault .noBlankAfterHandle .tagDirective start next

/-- Reads a directive and the rest of its line. The second cursor is where the directive itself
ends. -/
def directive (c : Cursor) : Except Fault (Lexeme × Cursor × Cursor) := do
  let (name, next) := (c.advance 1).takeWhile isNameChar
  if name.isEmpty then fault .noDirectiveName .directive c.mark next
  else if !endsWord next.peek then fault .oddDirectiveName .directive c.mark next
  else
    let (lexeme, stop) ←
      if name = "YAML".toList then version c.mark next
      else if name = "TAG".toList then handle c.mark next
      else fault .unknownDirective .directive c.mark next
    let next := stop.skipBlanks.skipComment
    if next.atLineEnd then return (lexeme, stop, next.skipBreak)
    else fault .afterDirective .directive c.mark next

end ChatToken.Yaml
