import ChatToken.Table
import ChatToken.Yaml.Event

/-! # Documents

A document is the list of its events, in which every alias is the number of an anchor that was set
before it. An anchor's number is the number of different names set before it. Where a name is set
again the numbers can meet, and then the later anchor is meant.

A document that is not well formed still has the events in front of the fault.
-/
namespace ChatToken.Yaml

inductive Failure where
  | malformed (f : Fault)
  | unknownAnchor (at_ : Mark)
  deriving DecidableEq, Repr

def Failure.text : Failure → String
  | malformed f => f.text
  | unknownAnchor m => "unknown anchor" ++ if m.isOrigin then "" else " at " ++ m.text

abbrev Events := List (Mark × Event Nat)

structure Document where
  events : Events := []
  numbers : Table (List Char) Nat := {}
  /-- The place in `events` of each anchor. -/
  places : Table Nat Nat := {}
  failure : Option Failure := none
  /-- Something stands behind the document. -/
  followed : Bool := false

namespace Document

/-- The events from the one on that an alias stands for. -/
def target (d : Document) (number : Nat) : Events :=
  match d.places.get? number with
  | some place => d.events.drop place
  | none => []

def append (d : Document) (m : Mark) (e : Event Nat) : Document :=
  { d with events := d.events ++ [(m, e)] }

def setAnchor (d : Document) : Option (List Char) → Document
  | none => d
  | some name =>
    let number := d.numbers.size
    { d with
      numbers := d.numbers.insert name number
      places := d.places.insert number d.events.length }

def fail (d : Document) (f : Failure) : Document := { d with failure := some f }

def add (d : Document) (m : Mark) : Event (List Char) → Document
  | .reference name =>
    match d.numbers.get? name with
    | some number => d.append m (.reference number)
    | none => d.fail (.unknownAnchor m)
  | .scalar props text style => (d.setAnchor props.anchor).append m (.scalar props text style)
  | .sequenceStart props => (d.setAnchor props.anchor).append m (.sequenceStart props)
  | .sequenceEnd => d.append m .sequenceEnd
  | .mappingStart props => (d.setAnchor props.anchor).append m (.mappingStart props)
  | .mappingEnd => d.append m .mappingEnd

/-- What stands behind the end of a document: its marker, which may be missing, and then nothing but
further markers. -/
def close (d : Document) (r : Reading) : Document :=
  match r.peek with
  | .error f => d.fail (.malformed f)
  | .ok _ =>
    let behind := r.lexemes.pieces.dropWhile (·.lexeme == .documentEnd)
    { d with followed := !(behind.isEmpty && r.lexemes.ending.isOk) }

def readEvents : Nat → Document → Reading → Document
  | 0, d, _ => d
  | room + 1, d, r =>
    match r.stack with
    | [] => d.close r
    | e :: stack =>
      match Reading.read e { r with stack } with
      | .error f => d.fail (.malformed f)
      | .ok ((m, event), r) =>
        let d := d.add m event
        if d.failure.isSome then d else readEvents room d r

def standardHandles : List (List Char × List Char) :=
  [("!".toList, "!".toList), ("!!".toList, "tag:yaml.org,2002:".toList)]

/-- Reads the directives before a document, of which at most one sets the version and none sets a
handle twice. -/
def readDirectives :
    List Piece → Bool → List (List Char × List Char) → Except Fault (List (List Char × List Char))
  | p :: rest, versioned, handles =>
    match p.lexeme with
    | .version major minor =>
      if versioned then .error { problem := .twoVersions, at_ := p.start }
      else if major ≠ 1 || minor ≠ 1 && minor ≠ 2 then
        .error { problem := .otherVersion, at_ := p.start }
      else readDirectives rest true handles
    | .handle handle stem =>
      if handles.any (·.1 = handle) then .error { problem := .twoHandles, at_ := p.start }
      else readDirectives rest versioned (handles ++ [(handle, stem)])
    | _ => .ok (handles ++ standardHandles)
  | [], _, handles => .ok (handles ++ standardHandles)

def isDirective : Lexeme → Bool
  | .version _ _ => true
  | .handle _ _ => true
  | _ => false

/-- What is expected of the first document of a text, or nothing if the text has no document. -/
def opening (lexemes : Lexemes) : Except Fault (Option Reading) := do
  let r : Reading := { lexemes, handles := standardHandles, stack := [.node .block] }
  let p ← r.peek
  if p.lexeme = .streamEnd then return none
  else if isDirective p.lexeme || p.lexeme == .documentStart then
    let handles ← readDirectives lexemes.pieces false []
    let pieces := lexemes.pieces.dropWhile (isDirective ·.lexeme)
    let r := { r with handles, lexemes := { lexemes with pieces }, stack := [.documentContent] }
    let p ← r.peek
    if p.lexeme = .documentStart then return some r.skip
    else .error { problem := .noDocumentStart, at_ := p.start }
  else return some r

/-- The first document of a text. A text without any is a document without events. -/
def ofLexemes (lexemes : Lexemes) : Document :=
  match opening lexemes with
  | .error f => { failure := some (.malformed f) }
  | .ok none => {}
  | .ok (some r) => readEvents (4 * lexemes.pieces.length + 8) {} r

def ofString (text : String) : Document := ofLexemes (Lexemes.ofChars text.toList)

end Document

end ChatToken.Yaml
