import ChatToken.Yaml.Lexing

/-! # Events

The nodes of a document in the order of the text: scalars and aliases, and the start and the end of
each sequence and mapping. A stack says what is expected next: what stands on top is replaced by
what the next lexeme leaves to be expected.
-/
namespace ChatToken.Yaml

structure Properties where
  anchor : Option (List Char) := none
  tag : Option (List Char) := none
  deriving DecidableEq, Repr

/-- An event of a document in which aliases are told apart by values of `ρ`. -/
inductive Event (ρ : Type) where
  | reference (target : ρ)
  | scalar (props : Properties) (text : List Char) (style : Style)
  | sequenceStart (props : Properties)
  | sequenceEnd
  | mappingStart (props : Properties)
  | mappingEnd
  deriving DecidableEq, Repr

/-- Which nodes may stand somewhere: in brackets no block collections may, and the entries of a
sequence may stand at the column of the key before it. -/
inductive Place where
  | block | blockValue | flow
  deriving DecidableEq, Repr

inductive Expected where
  | node (place : Place)
  | documentContent
  | blockEntry (opened : Mark)
  | indentlessEntry
  | blockKey (opened : Mark)
  | blockValue
  | flowEntry (first : Bool) (opened : Mark)
  /-- The key, the value and the end of a mapping of one pair inside brackets. -/
  | pairKey | pairValue | pairEnd
  | flowKey (first : Bool) (opened : Mark)
  | flowValue
  /-- The value of a key in braces that is not followed by a colon. -/
  | noValue
  deriving DecidableEq, Repr

structure Reading where
  lexemes : Lexemes
  handles : List (List Char × List Char)
  stack : List Expected

namespace Reading

def peek (r : Reading) : Except Fault Piece :=
  match r.lexemes.pieces with
  | p :: _ => .ok p
  | [] => r.lexemes.ending.map fun m => ⟨.streamEnd, m, m⟩

def skip (r : Reading) : Reading :=
  { r with lexemes := { r.lexemes with pieces := r.lexemes.pieces.drop 1 } }

def expect (r : Reading) (e : Expected) : Reading := { r with stack := e :: r.stack }

abbrev Step := Except Fault ((Mark × Event (List Char)) × Reading)

def emit (m : Mark) (e : Event (List Char)) (r : Reading) : Step := .ok ((m, e), r)

def empty (m : Mark) (r : Reading) : Step := emit m (.scalar {} [] .plain) r

def unexpected {α : Type} (problem : Problem) (during : Activity) (start : Mark) (p : Piece) :
    Except Fault α :=
  .error { problem, at_ := p.start, during := some (during, start) }

def readAnchor (r : Reading) : Except Fault (Option (List Char) × Reading) := do
  match (← r.peek).lexeme with
  | .anchor name => return (some name, r.skip)
  | _ => return (none, r)

/-- A tag in full; a handle stands for what its directive says. -/
def readTag (start : Mark) (r : Reading) : Except Fault (Option (List Char) × Reading) := do
  let p ← r.peek
  match p.lexeme with
  | .tag handle suffix =>
    -- the text is checked behind the tag before its handle is looked up
    let _ ← r.skip.peek
    if handle.isEmpty then return (some suffix, r.skip)
    else
      match r.handles.find? (·.1 = handle) with
      | some (_, stem) => return (some (stem ++ suffix), r.skip)
      | none => unexpected .unknownHandle .node start p
  | _ => return (none, r)

def readProperties (r : Reading) : Except Fault (Properties × Reading) := do
  let start := (← r.peek).start
  let (before, r) ← r.readAnchor
  let (tag, r) ← r.readTag start
  let (behind, r) ← if before.isNone && tag.isSome then r.readAnchor else .ok (none, r)
  return ({ anchor := before.or behind, tag }, r)

/-- Reads the start of a node. The tag that is a single exclamation mark says nothing about a
scalar. -/
def readNode (place : Place) (r : Reading) : Step := do
  let first ← r.peek
  match first.lexeme with
  | .reference name => emit first.start (.reference name) r.skip
  | _ =>
    let start := first.start
    let (props, r) ← r.readProperties
    let p ← r.peek
    match p.lexeme with
    | .scalar text style =>
      let props := if props.tag = some ['!'] then { props with tag := none } else props
      emit start (.scalar props text style) r.skip
    | .flowSequenceStart =>
      emit start (.sequenceStart props) (r.skip.expect (.flowEntry true p.start))
    | .flowMappingStart =>
      emit start (.mappingStart props) (r.skip.expect (.flowKey true p.start))
    | lexeme =>
      if place = .blockValue && lexeme = .blockEntry then
        emit start (.sequenceStart props) (r.expect .indentlessEntry)
      else if place ≠ .flow && lexeme = .blockSequenceStart then
        emit start (.sequenceStart props) (r.skip.expect (.blockEntry p.start))
      else if place ≠ .flow && lexeme = .blockMappingStart then
        emit start (.mappingStart props) (r.skip.expect (.blockKey p.start))
      else if props.anchor.isSome || props.tag.isSome then emit start (.scalar props [] .plain) r
      else unexpected .noContent (if place = .flow then .flowNode else .blockNode) start p

/-- A node, unless one of `stops` stands here, which leaves it empty at `m`. -/
def nodeUnless (place : Place) (stops : List Lexeme) (m : Mark) (r : Reading) : Step := do
  if stops.contains (← r.peek).lexeme then empty m r else readNode place r

def readBlockEntry (opened : Mark) (r : Reading) : Step := do
  let p ← r.peek
  match p.lexeme with
  | .blockEntry =>
    nodeUnless .block [.blockEntry, .blockEnd] p.stop (r.skip.expect (.blockEntry opened))
  | .blockEnd => emit p.start .sequenceEnd r.skip
  | _ => unexpected .noDash .blockSequence opened p

def readIndentlessEntry (r : Reading) : Step := do
  let p ← r.peek
  match p.lexeme with
  | .blockEntry =>
    nodeUnless .block [.blockEntry, .key, .value, .blockEnd] p.stop (r.skip.expect .indentlessEntry)
  | _ => emit p.start .sequenceEnd r

def readBlockKey (opened : Mark) (r : Reading) : Step := do
  let p ← r.peek
  match p.lexeme with
  | .key =>
    nodeUnless .blockValue [.key, .value, .blockEnd] p.stop
      ((r.skip.expect (.blockKey opened)).expect .blockValue)
  | .blockEnd => emit p.start .mappingEnd r.skip
  | _ => unexpected .noKey .blockMapping opened p

def readBlockValue (r : Reading) : Step := do
  let p ← r.peek
  match p.lexeme with
  | .value => nodeUnless .blockValue [.key, .value, .blockEnd] p.stop r.skip
  | _ => empty p.start r

def readComma (first : Bool) (problem : Problem) (during : Activity) (opened : Mark)
    (r : Reading) : Except Fault Reading := do
  let p ← r.peek
  if first then return r
  else if p.lexeme = .flowEntry then return r.skip
  else unexpected problem during opened p

def readFlowEntry (first : Bool) (opened : Mark) (r : Reading) : Step := do
  let p ← r.peek
  if p.lexeme = .flowSequenceEnd then emit p.start .sequenceEnd r.skip
  else
    let r ← readComma first .noBracket .flowSequence opened r
    let p ← r.peek
    let more := r.expect (.flowEntry false opened)
    match p.lexeme with
    | .key => emit p.start (.mappingStart {}) (more.skip.expect .pairKey)
    | .flowSequenceEnd => emit p.start .sequenceEnd r.skip
    | _ => readNode .flow more

/-- The key of a single pair. Where it is missing, the lexeme that stands in its place is passed. -/
def readPairKey (r : Reading) : Step := do
  let p ← r.peek
  let more := r.expect .pairValue
  if [Lexeme.value, .flowEntry, .flowSequenceEnd].contains p.lexeme then empty p.stop more.skip
  else readNode .flow more

def readPairValue (r : Reading) : Step := do
  let p ← r.peek
  let more := r.expect .pairEnd
  match p.lexeme with
  | .value =>
    nodeUnless .flow [.flowEntry, .flowSequenceEnd] (← r.skip.peek).start more.skip
  | _ => empty p.start more

def readFlowKey (first : Bool) (opened : Mark) (r : Reading) : Step := do
  let p ← r.peek
  if p.lexeme = .flowMappingEnd then emit p.start .mappingEnd r.skip
  else
    let r ← readComma first .noBrace .flowMapping opened r
    let p ← r.peek
    let more := r.expect (.flowKey false opened)
    match p.lexeme with
    | .key =>
      nodeUnless .flow [.value, .flowEntry, .flowMappingEnd] (← r.skip.peek).start
        (more.skip.expect .flowValue)
    | .flowMappingEnd => emit p.start .mappingEnd r.skip
    | _ => readNode .flow (more.expect .noValue)

def readFlowValue (r : Reading) : Step := do
  let p ← r.peek
  match p.lexeme with
  | .value => nodeUnless .flow [.flowEntry, .flowMappingEnd] (← r.skip.peek).start r.skip
  | _ => empty p.start r

/-- The content of a document that starts with a marker may be empty. -/
def readContent (r : Reading) : Step := do
  let p ← r.peek
  match p.lexeme with
  | .version _ _ | .handle _ _ | .documentStart | .documentEnd | .streamEnd => empty p.start r
  | _ => readNode .block r

def read (e : Expected) (r : Reading) : Step :=
  match e with
  | .node place => readNode place r
  | .documentContent => readContent r
  | .blockEntry opened => readBlockEntry opened r
  | .indentlessEntry => readIndentlessEntry r
  | .blockKey opened => readBlockKey opened r
  | .blockValue => readBlockValue r
  | .flowEntry first opened => readFlowEntry first opened r
  | .pairKey => readPairKey r
  | .pairValue => readPairValue r
  | .pairEnd => do emit (← r.peek).start .mappingEnd r
  | .flowKey first opened => readFlowKey first opened r
  | .flowValue => readFlowValue r
  | .noValue => do empty (← r.peek).start r

end Reading

end ChatToken.Yaml
