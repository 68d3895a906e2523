import ChatToken.Yaml.Document
import ChatToken.Yaml.Kind

/-! # Reading values out of documents

A reader takes the node that is next, follows it if it is an alias, and makes a value of it or
complains. A complaint that does not say yet where it arose gets the place and the path of the
innermost node around it that is read as a whole.
-/
namespace ChatToken.Yaml

inductive Complaint where
  | wrongKind (found : Kind) (expected : String)
  | wrongValue (text : List Char) (expected : String)
  | unknownVariant (name : List Char) (known : List String)
  | duplicateField (name : String)
  | custom (text : String)
  deriving DecidableEq, Repr

def Complaint.text : Complaint → String
  | wrongKind found expected => "invalid type: " ++ found.text ++ ", expected " ++ expected
  | wrongValue text expected =>
    "invalid value: string " ++ String.ofList (Text.quoteChars text) ++ ", expected " ++ expected
  | unknownVariant name known =>
    "unknown variant `" ++ String.ofList name ++ "`, expected one of " ++
      ", ".intercalate (known.map fun k => "`" ++ k ++ "`")
  | duplicateField name => "duplicate field `" ++ name ++ "`"
  | custom text => text

/-- The keys that lead to a node. A key that is not written as a scalar counts as `?`. -/
abbrev Path := List (List Char)

def Path.text (p : Path) : String := ".".intercalate (p.map String.ofList)

inductive DecodeError where
  | failure (f : Failure)
  | complaint (c : Complaint) (place : Option (Mark × Path))
  | moreDocuments
  | noMoreEvents
  deriving DecidableEq, Repr

namespace DecodeError

def text : DecodeError → String
  | failure f => f.text
  | complaint c none => c.text
  | complaint c (some (m, path)) =>
    (if path.isEmpty then "" else path.text ++ ": ") ++ c.text ++
      if m.isOrigin then "" else " at " ++ m.text
  | moreDocuments => "deserializing from YAML containing more than one document is not supported"
  | noMoreEvents => "EOF while parsing a value"

/-- Says where a complaint arose, if it does not say so itself. -/
def locate (m : Mark) (path : Path) : DecodeError → DecodeError
  | complaint c none => complaint c (some (m, path))
  | e => e

end DecodeError

structure Site where
  document : Document
  path : Path := []

/-- Takes a node off the events and makes a value of it. -/
abbrev Reader (α : Type) := Site → Events → Except DecodeError (α × Events)

structure Entered where
  mark : Mark
  event : Event Nat
  inner : Events
  /-- The events behind the alias that led to the node, if one did. -/
  after : Option Events

namespace Entered

/-- The events behind the node, of which `rest` are left where it stands. -/
def leave (e : Entered) (rest : Events) : Events := e.after.getD rest

end Entered

namespace Site

def missing {α : Type} (s : Site) : Except DecodeError α :=
  match s.document.failure with
  | some f => .error (.failure f)
  | none => .error .noMoreEvents

def at_ (s : Site) (key : List Char) : Site := { s with path := s.path ++ [key] }

def first (s : Site) (es : Events) : Except DecodeError ((Mark × Event Nat) × Events) :=
  match es with
  | e :: rest => .ok (e, rest)
  | [] => s.missing

def enter (s : Site) (es : Events) : Except DecodeError Entered := do
  let ((mark, event), inner) ← s.first es
  match event with
  | .reference number =>
    let ((mark, event), behind) ← s.first (s.document.target number)
    return { mark, event, inner := behind, after := some inner }
  | _ => return { mark, event, inner, after := none }

def whole {α : Type} (s : Site) (es : Events)
    (read : Entered → Except DecodeError (α × Events)) : Except DecodeError (α × Events) := do
  let e ← s.enter es
  match read e with
  | .ok (a, rest) => .ok (a, e.leave rest)
  | .error err => .error (err.locate e.mark s.path)

end Site

def complain {α : Type} (c : Complaint) : Except DecodeError α := .error (.complaint c none)

def wrongKind {α : Type} (s : Site) (event : Event Nat) (expected : String) :
    Except DecodeError α :=
  match event with
  | .scalar props text style =>
    match Kind.ofScalar props.tag text style with
    | .ok kind => complain (.wrongKind kind expected)
    | .error wanted => complain (.wrongValue text wanted)
  | .sequenceStart _ => complain (.wrongKind .sequence expected)
  | .mappingStart _ => complain (.wrongKind .mapping expected)
  | _ => s.missing

namespace Reader

def text {α : Type} (expected : String) (use : List Char → Except Complaint α) : Reader α :=
  fun s es => s.whole es fun e =>
    match e.event with
    | .scalar _ text _ =>
      match use text with
      | .ok a => .ok (a, e.inner)
      | .error c => complain c
    | other => wrongKind s other expected

def string : Reader String := text "a string" fun cs => .ok (String.ofList cs)

/-- A value made of text. A complaint about the value is one about the node around it. -/
def parsed {α : Type} (parse : String → Except Complaint α) : Reader α := fun s es => do
  let (t, rest) ← string s es
  match parse t with
  | .ok a => return (a, rest)
  | .error c => complain c

def boolean : Reader Bool := fun s es => s.whole es fun e =>
  match e.event with
  | .scalar props text style =>
    let fits := style = .plain || style = .literal && props.tag = some booleanTag
    match if fits then boolean? text else none with
    | some b => .ok (b, e.inner)
    | none => wrongKind s e.event "a boolean"
  | other => wrongKind s other "a boolean"

def option {α : Type} (some_ : Reader α) : Reader (Option α) := fun s es => do
  let e ← s.enter es
  let present ←
    match e.event with
    | .scalar props text style =>
      if style ≠ .plain then .ok true
      else
        match props.tag with
        | none => .ok (!text.isEmpty && !isNull text)
        | some tag =>
          if tag ≠ nullTag then .ok true
          else if isNull text then .ok false
          else complain (.wrongValue text "null")
    | _ => .ok true
  if present then
    let (a, rest) ← some_ s es
    return (some a, rest)
  else return (none, e.leave e.inner)

def skip (s : Site) : Nat → Events → Except DecodeError Events
  | _, [] => s.missing
  | depth, (_, e) :: rest =>
    match e with
    | .sequenceStart _ => skip s (depth + 1) rest
    | .mappingStart _ => skip s (depth + 1) rest
    | .sequenceEnd => if depth ≤ 1 then .ok rest else skip s (depth - 1) rest
    | .mappingEnd => if depth ≤ 1 then .ok rest else skip s (depth - 1) rest
    | .scalar _ _ _ => if depth = 0 then .ok rest else skip s depth rest
    | .reference _ => if depth = 0 then .ok rest else skip s depth rest

def keyName : Events → List Char
  | (_, .scalar _ text _) :: _ => text
  | _ => ['?']

def entries {α σ : Type} (key : Reader α) (value : σ → α → Reader σ) (s : Site) :
    Nat → σ → Events → Except DecodeError (σ × Events)
  | 0, _, _ => s.missing
  | room + 1, state, es => do
    let ((_, event), rest) ← s.first es
    match event with
    | .mappingEnd => return (state, rest)
    | _ =>
      let (k, rest) ← key s es
      let (state, rest) ← value state k (s.at_ (keyName es)) rest
      entries key value s room state rest

/-- A mapping. A plain scalar without text is one without entries. -/
def mapping {α σ : Type} (expected : String) (key : Reader α) (value : σ → α → Reader σ)
    (start : σ) : Reader σ := fun s es => s.whole es fun e =>
  match e.event with
  | .mappingStart _ => entries key value s (e.inner.length + 1) start e.inner
  | .scalar _ [] .plain => .ok (start, e.inner)
  | other => wrongKind s other expected

structure Field (ρ : Type) where
  name : String
  read : ρ → Reader ρ

def Field.of {ρ α : Type} (name : String) (read : Reader α) (set : ρ → α → ρ) : Field ρ :=
  { name, read := fun r s es => do
      let (a, rest) ← read s es
      return (set r a, rest) }

/-- A mapping with known keys, each of them at most once. Other keys are ignored. -/
def record {ρ : Type} (expected : String) (fields : List (Field ρ)) (start : ρ) : Reader ρ :=
  let key : Reader String := text "field identifier" fun cs => .ok (String.ofList cs)
  let value (state : List String × ρ) (name : String) : Reader (List String × ρ) := fun s es =>
    match fields.find? (·.name = name) with
    | none => do return (state, ← skip s 0 es)
    | some f =>
      if state.1.contains name then complain (.duplicateField name)
      else do
        let (r, rest) ← f.read state.2 s es
        return ((name :: state.1, r), rest)
  fun s es => do
    let ((_, r), rest) ← mapping expected key value ([], start) s es
    return (r, rest)

/-- The entries of a mapping from text to text. Of equal keys the last one counts. -/
def table : Reader (Table String String) :=
  mapping "a map" string (fun t k s es => do
    let (v, rest) ← string s es
    return (t.insert k v, rest)) {}

def tagName : Option (List Char) → Option (List Char)
  | some ('!' :: name) => some name
  | _ => none

/-- One of the names in `known`, written as a scalar or as a tag of an empty one. -/
def variant {α : Type} (known : List (String × α)) : Reader α := fun s es => do
  let choose (name : List Char) : Except Complaint α :=
    match known.find? (·.1 = String.ofList name) with
    | some (_, a) => .ok a
    | none => .error (.unknownVariant name (known.map (·.1)))
  let e ← s.enter es
  let tagged (tag : Option (List Char)) (kind : Kind) : Except DecodeError (α × Events) :=
    match tagName tag with
    | none =>
      s.whole es fun _ => complain (.wrongKind kind "a YAML tag starting with '!'")
    | some name =>
      match choose name with
      | .ok _ => s.whole es fun _ => complain (.wrongKind kind "unit")
      | .error c => complain c
  match e.event with
  | .scalar props content style =>
    match tagName props.tag with
    | none => text "variant identifier" choose s es
    | some name =>
      match choose name with
      | .error c => complain c
      | .ok a =>
        if style = .plain && (content.isEmpty || isNull content) then
          return (a, e.leave e.inner)
        else s.whole es fun e => wrongKind s e.event "unit"
  | .sequenceStart props => tagged props.tag .sequence
  | .mappingStart props => tagged props.tag .mapping
  | _ => s.missing

end Reader

/-- Reads the only document of a text. A text without a document is read as `none_`. -/
def decode {α : Type} (reader : Reader α) (none_ : α) (text : String) : Except DecodeError α :=
  let document := Document.ofString text
  let value :=
    if document.events.isEmpty && document.failure.isNone then .ok none_
    else (reader { document } document.events).map (·.1)
  match value, document.failure with
  | .error e, _ => .error e
  | .ok _, some f => .error (.failure f)
  | .ok a, none => if document.followed then .error .moreDocuments else .ok a

end ChatToken.Yaml
