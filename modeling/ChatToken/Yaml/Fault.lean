import ChatToken.Yaml.Cursor

/-! # Faults

What is wrong with a text that is not well formed, where it was noticed, and what was being read
there.
-/
namespace ChatToken.Yaml

inductive Activity where
  | token | simpleKey | directive | tagDirective | versionDirective | anchor | reference | tag
  | block | quoted | escape | plain
  | node | blockNode | flowNode | blockSequence | blockMapping | flowSequence | flowMapping
  deriving DecidableEq, Repr

def Activity.text : Activity → String
  | token => "while scanning for the next token"
  | simpleKey => "while scanning a simple key"
  | directive => "while scanning a directive"
  | tagDirective => "while scanning a %TAG directive"
  | versionDirective => "while scanning a %YAML directive"
  | anchor => "while scanning an anchor"
  | reference => "while scanning an alias"
  | tag => "while scanning a tag"
  | block => "while scanning a block scalar"
  | quoted => "while scanning a quoted scalar"
  | escape => "while parsing a quoted scalar"
  | plain => "while scanning a plain scalar"
  | node => "while parsing a node"
  | blockNode => "while parsing a block node"
  | flowNode => "while parsing a flow node"
  | blockSequence => "while parsing a block collection"
  | blockMapping => "while parsing a block mapping"
  | flowSequence => "while parsing a flow sequence"
  | flowMapping => "while parsing a flow mapping"

inductive Problem where
  | controlCharacter
  | noToken | noColon | entryHere | keyHere | valueHere
  | unknownDirective | noDirectiveName | oddDirectiveName | afterDirective
  | noVersion | noVersionDot | longVersion
  | noBlankAfterHandle | noBlankAfterUri | noHandle | noUri | noClosingAngle
  | noUriOctet | oddLeadingOctet | oddTrailingOctet
  | oddName
  | zeroIndent | afterHeader | tabForIndent
  | documentMarker | unclosed | unknownEscape | noHexDigit | badCodePoint
  | colonInFlow | tabInIndent
  | noDocumentStart | twoVersions | otherVersion | twoHandles | unknownHandle
  | noContent | noDash | noKey | noBracket | noBrace
  deriving DecidableEq, Repr

def Problem.text : Problem → String
  | controlCharacter => "control characters are not allowed"
  | noToken => "found character that cannot start any token"
  | noColon => "could not find expected ':'"
  | entryHere => "block sequence entries are not allowed in this context"
  | keyHere => "mapping keys are not allowed in this context"
  | valueHere => "mapping values are not allowed in this context"
  | unknownDirective => "found unknown directive name"
  | noDirectiveName => "could not find expected directive name"
  | oddDirectiveName => "found unexpected non-alphabetical character"
  | afterDirective => "did not find expected comment or line break"
  | noVersion => "did not find expected version number"
  | noVersionDot => "did not find expected digit or '.' character"
  | longVersion => "found extremely long version number"
  | noBlankAfterHandle => "did not find expected whitespace"
  | noBlankAfterUri => "did not find expected whitespace or line break"
  | noHandle => "did not find expected '!'"
  | noUri => "did not find expected tag URI"
  | noClosingAngle => "did not find the expected '>'"
  | noUriOctet => "did not find URI escaped octet"
  | oddLeadingOctet => "found an incorrect leading UTF-8 octet"
  | oddTrailingOctet => "found an incorrect trailing UTF-8 octet"
  | oddName => "did not find expected alphabetic or numeric character"
  | zeroIndent => "found an indentation indicator equal to 0"
  | afterHeader => "did not find expected comment or line break"
  | tabForIndent => "found a tab character where an indentation space is expected"
  | documentMarker => "found unexpected document indicator"
  | unclosed => "found unexpected end of stream"
  | unknownEscape => "found unknown escape character"
  | noHexDigit => "did not find expected hexdecimal number"
  | badCodePoint => "found invalid Unicode character escape code"
  | colonInFlow => "found unexpected ':'"
  | tabInIndent => "found a tab character that violates indentation"
  | noDocumentStart => "did not find expected <document start>"
  | twoVersions => "found duplicate %YAML directive"
  | otherVersion => "found incompatible YAML document"
  | twoHandles => "found duplicate %TAG directive"
  | unknownHandle => "found undefined tag handle"
  | noContent => "did not find expected node content"
  | noDash => "did not find expected '-' indicator"
  | noKey => "did not find expected key"
  | noBracket => "did not find expected ',' or ']'"
  | noBrace => "did not find expected ',' or '\x7d'"

structure Fault where
  problem : Problem
  at_ : Mark
  during : Option (Activity × Mark) := none
  /-- The number of bytes before a character that may not stand in a text. -/
  offset : Nat := 0
  deriving DecidableEq, Repr

def Fault.text (f : Fault) : String :=
  let place :=
    if !f.at_.isOrigin then " at " ++ f.at_.text
    else if f.offset ≠ 0 then " at position " ++ toString f.offset
    else ""
  let activity :=
    match f.during with
    | none => ""
    | some (a, m) =>
      let apart := m.line != f.at_.line || m.column != f.at_.column
      ", " ++ a.text ++ if !m.isOrigin && apart then " at " ++ m.text else ""
  f.problem.text ++ place ++ activity

def fault {α : Type} (problem : Problem) (during : Activity) (start : Mark) (c : Cursor) :
    Except Fault α :=
  .error { problem, at_ := c.mark, during := some (during, start) }

end ChatToken.Yaml
