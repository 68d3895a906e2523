import ChatToken.Yaml.Cursor

/-! # Lexemes

The units that a text is cut into. Where a block collection or a key starts is not written in the
text, it follows from the columns and from the colons, so the lexemes that open them stand at the
place of what they open.
-/
namespace ChatToken.Yaml

inductive Style where
  | plain | singleQuoted | doubleQuoted | literal | folded
  deriving DecidableEq, Repr, Inhabited

inductive Lexeme where
  | version (major minor : Nat)
  /-- `%TAG`: the handle stands for the stem. -/
  | handle (handle stem : List Char)
  | documentStart | documentEnd
  | blockSequenceStart | blockMappingStart | blockEnd
  | flowSequenceStart | flowSequenceEnd | flowMappingStart | flowMappingEnd
  | blockEntry | flowEntry | key | value
  | reference (name : List Char)
  | anchor (name : List Char)
  | tag (handle suffix : List Char)
  | scalar (text : List Char) (style : Style)
  | streamEnd
  deriving DecidableEq, Repr

structure Piece where
  lexeme : Lexeme
  start : Mark
  stop : Mark
  deriving DecidableEq, Repr

end ChatToken.Yaml
