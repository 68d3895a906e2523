import ChatToken.Message.Basic

/-! # Writing a line

The text of a message is its source behind a `:`, its command and its parameters, with one space
between them. Only the last parameter may be empty, hold spaces or start with `:`, and is then
written behind a `:`. A line feed in the text is written like any other character, so whoever reads
lines takes what is behind it for a line of its own.
-/
namespace ChatToken.Message

def needsColon (param : List Char) : Bool :=
  param.isEmpty || param.contains ' ' || param.head? == some ':'

def renderParams : List (List Char) → List Char
  | [] => []
  | [last] => if needsColon last then ' ' :: ':' :: last else ' ' :: last
  | param :: rest => ' ' :: param ++ renderParams rest

def renderSource : Option (List Char) → List Char
  | none => []
  | some source => ':' :: source ++ [' ']

def render (m : Message) : List Char :=
  renderSource (m.source.map String.toList) ++ m.command.toList ++
    renderParams (m.params.map String.toList)

def text (m : Message) : String := String.ofList m.render

/-- The lines that are read where the text and a line end behind it were written. -/
def lines (m : Message) : List String := (m.render.splitOn '\n').map String.ofList

end ChatToken.Message
