import ChatToken.Message.Basic

/-! # Reading a line

A line is read from the left: line ends are dropped from its tail and spaces from its head, a word
that starts with `@` is skipped, a word that starts with `:` is the source, the next word is the
command, and the words after it are the parameters. A parameter that starts with `:` takes all of
the remaining text. A line without a command is no message.
-/
namespace ChatToken.Message

def isLineEnd (c : Char) : Bool := c == '\r' || c == '\n'

def dropLineEnd (line : List Char) : List Char :=
  (line.reverse.dropWhile isLineEnd).reverse

def skipSpaces (cs : List Char) : List Char := cs.dropWhile (· == ' ')

def word (cs : List Char) : List Char := cs.takeWhile (· != ' ')

def afterWord (cs : List Char) : List Char := cs.dropWhile (· != ' ')

def skipTags (cs : List Char) : Option (List Char) :=
  match cs with
  | '@' :: tags =>
    match afterWord tags with
    | [] => none
    | rest => some (skipSpaces rest)
  | _ => some cs

def takeSource (cs : List Char) : Option (Option (List Char) × List Char) :=
  match cs with
  | ':' :: named =>
    match afterWord named with
    | [] => none
    | rest => some (some (word named), skipSpaces rest)
  | _ => some (none, cs)

/-- The parameters in the text behind a command. `read` holds the characters of the word that is
being read, the last one first. -/
def readParams (read : List Char) : List Char → List (List Char)
  | [] => if read.isEmpty then [] else [read.reverse]
  | c :: rest =>
    if c == ' ' then
      if read.isEmpty then readParams [] rest else read.reverse :: readParams [] rest
    else if c == ':' && read.isEmpty then [rest]
    else readParams (c :: read) rest

def ofChars? (line : List Char) : Option Message := do
  let rest ← skipTags (skipSpaces (dropLineEnd line))
  let (source, rest) ← takeSource rest
  if (word rest).isEmpty then none
  else
    some {
      source := source.map String.ofList
      command := String.ofList (upper (word rest))
      params := (readParams [] (afterWord rest)).map String.ofList }

def parse? (line : String) : Option Message := ofChars? line.toList

end ChatToken.Message
