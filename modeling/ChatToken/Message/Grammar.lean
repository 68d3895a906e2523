import ChatToken.Message.Basic

/-! # The grammar of lines

Which message a line spells, said without reading it from the left: a line is cut into pieces, and
the pieces between the spaces are the parts of the message. Line ends at the tail, spaces at the
head and one word of tags do not matter.
-/
namespace ChatToken.Message

def Blank (cs : List Char) : Prop := ∀ c ∈ cs, c = ' '

def Gap (cs : List Char) : Prop := cs ≠ [] ∧ Blank cs

def Word (cs : List Char) : Prop := cs ≠ [] ∧ ' ' ∉ cs

/-- What is left of a line without the line ends at its tail and then without the spaces at its
head. -/
inductive Trimmed : List Char → List Char → Prop where
  | mk {blanks body ends : List Char} (hblanks : Blank blanks)
    (hends : ∀ c ∈ ends, c = '\r' ∨ c = '\n') (hhead : body.head? ≠ some ' ')
    (hlast : ∀ c ∈ (blanks ++ body).getLast?, c ≠ '\r' ∧ c ≠ '\n') :
    Trimmed (blanks ++ body ++ ends) body

inductive Untagged : List Char → List Char → Prop where
  | plain {text : List Char} (hhead : text.head? ≠ some '@') : Untagged text text
  | tagged {tags gap rest : List Char} (htags : ' ' ∉ tags) (hgap : Gap gap)
    (hrest : rest.head? ≠ some ' ') : Untagged ('@' :: tags ++ gap ++ rest) rest

inductive Sourced : List Char → Option (List Char) → List Char → Prop where
  | plain {text : List Char} (hhead : text.head? ≠ some ':') : Sourced text none text
  | named {source gap rest : List Char} (hsource : ' ' ∉ source) (hgap : Gap gap)
    (hrest : rest.head? ≠ some ' ') : Sourced (':' :: source ++ gap ++ rest) (some source) rest

/-- The parameters in the text behind a command. Every one of them has spaces before it. The first
one that starts with `:` takes all of the remaining text. -/
inductive Params : List Char → List (List Char) → Prop where
  | done {blanks : List Char} (hblanks : Blank blanks) : Params blanks []
  | trailing {gap text : List Char} (hgap : Gap gap) : Params (gap ++ ':' :: text) [text]
  | word {gap param rest : List Char} {params : List (List Char)} (hgap : Gap gap)
    (hparam : Word param) (hhead : param.head? ≠ some ':') (hrest : Params rest params) :
    Params (gap ++ param ++ rest) (param :: params)

inductive Spells : List Char → Message → Prop where
  | mk {line body text command rest : List Char} {source : Option (List Char)}
    {params : List (List Char)} (htrim : Trimmed line body) (htags : Untagged body text)
    (hsource : Sourced text source (command ++ rest)) (hcommand : Word command)
    (hparams : Params rest params) :
    Spells line
      { source := source.map String.ofList
        command := String.ofList (upper command)
        params := params.map String.ofList }

end ChatToken.Message
