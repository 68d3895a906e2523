import ChatToken.Message.Basic
import ChatToken.Token.Error

/-! # Replies to a token request

Which messages answer the request `EXTJWT *`, and how. `EXTJWT * …` carries a piece of the token in
its last parameter; with exactly four parameters more pieces follow. `421 <nick> EXTJWT …` says that
the command is unknown, and `FAIL EXTJWT <code> … :<description>` that the request was rejected.
Every other message is skipped.
-/
namespace ChatToken

inductive Verdict where
  | skip
  /-- A piece of the response, with more to follow. -/
  | fragment (piece : String)
  /-- The last piece of the response. -/
  | complete (piece : String)
  | reject (error : TokenError)
  deriving DecidableEq, Repr

namespace Reply

def extjwt : String := "EXTJWT"

def unknownCommand : String := "421"

def fail : String := "FAIL"

/-- The target of a request: the connection's own server. -/
def anyTarget : String := "*"

/-- The number of parameters of a response that is to be continued. -/
def continuedParams : Nat := 4

def namesExtjwt (m : Message) (i : Nat) : Bool :=
  match m.param? i with
  | some p => Message.sameLetters p extjwt
  | none => false

def classify (m : Message) : Verdict :=
  if m.command = extjwt then
    if m.param? 0 = some anyTarget then
      if m.params.length = continuedParams then .fragment m.lastParam else .complete m.lastParam
    else .skip
  else if m.command = unknownCommand then
    if namesExtjwt m 1 then .reject (.unsupported extjwt) else .skip
  else if m.command = fail then
    if namesExtjwt m 0 then
      .reject (.protocol ((m.param? 1).getD "UNKNOWN" ++ ": " ++ m.lastParam))
    else .skip
  else .skip

end Reply

end ChatToken
