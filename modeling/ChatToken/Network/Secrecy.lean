import Mathlib.Data.List.Forall2
import ChatToken.Network.Direct
import ChatToken.Report.Log
import ChatToken.Report.Metric
import ChatToken.Upload

/-! # Runs that differ in token texts

Two runs take the same steps and differ only in the texts that responses to token requests carry:
where in one of them a text comes in, another one of the same size comes in the other. Managers,
callers and batches of uploads take part in a run, in any order. What can be told from it are the log
events of the token library, its metrics, and what the steps answer, where a token text counts only
by its size.
-/
namespace ChatToken

/-! ## Texts that are left out -/

/-- As much as can be told of a text from its size. -/
def Text.veil (s : String) : String := String.ofList (List.replicate s.utf8ByteSize '*')

def Token.veil (t : Token) : Token := { t with value := Text.veil t.value }

def Outcome.veil (o : Outcome) : Outcome := o.map (·.map Token.veil)

def TokenLookup.veil : TokenLookup → TokenLookup
  | ready t => ready t.veil
  | answer => answer

def Upload.veil (u : Upload) : Upload :=
  { u with metadata := u.metadata.adjust Upload.tokenKey Text.veil }

/-! ## Other texts -/

namespace Message

def carriesText (m : Message) : Bool :=
  m.command == Reply.extjwt && m.param? 0 == some Reply.anyTarget && decide (2 ≤ m.params.length)

def withLast (m : Message) (text : String) : Message :=
  { m with params := m.params.dropLast ++ [text] }

/-- The second message is the first one, or it carries another text of the same size. -/
def Reworded (m m' : Message) : Prop :=
  m' = m ∨ m.carriesText = true ∧
    ∃ text, text.utf8ByteSize = m.lastParam.utf8ByteSize ∧ m' = m.withLast text

def LineReworded (line line' : String) : Prop :=
  line' = line ∨ ∃ m m', parse? line = some m ∧ parse? line' = some m' ∧ m.Reworded m'

end Message

/-- Prepared answers that are the same but for the texts in their lines, to whatever request. -/
structure PreparedReplies.Reworded (r r' : PreparedReplies) : Prop where
  answered : r'.answered = r.answered
  lines : ∀ k, List.Forall₂ Message.LineReworded { r with answered := k }.next.1
    { r' with answered := k }.next.1

namespace Network

inductive Event.Reworded : Event → Event → Prop where
  | same (e : Event) : Reworded e e
  | deliver (p : Nat) {m m' : Message} : m.Reworded m' → Reworded (.deliver p m) (.deliver p m')
  | receive (p : Nat) {line line' : String} : Message.LineReworded line line' →
      Reworded (.receive p (.line line)) (.receive p (.line line'))
  | prepare (p : Nat) {r r' : PreparedReplies} : r.Reworded r' →
      Reworded (.prepare p (some r)) (.prepare p (some r'))

end Network

/-! ## Managers and uploads at work -/

/-- A network with the batches of uploads that were begun, and are over if there is nothing left of
them. -/
structure Uploading where
  net : Network
  batches : List (Option UploadBatch) := []

namespace Uploading

inductive Step where
  | act (a : Network.Act)
  | attach (manager : Nat) (uploads : List Upload)
  | look (batch : Nat)
  deriving DecidableEq, Repr

inductive Step.Reworded : Step → Step → Prop where
  | same (s : Step) : Reworded s s
  | event {e e' : Network.Event} : e.Reworded e' → Reworded (.act (.event e)) (.act (.event e'))

inductive Answer where
  | nothing
  | lookedUp (answer : TokenLookup)
  | checked (marked : Bool)
  | observed (outcome : Option Outcome)
  | exchanged (result : Option (Except TokenError String))
  | requested (result : Option (Except TokenError Token))
  | sent (sending : Sending)
  | attached (summary : AttachSummary) (uploads : List Upload)
  deriving Repr

def Answer.veil : Answer → Answer
  | lookedUp answer => lookedUp answer.veil
  | observed outcome => observed (outcome.map Outcome.veil)
  | exchanged result => exchanged (result.map (·.map Text.veil))
  | requested result => requested (result.map (·.map Token.veil))
  | attached summary uploads => attached summary (uploads.map Upload.veil)
  | answer => answer

def answerEvent (n : Network) : Network.Event → Answer
  | .lookup m p => .lookedUp (n.lookup m p).1
  | .isUnsupported m p => .checked (n.isUnsupported m p).1
  | .observe ref => .observed (n.observe ref).1
  | .look c => .exchanged (n.pollExchange (.caller c)).1
  | .send p command args => .sent (n.send p command args).1
  | _ => .nothing

def answerAct (n : Network) : Network.Act → Answer
  | .event e => answerEvent n e
  | .request c p service timeout =>
    if n.exchanges.contains (.caller c) then .nothing
    else .requested (n.startRequest c p service timeout).1
  | .lookRequest c => .requested (n.pollRequest (.caller c)).1

def lookBatch (n : Network) (b : UploadBatch) : Answer × Network × Option UploadBatch :=
  let (n, waiting) := UploadBatch.observe n b.waiting
  let b := { b with waiting }
  if b.isResolved then
    let (n, b) := UploadBatch.concludeAll n b
    (.attached b.summary b.uploads, n, none)
  else (.nothing, n, some b)

def step (u : Uploading) : Step → Answer × Uploading
  | .act a => (answerAct u.net a, { u with net := u.net.act a })
  | .attach m uploads =>
    let (net, b) := UploadBatch.enlistAll u.net m uploads
    (.nothing, { net, batches := u.batches ++ [some b] })
  | .look i =>
    match u.batches[i]? with
    | some (some b) =>
      let (answer, net, rest) := lookBatch u.net b
      (answer, { net, batches := u.batches.set i rest })
    | _ => (.nothing, u)

def start (peers : List Peer) (configs : List TokenConfig) : Uploading :=
  { net := Network.start peers configs }

def after (u : Uploading) (steps : List Step) : Uploading := steps.foldl (fun u s => (u.step s).2) u

def answers (u : Uploading) : List Step → List Answer
  | [] => []
  | s :: steps => (u.step s).1 :: (u.step s).2.answers steps

def ofLibrary (e : LogEvent) : Bool := "fileuploader_tokens::".toList.isPrefixOf e.target.toList

/-- Everything the token library has logged, at every level. -/
def log (u : Uploading) : List LogEvent :=
  (u.net.notices.filterMap (LogEvent.ofNotice (fun p => (u.net.peer p).shown) fun p =>
    (u.net.peer p).name)).filter ofLibrary

def metrics (u : Uploading) : List Metric := u.net.notices.flatMap Metric.ofNotice

end Uploading

end ChatToken
