import ChatToken.Network.Lookups
import ChatToken.Upload

/-! # Batches of uploads at work

A batch takes its uploads on one after the other, and then looks at the loads that its uploads wait
for until all of them have ended. Anything can happen to the network between two uploads, and while
the batch waits.
-/
namespace ChatToken

structure Attaching where
  net : Network
  batch : UploadBatch
  taken : Nat := 0
  isOver : Bool := false
  deriving Repr

namespace Attaching

open Network (Event)

inductive Step where
  | event (e : Event)
  | enlist
  /-- The batch looks at the loads that it waits for, once it has taken all uploads on. -/
  | look
  deriving DecidableEq, Repr

def of (n : Network) (uploads : List Upload) : Attaching := { net := n, batch := { uploads } }

variable (m : Nat) (a : Attaching)

def enlist : Attaching :=
  if a.taken < a.batch.uploads.length then
    let (net, batch) := UploadBatch.enlist m (a.net, a.batch) a.taken
    { a with net, batch, taken := a.taken + 1 }
  else a

def look : Attaching :=
  if a.taken < a.batch.uploads.length then a
  else
    let (net, waiting) := UploadBatch.observe a.net a.batch.waiting
    let batch := { a.batch with waiting }
    if batch.isResolved then
      let (net, batch) := UploadBatch.concludeAll net batch
      { a with net, batch, isOver := true }
    else { a with net, batch }

def step (s : Step) : Attaching :=
  if a.isOver then a
  else
    match s with
    | .event e => { a with net := a.net.step e }
    | .enlist => a.enlist m
    | .look => a.look

def after (steps : List Step) : Attaching := steps.foldl (step m) a

/-! ## What can be told from a run -/

/-- The upload that is taken on next. -/
def next? : Option Upload := a.batch.uploads[a.taken]?

def looksUp (u : Upload) : Bool :=
  UploadBatch.advertisesTokens (a.net.peer u.peer) && !a.batch.isWaitedFor u.peer

def events (s : Step) : List Event :=
  if a.isOver then []
  else
    match s with
    | .event e => [e]
    | .enlist => (a.next?.filter a.looksUp).toList.map fun u => .lookup m u.peer
    | .look =>
      if a.taken < a.batch.uploads.length then []
      else (a.batch.waiting.filter (·.outcome.isNone)).map fun w => .observe w.ref

def course (a : Attaching) : List Step → List Event
  | [] => []
  | s :: steps => a.events m s ++ (a.step m s).course steps

/-- The loads that have been started since the network was as in `n`. -/
def startedSince (n later : Network) : List LoadRef :=
  (List.range later.managers.length).flatMap fun k =>
    (List.range' (n.nextRef k).load ((later.nextRef k).load - (n.nextRef k).load)).map (.mk k)

/-- The loads that the batch itself starts in a step, each with the state in which it does so. -/
def startsIn (s : Step) : List (Attaching × LoadRef) :=
  match s with
  | .event _ => []
  | .enlist | .look => (startedSince a.net (a.step m s).net).map (a, ·)

def starts (a : Attaching) : List Step → List (Attaching × LoadRef)
  | [] => []
  | s :: steps => a.startsIn m s ++ (a.step m s).starts steps

def target? : Option Nat := a.next?.map (·.peer)

/-- The connections whose loads the batch waits for, with these loads. -/
def asked : List (Nat × LoadRef) := a.batch.waiting.map fun w => (w.peer, w.ref)

end Attaching

inductive UploadFate where
  | attached (token : String)
  | skipped
  | failed
  deriving DecidableEq, Repr

namespace UploadFate

def ofOutcome : Outcome → UploadFate
  | .ok (some t) => .attached t.value
  | .ok none => .skipped
  | .error _ => .failed

def isAttached : UploadFate → Bool
  | .attached _ => true
  | _ => false

def tally (fates : List UploadFate) : AttachSummary where
  attached := fates.countP isAttached
  skipped := fates.count .skipped
  failed := fates.count .failed

/-- The upload `u` has become `later`. Nothing but the entry of the token has changed, and that only
if it has got one. -/
def Leaves (f : UploadFate) (u later : Upload) : Prop :=
  match f with
  | attached token => later.peer = u.peer ∧ later.token? = some token ∧
      ∀ key, key ≠ Upload.tokenKey → later.metadata.get? key = u.metadata.get? key
  | _ => later = u

/-- An upload of `p` has got its fate at once, when it was taken on at some point of the events
`course`. -/
inductive Told (n : Network) (m p : Nat) (course : List Network.Event) : UploadFate → Prop where
  | unadvertised {es : List Network.Event} : es <+: course →
      UploadBatch.advertisesTokens ((n.after es).peer p) = false → Told n m p course .skipped
  | unsupported {es : List Network.Event} : es <+: course →
      UploadBatch.advertisesTokens ((n.after es).peer p) = true →
      ((n.after es).lookup m p).1 = .unsupported → Told n m p course .skipped
  | ready {es : List Network.Event} {t : Token} : es <+: course →
      UploadBatch.advertisesTokens ((n.after es).peer p) = true →
      ((n.after es).lookup m p).1 = .ready t → Told n m p course (.attached t.value)

end UploadFate

end ChatToken
