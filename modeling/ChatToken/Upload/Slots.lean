import ChatToken.Upload.Run

/-! # Batches of uploads in three lists

A batch can be kept without a record for each connection that is asked: the loads stand in one list,
the places of the uploads that wait for them in another, and a table tells the place of a connection
in both. Whatever is read at a place may be missing, and then there is no result.
-/
namespace ChatToken

structure SlotBatch where
  uploads : List Upload
  summary : AttachSummary := {}
  /-- The place of each connection that is being asked. -/
  slots : Table Nat Nat := {}
  /-- The loads, each with what it has been seen to end with. -/
  requests : List (LoadRef × Option Outcome) := []
  /-- The places of the uploads that wait for each load. -/
  waiting : List (List Nat) := []
  deriving Repr

namespace SlotBatch

open UploadBatch (advertisesTokens skip)

def join? (b : SlotBatch) (slot index : Nat) : Option SlotBatch := do
  let indices ← b.waiting[slot]?
  some { b with waiting := b.waiting.set slot (indices ++ [index]) }

def enlist? (m : Nat) (s : Network × SlotBatch) (index : Nat) : Option (Network × SlotBatch) := do
  let (n, b) := s
  let u ← b.uploads[index]?
  if !advertisesTokens (n.peer u.peer) then some (n, { b with summary := skip b.summary 1 })
  else
    match b.slots.get? u.peer with
    | some slot => (b.join? slot index).map (n, ·)
    | none =>
      match n.lookup m u.peer with
      | (.ready t, n) =>
        some (n, { b with
          uploads := b.uploads.set index (u.attach t.value)
          summary := { b.summary with attached := b.summary.attached + 1 } })
      | (.unsupported, n) => some (n, { b with summary := skip b.summary 1 })
      | (.pending ref, n) =>
        some (n, { b with
          slots := b.slots.insert u.peer b.requests.length
          requests := b.requests ++ [(ref, none)]
          waiting := b.waiting ++ [[index]] })

def observe (n : Network) :
    List (LoadRef × Option Outcome) → Network × List (LoadRef × Option Outcome)
  | [] => (n, [])
  | (ref, outcome) :: rest =>
    let (outcome, n) := match outcome with
      | some o => (some o, n)
      | none => n.observe ref
    let (n, rest) := observe n rest
    (n, (ref, outcome) :: rest)

def attachAt? (token : String) (uploads : List Upload) (index : Nat) : Option (List Upload) := do
  let u ← uploads[index]?
  some (uploads.set index (u.attach token))

/-- Gives the uploads at some places the result that they waited for. A failure is reported for the
connection of the first of them. -/
def conclude? (s : Network × SlotBatch) (result : Outcome × List Nat) :
    Option (Network × SlotBatch) :=
  let (n, b) := s
  let (outcome, indices) := result
  let count := indices.length
  match outcome with
  | .ok (some t) => do
    let uploads ← indices.foldlM (attachAt? t.value) b.uploads
    some (n, { b with
      uploads
      summary := { b.summary with attached := b.summary.attached + count } })
  | .ok none => some (n, { b with summary := skip b.summary count })
  | .error e => do
    let first ← indices[0]?
    let u ← b.uploads[first]?
    some (n.note [.uploadsWithoutToken u.peer e count],
      { b with summary := { b.summary with failed := b.summary.failed + count } })

def concludeAll? (n : Network) (b : SlotBatch) (outcomes : List Outcome) :
    Option (Network × SlotBatch) := do
  let (n, b) ← (outcomes.zip b.waiting).foldlM conclude? (n, b)
  some (n.note [.uploadsCounted b.summary.attached b.summary.skipped b.summary.failed], b)

end SlotBatch

/-- A batch in three lists in the middle of its work. -/
structure SlotAttaching where
  net : Network
  batch : SlotBatch
  taken : Nat := 0
  isOver : Bool := false
  deriving Repr

namespace SlotAttaching

def of (n : Network) (uploads : List Upload) : SlotAttaching := { net := n, batch := { uploads } }

variable (m : Nat) (a : SlotAttaching)

def enlist? : Option SlotAttaching :=
  if a.taken < a.batch.uploads.length then
    (SlotBatch.enlist? m (a.net, a.batch) a.taken).map fun (net, batch) =>
      { a with net, batch, taken := a.taken + 1 }
  else some a

def look? : Option SlotAttaching :=
  if a.taken < a.batch.uploads.length then some a
  else
    let (net, requests) := SlotBatch.observe a.net a.batch.requests
    let batch := { a.batch with requests }
    match requests.mapM Prod.snd with
    | some outcomes =>
      (SlotBatch.concludeAll? net batch outcomes).map fun (net, batch) =>
        { a with net, batch, isOver := true }
    | none => some { a with net, batch }

def step? (s : Attaching.Step) : Option SlotAttaching :=
  if a.isOver then some a
  else
    match s with
    | .event e => some { a with net := a.net.step e }
    | .enlist => a.enlist? m
    | .look => a.look?

def after? (steps : List Attaching.Step) : Option SlotAttaching := steps.foldlM (step? m) a

end SlotAttaching

/-- The batch in three lists is the same as the one with records. -/
structure SlotBatch.Aligned (s : SlotBatch) (b : UploadBatch) : Prop where
  uploads : s.uploads = b.uploads
  summary : s.summary = b.summary
  slots : ∀ p, s.slots.get? p = b.waiting.findIdx? (·.peer == p)
  requests : s.requests = b.waiting.map fun w => (w.ref, w.outcome)
  waiting : s.waiting = b.waiting.map (·.indices)

structure SlotAttaching.Aligned (s : SlotAttaching) (a : Attaching) : Prop where
  net : s.net = a.net
  taken : s.taken = a.taken
  isOver : s.isOver = a.isOver
  batch : s.batch.Aligned a.batch

end ChatToken
