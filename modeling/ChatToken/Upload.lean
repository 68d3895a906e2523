import ChatToken.Network

/-! # Attaching tokens to uploads

A batch of uploads gets tokens for the connections they belong to. Uploads of connections that do
not advertise tokens are skipped. Each other connection is asked at most once: uploads whose
connection is already being asked wait for the same answer. Uploads without a token are kept as
they are.
-/
namespace ChatToken

structure Upload where
  peer : Nat
  metadata : Table String String := {}
  deriving DecidableEq, Repr, Inhabited

namespace Upload

def tokenKey : String := "extjwt"

def token? (u : Upload) : Option String := u.metadata.get? tokenKey

def attach (token : String) (u : Upload) : Upload :=
  { u with metadata := u.metadata.insert tokenKey token }

end Upload

structure AttachSummary where
  attached : Nat := 0
  skipped : Nat := 0
  failed : Nat := 0
  deriving DecidableEq, Repr, Inhabited

/-- Uploads of one connection that wait for the same load. -/
structure WaitingUploads where
  peer : Nat
  ref : LoadRef
  indices : List Nat
  outcome : Option Outcome := none
  deriving Repr

structure UploadBatch where
  uploads : List Upload
  summary : AttachSummary := {}
  /-- The connections that are being asked, in the order of their first uploads. -/
  waiting : List WaitingUploads := []
  deriving Repr

namespace UploadBatch

def advertisesTokens (p : Peer) : Bool := p.capability? Reply.extjwt == some "1"

def skip (s : AttachSummary) (count : Nat) : AttachSummary :=
  { s with skipped := s.skipped + count }

def isWaitedFor (b : UploadBatch) (p : Nat) : Bool := b.waiting.any (·.peer == p)

def join (b : UploadBatch) (p index : Nat) : UploadBatch :=
  { b with waiting := b.waiting.map fun w =>
      if w.peer = p then { w with indices := w.indices ++ [index] } else w }

/-- Takes the upload at `index` on: it gets its token, is skipped, or waits. -/
def enlist (m : Nat) (s : Network × UploadBatch) (index : Nat) : Network × UploadBatch :=
  let (n, b) := s
  match b.uploads[index]? with
  | none => (n, b)
  | some u =>
    if !advertisesTokens (n.peer u.peer) then (n, { b with summary := skip b.summary 1 })
    else if b.isWaitedFor u.peer then (n, b.join u.peer index)
    else
      match n.lookup m u.peer with
      | (.ready t, n) =>
        (n, { b with
          uploads := b.uploads.modify index (Upload.attach t.value)
          summary := { b.summary with attached := b.summary.attached + 1 } })
      | (.unsupported, n) => (n, { b with summary := skip b.summary 1 })
      | (.pending ref, n) =>
        (n, { b with waiting := b.waiting ++ [{ peer := u.peer, ref, indices := [index] }] })

def enlistAll (n : Network) (m : Nat) (uploads : List Upload) : Network × UploadBatch :=
  (List.range uploads.length).foldl (enlist m) (n, { uploads })

def observe (n : Network) : List WaitingUploads → Network × List WaitingUploads
  | [] => (n, [])
  | w :: rest =>
    let (outcome, n) := match w.outcome with
      | some o => (some o, n)
      | none => n.observe w.ref
    let (n, rest) := observe n rest
    (n, { w with outcome } :: rest)

def isResolved (b : UploadBatch) : Bool := b.waiting.all (·.outcome.isSome)

def conclude (s : Network × UploadBatch) (w : WaitingUploads) : Network × UploadBatch :=
  let (n, b) := s
  let count := w.indices.length
  match w.outcome with
  | some (.ok (some t)) =>
    (n, { b with
      uploads := w.indices.foldl (fun us i => us.modify i (Upload.attach t.value)) b.uploads
      summary := { b.summary with attached := b.summary.attached + count } })
  | some (.error e) =>
    (n.note [.uploadsWithoutToken w.peer e count],
      { b with summary := { b.summary with failed := b.summary.failed + count } })
  | some (.ok none) | none => (n, { b with summary := skip b.summary count })

def concludeAll (n : Network) (b : UploadBatch) : Network × UploadBatch :=
  let (n, b) := b.waiting.foldl conclude (n, b)
  (n.note [.uploadsCounted b.summary.attached b.summary.skipped b.summary.failed], b)

end UploadBatch

end ChatToken
