import ChatToken.Notice

/-! # Metrics

How notices are counted and measured. A metric is sent as one line of text: its name, its value, the
letters of its kind, and its tags.
-/
namespace ChatToken

inductive MetricKind where
  | counter
  | gauge
  | timer
  deriving DecidableEq, Repr

def MetricKind.letters : MetricKind → String
  | counter => "c"
  | gauge => "g"
  | timer => "ms"

structure Metric where
  name : String
  kind : MetricKind
  value : Nat
  tags : List (String × String) := []
  deriving DecidableEq, Repr

namespace Metric

def line (namePrefix : String) (defaults : List (String × String)) (m : Metric) : String :=
  let tags := m.tags ++ defaults
  let head := namePrefix ++ "." ++ m.name ++ ":" ++ toString m.value ++ "|" ++ m.kind.letters
  if tags.isEmpty then head
  else head ++ "|#" ++ ",".intercalate (tags.map fun (k, v) => k ++ ":" ++ v)

def count (name : String) (tags : List (String × String)) : Metric :=
  { name, kind := .counter, value := 1, tags }

def ofLoader {κ ε : Type} (cache : String) : LoaderNotice κ ε → List Metric
  | .accessed => [count "caches.access" [("cache", cache)]]
  | .attached _ => [count "caches.channel.hit" [("cache", cache)]]
  | .hit => [count "caches.memory.hit" [("cache", cache)]]
  | .evicted _ _ => [count "caches.invalid" [("cache", cache)]]
  | .missed => [count "caches.channel.miss" [("cache", cache)]]
  | .began _ | .arrivedInvalid _ _ | .loadFailed _ _ => []

def ofNotice : Notice → List Metric
  | .loader notice => ofLoader "tokens" notice
  | .markHit => [count "tokens.unsupported.hit" []]
  | .peerMarked kept =>
    [count "tokens.unsupported.marked" [],
      { name := "tokens.unsupported.peers", kind := .gauge, value := kept }]
  | .requestEnded status millis =>
    [count "tokens.request" [("status", status)],
      { name := "tokens.request.duration", kind := .timer, value := millis,
        tags := [("status", status)] }]
  | .uploadsCounted attached skipped failed =>
    [uploads attached "attached", uploads skipped "skipped", uploads failed "failed"]
  | _ => []
where
  uploads (value : Nat) (result : String) : Metric :=
    { name := "uploads.tokens", kind := .counter, value, tags := [("result", result)] }

end Metric

end ChatToken
