import ChatToken.Table

/-! # A cache that loads its items

A loader keeps at most one item per key. A lookup hands out the cached item if it is still valid,
attaches to the load that is running for the key, or starts one. Loads are numbered in the order in
which they start. Everybody who was told the number of a load gets what that load ends with, and a
load that ends with a valid item leaves it in the cache.

The task of a load settles it when its work is done, lets go of the guard that would have settled it
had the task died, and then hands over what the load ended with. A load is over for the lookups as
soon as it is settled, so lookups can start the next load of the same key before the task has let go
of its guard.
-/
namespace ChatToken

inductive Lookup (ι : Type) where
  | cached (item : ι)
  | loading (load : Nat)
  /-- A load would have to be started where none can be. -/
  | refused
  deriving DecidableEq, Repr

inductive Ending (ι ε : Type) where
  | loaded (item : ι)
  | failed (error : ε)
  /-- The task died before it handed a result over. -/
  | lost
  deriving DecidableEq, Repr

/-- What whoever waits for a load gets from it. `canceled` is the error of a load without a
result. -/
def Ending.resolve {ι ε : Type} (canceled : ε) : Ending ι ε → Except ε ι
  | loaded item => .ok item
  | failed e => .error e
  | lost => .error canceled

inductive Phase (ι ε : Type) where
  /-- The task has not run yet. -/
  | waiting
  | working
  /-- The load is settled, and the task still holds the guard that settles it. -/
  | settled (ending : Ending ι ε)
  /-- The guard is gone, and whoever waits has not been told yet. -/
  | released (ending : Ending ι ε)
  deriving DecidableEq, Repr

def Phase.unsettled {ι ε : Type} : Phase ι ε → Bool
  | waiting | working => true
  | settled _ | released _ => false

structure LoadTask (κ ι ε : Type) where
  key : κ
  phase : Phase ι ε := .waiting
  deriving DecidableEq, Repr

def LoadTask.begun {κ ι ε : Type} (t : LoadTask κ ι ε) : Bool :=
  match t.phase with
  | .waiting => false
  | _ => true

inductive LoaderNotice (κ ε : Type) where
  | accessed
  | attached (key : κ)
  | hit
  | evicted (key : κ) (reason : ε)
  | missed
  | began (key : κ)
  | arrivedInvalid (key : κ) (reason : ε)
  | loadFailed (key : κ) (error : ε)
  deriving DecidableEq, Repr

structure Loader (κ ι ε : Type) where
  cache : Table κ ι := {}
  loading : Table κ Nat := {}
  nextLoad : Nat := 0
  /-- The tasks that are alive, in the order in which they were started. -/
  tasks : Table Nat (LoadTask κ ι ε) := {}
  endings : Table Nat (Ending ι ε) := {}
  deriving DecidableEq, Repr

namespace Loader

variable {κ ι ε : Type} [DecidableEq κ]

instance : Inhabited (Loader κ ι ε) := ⟨{}⟩

/-- Ends the load `id` of `key` for the lookups, storing its item if there is one. A load that is
no longer registered is left alone. -/
def settle (l : Loader κ ι ε) (key : κ) (id : Nat) (item : Option ι) : Loader κ ι ε :=
  if l.loading.get? key = some id then
    { l with
      loading := l.loading.erase key
      cache := match item with
        | some i => l.cache.insert key i
        | none => l.cache }
  else l

def start (l : Loader κ ι ε) (key : κ) : Loader κ ι ε :=
  { l with
    loading := l.loading.insert key l.nextLoad
    tasks := l.tasks.insert l.nextLoad { key }
    nextLoad := l.nextLoad + 1 }

def evict (l : Loader κ ι ε) (key : κ) : Loader κ ι ε := { l with cache := l.cache.erase key }

def lookupMissing (canStart : Bool) (key : κ) (l : Loader κ ι ε) :
    Lookup ι × Loader κ ι ε × List (LoaderNotice κ ε) :=
  if canStart then (.loading l.nextLoad, l.start key, [.missed]) else (.refused, l, [])

/-- Looks `key` up. `invalid` says why an item may not be handed out, and `canStart` whether a load
can be started. -/
def lookup (l : Loader κ ι ε) (invalid : ι → Option ε) (canStart : Bool) (key : κ) :
    Lookup ι × Loader κ ι ε × List (LoaderNotice κ ε) :=
  match l.loading.get? key with
  | some id => (.loading id, l, [.accessed, .attached key])
  | none =>
    match l.cache.get? key with
    | none =>
      let (answer, l, notices) := lookupMissing canStart key l
      (answer, l, .accessed :: notices)
    | some item =>
      match invalid item with
      | none => (.cached item, l, [.accessed, .hit])
      | some reason =>
        let (answer, l, notices) := lookupMissing canStart key (l.evict key)
        (answer, l, .accessed :: .evicted key reason :: notices)

def reach (l : Loader κ ι ε) (id : Nat) (phase : Phase ι ε) : Loader κ ι ε :=
  { l with tasks := l.tasks.adjust id fun t => { t with phase } }

def begin (l : Loader κ ι ε) (id : Nat) : Loader κ ι ε × List (LoaderNotice κ ε) :=
  match l.tasks.get? id with
  | some ⟨key, .waiting⟩ => (l.reach id .working, [.began key])
  | _ => (l, [])

/-- The item to be cached after a load of `key`, and what there is to report about it. -/
def keepResult (invalid : ι → Option ε) (key : κ) :
    Except ε ι → Option ι × List (LoaderNotice κ ε)
  | .error e => (none, [.loadFailed key e])
  | .ok item =>
    match invalid item with
    | none => (some item, [])
    | some reason => (none, [.arrivedInvalid key reason])

def endingOf : Except ε ι → Ending ι ε
  | .ok item => .loaded item
  | .error e => .failed e

def complete (l : Loader κ ι ε) (invalid : ι → Option ε) (id : Nat) (result : Except ε ι) :
    Loader κ ι ε × List (LoaderNotice κ ε) :=
  match l.tasks.get? id with
  | none => (l, [])
  | some t =>
    if t.phase.unsettled then
      let (item, notices) := keepResult invalid t.key result
      ((l.settle t.key id item).reach id (.settled (endingOf result)), notices)
    else (l, [])

/-- The task of `id` lets its guard go, which settles the load once more. -/
def letGo (l : Loader κ ι ε) (id : Nat) : Loader κ ι ε :=
  match l.tasks.get? id with
  | some ⟨key, .settled ending⟩ => (l.settle key id none).reach id (.released ending)
  | _ => l

/-- The task of the load `id` dies, at whatever point it is. If it still has its guard, that
settles the load. -/
def die (l : Loader κ ι ε) (id : Nat) : Loader κ ι ε :=
  match l.tasks.get? id with
  | none => l
  | some ⟨_, .released _⟩ => l.reach id (.released .lost)
  | some ⟨key, _⟩ => (l.settle key id none).reach id (.released .lost)

def handOver (l : Loader κ ι ε) (id : Nat) : Loader κ ι ε :=
  match l.tasks.get? id with
  | some ⟨_, .released ending⟩ =>
    { l with tasks := l.tasks.erase id, endings := l.endings.insert id ending }
  | _ => l

def finish (l : Loader κ ι ε) (invalid : ι → Option ε) (id : Nat) (result : Except ε ι) :
    Loader κ ι ε × List (LoaderNotice κ ε) :=
  let (l, notices) := l.complete invalid id result
  ((l.letGo id).handOver id, notices)

def abandon (l : Loader κ ι ε) (id : Nat) : Loader κ ι ε := (l.die id).handOver id

def abandonAll (l : Loader κ ι ε) : Loader κ ι ε := l.tasks.keys.foldl abandon l

def invalidate (l : Loader κ ι ε) (key : κ) : Option ι × Loader κ ι ε :=
  (l.cache.get? key, l.evict key)

/-- The number of cached items, whether they are still valid or not. -/
def size (l : Loader κ ι ε) : Nat := l.cache.size

def runningLoads (l : Loader κ ι ε) : Nat := l.loading.size

def ending? (l : Loader κ ι ε) (id : Nat) : Option (Ending ι ε) := l.endings.get? id

def poll (l : Loader κ ι ε) (canceled : ε) (id : Nat) : Option (Except ε ι) :=
  (l.ending? id).map (·.resolve canceled)

end Loader

end ChatToken
