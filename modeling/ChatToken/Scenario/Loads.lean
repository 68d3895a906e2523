import ChatToken.Loader.Basic
import ChatToken.Time.Clock

/-! # Scenarios of a loader

A loader whose loads follow a script: they sleep for a while and then yield an item, fail, or die.
The script can be changed at any time. A load follows the script that was in force when it began,
and items are checked against the script in force now.
-/
namespace ChatToken.Scenario

structure Item where
  value : String
  loadedAt : Nat
  deriving DecidableEq, Repr

inductive LoadFailure where
  | scripted (number : Nat) (key : String)
  | rejected (value : String)
  | stale (age : Span)
  | canceled
  deriving DecidableEq, Repr

def LoadFailure.message : LoadFailure → String
  | scripted number key => "load " ++ toString number ++ " of " ++ key ++ " failed"
  | rejected value => value ++ " rejected"
  | stale age => "stale after " ++ age.text
  | canceled => "canceled"

structure Script where
  delay : Span := Span.zero
  maxAge : Option Span := none
  fails : Bool := false
  dies : Bool := false
  /-- Whether a load dies before it sleeps. -/
  diesEarly : Bool := false
  rejects : Bool := false
  deriving DecidableEq, Repr, Inhabited

def Script.invalid (s : Script) (now : Nat) (item : Item) : Option LoadFailure :=
  let age := Clock.elapsed item.loadedAt now
  if s.rejects then some (.rejected item.value)
  else match s.maxAge with
    | some limit => if limit.nanos < age.nanos then some (.stale age) else none
    | none => none

structure Sleeper where
  number : Nat
  key : String
  script : Script
  timer : Timer
  deriving DecidableEq, Repr

abbrev LoadOutcome := Except LoadFailure Item

inductive KeptLookup where
  | cached (item : Item)
  | awaited (load : Nat)
  deriving DecidableEq, Repr

structure Loads where
  now : Nat := 0
  sounded : Nat := 0
  tickets : Nat := 0
  script : Script := {}
  begun : Nat := 0
  loader : Loader String Item LoadFailure := {}
  sleepers : Table Nat Sleeper := {}
  ready : List Nat := []
  notices : List (LoaderNotice String LoadFailure) := []
  kept : Table String KeptLookup := {}
  deriving Repr, Inhabited

namespace Loads

def note (s : Loads) (notices : List (LoaderNotice String LoadFailure)) : Loads :=
  { s with notices := s.notices ++ notices }

def wake (s : Loads) (id : Nat) : Loads :=
  if s.ready.contains id then s else { s with ready := s.ready ++ [id] }

def invalid (s : Loads) : Item → Option LoadFailure := s.script.invalid s.now

def abandon (s : Loads) (id : Nat) : Loads :=
  { s with loader := s.loader.abandon id, sleepers := s.sleepers.erase id }

def conclude (s : Loads) (id number : Nat) (key : String) (script : Script) : Loads :=
  if script.dies then s.abandon id
  else
    let result : LoadOutcome :=
      if script.fails then .error (.scripted number key)
      else .ok { value := key ++ "-" ++ toString number, loadedAt := s.now }
    let (loader, notices) := s.loader.finish s.invalid id result
    ({ s with loader, sleepers := s.sleepers.erase id }).note notices

def beginLoad (s : Loads) (id : Nat) (key : String) : Loads :=
  let (loader, notices) := s.loader.begin id
  let s := { s with loader, begun := s.begun + 1 }.note notices
  if s.script.diesEarly then s.abandon id
  else if s.script.delay = Span.zero then s.conclude id s.begun key s.script
  else
    let timer := Timer.set s.now s.script.delay s.tickets
    if timer.isOff s.sounded then s.conclude id s.begun key s.script
    else
      { s with
        tickets := s.tickets + 1
        sleepers := s.sleepers.insert id { number := s.begun, key, script := s.script, timer } }

def runLoad (s : Loads) (id : Nat) : Loads :=
  match s.loader.tasks.get? id with
  | none => s
  | some t =>
    if t.begun then
      match s.sleepers.get? id with
      | none => s
      | some z => if z.timer.isOff s.sounded then s.conclude id z.number z.key z.script else s
    else s.beginLoad id t.key

def run (s : Loads) : Nat → Loads
  | 0 => s
  | turns + 1 =>
    match s.ready with
    | [] => s
    | id :: rest => run ({ s with ready := rest }.runLoad id) turns

/-- Gives every task in line its turn. No turn gives another task something to do. -/
def settle (s : Loads) : Loads := s.run s.ready.length

def timers (s : Loads) : List (Timer × Nat) := s.sleepers.entries.map fun (id, z) => (z.timer, id)

def soundTimers (s : Loads) : Loads :=
  let s := { s with sounded := Clock.tick s.now }
  (Timer.goingOff s.sounded s.timers).foldl wake s

def advance (s : Loads) (d : Span) : Loads :=
  { s with now := s.now + d.nanos }.settle.soundTimers

def jump (s : Loads) (t : Nat) : Loads := { s with now := Clock.jump s.now t }.soundTimers

def lookup (s : Loads) (canStart : Bool) (key : String) : Lookup Item × Loads :=
  let (answer, loader, notices) := s.loader.lookup s.invalid canStart key
  let fresh := s.loader.nextLoad
  let s := { s with loader }.note notices
  match answer with
  | .loading id => (answer, if id = fresh then s.wake id else s)
  | _ => (answer, s)

def keptOf? : Lookup Item → Option KeptLookup
  | .cached item => some (.cached item)
  | .loading id => some (.awaited id)
  | .refused => none

def outcome? (s : Loads) : KeptLookup → Option LoadOutcome
  | .cached item => some (.ok item)
  | .awaited id => s.loader.poll .canceled id

end Loads

structure ScriptChange where
  delay : Option Span := none
  maxAge : Option Span := none
  fails : Option Bool := none
  dies : Option Bool := none
  diesEarly : Option Bool := none
  rejects : Option Bool := none
  deriving Repr

def ScriptChange.apply (c : ScriptChange) (s : Script) : Script where
  delay := c.delay.getD s.delay
  maxAge := c.maxAge <|> s.maxAge
  fails := c.fails.getD s.fails
  dies := c.dies.getD s.dies
  diesEarly := c.diesEarly.getD s.diesEarly
  rejects := c.rejects.getD s.rejects

inductive LoadsAction where
  | change (change : ScriptChange)
  | lookup (key : String) (keptAs : Option String)
  | lookupOutside (key : String)
  | get (key : String)
  | getAll (keys : List String)
  | resolve (name : String)
  | poll (name : String)
  | drop (name : String)
  | invalidate (key : String)
  | advance (by_ : Span)
  deriving Repr

inductive LoadsAnswer where
  | nothing
  | flag (value : Bool)
  | looked (lookup : Lookup Item)
  | lookedOutside (lookup : Lookup Item)
  | pending
  | cached (item : Item)
  | outcome (outcome : LoadOutcome)
  | outcomes (outcomes : List LoadOutcome)
  | item (item : Option Item)
  | hung
  deriving Repr

namespace Loads

def cacheName : String := "scripted"

def refusal : String :=
  "cache `" ++ cacheName ++ "` can only load items inside a tokio runtime: " ++
    "there is no reactor running, must be called from the context of a Tokio 1.x runtime"

def shownItem (item : Item) : String := "<" ++ item.value ++ ">"

def shownLookup : Lookup Item → String
  | .cached item => "Cached(" ++ shownItem item ++ ")"
  | _ => "Loading"

def shown (s : Loads) : String :=
  "CacheLoader \x7b name: \"" ++ cacheName ++ "\", cached items: " ++ toString s.loader.size ++
    ", running loads: " ++ toString s.loader.runningLoads ++ " \x7d"

def patience : Span := Span.ofSeconds 86400

def await (kept : List KeptLookup) (limit : Nat) : Nat → Loads → Option (List LoadOutcome) × Loads
  | 0, s => (none, s)
  | jumps + 1, s =>
    let s := s.settle
    match kept.mapM s.outcome? with
    | some outcomes => (some outcomes, s)
    | none =>
      if limit ≤ s.sounded then (none, s)
      else
        let pending := (s.timers.map (·.1)).filter fun t => !t.isOff s.sounded
        let t := match Timer.nextDue? pending with
          | some due => min due limit
          | none => limit
        let s := s.jump t
        if limit ≤ s.sounded && (kept.mapM s.outcome?).isNone then (none, s)
        else await kept limit jumps s

/-- Waits for lookups, but not for too long. Every jump of the clock passes a timer or the end of
the wait. -/
def awaitAll (s : Loads) (kept : List KeptLookup) : Option (List LoadOutcome) × Loads :=
  await kept (Clock.dueTick (s.now + patience.nanos)) (s.ready.length + s.sleepers.size + 2) s

def awaitOne (s : Loads) (kept : KeptLookup) : LoadsAnswer × Loads :=
  match s.awaitAll [kept] with
  | (some [o], s) => (.outcome o, s)
  | (_, s) => (.hung, s)

def lookupAll (s : Loads) : List String → List KeptLookup × Loads
  | [] => ([], s)
  | key :: rest =>
    let (answer, s) := s.lookup true key
    let (kept, s) := lookupAll s rest
    ((keptOf? answer).toList ++ kept, s)

def act (s : Loads) : LoadsAction → LoadsAnswer × Loads
  | .change c => (.nothing, { s with script := c.apply s.script })
  | .lookup key keptAs =>
    let (answer, s) := s.lookup true key
    (.looked answer,
      match keptAs, keptOf? answer with
      | some name, some k => { s with kept := s.kept.insert name k }
      | _, _ => s)
  | .lookupOutside key =>
    let (answer, s) := s.lookup false key
    (.lookedOutside answer, s)
  | .get key =>
    let (kept, s) := s.lookupAll [key]
    match s.awaitAll kept with
    | (some (o :: _), s) => (.outcome o, s)
    | (_, s) => (.hung, s)
  | .getAll keys =>
    let (kept, s) := s.lookupAll keys
    match s.awaitAll kept with
    | (some outcomes, s) => (.outcomes outcomes, s)
    | (none, s) => (.hung, s)
  | .resolve name =>
    match s.kept.get? name with
    | none => (.nothing, s)
    | some k => { s with kept := s.kept.erase name }.awaitOne k
  | .poll name =>
    match s.kept.get? name with
    | none => (.nothing, s)
    | some (.cached item) => (.cached item, s)
    | some k =>
      match s.outcome? k with
      | some o => (.outcome o, s)
      | none => (.pending, s)
  | .drop name => (.flag (s.kept.contains name), { s with kept := s.kept.erase name })
  | .invalidate key =>
    let (item, loader) := s.loader.invalidate key
    (.item item, { s with loader })
  | .advance d => (.nothing, s.advance d)

def step (s : Loads) (action : LoadsAction) (settles : Bool) : LoadsAnswer × Loads :=
  let (answer, s) := s.act action
  (answer, if settles then s.settle else s)

def shutDown (s : Loads) : Loads :=
  { s with loader := s.loader.abandonAll, sleepers := {}, ready := [] }

end Loads

end ChatToken.Scenario
