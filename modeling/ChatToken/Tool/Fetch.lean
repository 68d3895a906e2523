import ChatToken.Network

/-! # Fetching tokens

The tool asks for a token a given number of times, with a pause between two requests, and prints
every token it gets. It stops at the first answer that is no token: a server that does not know the
command is reported in one line, and a failure fails the tool. Whatever happens, it leaves the
server and forgets it afterwards.
-/
namespace ChatToken

structure FetchPlan where
  address : String
  repeats : Nat
  interval : Span
  deriving DecidableEq, Repr

inductive FetchStep where
  | pause (attempt : Nat)
  | lookUp (attempt : Nat)
  | leave (failure : Option TokenError)
  deriving DecidableEq, Repr

namespace FetchPlan

def first (plan : FetchPlan) : FetchStep := if plan.repeats = 0 then .leave none else .lookUp 1

def printed (plan : FetchPlan) : Outcome → List String
  | .ok (some t) => [t.value]
  | .ok none => [plan.address ++ " does not support " ++ Reply.extjwt]
  | .error _ => []

def next (plan : FetchPlan) (attempt : Nat) : Outcome → FetchStep
  | .ok (some _) => if attempt < plan.repeats then .pause (attempt + 1) else .leave none
  | .ok none => .leave none
  | .error e => .leave (some e)

end FetchPlan

inductive FetchEvent where
  | paused (length : Span)
  | lookedUp
  | printed (line : String)
  | quit
  | forgot
  deriving DecidableEq, Repr

inductive FetchEnd where
  /-- A lookup has no outcome yet. -/
  | waiting
  | succeeded
  | failed (e : TokenError)
  deriving DecidableEq, Repr

namespace FetchPlan

def ending : Option TokenError → FetchEnd
  | none => .succeeded
  | some e => .failed e

/-- What the tool does from a lookup on whose outcome, and those of the lookups behind it, are
given. -/
def runLookup (plan : FetchPlan) (attempt : Nat) : List Outcome → List FetchEvent × FetchEnd
  | [] => ([.lookedUp], .waiting)
  | o :: rest =>
    let shown := FetchEvent.lookedUp :: (plan.printed o).map FetchEvent.printed
    match plan.next attempt o with
    | .leave failure => (shown ++ [.quit, .forgot], ending failure)
    | .lookUp attempt =>
      let (events, last) := runLookup plan attempt rest
      (shown ++ events, last)
    | .pause attempt =>
      let (events, last) := runLookup plan attempt rest
      (shown ++ .paused plan.interval :: events, last)

def run (plan : FetchPlan) (outcomes : List Outcome) : List FetchEvent × FetchEnd :=
  match plan.first with
  | .leave failure => ([.quit, .forgot], ending failure)
  | .lookUp attempt | .pause attempt => plan.runLookup attempt outcomes

end FetchPlan

end ChatToken
