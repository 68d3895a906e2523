import ChatToken.Network.Run

/-! # Requests without a manager

A caller can request a token without a manager. It listens, sends the request, and looks for the
response at once. If the request cannot be sent it has its result already, and listens no more. Runs
with such requests are made of acts: events, and looks at requests.
-/
namespace ChatToken.Network

/-- Requests a token from `p` on behalf of a caller, up to the first look at the response. -/
def startRequest (n : Network) (c p : Nat) (service : Option String) (timeout : Span) :
    Option (Except TokenError Token) × Network :=
  match n.openRequest (.caller c) p service timeout with
  | (.sent, n) => n.pollRequest (.caller c)
  | (.failed cause, n) =>
    let (result, n) := n.failRequest (.caller c) cause
    (some result, n)
  | (.broken _, n) => (none, n.closeExchange (.caller c))

inductive Act where
  | event (e : Event)
  /-- A caller requests a token, unless it has an exchange. -/
  | request (caller peer : Nat) (service : Option String) (timeout : Span)
  | lookRequest (caller : Nat)
  deriving DecidableEq, Repr

def act (n : Network) : Act → Network
  | .event e => n.step e
  | .request c p service timeout =>
    if n.exchanges.contains (.caller c) then n else (n.startRequest c p service timeout).2
  | .lookRequest c => (n.pollRequest (.caller c)).2

def play (n : Network) (as : List Act) : Network := as.foldl act n

/-! ## What can be told from a run -/

def Act.holder? : Act → Option Holder
  | .event e => e.holder?
  | .request c .. | .lookRequest c => some (.caller c)

/-- The messages that the connection `p` delivers in an act. -/
def conveys (n : Network) (p : Nat) : Act → List Message
  | .event e => n.delivers p e
  | .request c p' service _ =>
    if p' = p ∧ n.exchanges.contains (.caller c) = false then
      answers (n.peer p) Reply.extjwt (Reply.anyTarget :: service.toList)
    else []
  | .lookRequest _ => []

def conveyed (n : Network) (p : Nat) : List Act → List Message
  | [] => []
  | a :: as => n.conveys p a ++ (n.act a).conveyed p as

/-- What the request of a caller comes back with when the caller looks at it during some acts. -/
def returned? (n : Network) (c : Nat) : List Act → Option (Except TokenError Token)
  | [] => none
  | a :: as =>
    (if a = .lookRequest c then (n.pollRequest (.caller c)).1 else none).or
      ((n.act a).returned? c as)

/-- What a request comes back with that a caller starts and then looks at during some acts. -/
def yields? (n : Network) (c p : Nat) (service : Option String) (timeout : Span)
    (as : List Act) : Option (Except TokenError Token) :=
  (n.startRequest c p service timeout).1.or
    ((n.startRequest c p service timeout).2.returned? c as)

def StaysOpen (n : Network) (p : Nat) : List Act → Prop
  | [] => True
  | a :: as => a ≠ .event (.disconnect p) ∧ ((n.act a).peer p).link ≠ .stream false ∧
      (n.act a).StaysOpen p as

instance decidableStaysOpen :
    (n : Network) → (p : Nat) → (as : List Act) → Decidable (n.StaysOpen p as)
  | _, _, [] => .isTrue trivial
  | n, p, a :: as =>
    have := decidableStaysOpen (n.act a) p as
    inferInstanceAs (Decidable (_ ∧ _ ∧ _))

end ChatToken.Network
