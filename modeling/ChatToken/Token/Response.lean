import ChatToken.Message.Parse
import ChatToken.Message.Render
import ChatToken.Token.Reply

/-! # Responses to a token request

A complete response is some messages with more to follow and a last one, and its payload is what
their last parameters make together. Nothing in it says which request it answers. Between its
messages there can be others that are unrelated to the token command.
-/
namespace ChatToken

/-- The message neither carries a piece of a token for its own server nor says that the token command
is unknown or has failed. -/
def Message.Unrelated (m : Message) : Prop :=
  (m.command = Reply.extjwt → m.param? 0 ≠ some Reply.anyTarget) ∧
  (m.command = Reply.unknownCommand → Reply.namesExtjwt m 1 = false) ∧
  (m.command = Reply.fail → Reply.namesExtjwt m 0 = false)

instance (m : Message) : Decidable m.Unrelated := inferInstanceAs (Decidable (_ ∧ _ ∧ _))

/-- The line is the text of `m`, from any source that can be named in one word or from none. -/
def Message.IsLine (m : Message) (line : String) : Prop :=
  ∃ source, (∀ s ∈ source, ' ' ∉ s.toList) ∧ line = { m with source }.text

/-- The lines are those of some messages in order, and lines of unrelated messages between them. -/
inductive Message.Interleaved : List Message → List String → Prop where
  | nil : Interleaved [] []
  | own {m : Message} {line : String} {ms : List Message} {lines : List String} :
      m.IsLine line → Interleaved ms lines → Interleaved (m :: ms) (line :: lines)
  | other {m : Message} {line : String} {ms : List Message} {lines : List String} :
      Message.parse? line = some m → m.Unrelated → Interleaved ms lines →
      Interleaved ms (line :: lines)

structure Response where
  /-- The messages with more to follow. -/
  continued : List Message
  last : Message
  continues : ∀ m ∈ continued, ∃ piece, Reply.classify m = .fragment piece
  completes : ∃ piece, Reply.classify last = .complete piece

namespace Response

def messages (r : Response) : List Message := r.continued ++ [r.last]

def tail (r : Response) (i : Nat) : String :=
  String.join ((r.messages.drop i).map Message.lastParam)

def payload (r : Response) : String := r.tail 0

def ofPieces (service : String) (pieces : List String) (last : String) : Response where
  continued := pieces.map fun piece =>
    .of Reply.extjwt [Reply.anyTarget, service, Reply.anyTarget, piece]
  last := .of Reply.extjwt [Reply.anyTarget, service, last]
  continues := by
    simp only [List.mem_map, forall_exists_index, and_imp, forall_apply_eq_imp_iff₂]
    exact fun piece _ => ⟨piece,rfl⟩
  completes := ⟨last,rfl⟩

/-- The messages of the first `k` responses, one response after the other. -/
def first (answer : Nat → Response) (k : Nat) : List Message :=
  (List.range k).flatMap fun j => (answer j).messages

end Response

end ChatToken
