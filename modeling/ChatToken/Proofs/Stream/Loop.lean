import ChatToken.Proofs.Network.Listening
import ChatToken.Stream.Run

/-! # The loop of a connection over a stream

What comes out of a stream has one of five effects on its connection, and what a call does to the
connection is read off the connection alone. So the messages that come in, the lines that go out and
what is advertised add up along every run.
-/
namespace ChatToken

open Network (Call accepted)

namespace Peer

/-! ## One call -/

def takeIn (q : Peer) : Received → Peer
  | .failed _ => q.endReading
  | .line line =>
    match Message.parse? line with
    | none => q
    | some m =>
      match q.handle m with
      | none => q.endReading
      | some changed => changed.dispatch m

def undergo (q : Peer) : Call → Peer
  | .receive r => if q.isReading then q.takeIn r else q
  | .finishStream => if q.isReading then q.endReading else q
  | .subscribe => q.subscribe.2
  | .unsubscribe id => q.unsubscribe id
  | .send command args => (q.send command args).2
  | .read id => { q with listeners := q.listeners.drain id }
  | .close id => { q with listeners := q.listeners.close id }
  | .failWriting _ => q.endWriting

/-- What comes out of a stream, the message that comes in with it, and the connection after it. -/
inductive Intake (q : Peer) : Received → List Message → Peer → Prop where
  | idle (r : Received) (hr : q.isReading = false) : Intake q r [] q
  | rejected (line : String) (hr : q.isReading = true) (hl : Message.parse? line = none) :
    Intake q (.line line) [] q
  | handled (line : String) (m : Message) (changed : Peer) (hr : q.isReading = true)
    (hl : Message.parse? line = some m) (hh : q.handle m = some changed) :
    Intake q (.line line) [m] (changed.dispatch m)
  | unanswered (line : String) (m : Message) (hr : q.isReading = true)
    (hl : Message.parse? line = some m) (hping : m.command = "PING")
    (hc : q.connected = false) : Intake q (.line line) [] q.endReading
  | failed (reason : String) (hr : q.isReading = true) : Intake q (.failed reason) [] q.endReading

section
variable (q : Peer) (m : Message)

theorem ping_ne_capabilities : "PING" ≠ Capabilities.command := by decide

theorem handle_eq_none : q.handle m = none ↔ m.command = "PING" ∧ q.connected = false := by
  unfold handle queue
  split
  · next hp => by_cases hc : q.connected = true <;> simp [hp, hc]
  · next hp => split <;> simp [hp]

/-- What a message does before it reaches the listeners. -/
theorem handle_eq_some {q changed : Peer} {m : Message} (h : q.handle m = some changed) :
    changed = { q with
      sent := q.sent ++ if m.command = "PING" then [pong m] else []
      capabilities := Capabilities.note q.capabilities m } := by
  unfold Capabilities.note
  unfold handle queue at h
  split at h
  · next hp =>
    split at h
    · cases h
      simp [hp, ping_ne_capabilities]
    · cases h
  · next hp =>
    rw [if_neg hp, List.append_nil]
    split at h <;> cases h
    · next hs => rw [if_pos hs]
    · next hs => rw [if_neg hs]

theorem intake (r : Received) : q.Intake r (accepted q r) (q.undergo (.receive r)) := by
  cases hr : q.isReading with
  | false =>
    have ha : accepted q r = [] := by
      cases r with
      | failed reason => rfl
      | line line =>
        simp only [accepted, hr, Bool.false_and, Bool.false_eq_true, if_false]
        split <;> rfl
    rw [ha, undergo, hr]
    exact .idle r hr
  | true =>
    rw [undergo, hr, if_pos rfl]
    cases r with
    | failed reason => exact .failed reason hr
    | line line =>
      rw [takeIn, accepted]
      cases hl : Message.parse? line with
      | none => exact .rejected line hr hl
      | some m =>
        dsimp only
        cases hh : q.handle m with
        | some changed =>
          rw [hr]
          exact .handled line m changed hr hl hh
        | none =>
          obtain ⟨hping,hc⟩ := (q.handle_eq_none m).mp hh
          rw [Option.isSome_none, Bool.and_false]
          exact .unanswered line m hr hl hping hc

/-- Nothing is answered at once when a command is sent. -/
theorem send_plain {q : Peer} (hp : q.replies = none) (command : String) (args : List String) :
    q.send command args =
      if q.connected then (.ok [], { q with sent := q.sent ++ [.of command args] })
      else (.error q.sendFailure, q) := by
  unfold send
  split
  · simp only [hp, ite_self]
  · rfl

/-- A connection that does not read does not start to. -/
theorem undergo_not_reading {q : Peer} (hp : q.replies = none) (hr : q.isReading = false)
    (c : Call) : (q.undergo c).isReading = false := by
  cases c with
  | receive r | finishStream => rw [undergo, hr]; exact hr
  | send command args =>
    rw [undergo, send_plain hp]
    split <;> exact hr
  | _ => exact hr

theorem takes_of_not_reading {q : Peer} (hr : q.isReading = false) (c : Call) : q.takes c = [] := by
  cases c with
  | receive r =>
    have h := q.intake r
    rw [takes]
    generalize accepted q r = ms, q.undergo (.receive r) = q' at h
    cases h with
    | handled line m changed hr' => rw [hr] at hr'; cases hr'
    | _ => rfl
  | _ => rfl

/-- A stream that nothing can be written to stays as it is. -/
theorem endWriting_of_not_writing {q : Peer} (hl : q.link ≠ .memory) (hw : q.isWriting = false) :
    q.endWriting = q := by
  have hc : q.connected = false := by
    rwa [isWriting, (bne_iff_ne).mpr hl, Bool.true_and] at hw
  rw [endWriting, ← hc]

end

/-! ## Listeners -/

inductive Attends (ls : Listeners) : Call → List Message → Listeners → Prop where
  | keeps (c : Call) (hc : ∀ id, c ≠ .read id) : Attends ls c [] ls
  | clears (c : Call) (hc : ∀ id, c ≠ .read id) : Attends ls c [] ls.clear
  | dispatches (r : Received) (m : Message) : Attends ls (.receive r) [m] (ls.dispatch m)
  | adds : Attends ls .subscribe [] ls.add.2
  | removes (id : Nat) : Attends ls (.unsubscribe id) [] (ls.remove id)
  | drains (id : Nat) : Attends ls (.read id) [] (ls.drain id)
  | closes (id : Nat) : Attends ls (.close id) [] (ls.close id)

structure Streaming (q : Peer) : Prop where
  link : q.link ≠ .memory
  plain : q.replies = none
  registered : ∀ id, q.listeners.isRegistered id = true → id < q.listeners.nextId
  inbox : ∀ id, q.listeners.hasInbox id = true → id < q.listeners.nextId

variable {q : Peer} {id : Nat}

theorem listeners_subscribe (hl : q.link ≠ .memory) :
    q.subscribe.2.listeners = q.listeners.add.2 := by
  have hd : q.dropsNew = false := by
    rw [dropsNew, beq_false_of_ne hl, Bool.false_and]
  simp [subscribe, hd]

theorem attends (hl : q.link ≠ .memory) (c : Call) :
    Attends q.listeners c (q.takes c) (q.undergo c).listeners := by
  cases c with
  | receive r =>
    have h := q.intake r
    rw [takes]
    generalize accepted q r = ms, q.undergo (.receive r) = q' at h
    cases h with
    | idle | rejected => exact .keeps _ (by simp)
    | unanswered | failed => exact .clears _ (by simp)
    | handled line m changed _ _ hh =>
      rw [dispatch, Network.handle_listeners hh]
      exact .dispatches _ m
  | finishStream =>
    rw [undergo]
    split
    · exact .clears _ (by simp)
    · exact .keeps _ (by simp)
  | subscribe =>
    rw [undergo, listeners_subscribe hl]
    exact .adds
  | unsubscribe id => exact .removes id
  | send command args =>
    rw [undergo, Network.send_listeners]
    exact .keeps _ (by simp)
  | read id => exact .drains id
  | close id => exact .closes id
  | failWriting reason => exact .keeps _ (by simp)

namespace Attends
variable {ls ls' : Listeners} {c : Call} {ms : List Message}

theorem nextId_le (h : Attends ls c ms ls') : ls.nextId ≤ ls'.nextId := by
  cases h with
  | adds => exact Nat.le_succ _
  | _ => exact Nat.le_refl _

theorem registered_of (h : Attends ls c ms ls') (hr : ls'.isRegistered id = true) :
    ls.isRegistered id = true ∨ (ls.nextId ≤ id ∧ id < ls'.nextId) := by
  cases h with
  | keeps | drains | closes => exact .inl hr
  | clears => simp at hr
  | dispatches _ m =>
    rw [Listeners.isRegistered_dispatch, Bool.and_eq_true] at hr
    exact .inl hr.1
  | adds =>
    rw [Listeners.isRegistered_add, Bool.or_eq_true, beq_iff_eq] at hr
    rcases hr with hr | rfl
    · exact .inl hr
    · exact .inr ⟨Nat.le_refl _,Nat.lt_succ_self _⟩
  | removes =>
    rw [Listeners.isRegistered_remove, Bool.and_eq_true] at hr
    exact .inl hr.1

theorem hasInbox_of (h : Attends ls c ms ls') (hb : ls'.hasInbox id = true) :
    ls.hasInbox id = true ∨ (ls.nextId ≤ id ∧ id < ls'.nextId) := by
  cases h with
  | keeps | clears | removes => exact .inl hb
  | dispatches _ m => exact .inl (by rwa [Listeners.hasInbox_dispatch] at hb)
  | adds =>
    rw [Listeners.hasInbox_add, Bool.or_eq_true, beq_iff_eq] at hb
    rcases hb with hb | rfl
    · exact .inl hb
    · exact .inr ⟨Nat.le_refl _,Nat.lt_succ_self _⟩
  | drains => exact .inl (by rwa [Listeners.hasInbox_drain] at hb)
  | closes =>
    rw [Listeners.hasInbox_close, Bool.and_eq_true] at hb
    exact .inl hb.1

/-- An inbox that was not closed is there from the time when its number is given out. -/
theorem hasInbox (h : Attends ls c ms ls') (hc : c ≠ .close id)
    (hb : id < ls.nextId → ls.hasInbox id = true) (hk : id < ls'.nextId) :
    ls'.hasInbox id = true := by
  cases h with
  | keeps | clears | removes => exact hb hk
  | dispatches _ m => rw [Listeners.hasInbox_dispatch]; exact hb hk
  | adds =>
    rw [Listeners.hasInbox_add, Bool.or_eq_true, beq_iff_eq]
    by_cases hi : id = ls.nextId
    · exact .inr hi
    · have hle : id < ls.nextId + 1 := hk
      exact .inl (hb (by omega))
  | drains => rw [Listeners.hasInbox_drain]; exact hb hk
  | closes id' =>
    have hne : id ≠ id' := fun he => hc (by rw [he])
    rw [Listeners.hasInbox_close, hb hk]
    simpa using hne

/-- What a listener reads in a call and what waits for it then is what waited before, with the
message behind it that comes in while the listener is registered. -/
theorem unread (h : Attends ls c ms ls') (hc : c ≠ .close id)
    (hr : ls.isRegistered id = true → ls.hasInbox id = true)
    (hnew : ls.hasInbox ls.nextId = false) :
    (if c = .read id then ls.unread id else []) ++ ls'.unread id =
      ls.unread id ++ if ls.isRegistered id then ms else [] := by
  cases h with
  | keeps c hk | clears c hk =>
    rw [if_neg (hk id), ite_self, List.append_nil]
    rfl
  | removes id' => simp [Listeners.unread, Listeners.remove]
  | dispatches r m =>
    rw [if_neg (by simp), List.nil_append]
    unfold Listeners.hasInbox Table.contains at hr
    unfold Listeners.unread Listeners.dispatch
    rw [Table.get?_mapValues]
    cases hb : ls.inboxes.get? id with
    | some ms => by_cases hreg : ls.isRegistered id = true <;> simp [hreg]
    | none =>
      have hreg : ls.isRegistered id = false := by
        by_contra hreg
        simpa [hb] using hr (by simpa using hreg)
      simp [hreg]
  | adds =>
    rw [if_neg (by simp), List.nil_append, ite_self, List.append_nil]
    unfold Listeners.hasInbox Table.contains at hnew
    unfold Listeners.unread Listeners.add
    rw [Table.get?_insert]
    split
    · next hi =>
      subst hi
      have hnone : ls.inboxes.get? ls.nextId = none := by simpa using hnew
      rw [hnone]
      rfl
    · rfl
  | drains id' =>
    unfold Listeners.unread Listeners.drain
    rw [Table.get?_adjust]
    by_cases hi : id' = id
    · subst hi
      cases ls.inboxes.get? id' <;> simp
    · simp [hi]
  | closes id' =>
    have hne : id' ≠ id := fun he => hc (by rw [he])
    unfold Listeners.unread Listeners.close
    rw [Table.get?_erase, if_neg hne]
    simp

end Attends

/-! ## What adds up -/

/-- The rest of a connection after a call: what it is said to be able to do, and what it can. -/
structure Follows (q : Peer) (c : Call) (ms : List Message) (q' : Peer) : Prop where
  link : q'.link = q.link ∨ q'.link = .stream false
  replies : q'.replies = q.replies
  connected : q'.connected = true ↔ q.connected = true ∧ ∀ reason, c ≠ .failWriting reason
  sent : q'.sent.map Message.text = q.sent.map Message.text ++ q.queues c
  capabilities : q'.capabilities = ms.foldl Capabilities.note q.capabilities

theorem Follows.same {c : Call} (hq : q.queues c = []) (hc : ∀ reason, c ≠ .failWriting reason) :
    Follows q c [] q where
  link := .inl rfl
  replies := rfl
  connected := by simp [hc]
  sent := by simp [hq]
  capabilities := rfl

theorem follows (hp : q.replies = none) (c : Call) : Follows q c (q.takes c) (q.undergo c) := by
  cases c with
  | receive r =>
    have h := q.intake r
    rw [takes]
    generalize accepted q r = ms, q.undergo (.receive r) = q' at h
    cases h with
    | idle _ hr =>
      refine .same ?_ (by simp)
      cases r with
      | failed reason => rfl
      | line line =>
        simp only [queues, hr, Bool.false_and, Bool.false_eq_true, if_false]
        split <;> rfl
    | rejected line hr hl => exact .same (by simp [queues, hl]) (by simp)
    | handled line m changed hr hl hh =>
      have hc : m.command = "PING" → q.connected = true := by
        intro hping
        by_contra hc
        rw [(q.handle_eq_none m).mpr ⟨hping,by simpa using hc⟩] at hh
        cases hh
      rw [handle_eq_some hh]
      refine ⟨.inl rfl,rfl,by simp [dispatch],?_,rfl⟩
      by_cases hping : m.command = "PING"
      · simp [dispatch, queues, hl, hr, hc hping, hping, pong]
      · simp [dispatch, queues, hl, hping]
    | unanswered line m hr hl hping hc =>
      exact ⟨.inr rfl,rfl,by simp [endReading],by simp [endReading, queues, hl, hc],rfl⟩
    | failed reason hr => exact ⟨.inr rfl,rfl,by simp [endReading],by simp [endReading, queues],rfl⟩
  | finishStream =>
    rw [undergo]
    split
    · exact ⟨.inr rfl,rfl,by simp [endReading],by simp [endReading, queues],rfl⟩
    · exact .same rfl (by simp)
  | send command args =>
    rw [undergo, send_plain hp]
    by_cases hc : q.connected = true
    · rw [if_pos hc]
      exact ⟨.inl rfl,rfl,by simp,by simp [queues, hc],rfl⟩
    · rw [if_neg hc]
      exact .same (by simp [queues, hc]) (by simp)
  | subscribe | unsubscribe id | read id | close id =>
    exact ⟨.inl rfl,rfl,by simp [undergo, subscribe, unsubscribe],
      by simp [undergo, subscribe, unsubscribe, queues],rfl⟩
  | failWriting reason =>
    exact ⟨.inl rfl,rfl,by simp [undergo, endWriting],by simp [undergo, endWriting, queues],rfl⟩

theorem Streaming.undergo (hq : q.Streaming) (c : Call) : (q.undergo c).Streaming := by
  have hf := follows hq.plain c
  have ha := attends hq.link c
  refine ⟨?_,?_,?_,?_⟩
  · rcases hf.link with h | h <;> rw [h]
    · exact hq.link
    · simp
  · rw [hf.replies, hq.plain]
  · intro id hr
    rcases ha.registered_of hr with hr | hr
    · exact Nat.lt_of_lt_of_le (hq.registered id hr) ha.nextId_le
    · exact hr.2
  · intro id hb
    rcases ha.hasInbox_of hb with hb | hb
    · exact Nat.lt_of_lt_of_le (hq.inbox id hb) ha.nextId_le
    · exact hb.2

end Peer

namespace Network

variable {n : Network} {p : Nat}

/-! ## Runs -/

theorem receive_length (r : Received) : (n.receive p r).peers.length = n.peers.length :=
  (n.outer_receive p r).length

theorem deliver_peer (q : Nat) (m : Message) :
    (n.deliver p m).peer q = (n.onPeer p (·.dispatch m)).peer q :=
  (inner_wakeAll ..).peer q

theorem endStream_peer (q : Nat) : (n.endStream p).peer q = (n.onPeer p Peer.endReading).peer q :=
  (inner_wakeAll ..).peer q

theorem receive_peer (hp : p < n.peers.length) (r : Received) : (n.receive p r).peer p =
    if (n.peer p).isReading then (n.peer p).takeIn r else n.peer p := by
  unfold receive
  split
  · cases r with
    | failed reason =>
      rw [endStream_peer, peer_onPeer, if_pos ⟨rfl,hp⟩]
      rfl
    | line line =>
      rw [Peer.takeIn]
      dsimp only
      cases hl : Message.parse? line with
      | none => rfl
      | some m =>
        obtain ⟨notices,ha⟩ := (n.note [.lineReceived p line]).accept_eq p m
        dsimp only
        rw [ha, note_peer]
        cases hh : (n.peer p).handle m with
        | none =>
          dsimp only
          rw [endStream_peer, peer_onPeer, if_pos ⟨rfl,hp⟩]
          rfl
        | some changed =>
          have hp' : p < ((n.note [.lineReceived p line]).note notices).peers.length := hp
          dsimp only
          rw [deliver_peer, peer_onPeer, if_pos ⟨rfl,by simpa [onPeer] using hp'⟩, peer_onPeer,
            if_pos ⟨rfl,hp'⟩]
  · rfl

theorem call_peer (hp : p < n.peers.length) (hq : (n.peer p).Streaming) (c : Call) :
    (n.call p c).peer p = (n.peer p).undergo c := by
  cases c with
  | receive r => exact receive_peer hp r
  | finishStream =>
    rw [call, finishStream, Peer.undergo]
    split
    · rw [endStream_peer, peer_onPeer, if_pos ⟨rfl,hp⟩]
    · rfl
  | send command args =>
    have hs := Peer.send_plain hq.plain command args
    have hh : (n.handed p command args).peer p = ((n.peer p).send command args).2 := by
      rw [handed, peer_onPeer, if_pos ⟨rfl,hp⟩]
    rw [call, send_eq, Peer.undergo, ← hh]
    cases ha : ((n.peer p).send command args).1 with
    | error cause => rfl
    | ok lines =>
      have hnil : lines = [] := by
        rw [hs] at ha
        split at ha <;> cases ha
        rfl
      rw [hnil]
      rfl
  | failWriting reason =>
    rw [call, failWriting, Peer.undergo]
    split
    · rw [note_peer, peer_onPeer, if_pos ⟨rfl,hp⟩]
    · next hw => exact (Peer.endWriting_of_not_writing hq.link (by simpa using hw)).symm
  | _ =>
    rw [call, peer_onPeer, if_pos ⟨rfl,hp⟩]
    rfl

theorem call_length (c : Call) : (n.call p c).peers.length = n.peers.length := by
  cases c with
  | receive r => exact receive_length r
  | finishStream =>
    rw [call, finishStream]
    split
    · exact (n.outer_endStream p).length
    · rfl
  | send command args => exact (n.outer_send p command args).length
  | failWriting reason => exact (n.outer_failWriting p reason).length
  | _ => exact (n.outer_onPeer p _).length

section
variable {α : Type} (f : Peer → Call → List α) (c : Call) (cs cs' : List Call)

end

structure Streams (n : Network) (p : Nat) : Prop where
  there : p < n.peers.length
  streaming : (n.peer p).Streaming

variable {id : Nat} {c : Call} {cs : List Call}

theorem Streams.call (h : n.Streams p) (c : Call) : (n.call p c).Streams p := by
  refine ⟨by rw [call_length]; exact h.there,?_⟩
  rw [call_peer h.there h.streaming]
  exact h.streaming.undergo c

theorem Streams.calls (h : n.Streams p) (cs : List Call) : (n.calls p cs).Streams p := by
  induction cs generalizing n with
  | nil => exact h
  | cons c cs ih => exact ih (h.call c)

theorem Streams.follows (h : n.Streams p) (c : Call) :
    (n.peer p).Follows c ((n.peer p).takes c) ((n.call p c).peer p) := by
  rw [call_peer h.there h.streaming]
  exact Peer.follows h.streaming.plain c

theorem Streams.attends (h : n.Streams p) (c : Call) :
    Peer.Attends (n.peer p).listeners c ((n.peer p).takes c) ((n.call p c).peer p).listeners := by
  rw [call_peer h.there h.streaming]
  exact Peer.attends h.streaming.link c

theorem calls_capabilities (h : n.Streams p) (cs : List Call) :
    ((n.calls p cs).peer p).capabilities =
      (n.taken p cs).foldl Capabilities.note (n.peer p).capabilities := by
  induction cs generalizing n with
  | nil => rfl
  | cons c cs ih =>
    refine (ih (h.call c)).trans ?_
    rw [(h.follows c).capabilities, taken, taken, gather, List.foldl_append]

theorem streams_connect (n : Network) (address : String) :
    (n.connect address).peer n.peers.length = Peer.overStream address ∧
    (n.connect address).Streams n.peers.length := by
  have hq : (n.connect address).peer n.peers.length = Peer.overStream address := by
    simp [connect, peer, note]
  refine ⟨hq,by simp [connect, note],?_⟩
  rw [hq]
  exact ⟨by simp [Peer.overStream],rfl,by simp [Peer.overStream, Listeners.isRegistered],
    by simp [Peer.overStream, Listeners.hasInbox, Table.contains]⟩

end Network

end ChatToken
