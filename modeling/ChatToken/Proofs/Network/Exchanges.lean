import ChatToken.Proofs.Exchange.Verdicts
import ChatToken.Proofs.Listeners
import ChatToken.Proofs.Network.Frame

/-! # Exchanges side by side

Exchanges that go on at the same time have listeners of their own, so each of them gets every
message that its connection delivers as long as its listener is registered, whatever becomes of the
others.
-/
namespace ChatToken

namespace Peer

/-- From `q` to `q'`, the connection has delivered `ms`, and whoever listens as `id` has heard them
up to the point where it was dropped. -/
def Relays (q q' : Peer) (id : Nat) (ms : List Message) : Prop :=
  ∀ open_ unread, q.Hears id open_ unread → ∃ open' got, q'.Hears id open' (unread ++ got) ∧
    got <+: ms ∧ (open_ = false → got = []) ∧ (open' = true → open_ = true ∧ got = ms)

namespace Relays
variable {q q' q'' : Peer} {id : Nat} {ms ms' : List Message}

theorem of_hears (h : ∀ open_ unread, q.Hears id open_ unread → q'.Hears id open_ unread) :
    Relays q q' id [] := by
  intro open_ unread hh
  exact ⟨open_,[],by simpa using h _ _ hh,List.nil_prefix,fun _ => rfl,fun ho => ⟨ho,rfl⟩⟩

theorem refl (q : Peer) (id : Nat) : Relays q q id [] := of_hears fun _ _ h => h

theorem congr (h : q'.listeners = q.listeners) : Relays q q' id [] :=
  of_hears fun _ _ hh => hh.congr h

theorem trans (h : Relays q q' id ms) (h' : Relays q' q'' id ms') :
    Relays q q'' id (ms ++ ms') := by
  intro open_ unread hh
  obtain ⟨open₁,got,hh₁,hgot,hclosed,hopen⟩ := h _ _ hh
  obtain ⟨open₂,got',hh₂,hgot',hclosed',hopen'⟩ := h' _ _ hh₁
  refine ⟨open₂,got ++ got',by rwa [← List.append_assoc],?_,?_,?_⟩
  · cases ho : open₁ with
    | true =>
      rw [(hopen ho).2]
      exact List.prefix_append_right_inj _ |>.mpr hgot'
    | false =>
      rw [hclosed' ho, List.append_nil]
      exact hgot.trans (List.prefix_append ..)
  · intro ho
    have ho₁ : open₁ = false := by
      cases ho' : open₁ with
      | false => rfl
      | true => rw [(hopen ho').1] at ho; cases ho
    rw [hclosed ho, hclosed' ho₁]
    rfl
  · intro ho
    obtain ⟨ho₁,rfl⟩ := hopen' ho
    obtain ⟨ho₀,rfl⟩ := hopen ho₁
    exact ⟨ho₀,rfl⟩

theorem dispatch (q : Peer) (id : Nat) (m : Message) : Relays q (q.dispatch m) id [m] := by
  intro open_ unread hh
  have hd := hh.dispatch m
  cases open_ with
  | true => exact ⟨true,[m],by simpa using hd,List.prefix_refl _,by simp,fun _ => ⟨rfl,rfl⟩⟩
  | false => exact ⟨false,[],by simpa using hd,List.nil_prefix,fun _ => rfl,by simp⟩

/-- All listeners are dropped, and hear no more. -/
theorem drop {q q' : Peer} (h : ∀ open_ unread, q.Hears id open_ unread → q'.Hears id false unread) :
    Relays q q' id [] := by
  intro open_ unread hh
  exact ⟨false,[],by simpa using h _ _ hh,List.nil_prefix,fun _ => rfl,by simp⟩

end Relays

end Peer

namespace Network

structure Tidy (n : Network) : Prop where
  known : ∀ h x, n.exchanges.get? h = some x → x.peer < n.peers.length →
    x.listener < (n.peer x.peer).listeners.nextId
  apart : ∀ h h' x x', n.exchanges.get? h = some x → n.exchanges.get? h' = some x' → h ≠ h' →
    x.peer = x'.peer → x.peer < n.peers.length → x.listener ≠ x'.listener

/-- From `n` to `n'`, every connection `p` has delivered `ms p`, and all exchanges but that of `h`
have gone on. -/
structure Carries (h : Option Holder) (ms : Nat → List Message) (n n' : Network) : Prop where
  tidy : n'.Tidy
  length : n'.peers.length = n.peers.length
  exchanges : ∀ h', h ≠ some h' → n'.exchanges.get? h' = n.exchanges.get? h'
  relays : ∀ h' x, h ≠ some h' → n.exchanges.get? h' = some x → x.peer < n.peers.length →
    (n.peer x.peer).Relays (n'.peer x.peer) x.listener (ms x.peer)

namespace Carries
variable {n n' n'' : Network} {h : Option Holder} {ms ms' : Nat → List Message}

theorem trans (c : Carries h ms n n') (c' : Carries h ms' n' n'') :
    Carries h (fun p => ms p ++ ms' p) n n'' where
  tidy := c'.tidy
  length := c'.length.trans c.length
  exchanges h' hh := (c'.exchanges h' hh).trans (c.exchanges h' hh)
  relays h' x hh hx hp :=
    (c.relays h' x hh hx hp).trans
      (c'.relays h' x hh ((c.exchanges h' hh).trans hx) (c.length ▸ hp))

theorem weaken (c : Carries none ms n n') (h : Option Holder) : Carries h ms n n' where
  tidy := c.tidy
  length := c.length
  exchanges h' _ := c.exchanges h' (by simp)
  relays h' x _ := c.relays h' x (by simp)

/-- All exchanges are as they were, and so are the connections but for what they have delivered. -/
theorem of_relays (ht : n.Tidy) (hx : n'.exchanges = n.exchanges)
    (hl : n'.peers.length = n.peers.length)
    (hk : ∀ p, (n.peer p).listeners.nextId ≤ (n'.peer p).listeners.nextId)
    (hr : ∀ p id, p < n.peers.length → (n.peer p).Relays (n'.peer p) id (ms p)) :
    Carries none ms n n' where
  tidy := by
    refine ⟨?_,?_⟩
    · intro h x hh hp
      rw [hx] at hh
      exact Nat.lt_of_lt_of_le (ht.known h x hh (hl ▸ hp)) (hk _)
    · rw [hx, hl]
      exact ht.apart
  length := hl
  exchanges h' _ := by rw [hx]
  relays h' x _ _ hp := hr _ _ hp

theorem of_eq (ht : n.Tidy) (hx : n'.exchanges = n.exchanges) (hp : n'.peers = n.peers) :
    Carries none (fun _ => []) n n' := by
  have hpeer : ∀ p, n'.peer p = n.peer p := fun p => congrArg (·.getD p default) hp
  refine of_relays ht hx (congrArg _ hp) ?_ ?_
  · intro p
    exact Nat.le_of_eq (congrArg (·.listeners.nextId) (hpeer p)).symm
  · intro p id _
    rw [hpeer]
    exact .refl _ _

theorem of_inner (ht : n.Tidy) (hi : Inner n n') : Carries none (fun _ => []) n n' :=
  of_eq ht hi.exchanges hi.peers

theorem then_inner (c : Carries h ms n n') (hi : Inner n' n'') : Carries h ms n n'' := by
  simpa using c.trans ((of_inner c.tidy hi).weaken h)

theorem after_inner (ht : n.Tidy) (hi : Inner n n') (c : n'.Tidy → Carries h ms n' n'') :
    Carries h ms n n'' := by
  have c₀ := of_inner ht hi
  simpa using (c₀.weaken h).trans (c c₀.tidy)

end Carries

section
variable {n : Network}

/-- Something happens to the connection `p` that delivers `ms`. -/
theorem carries_onPeer (ht : n.Tidy) (p : Nat) {f : Peer → Peer} {ms : List Message}
    (hk : (n.peer p).listeners.nextId ≤ (f (n.peer p)).listeners.nextId)
    (hr : ∀ id, (n.peer p).Relays (f (n.peer p)) id ms) :
    Carries none (fun q => if p = q then ms else []) n (n.onPeer p f) := by
  refine .of_relays ht rfl (List.length_modify ..) ?_ ?_
  · intro q
    rw [peer_onPeer]
    split
    · next hq =>
      obtain ⟨rfl,_⟩ := hq
      exact hk
    · exact Nat.le_refl _
  · intro q id hq
    rw [peer_onPeer]
    by_cases hp : p = q
    · subst hp
      simpa [hq] using hr id
    · simpa [hp] using Peer.Relays.refl _ id

theorem nextId_subscribe (q : Peer) : q.subscribe.2.listeners.nextId = q.listeners.nextId + 1 := by
  unfold Peer.subscribe
  dsimp only
  split <;> rfl

section
variable (n) (h : Holder) (p : Nat) (matcher : Matcher) (timeout : Span)

theorem openExchange_exchange (h' : Holder) :
    (n.openExchange h p matcher timeout).exchanges.get? h' =
      if h = h' then some (Exchange.listen (n.peer p) p matcher timeout n.now).1
      else n.exchanges.get? h' :=
  Table.get?_insert ..

theorem openExchange_peer (q : Nat) :
    (n.openExchange h p matcher timeout).peer q =
      if p = q ∧ q < n.peers.length then (n.peer p).subscribe.2 else n.peer q :=
  n.peer_onPeer p q _

theorem openExchange_length :
    (n.openExchange h p matcher timeout).peers.length = n.peers.length :=
  List.length_modify ..

theorem nextId_openExchange (q : Nat) : (n.peer q).listeners.nextId ≤
    ((n.openExchange h p matcher timeout).peer q).listeners.nextId := by
  rw [openExchange_peer]
  split
  · next hq =>
    rw [nextId_subscribe, hq.1]
    exact Nat.le_succ _
  · exact Nat.le_refl _

end

/-- The number of a new listener is above those of all others. -/
theorem tidy_openExchange (ht : n.Tidy) (h : Holder) (p : Nat) (matcher : Matcher)
    (timeout : Span) : (n.openExchange h p matcher timeout).Tidy where
  known := by
    intro h' x' hh hp
    rw [openExchange_length] at hp
    rw [openExchange_exchange] at hh
    split at hh
    · cases hh
      rw [openExchange_peer, if_pos ⟨rfl,hp⟩, nextId_subscribe]
      exact Nat.lt_succ_self _
    · exact Nat.lt_of_lt_of_le (ht.known h' x' hh hp) (nextId_openExchange ..)
  apart := by
    intro h₁ h₂ x₁ x₂ hh₁ hh₂ hne hp hlt
    rw [openExchange_length] at hlt
    rw [openExchange_exchange] at hh₁ hh₂
    have hnew : ∀ h' x', n.exchanges.get? h' = some x' → x'.peer = p → x'.peer < n.peers.length →
        x'.listener ≠ (n.peer p).subscribe.1 := by
      rintro h' x' hh' rfl hp'
      exact Nat.ne_of_lt (ht.known h' x' hh' hp')
    split at hh₁ <;> split at hh₂
    · next he₁ he₂ => exact absurd (he₁.symm.trans he₂) hne
    · cases hh₁
      exact (hnew h₂ x₂ hh₂ hp.symm (hp ▸ hlt)).symm
    · cases hh₂
      exact hnew h₁ x₁ hh₁ hp hlt
    · exact ht.apart h₁ h₂ x₁ x₂ hh₁ hh₂ hne hp hlt

theorem carries_openExchange (ht : n.Tidy) (h : Holder) (p : Nat) (matcher : Matcher)
    (timeout : Span) :
    Carries (some h) (fun _ => []) n (n.openExchange h p matcher timeout) where
  tidy := tidy_openExchange ht h p matcher timeout
  length := openExchange_length ..
  exchanges h' hh := by rw [openExchange_exchange, if_neg fun he => hh (congrArg some he)]
  relays h' x' hh hx' hp' := by
    rw [openExchange_peer]
    by_cases hq : p = x'.peer
    · subst hq
      rw [if_pos ⟨rfl,hp'⟩]
      exact .of_hears fun _ _ hears => hears.subscribe
    · rw [if_neg fun hc => hq hc.1]
      exact .refl _ _

/-- The exchange of `h` stops listening, or takes its messages, which is no concern of the others. -/
theorem carries_own (ht : n.Tidy) {n' : Network} {h : Holder} {x : Exchange Matcher}
    (hx : n.exchanges.get? h = some x) {changed : Peer}
    (hlen : n'.peers.length = n.peers.length)
    (hpeer : ∀ q, n'.peer q = if x.peer = q ∧ q < n.peers.length then changed else n.peer q)
    (hn : changed.listeners.nextId = (n.peer x.peer).listeners.nextId)
    (hf : ∀ id open_ unread, x.listener ≠ id → (n.peer x.peer).Hears id open_ unread →
      changed.Hears id open_ unread)
    (hother : ∀ h', h ≠ h' → n'.exchanges.get? h' = n.exchanges.get? h')
    (hown : ∀ x', n'.exchanges.get? h = some x' → x'.peer = x.peer ∧ x'.listener = x.listener) :
    Carries (some h) (fun _ => []) n n' := by
  -- every exchange that goes on has the listener that it had
  have hold : ∀ h' x', n'.exchanges.get? h' = some x' →
      ∃ x₀, n.exchanges.get? h' = some x₀ ∧ x'.peer = x₀.peer ∧ x'.listener = x₀.listener := by
    intro h' x' hx'
    by_cases hh : h = h'
    · subst hh
      exact ⟨x,hx,hown x' hx'⟩
    · exact ⟨x',(hother h' hh).symm.trans hx',rfl,rfl⟩
  refine ⟨⟨?_,?_⟩,hlen,fun h' hh => hother h' fun he => hh (congrArg some he),?_⟩
  · intro h' x' hh' hp
    obtain ⟨x₀,hx₀,hp₀,hl₀⟩ := hold h' x' hh'
    have hk := ht.known h' x₀ hx₀ (by rw [← hp₀, ← hlen]; exact hp)
    rw [hl₀, hp₀, hpeer]
    split
    · next hq =>
      rw [hn, hq.1]
      exact hk
    · exact hk
  · intro h₁ h₂ x₁ x₂ hh₁ hh₂ hne hp hlt
    obtain ⟨y₁,hy₁,hp₁,hl₁⟩ := hold h₁ x₁ hh₁
    obtain ⟨y₂,hy₂,hp₂,hl₂⟩ := hold h₂ x₂ hh₂
    rw [hl₁, hl₂]
    rw [hp₁, hlen] at hlt
    exact ht.apart h₁ h₂ y₁ y₂ hy₁ hy₂ hne (by rw [← hp₁, ← hp₂]; exact hp) hlt
  · intro h' x' hh hx' hp
    rw [hpeer]
    by_cases hq : x.peer = x'.peer
    · have hne := ht.apart h h' x x' hx hx' (fun he => hh (congrArg some he)) hq (hq ▸ hp)
      rw [if_pos ⟨hq,hp⟩, ← hq]
      exact .of_hears fun _ _ hears => hf _ _ _ hne hears
    · rw [if_neg fun hc => hq hc.1]
      exact .refl _ _

theorem closeExchange_of_none {h : Holder} (hx : n.exchanges.get? h = none) :
    n.closeExchange h = n := by
  rw [closeExchange, hx]

theorem closeExchange_exchange (n : Network) (h h' : Holder) :
    (n.closeExchange h).exchanges.get? h' = if h = h' then none else n.exchanges.get? h' := by
  cases hx : n.exchanges.get? h with
  | none =>
    rw [closeExchange_of_none hx]
    split
    · next hh => rw [← hh, hx]
    · rfl
  | some x =>
    rw [closeExchange, hx]
    exact Table.get?_erase ..

theorem closeExchange_peer {h : Holder} {x : Exchange Matcher} (hx : n.exchanges.get? h = some x)
    (q : Nat) : (n.closeExchange h).peer q =
      if x.peer = q ∧ q < n.peers.length then (n.peer x.peer).hangUp x.listener
      else n.peer q := by
  rw [closeExchange, hx]
  refine (n.peer_onPeer x.peer q _).trans ?_
  split
  · next hq => rw [hq.1]
  · rfl

theorem carries_closeExchange (ht : n.Tidy) (h : Holder) :
    Carries (some h) (fun _ => []) n (n.closeExchange h) := by
  cases hx : n.exchanges.get? h with
  | none =>
    rw [closeExchange_of_none hx]
    exact (Carries.of_inner ht (.refl n)).weaken _
  | some x =>
    refine carries_own ht hx ?_ (closeExchange_peer hx) rfl (fun _ _ _ hne hh => hh.hangUp hne) ?_ ?_
    · rw [closeExchange, hx]
      exact List.length_modify ..
    · intro h' hh
      rw [closeExchange_exchange, if_neg hh]
    · intro x' hx'
      rw [closeExchange_exchange, if_pos rfl] at hx'
      cases hx'

def looked (n : Network) (x : Exchange Matcher) : Exchange.Reading Matcher :=
  (x.look Matcher.classify n.now n.sounded n.tickets (n.peer x.peer)).1

def drained (n : Network) (h : Holder) (x : Exchange Matcher) : Network :=
  let r := n.looked x
  let n' := (n.note (r.pieces.map fun piece => .pieceReceived piece.utf8ByteSize)).onPeer x.peer
    fun _ => { n.peer x.peer with listeners := (n.peer x.peer).listeners.drain x.listener }
  { n' with
    tickets := n.tickets + 1
    exchanges := n.exchanges.adjust h fun _ => r.exchange }

/-- An exchange that is resolved is closed. -/
theorem pollExchange_eq {h : Holder} {x : Exchange Matcher} (hx : n.exchanges.get? h = some x) :
    n.pollExchange h = ((n.looked x).result,
      match (n.looked x).result with
      | none => n.drained h x
      | some result => ((n.drained h x).note (resultNotices result)).closeExchange h) := by
  unfold pollExchange
  rw [hx]
  change (match (n.looked x).result with
    | none => (none, n.drained h x)
    | some result => (some result,
        ((n.drained h x).note (resultNotices result)).closeExchange h)) = _
  cases (n.looked x).result <;> rfl

theorem drained_exchange {h : Holder} {x : Exchange Matcher} (hx : n.exchanges.get? h = some x)
    (h' : Holder) : (n.drained h x).exchanges.get? h' =
      if h = h' then some (n.looked x).exchange else n.exchanges.get? h' := by
  refine (Table.get?_adjust ..).trans ?_
  split
  · next hh =>
    rw [← hh, hx]
    rfl
  · rfl

theorem drained_peer (h : Holder) (x : Exchange Matcher) (q : Nat) :
    (n.drained h x).peer q = if x.peer = q ∧ q < n.peers.length then
      { n.peer x.peer with listeners := (n.peer x.peer).listeners.drain x.listener }
    else n.peer q := n.peer_onPeer x.peer q _

theorem looked_exchange (n : Network) (x : Exchange Matcher) :
    (n.looked x).exchange.peer = x.peer ∧ (n.looked x).exchange.listener = x.listener ∧
    (n.looked x).exchange.timeout = x.timeout := by
  unfold looked Exchange.look
  dsimp only
  rw [Exchange.poll_exchange, Exchange.read_exchange]
  exact ⟨rfl,rfl,rfl⟩

theorem looked_timer (n : Network) (x : Exchange Matcher) :
    (n.looked x).exchange.timer = (x.arm n.now n.tickets).timer := by
  unfold looked Exchange.look
  dsimp only
  rw [Exchange.poll_exchange, Exchange.read_exchange]

theorem looked_since (n : Network) (x : Exchange Matcher) :
    (n.looked x).exchange.since = x.since := by
  unfold looked Exchange.look
  dsimp only
  rw [Exchange.poll_exchange, Exchange.read_exchange]
  rfl

/-- Once the timer of an exchange is set, it does not matter when somebody looks at it. -/
theorem looked_of_timer {x : Exchange Matcher} {timer : Timer} (h : x.timer = some timer)
    (now : Nat) : ({ n with now } : Network).looked x = n.looked x := by
  have harm : ∀ now, x.arm now n.tickets = x := by
    intro now
    rw [Exchange.arm, h, Option.getD_some, ← h]
  simp only [looked, Exchange.look, Exchange.poll, harm]
  rfl

theorem carries_drained (ht : n.Tidy) {h : Holder} {x : Exchange Matcher}
    (hx : n.exchanges.get? h = some x) :
    Carries (some h) (fun _ => []) n (n.drained h x) := by
  refine carries_own ht hx (List.length_modify ..) (drained_peer h x) rfl
    (fun _ _ _ hne hh => hh.drain_other hne) ?_ ?_
  · intro h' hh
    rw [drained_exchange hx, if_neg hh]
  · intro x' hx'
    rw [drained_exchange hx, if_pos rfl] at hx'
    cases hx'
    obtain ⟨hp,hl,_⟩ := n.looked_exchange x
    exact ⟨hp,hl⟩

theorem carries_pollExchange (ht : n.Tidy) (h : Holder) :
    Carries (some h) (fun _ => []) n (n.pollExchange h).2 := by
  cases hx : n.exchanges.get? h with
  | none =>
    have he : (n.pollExchange h).2 = n := by rw [pollExchange, hx]
    rw [he]
    exact (Carries.of_inner ht (.refl n)).weaken _
  | some x =>
    have hd := carries_drained ht hx
    rw [pollExchange_eq hx]
    dsimp only
    split
    · exact hd
    · next result _ =>
      have hn := hd.then_inner ((n.drained h x).inner_note (resultNotices result))
      simpa using hn.trans (carries_closeExchange hn.tidy h)

end

end Network
end ChatToken
