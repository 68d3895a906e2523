import ChatToken.Proofs.Network.Delivery
import ChatToken.Proofs.Table

/-! # Who listens

Who is registered with a connection can be reached there. So deliveries drop nobody, and only the
start and the end of an exchange and the end of a connection change who listens.
-/
namespace ChatToken

namespace Listeners

variable (ls : Listeners) (id id' : Nat)

theorem hasInbox_dispatch (m : Message) : (ls.dispatch m).hasInbox id = ls.hasInbox id := by
  unfold hasInbox dispatch Table.contains
  rw [Table.get?_mapValues, Option.isSome_map]

theorem hasInbox_drain : (ls.drain id').hasInbox id = ls.hasInbox id := by
  unfold hasInbox drain Table.contains
  rw [Table.get?_adjust]
  split <;> simp

theorem hasInbox_close : (ls.close id').hasInbox id = (ls.hasInbox id && id != id') := by
  unfold hasInbox close Table.contains
  rw [Table.get?_erase]
  by_cases h : id' = id
  · simp [h]
  · simp [h, Ne.symm h]

theorem hasInbox_add : ls.add.2.hasInbox id = (ls.hasInbox id || id == ls.nextId) := by
  unfold hasInbox add Table.contains
  rw [Table.get?_insert]
  by_cases h : ls.nextId = id
  · simp [h]
  · simp [h, Ne.symm h]

theorem registered_dispatch (m : Message) (h : ∀ id ∈ ls.registered, ls.hasInbox id = true) :
    (ls.dispatch m).registered = ls.registered := List.filter_eq_self.mpr h

end Listeners

namespace Network

def registered (n : Network) (p : Nat) : List Nat := (n.peer p).listeners.registered

def hasInbox (n : Network) (p id : Nat) : Bool := (n.peer p).listeners.hasInbox id

/-- From `n` to `n'`, nobody has begun or ceased to listen. -/
structure Stays (n n' : Network) : Prop where
  exchanges : n'.exchanges = n.exchanges
  registered : ∀ p, n'.registered p = n.registered p
  inbox : ∀ p id, n'.hasInbox p id = n.hasInbox p id

def Heard (n : Network) : Prop := ∀ p, ∀ id ∈ n.registered p, n.hasInbox p id = true

namespace Stays
variable {n n' n'' : Network}

theorem refl (n : Network) : Stays n n := ⟨rfl,fun _ => rfl,fun _ _ => rfl⟩

theorem trans (h : Stays n n') (h' : Stays n' n'') : Stays n n'' where
  exchanges := h'.exchanges.trans h.exchanges
  registered p := (h'.registered p).trans (h.registered p)
  inbox p id := (h'.inbox p id).trans (h.inbox p id)

theorem heard (h : Stays n n') (hn : n.Heard) : n'.Heard := by
  intro p id hid
  rw [h.registered] at hid
  rw [h.inbox]
  exact hn p id hid

theorem of_inner (h : Inner n n') : Stays n n' where
  exchanges := h.exchanges
  registered p := by rw [Network.registered, h.peer]; rfl
  inbox p id := by rw [Network.hasInbox, h.peer]; rfl

/-- Something happens to a connection that leaves its listeners alone. -/
theorem onPeer (n : Network) (p : Nat) {f : Peer → Peer}
    (hr : (f (n.peer p)).listeners.registered = n.registered p)
    (hi : ∀ id, (f (n.peer p)).listeners.hasInbox id = n.hasInbox p id) :
    Stays n (n.onPeer p f) where
  exchanges := rfl
  registered q := by
    rw [Network.registered, peer_onPeer]
    split
    · next hq => rw [← hq.1, hr]
    · rfl
  inbox q id := by
    rw [Network.hasInbox, peer_onPeer]
    split
    · next hq => rw [← hq.1, hi]
    · rfl

theorem listeners (n : Network) (p : Nat) {f : Peer → Peer}
    (hf : (f (n.peer p)).listeners = (n.peer p).listeners) : Stays n (n.onPeer p f) :=
  .onPeer n p (congrArg Listeners.registered hf) fun id => congrArg (·.hasInbox id) hf

end Stays

section
variable {n : Network}

theorem stays_failWriting (n : Network) (p : Nat) (reason : String) :
    Stays n (n.failWriting p reason) := by
  unfold failWriting
  split
  · exact (Stays.listeners n p (f := Peer.endWriting) rfl).trans (.of_inner (inner_note ..))
  · exact .refl n

theorem stays_deliver (hn : n.Heard) (p : Nat) (m : Message) : Stays n (n.deliver p m) :=
  (Stays.onPeer n p (f := (·.dispatch m)) (Listeners.registered_dispatch _ m (hn p))
    fun id => Listeners.hasInbox_dispatch _ id m).trans (.of_inner (inner_wakeAll ..))

theorem stays_deliverLines (hn : n.Heard) (p : Nat) (lines : List String) :
    Stays n (n.deliverLines p lines).2 := by
  induction lines generalizing n with
  | nil => exact .refl n
  | cons line lines ih =>
    unfold deliverLines
    cases Message.parse? line with
    | none => exact .refl n
    | some m =>
      have hd := stays_deliver hn p m
      exact hd.trans (ih (hd.heard hn))

theorem stays_handed (n : Network) (p : Nat) (command : String) (args : List String) :
    Stays n (n.handed p command args) :=
  (Stays.of_inner (inner_note ..)).trans (.listeners _ p (send_listeners ..))

theorem stays_send (hn : n.Heard) (p : Nat) (command : String) (args : List String) :
    Stays n (n.send p command args).2 := by
  have hh := n.stays_handed p command args
  rw [send_eq]
  cases ((n.peer p).send command args).1 with
  | error cause => exact hh
  | ok lines => exact hh.trans (stays_deliverLines (hh.heard hn) p lines)

theorem mem_loadsListening {p : Nat} {ref : LoadRef} :
    ref ∈ n.loadsListening p ↔ ∃ x, n.exchanges.get? (.load ref) = some x ∧ x.peer = p ∧
      x.listener ∈ n.registered p := by
  have hr : ∀ id, (n.peer p).listeners.isRegistered id = true ↔ id ∈ n.registered p :=
    fun id => List.contains_iff_mem
  simp only [loadsListening, List.mem_filterMap, Prod.exists, Table.mem_entries_iff, hr]
  constructor
  · rintro ⟨h,x,hx,hsome⟩
    cases h with
    | caller c => cases hsome
    | load ref' =>
      dsimp only at hsome
      rw [Option.ite_none_right_eq_some, Option.some.injEq] at hsome
      obtain ⟨hl,rfl⟩ := hsome
      exact ⟨x,hx,hl⟩
  · rintro ⟨x,hx,hl⟩
    exact ⟨.load ref,x,hx,if_pos hl⟩

/-- All listeners of the connection `p` are dropped, and nobody else. The loads among them are
woken. -/
structure Closes (n : Network) (p : Nat) (n' : Network) : Prop where
  exchanges : n'.exchanges = n.exchanges
  registered : ∀ q, n'.registered q = if p = q then [] else n.registered q
  inbox : ∀ q id, n'.hasInbox q id = n.hasInbox q id
  told : ∀ ref ∈ n.loadsListening p, ref ∈ n'.ready

theorem registered_of_not_lt {p : Nat} (hp : ¬ p < n.peers.length) : n.registered p = [] := by
  rw [registered, peer, List.getD_eq_getElem?_getD, List.getElem?_eq_none (Nat.le_of_not_lt hp)]
  rfl

theorem closes_onPeer (n : Network) (p : Nat) {f : Peer → Peer}
    (hf : (f (n.peer p)).listeners = (n.peer p).listeners.clear) {n' : Network}
    (hi : Inner (n.onPeer p f) n') : Closes n p (n'.wakeAll (n.loadsListening p)) := by
  have hs := Stays.of_inner (hi.trans (n'.inner_wakeAll (n.loadsListening p)))
  refine ⟨hs.exchanges,?_,?_,fun ref href => (mem_wakeAll _).mpr (.inr href)⟩
  · intro q
    rw [hs.registered, registered, peer_onPeer]
    by_cases hq : p = q
    · subst hq
      rw [if_pos rfl]
      split
      · rw [hf]
        rfl
      · next hlt => exact registered_of_not_lt fun h => hlt ⟨rfl,h⟩
    · rw [if_neg fun h => hq h.1, if_neg hq]
      rfl
  · intro q id
    rw [hs.inbox, hasInbox, peer_onPeer]
    split
    · next hq =>
      rw [← hq.1, hf]
      rfl
    · rfl

theorem closes_endStream (n : Network) (p : Nat) : Closes n p (n.endStream p) :=
  closes_onPeer n p rfl (inner_note ..)

theorem closes_disconnect (n : Network) (p : Nat) : Closes n p (n.disconnect p) :=
  closes_onPeer n p rfl (.refl _)

theorem endStream_link {p : Nat} (hp : p < n.peers.length) :
    ((n.endStream p).peer p).link = .stream false := by
  have hi : Inner (n.onPeer p Peer.endReading) (n.endStream p) :=
    (inner_note ..).trans (inner_wakeAll ..)
  rw [hi.peer, peer_onPeer, if_pos ⟨rfl,hp⟩]
  rfl

theorem Stays.loadsListening {n' : Network} (hs : Stays n n') (p : Nat) :
    n'.loadsListening p = n.loadsListening p := by
  have hr : ∀ id, (n'.peer p).listeners.isRegistered id = (n.peer p).listeners.isRegistered id :=
    fun id => congrArg (·.contains id) (hs.registered p)
  simp only [Network.loadsListening, hs.exchanges, hr]

def EndsStream (n : Network) (p : Nat) (n' : Network) : Prop :=
  Closes n p n' ∧ (p < n.peers.length → (n'.peer p).link = .stream false)

theorem endsStream_endStream (n : Network) (p : Nat) : n.EndsStream p (n.endStream p) :=
  ⟨closes_endStream n p,endStream_link⟩

theorem EndsStream.of_inner {n₀ : Network} {p : Nat} (h : Inner n₀ n) {n' : Network}
    (he : n.EndsStream p n') : n₀.EndsStream p n' := by
  have hs := Stays.of_inner h
  obtain ⟨⟨hx,hr,hi,ht⟩,hl⟩ := he
  refine ⟨⟨hx.trans hs.exchanges,?_,fun q id => (hi q id).trans (hs.inbox q id),?_⟩,?_⟩
  · intro q
    rw [hr, hs.registered]
  · intro ref href
    exact ht ref (hs.loadsListening p ▸ href)
  · rwa [← h.peers]

theorem accept_listening (hn : n.Heard) (p : Nat) (m : Message) :
    Stays n (n.accept p m) ∨ n.EndsStream p (n.accept p m) := by
  obtain ⟨notices,h⟩ := n.accept_eq p m
  have hi := n.inner_note notices
  rw [h]
  cases hh : (n.peer p).handle m with
  | none => exact .inr (.of_inner hi (endsStream_endStream _ p))
  | some changed =>
    have hs := (Stays.of_inner hi).trans (.listeners _ p (f := fun _ => changed)
      (handle_listeners hh))
    exact .inl (hs.trans (stays_deliver (hs.heard hn) p m))

theorem receive_listening (hn : n.Heard) (p : Nat) (r : Received) :
    Stays n (n.receive p r) ∨ ((n.peer p).isReading = true ∧ n.EndsStream p (n.receive p r)) := by
  unfold receive
  split
  · next hreading =>
    cases r with
    | failed reason =>
      exact .inr ⟨hreading,.of_inner (inner_note ..) (endsStream_endStream _ p)⟩
    | line line =>
      have hi : Inner n (n.note [.lineReceived p line]) := inner_note ..
      dsimp only
      split
      · exact (accept_listening ((Stays.of_inner hi).heard hn) p _).imp
          (Stays.of_inner hi).trans fun he => ⟨hreading,.of_inner hi he⟩
      · exact .inl (.of_inner hi)
  · exact .inl (.refl n)

end

/-! ## The exchange of one holder -/

def Others (h : Holder) (n n' : Network) : Prop :=
  ∀ h', h ≠ h' → n'.exchanges.get? h' = n.exchanges.get? h'

structure Kept (h : Holder) (x : Exchange Matcher) (n n' : Network) : Prop where
  others : Others h n n'
  exchange : ∃ x', n'.exchanges.get? h = some x' ∧ x'.peer = x.peer ∧ x'.listener = x.listener
  registered : ∀ q, n'.registered q = n.registered q
  inbox : ∀ q id, n'.hasInbox q id = n.hasInbox q id

structure Ended (h : Holder) (x : Exchange Matcher) (n n' : Network) : Prop where
  others : Others h n n'
  exchange : n'.exchanges.get? h = none
  registered : ∀ q, n'.registered q =
    if x.peer = q then (n.registered q).filter (· != x.listener) else n.registered q
  inbox : ∀ q id, (x.peer = q → x.listener ≠ id) → n'.hasInbox q id = n.hasInbox q id

structure Began (h : Holder) (x : Exchange Matcher) (n n' : Network) : Prop where
  others : Others h n n'
  exchange : n'.exchanges.get? h = some x
  fresh : x.listener = (n.peer x.peer).listeners.nextId
  registered : ∀ q, n'.registered q = n.registered q ++
    if x.peer = q ∧ q < n.peers.length ∧ (n.peer q).dropsNew = false then [x.listener] else []
  inbox : ∀ q id, n'.hasInbox q id =
    (n.hasInbox q id || decide (x.peer = q ∧ q < n.peers.length ∧ x.listener = id))

structure Tried (h : Holder) (n n' : Network) : Prop where
  others : Others h n n'
  exchange : n'.exchanges.get? h = none
  registered : ∀ q, n'.registered q = n.registered q
  inbox : ∀ h' x', n.exchanges.get? h' = some x' → h ≠ h' → x'.peer < n.peers.length →
    n'.hasInbox x'.peer x'.listener = n.hasInbox x'.peer x'.listener

/-- Every registered listener belongs to an exchange that goes on, and is registered once. -/
structure Owned (n : Network) : Prop where
  tidy : n.Tidy
  inbox : ∀ h x, n.exchanges.get? h = some x → x.peer < n.peers.length →
    n.hasInbox x.peer x.listener = true
  owner : ∀ p, ∀ id ∈ n.registered p,
    ∃ h x, n.exchanges.get? h = some x ∧ x.peer = p ∧ x.listener = id
  nodup : ∀ p, (n.registered p).Nodup

section
variable {n n' n'' : Network} {h : Holder} {x : Exchange Matcher}

theorem lt_of_registered {p id : Nat} (h : id ∈ n.registered p) : p < n.peers.length := by
  by_contra hp
  rw [registered_of_not_lt hp] at h
  cases h

namespace Owned

theorem heard (hn : n.Owned) : n.Heard := by
  intro p id hid
  obtain ⟨h,x,hx,rfl,rfl⟩ := hn.owner p id hid
  exact hn.inbox h x hx (lt_of_registered hid)

theorem nextId_not_mem (hn : n.Owned) (p : Nat) :
    (n.peer p).listeners.nextId ∉ n.registered p := by
  intro hid
  obtain ⟨h,x,hx,rfl,hl⟩ := hn.owner p _ hid
  exact Nat.ne_of_lt (hn.tidy.known h x hx (lt_of_registered hid)) hl

theorem stays (hn : n.Owned) (hs : Stays n n') (ht : n'.Tidy)
    (hlen : n'.peers.length = n.peers.length) : n'.Owned where
  tidy := ht
  inbox := by
    intro h x hx hp
    rw [hs.exchanges] at hx
    rw [hs.inbox]
    exact hn.inbox h x hx (hlen ▸ hp)
  owner := by
    intro p id hid
    rw [hs.registered] at hid
    rw [hs.exchanges]
    exact hn.owner p id hid
  nodup p := hs.registered p ▸ hn.nodup p

theorem closes {p : Nat} (hn : n.Owned) (hc : Closes n p n') (ht : n'.Tidy)
    (hlen : n'.peers.length = n.peers.length) : n'.Owned where
  tidy := ht
  inbox := by
    intro h x hx hp
    rw [hc.exchanges] at hx
    rw [hc.inbox]
    exact hn.inbox h x hx (hlen ▸ hp)
  owner := by
    intro q id hid
    rw [hc.registered] at hid
    rw [hc.exchanges]
    split at hid
    · cases hid
    · exact hn.owner q id hid
  nodup q := by
    rw [hc.registered]
    split
    · exact List.nodup_nil
    · exact hn.nodup q

theorem kept (hn : n.Owned) (hx : n.exchanges.get? h = some x) (hk : Kept h x n n') (ht : n'.Tidy)
    (hlen : n'.peers.length = n.peers.length) : n'.Owned := by
  obtain ⟨x₁,hx₁,hp₁,hl₁⟩ := hk.exchange
  refine ⟨ht,?_,?_,fun p => hk.registered p ▸ hn.nodup p⟩
  · intro h' x' hx' hp
    rw [hlen] at hp
    rw [hk.inbox]
    by_cases hh : h = h'
    · subst hh
      rw [hx₁] at hx'
      cases hx'
      rw [hp₁] at hp ⊢
      rw [hl₁]
      exact hn.inbox h x hx hp
    · exact hn.inbox h' x' ((hk.others h' hh).symm.trans hx') hp
  · intro p id hid
    rw [hk.registered] at hid
    obtain ⟨h',x',hx',hp,hl⟩ := hn.owner p id hid
    by_cases hh : h = h'
    · subst hh
      rw [hx] at hx'
      cases hx'
      exact ⟨h,x₁,hx₁,hp₁.trans hp,hl₁.trans hl⟩
    · exact ⟨h',x',(hk.others h' hh).trans hx',hp,hl⟩

/-- The listener of another exchange is another one. -/
theorem ended (hn : n.Owned) (hx : n.exchanges.get? h = some x) (he : Ended h x n n') (ht : n'.Tidy)
    (hlen : n'.peers.length = n.peers.length) : n'.Owned := by
  have hold : ∀ h' x', n'.exchanges.get? h' = some x' →
      h ≠ h' ∧ n.exchanges.get? h' = some x' := by
    intro h' x' hx'
    have hne : h ≠ h' := by
      rintro rfl
      rw [he.exchange] at hx'
      cases hx'
    exact ⟨hne,(he.others h' hne).symm.trans hx'⟩
  refine ⟨ht,?_,?_,?_⟩
  · intro h' x' hx' hp
    obtain ⟨hne,hx'⟩ := hold h' x' hx'
    rw [hlen] at hp
    rw [he.inbox]
    · exact hn.inbox h' x' hx' hp
    · exact fun hpeer => hn.tidy.apart h h' x x' hx hx' hne hpeer (hpeer ▸ hp)
  · intro p id hid
    have hmem : id ∈ n.registered p ∧ (x.peer = p → id ≠ x.listener) := by
      rw [he.registered] at hid
      split at hid
      · rw [List.mem_filter] at hid
        exact ⟨hid.1,fun _ => by simpa using hid.2⟩
      · next hp => exact ⟨hid,fun hp' => absurd hp' hp⟩
    obtain ⟨h',x',hx',rfl,rfl⟩ := hn.owner p id hmem.1
    have hne : h ≠ h' := by
      rintro rfl
      rw [hx] at hx'
      cases hx'
      exact hmem.2 rfl rfl
    exact ⟨h',x',(he.others h' hne).trans hx',rfl,rfl⟩
  · intro p
    rw [he.registered]
    split
    · exact (hn.nodup p).filter _
    · exact hn.nodup p

theorem began (hn : n.Owned) (hno : n.exchanges.get? h = none) (hb : Began h x n n') (ht : n'.Tidy)
    (hlen : n'.peers.length = n.peers.length) : n'.Owned := by
  refine ⟨ht,?_,?_,?_⟩
  · intro h' x' hx' hp
    rw [hlen] at hp
    rw [hb.inbox]
    by_cases hh : h = h'
    · subst hh
      rw [hb.exchange] at hx'
      cases hx'
      simp [hp]
    · rw [hn.inbox h' x' ((hb.others h' hh).symm.trans hx') hp, Bool.true_or]
  · intro p id hid
    rw [hb.registered, List.mem_append] at hid
    rcases hid with hid | hid
    · obtain ⟨h',x',hx',hp,hl⟩ := hn.owner p id hid
      have hne : h ≠ h' := by
        rintro rfl
        rw [hno] at hx'
        cases hx'
      exact ⟨h',x',(hb.others h' hne).trans hx',hp,hl⟩
    · split at hid
      · next hp => exact ⟨h,x,hb.exchange,hp.1,(List.mem_singleton.mp hid).symm⟩
      · cases hid
  · intro p
    rw [hb.registered]
    split
    · next hp =>
      refine List.nodup_append'.mpr ⟨hn.nodup p,List.nodup_singleton _,?_⟩
      rw [List.disjoint_singleton, hb.fresh, hp.1]
      exact hn.nextId_not_mem p
    · rw [List.append_nil]
      exact hn.nodup p

theorem tried (hn : n.Owned) (hno : n.exchanges.get? h = none) (hr : Tried h n n') (ht : n'.Tidy)
    (hlen : n'.peers.length = n.peers.length) : n'.Owned := by
  refine ⟨ht,?_,?_,fun p => hr.registered p ▸ hn.nodup p⟩
  · intro h' x' hx' hp
    rw [hlen] at hp
    have hne : h ≠ h' := by
      rintro rfl
      rw [hr.exchange] at hx'
      cases hx'
    have hx := (hr.others h' hne).symm.trans hx'
    rw [hr.inbox h' x' hx hne hp]
    exact hn.inbox h' x' hx hp
  · intro p id hid
    rw [hr.registered] at hid
    obtain ⟨h',x',hx',hp,hl⟩ := hn.owner p id hid
    have hne : h ≠ h' := by
      rintro rfl
      rw [hno] at hx'
      cases hx'
    exact ⟨h',x',(hr.others h' hne).trans hx',hp,hl⟩

end Owned

/-! ## One thing after another -/

theorem Others.trans (h₁ : Others h n n') (h₂ : Others h n' n'') : Others h n n'' :=
  fun h' hh => (h₂ h' hh).trans (h₁ h' hh)

theorem Stays.others (hs : Stays n n') (h : Holder) : Others h n n' :=
  fun h' _ => congrArg (·.get? h') hs.exchanges

theorem Kept.then_stays (hk : Kept h x n n') (hs : Stays n' n'') : Kept h x n n'' where
  others := hk.others.trans (hs.others h)
  exchange := by rw [hs.exchanges]; exact hk.exchange
  registered q := (hs.registered q).trans (hk.registered q)
  inbox q id := (hs.inbox q id).trans (hk.inbox q id)

theorem Ended.then_stays (he : Ended h x n n') (hs : Stays n' n'') : Ended h x n n'' where
  others := he.others.trans (hs.others h)
  exchange := by rw [hs.exchanges]; exact he.exchange
  registered q := (hs.registered q).trans (he.registered q)
  inbox q id hne := (hs.inbox q id).trans (he.inbox q id hne)

theorem Began.then_stays (hb : Began h x n n') (hs : Stays n' n'') : Began h x n n'' where
  others := hb.others.trans (hs.others h)
  exchange := by rw [hs.exchanges]; exact hb.exchange
  fresh := hb.fresh
  registered q := (hs.registered q).trans (hb.registered q)
  inbox q id := (hs.inbox q id).trans (hb.inbox q id)

theorem Tried.then_stays (hr : Tried h n n') (hs : Stays n' n'') : Tried h n n'' where
  others := hr.others.trans (hs.others h)
  exchange := by rw [hs.exchanges]; exact hr.exchange
  registered q := (hs.registered q).trans (hr.registered q)
  inbox h' x' hx' hne hp := (hs.inbox _ _).trans (hr.inbox h' x' hx' hne hp)

theorem Kept.then_ended (hk : Kept h x n n') {x' : Exchange Matcher}
    (hx' : n'.exchanges.get? h = some x') (he : Ended h x' n' n'') : Ended h x n n'' := by
  obtain ⟨x₁,hx₁,hp,hl⟩ := hk.exchange
  rw [hx'] at hx₁
  cases hx₁
  refine ⟨hk.others.trans he.others,he.exchange,?_,?_⟩
  · intro q
    rw [he.registered, hk.registered, hp, hl]
  · intro q id hne
    rw [he.inbox q id (by rwa [hp, hl]), hk.inbox]

theorem Kept.of_inner (hi : Inner n n') (hk : Kept h x n' n'') : Kept h x n n'' := by
  have hs := Stays.of_inner hi
  exact ⟨(hs.others h).trans hk.others,hk.exchange,
    fun q => (hk.registered q).trans (hs.registered q),
    fun q id => (hk.inbox q id).trans (hs.inbox q id)⟩

theorem Ended.of_inner (hi : Inner n n') (he : Ended h x n' n'') : Ended h x n n'' := by
  have hs := Stays.of_inner hi
  refine ⟨(hs.others h).trans he.others,he.exchange,?_,?_⟩
  · intro q
    rw [he.registered, hs.registered]
  · intro q id hne
    rw [he.inbox q id hne, hs.inbox]

theorem Began.of_inner (hi : Inner n n') (hb : Began h x n' n'') : Began h x n n'' := by
  have hs := Stays.of_inner hi
  refine ⟨(hs.others h).trans hb.others,hb.exchange,?_,?_,?_⟩
  · rw [hb.fresh, hi.peer]
  · intro q
    rw [hb.registered, hs.registered, hi.peers, hi.peer]
  · intro q id
    rw [hb.inbox, hs.inbox, hi.peers]

theorem Began.then_kept (hb : Began h x n n') (hk : Kept h x n' n'') : ∃ x', Began h x' n n'' := by
  obtain ⟨x',hx',hp,hl⟩ := hk.exchange
  refine ⟨x',hb.others.trans hk.others,hx',?_,?_,?_⟩
  · rw [hl, hb.fresh, hp]
  · intro q
    rw [hk.registered, hb.registered, hp, hl]
  · intro q id
    rw [hk.inbox, hb.inbox, hp, hl]

/-- The listener of an exchange that ends at once is not that of another exchange. -/
theorem Began.then_ended (hn : n.Owned) (hb : Began h x n n') (he : Ended h x n' n'') :
    Tried h n n'' := by
  have hnew : ∀ q, x.peer = q → x.listener ∉ n.registered q := by
    rintro q rfl
    rw [hb.fresh]
    exact hn.nextId_not_mem x.peer
  have hkeep : ∀ q, x.peer = q →
      (n.registered q).filter (· != x.listener) = n.registered q := by
    intro q hq
    rw [List.filter_eq_self]
    intro id hid
    simpa using fun heq : id = x.listener => hnew q hq (heq ▸ hid)
  refine ⟨hb.others.trans he.others,he.exchange,?_,?_⟩
  · intro q
    rw [he.registered, hb.registered]
    by_cases hq : x.peer = q
    · rw [if_pos hq, List.filter_append, hkeep q hq]
      split <;> simp
    · rw [if_neg hq, if_neg fun hc => hq hc.1, List.append_nil]
  · intro h' x' hx' _ hp
    have hlt := hn.tidy.known h' x' hx' hp
    have hne : x.peer = x'.peer → x.listener ≠ x'.listener := by
      intro hpeer
      rw [hb.fresh, hpeer]
      exact Nat.ne_of_gt hlt
    rw [he.inbox _ _ hne, hb.inbox]
    simp only [Bool.or_eq_left_iff_imp, decide_eq_true_eq, and_imp]
    exact fun hpeer _ hl => absurd hl (hne hpeer)

/-! ## Exchanges begin and end -/

section
variable (h : Holder) (p : Nat) (matcher : Matcher) (timeout : Span)

theorem registered_openExchange (hn : n.Owned) (q : Nat) :
    (n.openExchange h p matcher timeout).registered q = n.registered q ++
      if p = q ∧ q < n.peers.length ∧ (n.peer q).dropsNew = false then
        [(n.peer p).listeners.nextId]
      else [] := by
  rw [registered, openExchange_peer]
  by_cases hq : p = q ∧ q < n.peers.length
  · obtain ⟨rfl,hlt⟩ := hq
    have hnew := hn.nextId_not_mem p
    have hfilter : (n.registered p ++ [(n.peer p).listeners.nextId]).filter
        (· != (n.peer p).listeners.nextId) = n.registered p := by
      rw [List.filter_append, List.filter_cons_of_neg (by simp), List.filter_nil, List.append_nil,
        List.filter_eq_self]
      intro id hid
      rw [bne_iff_ne]
      rintro rfl
      exact hnew hid
    rw [if_pos ⟨rfl,hlt⟩]
    cases hd : (n.peer p).dropsNew with
    | true =>
      rw [if_neg (by simp), List.append_nil]
      simp only [Peer.subscribe, hd, if_true]
      exact hfilter
    | false =>
      rw [if_pos ⟨rfl,hlt,rfl⟩]
      simp only [Peer.subscribe, hd, Bool.false_eq_true, if_false]
      rfl
  · rw [if_neg hq, if_neg fun hc => hq ⟨hc.1,hc.2.1⟩, List.append_nil]
    rfl

theorem hasInbox_openExchange (n : Network) (q id : Nat) :
    (n.openExchange h p matcher timeout).hasInbox q id =
      (n.hasInbox q id ||
        decide (p = q ∧ q < n.peers.length ∧ (n.peer p).listeners.nextId = id)) := by
  rw [hasInbox, openExchange_peer]
  by_cases hq : p = q ∧ q < n.peers.length
  · obtain ⟨rfl,hlt⟩ := hq
    have hbox : (n.peer p).subscribe.2.listeners.hasInbox id =
        (n.peer p).listeners.add.2.hasInbox id := by
      unfold Peer.subscribe
      dsimp only
      split <;> rfl
    rw [if_pos ⟨rfl,hlt⟩, hbox, Listeners.hasInbox_add, hasInbox]
    simp [hlt, eq_comm, Bool.beq_eq_decide_eq]
  · rw [if_neg hq, decide_eq_false fun hc => hq ⟨hc.1,hc.2.1⟩, Bool.or_false]
    rfl

theorem began_openExchange (hn : n.Owned) :
    Began h (Exchange.listen (n.peer p) p matcher timeout n.now).1 n
      (n.openExchange h p matcher timeout) where
  others h' hh := by rw [openExchange_exchange, if_neg hh]
  exchange := by rw [openExchange_exchange, if_pos rfl]
  fresh := rfl
  registered q := registered_openExchange h p matcher timeout hn q
  inbox q id := hasInbox_openExchange h p matcher timeout n q id

end

theorem ended_closeExchange (hx : n.exchanges.get? h = some x) :
    Ended h x n (n.closeExchange h) where
  others h' hh := by rw [closeExchange_exchange, if_neg hh]
  exchange := by rw [closeExchange_exchange, if_pos rfl]
  registered q := by
    rw [registered, closeExchange_peer hx]
    by_cases hq : x.peer = q
    · subst hq
      rw [if_pos rfl]
      split
      · rfl
      · next hlt =>
        have hnone := registered_of_not_lt fun hp => hlt ⟨rfl,hp⟩
        rw [hnone]
        exact hnone
    · rw [if_neg fun hc => hq hc.1, if_neg hq]
      rfl
  inbox q id hne := by
    rw [hasInbox, closeExchange_peer hx]
    split
    · next hq =>
      have hid : id ≠ x.listener := Ne.symm (hne hq.1)
      have hclose := ((n.peer x.peer).unsubscribe x.listener).listeners.hasInbox_close id x.listener
      rw [bne_iff_ne.mpr hid, Bool.and_true] at hclose
      rw [← hq.1]
      exact hclose
    · rfl

theorem kept_drained (hx : n.exchanges.get? h = some x) : Kept h x n (n.drained h x) where
  others h' hh := by rw [drained_exchange hx, if_neg hh]
  exchange := by
    obtain ⟨hp,hl,_⟩ := n.looked_exchange x
    exact ⟨_,(drained_exchange hx h).trans (if_pos rfl),hp,hl⟩
  registered q := by
    rw [registered, drained_peer]
    split
    · next hq =>
      rw [← hq.1]
      rfl
    · rfl
  inbox q id := by
    rw [hasInbox, drained_peer]
    split
    · next hq =>
      rw [← hq.1]
      exact Listeners.hasInbox_drain ..
    · rfl

/-- A look ends an exchange just when it resolves it. -/
theorem pollExchange_listening (hx : n.exchanges.get? h = some x) :
    if (n.pollExchange h).1.isSome then Ended h x n (n.pollExchange h).2
    else Kept h x n (n.pollExchange h).2 := by
  have hk := kept_drained hx
  rw [pollExchange_eq hx]
  cases hr : (n.looked x).result with
  | none => exact hk
  | some result =>
    have hi := (n.drained h x).inner_note (resultNotices result)
    have hs := hk.then_stays (.of_inner hi)
    obtain ⟨x',hx',_⟩ := hs.exchange
    exact hs.then_ended hx' (ended_closeExchange hx')

theorem pollRequest_listening (hx : n.exchanges.get? h = some x) :
    if (n.pollExchange h).1.isSome then Ended h x n (n.pollRequest h).2
    else Kept h x n (n.pollRequest h).2 := by
  have hp := pollExchange_listening hx
  unfold pollRequest
  rcases he : n.pollExchange h with ⟨_ | result,n'⟩
  · rw [he] at hp
    exact hp
  · rw [he] at hp
    exact Ended.then_stays hp (.of_inner (inner_note ..))

end

end Network

end ChatToken
