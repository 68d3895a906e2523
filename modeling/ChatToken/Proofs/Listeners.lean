import ChatToken.Peer

/-! # What a listener hears

The inbox of a listener gets every message that its connection delivers while the listener is
registered, behind those that wait already. What other listeners do is no concern of it.
-/
namespace ChatToken

namespace Listeners

variable (ls : Listeners) (id id' : Nat) (m : Message)

@[simp] theorem isRegistered_add :
    ls.add.2.isRegistered id = (ls.isRegistered id || id == ls.nextId) := by
  simp [add, isRegistered, Bool.beq_eq_decide_eq]

@[simp] theorem isRegistered_remove :
    (ls.remove id').isRegistered id = (ls.isRegistered id && id != id') := by
  rw [Bool.eq_iff_iff]
  simp [remove, isRegistered]

@[simp] theorem isRegistered_clear : ls.clear.isRegistered id = false := by
  simp [clear, isRegistered]

@[simp] theorem isRegistered_close : (ls.close id').isRegistered id = ls.isRegistered id := rfl

@[simp] theorem isRegistered_dispatch :
    (ls.dispatch m).isRegistered id = (ls.isRegistered id && ls.hasInbox id) := by
  rw [Bool.eq_iff_iff]
  simp [dispatch, isRegistered]

end Listeners

namespace Peer

/-- The listener `id` has an inbox with the messages `unread`, and gets more if `open_`. -/
structure Hears (p : Peer) (id : Nat) (open_ : Bool) (unread : List Message) : Prop where
  registered : p.listeners.isRegistered id = open_
  inbox : p.listeners.inboxes.get? id = some unread
  known : id < p.listeners.nextId

variable {p : Peer} {id : Nat} {open_ : Bool} {unread : List Message}

theorem Hears.unread_eq (h : p.Hears id open_ unread) : p.listeners.unread id = unread := by
  rw [Listeners.unread, h.inbox, Option.getD_some]

theorem hears_subscribe (p : Peer) : p.subscribe.2.Hears p.subscribe.1 (!p.dropsNew) [] := by
  by_cases hd : p.dropsNew = true
  · refine ⟨?_,?_,?_⟩
    · simp [subscribe, hd, Listeners.add]
    · simp [subscribe, hd, Listeners.add, Listeners.remove, Table.get?_insert]
    · simp [subscribe, hd, Listeners.add, Listeners.remove]
  · refine ⟨?_,?_,?_⟩
    · simp [subscribe, hd, Listeners.add, Listeners.isRegistered]
    · simp [subscribe, hd, Listeners.add, Table.get?_insert]
    · simp [subscribe, hd, Listeners.add]

theorem Hears.subscribe (h : p.Hears id open_ unread) : p.subscribe.2.Hears id open_ unread := by
  obtain ⟨hr,hi,hk⟩ := h
  have hne : p.listeners.nextId ≠ id := by omega
  have hadd : p.listeners.add.2.isRegistered id = open_ := by
    rw [Listeners.isRegistered_add, hr]
    simp [hne.symm]
  by_cases hd : p.dropsNew = true
  · refine ⟨?_,?_,?_⟩
    · rw [Peer.subscribe, hd]
      simp only [↓reduceIte, Listeners.isRegistered_remove, hadd]
      simp [Listeners.add, hne.symm]
    · simp [Peer.subscribe, hd, Listeners.add, Listeners.remove, Table.get?_insert, hne, hi]
    · simp only [Peer.subscribe, hd, ↓reduceIte, Listeners.add, Listeners.remove]
      omega
  · refine ⟨?_,?_,?_⟩
    · simpa [Peer.subscribe, hd] using hadd
    · simp [Peer.subscribe, hd, Listeners.add, Table.get?_insert, hne, hi]
    · simp only [Peer.subscribe, hd, Listeners.add]
      exact Nat.lt_succ_of_lt hk

theorem Hears.dispatch (h : p.Hears id open_ unread) (m : Message) :
    (p.dispatch m).Hears id open_ (if open_ then unread ++ [m] else unread) := by
  obtain ⟨hr,hi,hk⟩ := h
  refine ⟨?_,?_,hk⟩
  · simp [Peer.dispatch, Listeners.hasInbox, Table.contains, hi, hr]
  · simp [Peer.dispatch, Listeners.dispatch, Table.get?_mapValues, hi, hr]

theorem Hears.disconnect (h : p.Hears id open_ unread) : p.disconnect.Hears id false unread :=
  ⟨by simp [Peer.disconnect],h.inbox,h.known⟩

theorem Hears.hangUp (h : p.Hears id open_ unread) {other : Nat} (hne : other ≠ id) :
    (p.hangUp other).Hears id open_ unread := by
  obtain ⟨hr,hi,hk⟩ := h
  refine ⟨?_,?_,hk⟩
  · simp [Peer.hangUp, Peer.unsubscribe, hr, hne.symm]
  · simp [Peer.hangUp, Peer.unsubscribe, Listeners.close, Listeners.remove, Table.get?_erase, hne,
      hi]

theorem Hears.drain (h : p.Hears id open_ unread) :
    { p with listeners := p.listeners.drain id }.Hears id open_ [] := by
  obtain ⟨hr,hi,hk⟩ := h
  refine ⟨hr,?_,hk⟩
  simp [Listeners.drain, Table.get?_adjust, hi]

theorem Hears.drain_other (h : p.Hears id open_ unread) {other : Nat} (hne : other ≠ id) :
    { p with listeners := p.listeners.drain other }.Hears id open_ unread := by
  obtain ⟨hr,hi,hk⟩ := h
  refine ⟨hr,?_,hk⟩
  simp [Listeners.drain, Table.get?_adjust, hne, hi]

/-- Nothing but its listeners matters to what a connection is heard to say. -/
theorem Hears.congr (h : p.Hears id open_ unread) {q : Peer} (hq : q.listeners = p.listeners) :
    q.Hears id open_ unread :=
  ⟨by rw [hq, h.registered],by rw [hq, h.inbox],by rw [hq]; exact h.known⟩

end Peer

end ChatToken
