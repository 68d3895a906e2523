import ChatToken.Network.Run

/-! # What the parts of a network leave alone

Listening, reports and the line of tasks are no concern of the managers, and nothing but sending
changes what was sent over a connection. Two networks that agree in all but that are `Quiet`. What a
manager writes down is no concern of the connections: two networks that agree in all but that are
`Inner`.
-/
namespace ChatToken

def Peer.face (p : Peer) : Peer := { p with listeners := {} }

namespace Network

def faces (n : Network) : List Peer := n.peers.map Peer.face

/-- From `n` to `n'`, only listeners, exchanges, reports and the line of tasks have changed. -/
structure Quiet (n n' : Network) : Prop where
  managers : n'.managers = n.managers
  now : n'.now = n.now
  faces : n'.faces = n.faces

namespace Quiet
variable {n n' n'' : Network}

theorem refl (n : Network) : Quiet n n := ⟨rfl,rfl,rfl⟩

theorem trans (h : Quiet n n') (h' : Quiet n' n'') : Quiet n n'' :=
  ⟨h'.managers.trans h.managers,h'.now.trans h.now,h'.faces.trans h.faces⟩

theorem manager (h : Quiet n n') (m : Nat) : n'.manager m = n.manager m := by
  rw [Network.manager, h.managers, Network.manager]

theorem face (h : Quiet n n') (p : Nat) : (n'.peer p).face = (n.peer p).face := by
  have hf := congrArg (fun l => l.getD p (Peer.face default)) h.faces
  simpa [Network.faces, Network.peer, List.getD_eq_getElem?_getD, List.getElem?_map,
    Option.getD_map] using hf

theorem length (h : Quiet n n') : n'.peers.length = n.peers.length := by
  simpa [Network.faces] using congrArg List.length h.faces

end Quiet

/-- From `n` to `n'`, only what the managers know, reports and the line of tasks have changed. -/
structure Inner (n n' : Network) : Prop where
  peers : n'.peers = n.peers
  exchanges : n'.exchanges = n.exchanges
  now : n'.now = n.now
  length : n'.managers.length = n.managers.length

namespace Inner
variable {n n' n'' : Network}

theorem refl (n : Network) : Inner n n := ⟨rfl,rfl,rfl,rfl⟩

theorem trans (h : Inner n n') (h' : Inner n' n'') : Inner n n'' :=
  ⟨h'.peers.trans h.peers,h'.exchanges.trans h.exchanges,h'.now.trans h.now,
    h'.length.trans h.length⟩

theorem peer (h : Inner n n') (p : Nat) : n'.peer p = n.peer p := by
  rw [Network.peer, h.peers, Network.peer]

end Inner

/-- From `n` to `n'`, the managers and the clock have not changed, and no connection is new. -/
structure Outer (n n' : Network) : Prop where
  managers : n'.managers = n.managers
  now : n'.now = n.now
  length : n'.peers.length = n.peers.length

namespace Outer
variable {n n' n'' : Network}

theorem refl (n : Network) : Outer n n := ⟨rfl,rfl,rfl⟩

theorem trans (h : Outer n n') (h' : Outer n' n'') : Outer n n'' :=
  ⟨h'.managers.trans h.managers,h'.now.trans h.now,h'.length.trans h.length⟩

end Outer

theorem Quiet.outer {n n' : Network} (h : Quiet n n') : Outer n n' :=
  ⟨h.managers,h.now,h.length⟩

structure Steady (n n' : Network) : Prop where
  now : n'.now = n.now
  managers : n'.managers.length = n.managers.length
  peers : n'.peers.length = n.peers.length

namespace Steady
variable {n n' n'' : Network}

theorem refl (n : Network) : Steady n n := ⟨rfl,rfl,rfl⟩

theorem trans (h : Steady n n') (h' : Steady n' n'') : Steady n n'' :=
  ⟨h'.now.trans h.now,h'.managers.trans h.managers,h'.peers.trans h.peers⟩

end Steady

theorem Outer.steady {n n' : Network} (h : Outer n n') : Steady n n' :=
  ⟨h.now,congrArg _ h.managers,h.length⟩

theorem Inner.steady {n n' : Network} (h : Inner n n') : Steady n n' :=
  ⟨h.now,h.length,congrArg _ h.peers⟩

theorem map_modify_of_eq {α β : Type} (l : List α) (i : Nat) (f : α → α) (g : α → β)
    (h : ∀ a, g (f a) = g a) : (l.modify i f).map g = l.map g := by
  induction l generalizing i with
  | nil => simp
  | cons a l ih => cases i <;> simp [h, ih]

section
variable (n : Network)

@[simp] theorem note_peer (notices : List Notice) (p : Nat) :
    (n.note notices).peer p = n.peer p := rfl

@[simp] theorem note_manager (notices : List Notice) (m : Nat) :
    (n.note notices).manager m = n.manager m := rfl

theorem quiet_onPeer (p : Nat) {f : Peer → Peer} (h : ∀ q, (f q).face = q.face) :
    Quiet n (n.onPeer p f) :=
  ⟨rfl,rfl,map_modify_of_eq _ _ _ _ h⟩

theorem quiet_wake (ref : LoadRef) : Quiet n (n.wake ref) := by
  unfold wake
  split
  · exact .refl n
  · exact ⟨rfl,rfl,rfl⟩

theorem quiet_wakeAll (refs : List LoadRef) : Quiet n (n.wakeAll refs) := by
  induction refs generalizing n with
  | nil => exact .refl n
  | cons ref refs ih => exact (n.quiet_wake ref).trans (ih _)

theorem quiet_deliver (p : Nat) (m : Message) : Quiet n (n.deliver p m) :=
  (n.quiet_onPeer p (f := (·.dispatch m)) fun _ => rfl).trans (quiet_wakeAll ..)

theorem quiet_deliverLines (p : Nat) (lines : List String) :
    Quiet n (n.deliverLines p lines).2 := by
  induction lines generalizing n with
  | nil => exact .refl n
  | cons line lines ih =>
    unfold deliverLines
    cases Message.parse? line with
    | none => exact .refl n
    | some m => exact (n.quiet_deliver p m).trans (ih _)

/-- An exchange takes the place of a connection that it has changed only in its listeners. -/
theorem quiet_put {p : Nat} {q : Peer} (h : q.face = (n.peer p).face) :
    Quiet n (n.onPeer p fun _ => q) := by
  refine ⟨rfl,rfl,?_⟩
  apply List.ext_getElem?
  intro i
  simp only [faces, onPeer, List.getElem?_map, List.getElem?_modify]
  cases hi : n.peers[i]? with
  | none => simp
  | some r =>
    by_cases hp : p = i
    · subst hp
      simpa [peer, List.getD_eq_getElem?_getD, hi] using h
    · simp [hp]

theorem quiet_openExchange (h : Holder) (p : Nat) (matcher : Matcher) (timeout : Span) :
    Quiet n (n.openExchange h p matcher timeout) := by
  have hq := n.quiet_put (p := p) (q := (Exchange.listen (n.peer p) p matcher timeout n.now).2)
    rfl
  exact ⟨rfl,rfl,hq.faces⟩

theorem quiet_closeExchange (h : Holder) : Quiet n (n.closeExchange h) := by
  unfold closeExchange
  cases n.exchanges.get? h with
  | none => exact .refl n
  | some x =>
    have hq := n.quiet_onPeer x.peer (f := (·.hangUp x.listener)) fun _ => rfl
    exact ⟨rfl,rfl,hq.faces⟩

theorem quiet_pollExchange (h : Holder) : Quiet n (n.pollExchange h).2 := by
  unfold pollExchange
  cases n.exchanges.get? h with
  | none => exact .refl n
  | some x =>
    dsimp only
    have hq := n.quiet_put (p := x.peer)
      (q := (x.look Matcher.classify n.now n.sounded n.tickets (n.peer x.peer)).2) rfl
    split
    · exact ⟨rfl,rfl,hq.faces⟩
    · refine Quiet.trans ?_ (quiet_closeExchange _ h)
      exact ⟨rfl,rfl,hq.faces⟩

theorem quiet_pollRequest (h : Holder) : Quiet n (n.pollRequest h).2 := by
  have hq := n.quiet_pollExchange h
  unfold pollRequest
  rcases hp : n.pollExchange h with ⟨_ | result,n'⟩
  · rw [hp] at hq
    exact hq
  · rw [hp] at hq
    exact ⟨hq.managers,hq.now,hq.faces⟩

theorem quiet_failRequest (h : Holder) (cause : String) : Quiet n (n.failRequest h cause).2 := by
  refine Quiet.trans ?_ (quiet_closeExchange _ h)
  exact ⟨rfl,rfl,rfl⟩

theorem peer_onPeer (p q : Nat) (f : Peer → Peer) :
    (n.onPeer p f).peer q = if p = q ∧ q < n.peers.length then f (n.peer q) else n.peer q := by
  simp only [peer, onPeer, List.getD_eq_getElem?_getD, List.getElem?_modify]
  by_cases hq : q < n.peers.length
  · by_cases hp : p = q <;> simp [hp, hq]
  · simp [hq]

theorem manager_onManager (m k : Nat) (f : Manager → Manager) :
    (n.onManager m f).manager k =
      if m = k ∧ k < n.managers.length then f (n.manager k) else n.manager k := by
  simp only [manager, onManager, List.getD_eq_getElem?_getD, List.getElem?_modify]
  by_cases hk : k < n.managers.length
  · by_cases hm : m = k <;> simp [hm, hk]
  · simp [hk]

theorem outer_note (notices : List Notice) : Outer n (n.note notices) := ⟨rfl,rfl,rfl⟩

theorem outer_onPeer (p : Nat) (f : Peer → Peer) : Outer n (n.onPeer p f) :=
  ⟨rfl,rfl,List.length_modify ..⟩

theorem inner_note (notices : List Notice) : Inner n (n.note notices) := ⟨rfl,rfl,rfl,rfl⟩

theorem inner_onManager (m : Nat) (f : Manager → Manager) : Inner n (n.onManager m f) :=
  ⟨rfl,rfl,rfl,List.length_modify ..⟩

theorem inner_wake (ref : LoadRef) : Inner n (n.wake ref) := by
  unfold wake
  split
  · exact .refl n
  · exact ⟨rfl,rfl,rfl,rfl⟩

theorem inner_wakeAll (refs : List LoadRef) : Inner n (n.wakeAll refs) := by
  induction refs generalizing n with
  | nil => exact .refl n
  | cons ref refs ih => exact (n.inner_wake ref).trans (ih _)

theorem inner_checkMark (m p : Nat) : Inner n (n.checkMark m p).2 := by
  have h := n.inner_onManager m fun g => { g with marks := g.marks.refresh n.now p }
  unfold checkMark
  cases (n.manager m).marks.standing n.now p with
  | expired => exact h.trans (inner_note ..)
  | _ => exact h

theorem inner_finishLoad (ref : LoadRef) (result : Except TokenError Token) :
    Inner n (n.finishLoad ref result) :=
  (inner_onManager ..).trans (inner_note ..)

theorem inner_concludeLoad (ref : LoadRef) (p : Nat) (result : Except TokenError Token) :
    Inner n (n.concludeLoad ref p result) := by
  refine Inner.trans ?_ (inner_finishLoad ..)
  rcases result with e | t
  · cases e with
    | unsupported command =>
      exact (inner_note ..).trans ((inner_onManager ..).trans (inner_note ..))
    | _ => exact inner_note ..
  · exact inner_note ..

/-- Sending leaves the connection with what was sent over it, and then only delivers. -/
theorem quiet_send (p : Nat) (command : String) (args : List String) :
    Quiet (n.onPeer p fun _ => ((n.peer p).send command args).2) (n.send p command args).2 := by
  unfold send
  dsimp only
  have hn : Quiet (n.onPeer p fun _ => ((n.peer p).send command args).2)
      ((n.note (n.sendNotices p (Message.of command args))).onPeer p fun _ =>
        ((n.peer p).send command args).2) := ⟨rfl,rfl,rfl⟩
  rcases hs : (n.peer p).send command args with ⟨_ | lines,changed⟩
  · rw [hs] at hn
    simp only [note_peer, hs]
    exact hn
  · rw [hs] at hn
    simp only [note_peer, hs]
    refine hn.trans ?_
    have hd := quiet_deliverLines ((n.note (n.sendNotices p (Message.of command args))).onPeer p
      fun _ => changed) p lines
    split
    · next he =>
      rw [he] at hd
      exact hd
    · next he =>
      rw [he] at hd
      exact hd

theorem outer_send (p : Nat) (command : String) (args : List String) :
    Outer n (n.send p command args).2 :=
  (n.outer_onPeer p _).trans (n.quiet_send p command args).outer

theorem outer_openRequest (h : Holder) (p : Nat) (service : Option String) (timeout : Span) :
    Outer n (n.openRequest h p service timeout).2 :=
  (n.quiet_openExchange h p .extjwt timeout).outer.trans (outer_send ..)

theorem outer_endStream (p : Nat) : Outer n (n.endStream p) :=
  (n.outer_onPeer p Peer.endReading).trans ((outer_note ..).trans (quiet_wakeAll ..).outer)

theorem outer_failWriting (p : Nat) (reason : String) : Outer n (n.failWriting p reason) := by
  unfold failWriting
  split
  · exact (n.outer_onPeer p Peer.endWriting).trans (outer_note ..)
  · exact .refl n

/-- Whether a pong goes out makes no difference but to what is reported. -/
theorem accept_eq (p : Nat) (m : Message) : ∃ notices, n.accept p m =
    match (n.peer p).handle m with
    | some changed => ((n.note notices).onPeer p fun _ => changed).deliver p m
    | none => (n.note notices).endStream p := by
  obtain ⟨notices,h⟩ : ∃ notices,
      (if m.command = "PING" then n.note (n.sendNotices p (Peer.pong m)) else n) =
        n.note notices := by
    split
    · exact ⟨_,rfl⟩
    · exact ⟨[],by rw [note, List.append_nil]⟩
  exact ⟨notices,congrArg (fun n : Network =>
    match (n.peer p).handle m with
    | some changed => (n.onPeer p fun _ => changed).deliver p m
    | none => n.endStream p) h⟩

theorem outer_accept (p : Nat) (m : Message) : Outer n (n.accept p m) := by
  obtain ⟨notices,h⟩ := n.accept_eq p m
  have hn := n.outer_note notices
  rw [h]
  cases (n.peer p).handle m with
  | some changed => exact hn.trans ((outer_onPeer ..).trans (quiet_deliver ..).outer)
  | none => exact hn.trans (outer_endStream ..)

theorem outer_receive (p : Nat) (r : Received) : Outer n (n.receive p r) := by
  unfold receive
  split
  · cases r with
    | line line =>
      dsimp only
      split
      · exact (outer_note ..).trans (outer_accept ..)
      · exact outer_note ..
    | failed reason => exact (outer_note ..).trans (outer_endStream ..)
  · exact .refl n

end

end Network
end ChatToken
