import ChatToken.Network.Lookups
import ChatToken.Proofs.Network.Changes

/-! # What was reported has no effect

Two networks that are the same but for what was reported stay so, whatever happens to both. Looking
at a load on behalf of somebody who waits for it changes nothing else.
-/
namespace ChatToken.Network.Agrees

variable {n n' n'' : Network}

theorem refl (n : Network) : n.Agrees n := ⟨rfl,rfl,rfl,rfl,rfl,rfl,rfl⟩

theorem trans (h : n.Agrees n') (h' : n'.Agrees n'') : n.Agrees n'' :=
  ⟨h'.now.trans h.now,h'.sounded.trans h.sounded,h'.peers.trans h.peers,
    h'.managers.trans h.managers,h'.exchanges.trans h.exchanges,h'.ready.trans h.ready,
    h'.tickets.trans h.tickets⟩

theorem symm (h : n.Agrees n') : n'.Agrees n :=
  ⟨h.now.symm,h.sounded.symm,h.peers.symm,h.managers.symm,h.exchanges.symm,h.ready.symm,
    h.tickets.symm⟩

/-- The only difference lies in the two fields that nothing but `observe` reads. -/
theorem eq_reported (h : n.Agrees n') :
    ∃ knownLost notices, n' = { n with knownLost, notices } := by
  obtain ⟨now,sounded,peers,managers,exchanges,ready,tickets,knownLost,notices⟩ := n'
  obtain ⟨rfl,rfl,rfl,rfl,rfl,rfl,rfl⟩ := h
  exact ⟨knownLost,notices,rfl⟩

theorem peer (h : n.Agrees n') (p : Nat) : n'.peer p = n.peer p := by
  rw [Network.peer, h.peers]
  rfl

theorem manager (h : n.Agrees n') (m : Nat) : n'.manager m = n.manager m := by
  rw [Network.manager, h.managers]
  rfl

theorem ending? (h : n.Agrees n') (ref : LoadRef) : n'.ending? ref = n.ending? ref := by
  rw [Network.ending?, h.manager]
  rfl

/-! ## Pieces of an event -/

theorem note (h : n.Agrees n') (notices notices' : List Notice) :
    (n.note notices).Agrees (n'.note notices') := { h with }

theorem onPeer (h : n.Agrees n') (p : Nat) (f : Peer → Peer) :
    (n.onPeer p f).Agrees (n'.onPeer p f) :=
  { h with peers := congrArg (·.modify p f) h.peers }

theorem onManager (h : n.Agrees n') (m : Nat) (f : Manager → Manager) :
    (n.onManager m f).Agrees (n'.onManager m f) :=
  { h with managers := congrArg (·.modify m f) h.managers }

theorem wake (h : n.Agrees n') (ref : LoadRef) : (n.wake ref).Agrees (n'.wake ref) := by
  unfold Network.wake
  rw [h.ready]
  split
  · exact h
  · exact { h with ready := rfl }

theorem wakeAll (h : n.Agrees n') (refs : List LoadRef) :
    (n.wakeAll refs).Agrees (n'.wakeAll refs) := by
  induction refs generalizing n n' with
  | nil => exact h
  | cons ref refs ih => exact ih (h.wake ref)

theorem loadsListening (h : n.Agrees n') (p : Nat) : n'.loadsListening p = n.loadsListening p := by
  obtain ⟨knownLost,notices,rfl⟩ := h.eq_reported
  rfl

/-! ## Messages -/

theorem deliver (h : n.Agrees n') (p : Nat) (m : Message) :
    (n.deliver p m).Agrees (n'.deliver p m) := by
  unfold Network.deliver
  rw [h.loadsListening]
  exact (h.onPeer p _).wakeAll _

theorem deliverLines (h : n.Agrees n') (p : Nat) (lines : List String) :
    (n'.deliverLines p lines).1 = (n.deliverLines p lines).1 ∧
    (n.deliverLines p lines).2.Agrees (n'.deliverLines p lines).2 := by
  induction lines generalizing n n' with
  | nil => exact ⟨rfl,h⟩
  | cons line lines ih =>
    unfold Network.deliverLines
    cases Message.parse? line with
    | none => exact ⟨rfl,h⟩
    | some m => exact ih (h.deliver p m)

theorem disconnect (h : n.Agrees n') (p : Nat) : (n.disconnect p).Agrees (n'.disconnect p) := by
  unfold Network.disconnect
  rw [h.loadsListening]
  exact (h.onPeer p _).wakeAll _

theorem endStream (h : n.Agrees n') (p : Nat) : (n.endStream p).Agrees (n'.endStream p) := by
  unfold Network.endStream
  rw [h.loadsListening]
  exact ((h.onPeer p _).note _ _).wakeAll _

theorem finishStream (h : n.Agrees n') (p : Nat) :
    (n.finishStream p).Agrees (n'.finishStream p) := by
  unfold Network.finishStream
  rw [h.peer]
  split
  · exact h.endStream p
  · exact h

theorem failWriting (h : n.Agrees n') (p : Nat) (reason : String) :
    (n.failWriting p reason).Agrees (n'.failWriting p reason) := by
  unfold Network.failWriting
  rw [h.peer]
  split
  · exact (h.onPeer p _).note _ _
  · exact h

theorem accept (h : n.Agrees n') (p : Nat) (m : Message) :
    (n.accept p m).Agrees (n'.accept p m) := by
  have hping : (if m.command = "PING" then n.note (n.sendNotices p (Peer.pong m)) else n).Agrees
      (if m.command = "PING" then n'.note (n'.sendNotices p (Peer.pong m)) else n') := by
    split
    · exact h.note _ _
    · exact h
  unfold Network.accept
  dsimp only
  rw [hping.peer]
  split
  · exact (hping.onPeer p _).deliver p m
  · exact hping.endStream p

theorem receive (h : n.Agrees n') (p : Nat) (r : Received) :
    (n.receive p r).Agrees (n'.receive p r) := by
  unfold Network.receive
  rw [h.peer]
  split
  · cases r with
    | failed reason => exact (h.note _ _).endStream p
    | line line =>
      dsimp only
      split
      · exact (h.note _ _).accept p _
      · exact h.note _ _
  · exact h

theorem send (h : n.Agrees n') (p : Nat) (command : String) (args : List String) :
    (n'.send p command args).1 = (n.send p command args).1 ∧
    (n.send p command args).2.Agrees (n'.send p command args).2 := by
  have hn : (n.note (n.sendNotices p (.of command args))).Agrees
      (n'.note (n'.sendNotices p (.of command args))) := h.note ..
  unfold Network.send
  dsimp only
  rw [hn.peer]
  generalize (Network.peer _ p).send command args = r
  obtain ⟨_ | lines,changed⟩ := r
  · exact ⟨rfl,hn.onPeer ..⟩
  · obtain ⟨hbroken,hd⟩ := (hn.onPeer p fun _ => changed).deliverLines p lines
    dsimp only
    generalize Network.deliverLines (Network.onPeer (n.note _) _ _) p lines = r at hbroken hd ⊢
    generalize Network.deliverLines _ p lines = r' at hbroken hd ⊢
    obtain ⟨broken,k⟩ := r
    obtain ⟨broken',k'⟩ := r'
    obtain rfl : broken' = broken := hbroken
    cases broken' <;> exact ⟨rfl,hd⟩

/-! ## Exchanges -/

theorem openExchange (h : n.Agrees n') (hd : Holder) (p : Nat) (matcher : Matcher)
    (timeout : Span) :
    (n.openExchange hd p matcher timeout).Agrees (n'.openExchange hd p matcher timeout) := by
  obtain ⟨knownLost,notices,rfl⟩ := h.eq_reported
  exact ⟨rfl,rfl,rfl,rfl,rfl,rfl,rfl⟩

theorem closeExchange (h : n.Agrees n') (hd : Holder) :
    (n.closeExchange hd).Agrees (n'.closeExchange hd) := by
  obtain ⟨knownLost,notices,rfl⟩ := h.eq_reported
  unfold Network.closeExchange
  dsimp only
  split <;> exact ⟨rfl,rfl,rfl,rfl,rfl,rfl,rfl⟩

theorem looked (h : n.Agrees n') (x : Exchange Matcher) : n'.looked x = n.looked x := by
  rw [Network.looked, h.now, h.sounded, h.tickets, h.peer]
  rfl

theorem drained (h : n.Agrees n') (hd : Holder) (x : Exchange Matcher) :
    (n.drained hd x).Agrees (n'.drained hd x) := by
  obtain ⟨knownLost,notices,rfl⟩ := h.eq_reported
  exact ⟨rfl,rfl,rfl,rfl,rfl,rfl,rfl⟩

theorem pollExchange (h : n.Agrees n') (hd : Holder) :
    (n'.pollExchange hd).1 = (n.pollExchange hd).1 ∧
    (n.pollExchange hd).2.Agrees (n'.pollExchange hd).2 := by
  have hsame := congrArg (·.get? hd) h.exchanges
  cases hx : n.exchanges.get? hd with
  | none =>
    rw [hx] at hsame
    rw [pollExchange_of_none hx, pollExchange_of_none hsame]
    exact ⟨rfl,h⟩
  | some x =>
    rw [hx] at hsame
    rw [pollExchange_eq hx, pollExchange_eq hsame, h.looked]
    refine ⟨rfl,?_⟩
    dsimp only
    split
    · exact h.drained hd x
    · exact ((h.drained hd x).note ..).closeExchange hd

/-! ## Requests -/

theorem openRequest (h : n.Agrees n') (hd : Holder) (p : Nat) (service : Option String)
    (timeout : Span) :
    (n'.openRequest hd p service timeout).1 = (n.openRequest hd p service timeout).1 ∧
    (n.openRequest hd p service timeout).2.Agrees (n'.openRequest hd p service timeout).2 :=
  (h.openExchange hd p .extjwt timeout).send p _ _

theorem failRequest (h : n.Agrees n') (hd : Holder) (cause : String) :
    (n.failRequest hd cause).2.Agrees (n'.failRequest hd cause).2 :=
  (h.note ..).closeExchange hd

theorem pollRequest (h : n.Agrees n') (hd : Holder) :
    (n'.pollRequest hd).1 = (n.pollRequest hd).1 ∧
    (n.pollRequest hd).2.Agrees (n'.pollRequest hd).2 := by
  obtain ⟨hr,hn⟩ := h.pollExchange hd
  unfold Network.pollRequest
  generalize Network.pollExchange n hd = r at hr hn ⊢
  generalize Network.pollExchange n' hd = r' at hr hn ⊢
  obtain ⟨result,k⟩ := r
  obtain ⟨result',k'⟩ := r'
  obtain rfl : result' = result := hr
  cases result' with
  | none => exact ⟨rfl,hn⟩
  | some result =>
    dsimp only at hn ⊢
    rw [hn.now]
    exact ⟨rfl,hn.note ..⟩

/-! ## Loads -/

theorem checkMark (h : n.Agrees n') (m p : Nat) :
    (n'.checkMark m p).1 = (n.checkMark m p).1 ∧
    (n.checkMark m p).2.Agrees (n'.checkMark m p).2 := by
  unfold Network.checkMark
  rw [h.manager, h.now]
  have hn := h.onManager m fun g => { g with marks := g.marks.refresh n.now p }
  dsimp only
  split
  · exact ⟨rfl,hn⟩
  · exact ⟨rfl,hn⟩
  · exact ⟨rfl,hn.note ..⟩

theorem markPeer (h : n.Agrees n') (m p : Nat) : (n.markPeer m p).Agrees (n'.markPeer m p) := by
  unfold Network.markPeer
  rw [h.now]
  exact (h.onManager ..).note ..

theorem finishLoad (h : n.Agrees n') (ref : LoadRef) (result : Except TokenError Token) :
    (n.finishLoad ref result).Agrees (n'.finishLoad ref result) := by
  unfold Network.finishLoad
  rw [h.manager, h.now]
  exact (h.onManager ..).note ..

theorem concludeLoad (h : n.Agrees n') (ref : LoadRef) (p : Nat)
    (result : Except TokenError Token) :
    (n.concludeLoad ref p result).Agrees (n'.concludeLoad ref p result) := by
  unfold Network.concludeLoad
  dsimp only
  split
  · exact (h.note ..).finishLoad ref _
  · exact ((h.note ..).markPeer ref.manager p).finishLoad ref _
  · exact (h.note ..).finishLoad ref _

theorem dropLoad (h : n.Agrees n') (ref : LoadRef) : (n.dropLoad ref).Agrees (n'.dropLoad ref) := by
  have hn := (h.closeExchange (.load ref)).onManager ref.manager
    fun g => { g with loader := g.loader.abandon ref.load }
  exact { hn with ready := congrArg (List.filter (· != ref)) hn.ready }

theorem continueLoad (h : n.Agrees n') (ref : LoadRef) (p : Nat) :
    (n.continueLoad ref p).Agrees (n'.continueLoad ref p) := by
  obtain ⟨hr,hn⟩ := h.pollRequest (.load ref)
  unfold Network.continueLoad
  generalize Network.pollRequest n (.load ref) = r at hr hn ⊢
  generalize Network.pollRequest n' (.load ref) = r' at hr hn ⊢
  obtain ⟨result,k⟩ := r
  obtain ⟨result',k'⟩ := r'
  obtain rfl : result' = result := hr
  cases result' with
  | none => exact hn
  | some result => exact hn.concludeLoad ref p result

theorem beginLoad (h : n.Agrees n') (ref : LoadRef) (p : Nat) :
    (n.beginLoad ref p).Agrees (n'.beginLoad ref p) := by
  unfold Network.beginLoad
  rw [h.manager]
  obtain ⟨hmark,hk⟩ := ((h.onManager ref.manager fun g =>
    { g with loader := ((n.manager ref.manager).loader.begin ref.load).1 }).note
      (((n.manager ref.manager).loader.begin ref.load).2.map .loader)
      (((n.manager ref.manager).loader.begin ref.load).2.map .loader)).checkMark ref.manager p
  dsimp only
  generalize Network.checkMark (Network.note (n'.onManager _ _) _) ref.manager p = r' at hmark hk ⊢
  generalize Network.checkMark _ ref.manager p = r at hmark hk ⊢
  obtain ⟨marked,k⟩ := r
  obtain ⟨marked',k'⟩ := r'
  obtain rfl : marked' = marked := hmark
  cases marked' with
  | true => exact (hk.note ..).finishLoad ref _
  | false =>
    obtain ⟨hsent,ho⟩ := hk.openRequest (.load ref) p (n.manager ref.manager).config.service
      (n.manager ref.manager).config.requestTimeout
    dsimp only at hsent ho ⊢
    generalize Network.openRequest k _ _ _ _ = r at hsent ho ⊢
    generalize Network.openRequest k' _ _ _ _ = r' at hsent ho ⊢
    obtain ⟨sending,k⟩ := r
    obtain ⟨sending',k'⟩ := r'
    obtain rfl : sending' = sending := hsent
    cases sending' with
    | sent => exact ho.continueLoad ref p
    | failed cause => exact (ho.failRequest (.load ref) cause).concludeLoad ref p _
    | broken line => exact ho.dropLoad ref

theorem runLoad (h : n.Agrees n') (ref : LoadRef) : (n.runLoad ref).Agrees (n'.runLoad ref) := by
  unfold Network.runLoad
  rw [h.manager]
  split
  · exact h
  · split
    · exact h.continueLoad ref _
    · exact h.beginLoad ref _

/-! ## Callers -/

theorem lookup (h : n.Agrees n') (m p : Nat) :
    (n'.lookup m p).1 = (n.lookup m p).1 ∧ (n.lookup m p).2.Agrees (n'.lookup m p).2 := by
  obtain ⟨hmark,hk⟩ := h.checkMark m p
  unfold Network.lookup
  generalize Network.checkMark n m p = r at hmark hk ⊢
  generalize Network.checkMark n' m p = r' at hmark hk ⊢
  obtain ⟨marked,k⟩ := r
  obtain ⟨marked',k'⟩ := r'
  obtain rfl : marked' = marked := hmark
  cases marked' with
  | true => exact ⟨rfl,hk.note ..⟩
  | false =>
    dsimp only at hk ⊢
    rw [hk.manager, hk.now]
    split
    · exact ⟨rfl,(hk.onManager ..).note ..⟩
    · refine ⟨rfl,?_⟩
      dsimp only
      split
      · exact ((hk.onManager ..).note ..).wake _
      · exact (hk.onManager ..).note ..
    · exact ⟨rfl,(hk.onManager ..).note ..⟩

theorem forget (h : n.Agrees n') (m p : Nat) : (n.forget m p).Agrees (n'.forget m p) := by
  unfold Network.forget
  rw [h.manager]
  exact (h.onManager ..).note ..

/-- Looking at a load changes nothing but what was reported. -/
theorem observe (n : Network) (ref : LoadRef) : n.Agrees (n.observe ref).2 := by
  unfold Network.observe
  split
  · exact .refl n
  · dsimp only
    split <;> exact ⟨rfl,rfl,rfl,rfl,rfl,rfl,rfl⟩
  · exact .refl n

theorem soundTimers (h : n.Agrees n') : n.soundTimers.Agrees n'.soundTimers := by
  obtain ⟨knownLost,notices,rfl⟩ := h.eq_reported
  have hs : Agrees { n with sounded := Clock.tick n.now }
      { n with knownLost, notices, sounded := Clock.tick n.now } := ⟨rfl,rfl,rfl,rfl,rfl,rfl,rfl⟩
  exact hs.wakeAll _

/-- Whatever happens, two networks that are the same but for what was reported stay so. -/
theorem step (h : n.Agrees n') (e : Event) : (n.step e).Agrees (n'.step e) := by
  cases e with
  | lookup m p => exact (h.lookup m p).2
  | isUnsupported m p => exact (h.checkMark m p).2
  | forget m p => exact h.forget m p
  | observe ref => exact ((observe n ref).symm.trans h).trans (observe n' ref)
  | turn ref =>
    have hcalled : (n.called ref).Agrees (n'.called ref) :=
      { h with ready := congrArg (List.erase · ref) h.ready }
    exact hcalled.runLoad ref
  | die ref => exact h.dropLoad ref
  | listen c p matcher timeout =>
    rw [Network.step, Network.step, h.exchanges]
    split
    · exact h
    · exact h.openExchange (.caller c) p matcher timeout
  | look c => exact (h.pollExchange (.caller c)).2
  | hangUp c => exact h.closeExchange (.caller c)
  | send p command args => exact (h.send p command args).2
  | deliver p m => exact h.deliver p m
  | disconnect p => exact h.disconnect p
  | receive p r => exact h.receive p r
  | finishStream p => exact h.finishStream p
  | failWriting p reason => exact h.failWriting p reason
  | prepare p replies => exact h.onPeer p _
  | advertise p name value => exact h.onPeer p _
  | pass nanos => exact { h with now := congrArg (· + nanos) h.now }
  | sound => exact h.soundTimers

end ChatToken.Network.Agrees
