import ChatToken.Proofs.Network.Changes

/-! # Accounts of listeners

Whatever happens, exactly those are registered with a connection in memory whose exchanges go on, as
long as the connection is open.
-/
namespace ChatToken.Network

def line (n : Network) (p : Nat) : Link × Bool := ((n.peer p).link, (n.peer p).connected)

section
variable {n n' : Network}

theorem Quiet.line (h : Quiet n n') (p : Nat) : n'.line p = n.line p := by
  have hf := congrArg (fun q : Peer => (q.link, q.connected)) (h.face p)
  exact hf

theorem Inner.line (h : Inner n n') (p : Nat) : n'.line p = n.line p := by
  rw [Network.line, h.peer]
  rfl

theorem line_onPeer (n : Network) (p : Nat) {f : Peer → Peer}
    (hf : ∀ q, (f q).link = q.link ∧ (f q).connected = q.connected) (q : Nat) :
    (n.onPeer p f).line q = n.line q := by
  rw [line, peer_onPeer]
  split
  · rw [(hf _).1, (hf _).2]
    rfl
  · rfl

theorem send_line (n : Network) (p : Nat) (command : String) (args : List String) (q : Nat) :
    (n.send p command args).2.line q = n.line q := by
  rw [(n.quiet_send p command args).line, line, peer_onPeer]
  split
  · next hq =>
    have hs : ((n.peer p).send command args).2.link = (n.peer p).link ∧
        ((n.peer p).send command args).2.connected = (n.peer p).connected := by
      unfold Peer.send
      split
      · dsimp only
        split
        · split <;> exact ⟨rfl,rfl⟩
        · exact ⟨rfl,rfl⟩
      · exact ⟨rfl,rfl⟩
    rw [hs.1, hs.2, hq.1]
    rfl
  · rfl

theorem openRequest_line (n : Network) (h : Holder) (p : Nat) (service : Option String)
    (timeout : Span) (q : Nat) : (n.openRequest h p service timeout).2.line q = n.line q :=
  (send_line ..).trans ((n.quiet_openExchange h p .extjwt timeout).line q)

theorem startRequest_line (n : Network) (c p : Nat) (service : Option String) (timeout : Span)
    (q : Nat) : (n.startRequest c p service timeout).2.line q = n.line q := by
  have ho := n.openRequest_line (.caller c) p service timeout q
  unfold startRequest
  rcases hs : n.openRequest (.caller c) p service timeout with ⟨_ | cause | line,n'⟩ <;>
    rw [hs] at ho
  · exact ((n'.quiet_pollRequest _).line q).trans ho
  · exact ((n'.quiet_failRequest _ cause).line q).trans ho
  · exact ((n'.quiet_closeExchange _).line q).trans ho

theorem dropLoad_line (n : Network) (ref : LoadRef) (q : Nat) :
    (n.dropLoad ref).line q = n.line q := (n.quiet_closeExchange (.load ref)).line q

theorem runLoad_line (n : Network) (ref : LoadRef) (q : Nat) :
    (n.runLoad ref).line q = n.line q := by
  cases ht : (n.manager ref.manager).loader.tasks.get? ref.load with
  | none => rw [runLoad_of_gone n ht]
  | some t =>
    have ha := (n.inner_arrive ref t.key).line q
    have hask : (n.ask ref t.key).2.line q = n.line q := (openRequest_line ..).trans ha
    have hw : (n.work ref t).2.line q = n.line q := by
      have hw := n.work_worked ref t
      generalize n.work ref t = r at hw
      obtain ⟨w,n'⟩ := r
      dsimp only at hw
      cases hw with
      | resumed => exact (quiet_inquire ..).line q
      | withheld => exact ha
      | sent => exact ((quiet_inquire ..).line q).trans hask
      | failed cause => exact ((quiet_failRequest ..).line q).trans hask
      | broken => exact hask
    rw [runLoad_eq n ht]
    generalize (n.work ref t).1 = w
    cases w with
    | withheld =>
      rw [record]
      exact ((((n.work ref t).2.inner_note _).trans (inner_finishLoad _ ref _)).line q).trans hw
    | waits => exact hw
    | ended result => exact ((inner_concludeLoad ..).line q).trans hw
    | died => exact (dropLoad_line ..).trans hw

def InMemory (n : Network) : Prop := ∀ p, (n.peer p).link = .memory

/-- Nothing comes out of a stream that is not there. -/
theorem InMemory.not_reading (hm : n.InMemory) (p : Nat) : (n.peer p).isReading = false := by
  rw [Peer.isReading, hm]
  rfl

theorem InMemory.not_writing (hm : n.InMemory) (p : Nat) : (n.peer p).isWriting = false := by
  rw [Peer.isWriting, hm]
  rfl

/-- A connection in memory ends when it is disconnected, and not otherwise. -/
theorem InMemory.act_line (hm : n.InMemory) (a : Act) {p : Nat} (hp : p < n.peers.length) :
    (n.act a).line p = if a = .event (.disconnect p) then (.memory,false) else n.line p := by
  have keep : ∀ {n' : Network}, (∀ p, a ≠ .event (.disconnect p)) → n'.line p = n.line p →
      n'.line p = if a = .event (.disconnect p) then (.memory,false) else n.line p :=
    fun hne h => by rw [if_neg (hne p), h]
  cases a with
  | event e =>
    cases e with
    | lookup m q => exact keep (by simp) ((n.inner_lookup m q).line p)
    | isUnsupported m q => exact keep (by simp) ((n.inner_checkMark m q).line p)
    | forget m q => exact keep (by simp) ((n.inner_forget m q).line p)
    | observe ref => exact keep (by simp) ((n.inner_observe ref).line p)
    | turn ref => exact keep (by simp) ((n.called ref).runLoad_line ref p)
    | die ref => exact keep (by simp) (n.dropLoad_line ref p)
    | listen c q matcher timeout =>
      refine keep (by simp) ?_
      simp only [act, step]
      split
      · rfl
      · exact (n.quiet_openExchange ..).line p
    | look c => exact keep (by simp) ((n.quiet_pollExchange _).line p)
    | hangUp c => exact keep (by simp) ((n.quiet_closeExchange _).line p)
    | send q command args => exact keep (by simp) (n.send_line q command args p)
    | deliver q m => exact keep (by simp) ((n.quiet_deliver q m).line p)
    | disconnect q =>
      have hd : (n.disconnect q).line p = (n.onPeer q Peer.disconnect).line p :=
        (quiet_wakeAll ..).line p
      rw [act, step, hd, line, peer_onPeer]
      by_cases hq : q = p
      · subst hq
        rw [if_pos ⟨rfl,hp⟩, if_pos rfl, ← hm q]
        rfl
      · rw [if_neg fun h => hq h.1, if_neg (by simpa using hq)]
        rfl
    | receive q r =>
      refine keep (by simp) ?_
      have hr : n.receive q r = n := if_neg (by simp [hm.not_reading])
      rw [act, step, hr]
    | finishStream q =>
      refine keep (by simp) ?_
      rw [act, step, finishStream, hm.not_reading, if_neg (by simp)]
    | failWriting q reason =>
      refine keep (by simp) ?_
      rw [act, step, failWriting, hm.not_writing, if_neg (by simp)]
    | prepare q replies =>
      exact keep (by simp) (n.line_onPeer q (f := fun q => { q with replies }) (fun _ => ⟨rfl,rfl⟩) p)
    | advertise q name value =>
      exact keep (by simp) (n.line_onPeer q (f := (·.setCapability name value))
        (fun _ => ⟨rfl,rfl⟩) p)
    | pass nanos => exact keep (by simp) rfl
    | sound => exact keep (by simp) ((quiet_wakeAll ..).line p)
  | request c q service timeout =>
    refine keep (by simp) ?_
    simp only [act]
    split
    · rfl
    · exact n.startRequest_line c q service timeout p
  | lookRequest c => exact keep (by simp) ((n.quiet_pollRequest _).line p)

theorem InMemory.act (hm : n.InMemory) (a : Act) : (n.act a).InMemory := by
  intro p
  by_cases hp : p < n.peers.length
  · have hl := congrArg Prod.fst (hm.act_line a hp)
    refine hl.trans ?_
    split
    · rfl
    · exact hm p
  · rw [peer, List.getD_eq_getElem?_getD,
      List.getElem?_eq_none (by rw [n.act_peers_length]; exact Nat.le_of_not_lt hp)]
    rfl

/-- Exactly those listen to connections in memory whose exchanges go on, as long as the connections
are open. -/
structure Listed (n : Network) : Prop where
  owned : n.Owned
  memory : n.InMemory
  closed : ∀ p < n.peers.length, (n.peer p).connected = false → n.registered p = []
  live : ∀ h x, n.exchanges.get? h = some x → x.peer < n.peers.length →
    (n.peer x.peer).connected = true → x.listener ∈ n.registered x.peer

namespace Listed

/-- Nobody is registered with a connection that has been closed. -/
theorem act_closed (hn : n.Orderly) (hs : n.Sane) (hl : n.Listed) {a : Act} {p : Nat}
    (hp : p < n.peers.length)
    (hc : ((n.act a).peer p).connected = false) : (n.act a).registered p = [] := by
  by_cases hd : a = .event (.disconnect p)
  · subst hd
    exact ((closes_disconnect n p).registered p).trans (if_pos rfl)
  · have hline := hl.memory.act_line a hp
    rw [if_neg hd] at hline
    have hbefore : (n.peer p).connected = false := (congrArg Prod.snd hline).symm.trans hc
    have hnone := hl.closed p hp hbefore
    cases act_change hn hs hl.owned a with
    | stays hs => rw [hs.registered, hnone]
    | closed hc _ =>
      rw [hc.registered, hnone]
      split <;> rfl
    | ended _ _ he =>
      rw [he.registered, hnone]
      split <;> rfl
    | kept _ _ hk => rw [hk.registered, hnone]
    | began _ hb =>
      have hdrops : (n.peer p).dropsNew = true := by
        rw [Peer.dropsNew, hl.memory p, hbefore]
        rfl
      rw [hb.registered, hnone, hdrops]
      simp
    | tried _ ht => rw [ht.registered, hnone]

theorem act_live (hn : n.Orderly) (hs : n.Sane) (hl : n.Listed) {a : Act}
    {h : Holder} {x' : Exchange Matcher}
    (hx' : (n.act a).exchanges.get? h = some x') (hp : x'.peer < n.peers.length)
    (hc : ((n.act a).peer x'.peer).connected = true) :
    x'.listener ∈ (n.act a).registered x'.peer := by
  have hline := hl.memory.act_line a hp
  have hopen : a ≠ .event (.disconnect x'.peer) := by
    intro hd
    rw [if_pos hd] at hline
    exact absurd (hc.symm.trans (congrArg Prod.snd hline)) (by simp)
  rw [if_neg hopen] at hline
  have hbefore : (n.peer x'.peer).connected = true := (congrArg Prod.snd hline).symm.trans hc
  rcases exchange_act hn hs hl.owned hx' with ⟨x,hx,hstays,hpeer,hlistener⟩ | ⟨_,hb⟩
  · rw [hpeer] at hp hopen hbefore
    have hlink : ((n.act a).peer x.peer).link ≠ .stream false := by
      rw [hl.memory.act a x.peer]
      simp
    rw [hpeer, hlistener]
    exact still_registered hn hs hl.owned hx hstays hopen (fun _ => hlink)
      (hl.live h x hx hp hbefore)
  · have hdrops : (n.peer x'.peer).dropsNew = false := by simp [Peer.dropsNew, hbefore]
    rw [hb.registered, if_pos ⟨rfl,hp,hdrops⟩]
    simp

theorem act (hn : n.Orderly) (hs : n.Sane) (hl : n.Listed) (a : Act) : (n.act a).Listed where
  owned := hl.owned.act hn hs a
  memory := hl.memory.act a
  closed _ hp hc := hl.act_closed hn hs (n.act_peers_length a ▸ hp) hc
  live _ _ hx hp hc := hl.act_live hn hs hx (n.act_peers_length a ▸ hp) hc

theorem play (hn : n.Orderly) (hs : n.Sane) (hl : n.Listed) (as : List Act) :
    (n.play as).Listed := by
  induction as generalizing n with
  | nil => exact hl
  | cons a as ih => exact ih (hn.act a) (hs.act hn a) (hl.act hn hs a)

end Listed

/-- A connection in memory takes commands until it is disconnected. -/
theorem InMemory.play_connected (hm : n.InMemory) (as : List Act) {p : Nat}
    (hp : p < n.peers.length) :
    ((n.play as).peer p).connected =
      ((n.peer p).connected && decide (.event (.disconnect p) ∉ as)) := by
  induction as generalizing n with
  | nil => simp
  | cons a as ih =>
    have hline := congrArg Prod.snd (hm.act_line a hp)
    have hrest := ih (hm.act a) (by rwa [n.act_peers_length])
    rw [play_cons, hrest]
    change (((n.act a).line p).2 && _) = _
    rw [hline]
    by_cases hd : a = .event (.disconnect p)
    · simp [hd]
    · have hd' : ¬ .event (.disconnect p) = a := Ne.symm hd
      simp [hd, hd', line]

structure Accounted (n : Network) (a : Act) : Prop where
  ended : ∀ h x, n.exchanges.get? h = some x → n.Leaves h a → Ended h x n (n.act a)
  kept : ∀ h x, n.exchanges.get? h = some x → ¬ n.Leaves h a →
    ∃ x', (n.act a).exchanges.get? h = some x' ∧ x'.peer = x.peer ∧ x'.listener = x.listener
  began : ∀ h x, n.exchanges.get? h = none → (n.act a).exchanges.get? h = some x →
    Began h x n (n.act a)
  /-- If no exchange ends, nobody is removed from a connection that is not disconnected. -/
  others : ∀ p, a ≠ .event (.disconnect p) →
    (∀ h x, n.exchanges.get? h = some x → ¬ n.Leaves h a) →
    n.registered p <+: (n.act a).registered p

theorem Listed.accounted (hn : n.Orderly) (hs : n.Sane) (hl : n.Listed) (a : Act) :
    n.Accounted a where
  ended h x hx hleaves := (own_act hn hs hl.owned hleaves.holder).ended x hx hleaves
  kept h x hx hstays := exchange_kept hn hs hl.owned hx hstays
  began h x hno hx := by
    rcases exchange_act hn hs hl.owned hx with ⟨x₀,hx₀,_⟩ | ⟨_,hb⟩
    · rw [hno] at hx₀
      cases hx₀
    · exact hb
  others p hopen hnone := by
    cases act_change hn hs hl.owned a with
    | stays hs => rw [hs.registered]
    | @closed p' hc hwhy =>
      rw [hc.registered]
      split
      · next hp =>
        subst hp
        rcases hwhy with hd | hlink
        · exact absurd hd hopen
        · by_cases hp : p' < n.peers.length
          · have hlink := hlink hp
            rw [hl.memory.act a p'] at hlink
            cases hlink
          · rw [registered_of_not_lt hp]
      · exact List.prefix_refl _
    | ended hx hleaves _ => exact absurd hleaves (hnone _ _ hx)
    | kept _ _ hk => rw [hk.registered]
    | began _ hb =>
      rw [hb.registered]
      exact List.prefix_append ..
    | tried _ ht => rw [ht.registered]

theorem listed_start (names : List String) (configs : List TokenConfig) :
    (start (names.map fun name => { name }) configs).Listed := by
  have hpeer : ∀ p, ((start (names.map fun name => { name }) configs).peer p).link = .memory ∧
      (start (names.map fun name => { name }) configs).registered p = [] := by
    intro p
    simp only [registered, peer, start, List.getD_eq_getElem?_getD, List.getElem?_map]
    cases names[p]? <;> exact ⟨rfl,rfl⟩
  refine ⟨owned_start ?_ configs,fun p => (hpeer p).1,fun p _ _ => (hpeer p).2,?_⟩
  · intro q hq
    obtain ⟨name,_,rfl⟩ := List.mem_map.mp hq
    rfl
  · intro h x hx
    cases hx

end

/-- At every point of a run over connections in memory, whatever managers and callers do, exactly the
exchanges that go on are registered with a connection, each under a number of its own, until the
connection is disconnected; then nobody is. Every act that ends an exchange takes away the listener
of this exchange and no other, and no other act takes a listener away. -/
theorem listeners_accounted (names : List String) (configs : List TokenConfig) (as : List Act) :
    let n := (start (names.map fun name => { name }) configs).play as
    (∀ p : Fin names.length,
      (.event (.disconnect p) ∈ as → n.registered p = []) ∧
      (.event (.disconnect p) ∉ as → (n.registered p).Nodup ∧ ∀ id, id ∈ n.registered p ↔
        ∃ h x, n.exchanges.get? h = some x ∧ x.peer = p ∧ x.listener = id) ∧
      ∀ h h' x x', n.exchanges.get? h = some x → n.exchanges.get? h' = some x' → h ≠ h' →
        x.peer = p → x'.peer = p → x.listener ≠ x'.listener) ∧
    ∀ a, n.Accounted a := by
  intro n
  let n₀ := start (names.map fun name => { name }) configs
  have hn₀ : n₀.Orderly := orderly_start _ configs
  have hs₀ : n₀.Sane := sane_start _ configs
  have hl₀ : n₀.Listed := listed_start names configs
  have hl : n.Listed := hl₀.play hn₀ hs₀ as
  refine ⟨?_,hl.accounted (hn₀.play as) (hs₀.play hn₀ as)⟩
  intro p
  have hp₀ : (p : Nat) < n₀.peers.length := by simp [n₀, start]
  have hp : (p : Nat) < n.peers.length := (n₀.play_peers_length as).symm ▸ hp₀
  have hconnected := hl₀.memory.play_connected as hp₀
  have hfresh : (n₀.peer p).connected = true := by simp [n₀, start, peer]
  rw [hfresh, Bool.true_and] at hconnected
  refine ⟨?_,?_,?_⟩
  · intro hd
    exact hl.closed p hp (hconnected.trans (by simpa using hd))
  · intro hd
    refine ⟨hl.owned.nodup p,fun id => ⟨hl.owned.owner p id,?_⟩⟩
    rintro ⟨h,x,hx,hpeer,rfl⟩
    rw [← hpeer] at hp hconnected hd ⊢
    exact hl.live h x hx hp (hconnected.trans (by simpa using hd))
  · rintro h h' x x' hx hx' hne hpeer hpeer'
    exact hl.owned.tidy.apart h h' x x' hx hx' hne (hpeer.trans hpeer'.symm) (hpeer ▸ hp)

/-- A caller, a request without a manager and a load listen; when the caller hangs up, the two others
still listen, and after the connection has been closed nobody does. -/
theorem two_left_listening :
    let n := start [{ name := "irc" }] [{}]
    let as : List Act := [.event (.listen 0 0 .registration (Span.ofSeconds 5)),
      .request 1 0 none (Span.ofSeconds 10), .event (.lookup 0 0), .event (.turn ⟨0,0⟩),
      .event (.hangUp 0)]
    (n.play as).registered 0 = [1, 2] ∧
    (∃ h x, (n.play as).exchanges.get? h = some x ∧ x.peer = 0 ∧ x.listener = 2) ∧
    (n.play (as ++ [.event (.disconnect 0)])).registered 0 = [] := by
  intro n as
  have hopen := ((listeners_accounted ["irc"] [{}] as).1 ⟨0,by decide⟩).2.1
    (by decide)
  have hclosed := ((listeners_accounted ["irc"] [{}] (as ++ [.event (.disconnect 0)])).1 ⟨0,by decide⟩).1 (by decide)
  exact ⟨by decide +kernel,(hopen.2 2).mp (by decide +kernel),hclosed⟩

end ChatToken.Network
