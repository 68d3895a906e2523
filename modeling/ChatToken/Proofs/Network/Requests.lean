import ChatToken.Proofs.Network.Peers

/-! # What managers send

A manager sends something only when the task of a load runs for the first time: the one request of
that load.
-/
namespace ChatToken

namespace Peer

theorem send_sent (q : Peer) (command : String) (args : List String) :
    (q.send command args).2.sent =
      q.sent ++ if q.connected then [Message.of command args] else [] := by
  unfold send
  by_cases hc : q.connected = true
  · simp only [hc, if_true]
    split
    · split <;> rfl
    · rfl
  · simp [hc]

/-- What a connection answers does not depend on its listeners. -/
theorem send_face (q : Peer) (command : String) (args : List String) :
    (q.face.send command args).1 = (q.send command args).1 := by
  unfold send face
  dsimp only
  split
  · split
    · split <;> rfl
    · rfl
  · rfl

/-- What sending does to a connection is no concern of its listeners. -/
theorem face_send (q : Peer) (command : String) (args : List String) :
    (q.face.send command args).2 = (q.send command args).2.face := by
  unfold send face
  dsimp only
  split
  · split
    · split <;> rfl
    · rfl
  · rfl

theorem send_congr {q q' : Peer} (h : q'.face = q.face) (command : String) (args : List String) :
    (q'.send command args).1 = (q.send command args).1 ∧
    (q'.send command args).2.face = (q.send command args).2.face := by
  constructor
  · rw [← q'.send_face, h, send_face]
  · rw [← face_send, h, face_send]

end Peer

namespace Network

open Manager (Deed)

def sends (n : Network) (q : Nat) : Event → List Message
  | .turn ref =>
    if n.asks? ref = some q ∧ q < n.peers.length ∧ (n.peer q).connected then
      [request (n.manager ref.manager).config]
    else []
  | _ => []

section
variable {n n' : Network} {ref : LoadRef} {t : LoadTask Nat Token TokenError} {m p q : Nat}

theorem Quiet.sent (h : Quiet n n') (q : Nat) : (n'.peer q).sent = (n.peer q).sent := by
  have hf := congrArg Peer.sent (h.face q)
  exact hf

theorem Quiet.connected (h : Quiet n n') (q : Nat) :
    (n'.peer q).connected = (n.peer q).connected := by
  have hf := congrArg Peer.connected (h.face q)
  exact hf

theorem send_sent (n : Network) (p q : Nat) (command : String) (args : List String) :
    ((n.send p command args).2.peer q).sent = (n.peer q).sent ++
      if p = q ∧ q < n.peers.length ∧ (n.peer q).connected then [Message.of command args]
      else [] := by
  rw [(n.quiet_send p command args).sent, peer_onPeer]
  by_cases hq : p = q ∧ q < n.peers.length
  · obtain ⟨rfl,hlt⟩ := hq
    simp [hlt, Peer.send_sent]
  · rw [if_neg hq, if_neg (fun h => hq ⟨h.1,h.2.1⟩), List.append_nil]

theorem send_peer_face (n : Network) (p q : Nat) (command : String) (args : List String) :
    ((n.send p command args).2.peer q).face =
      if p = q ∧ q < n.peers.length then ((n.peer q).send command args).2.face
      else (n.peer q).face := by
  rw [(n.quiet_send p command args).face, peer_onPeer]
  split
  · next hq => rw [hq.1]
  · rfl

def requested (q : Peer) (g : Manager) : Peer :=
  (q.send Reply.extjwt (Reply.anyTarget :: g.config.service.toList)).2

theorem requested_sent (q : Peer) (g : Manager) :
    (requested q g).sent = q.sent ++ if q.connected then [request g.config] else [] :=
  q.send_sent ..

theorem ask_face (n : Network) (ref : LoadRef) (p q : Nat) :
    ((n.ask ref p).2.peer q).face =
      if p = q ∧ q < n.peers.length then (requested (n.peer q) (n.manager ref.manager)).face
      else (n.peer q).face := by
  have ha := n.inner_arrive ref p
  have ho := (n.arrive ref p).2.quiet_openExchange (.load ref) p .extjwt
    (n.manager ref.manager).config.requestTimeout
  have hface := ho.face q
  unfold ask openRequest
  dsimp only
  rw [send_peer_face, hface, ho.length, (Peer.send_congr hface _ _).2, ha.peer, ha.peers]
  rfl

theorem Worked.face {w : Turn} (h : Worked n ref t w n') (hgoes : (n.arrive ref t.key).1 = false)
    (q : Nat) :
    (n'.peer q).face =
      if t.begun = false ∧ t.key = q ∧ q < n.peers.length then
        (requested (n.peer q) (n.manager ref.manager)).face
      else (n.peer q).face := by
  cases h with
  | resumed hb => simp [(quiet_inquire ..).face, hb]
  | withheld _ ha => rw [hgoes] at ha; cases ha
  | sent hb => simp only [(quiet_inquire ..).face, ask_face, hb, true_and]
  | failed cause hb => simp only [(quiet_failRequest ..).face, ask_face, hb, true_and]
  | broken line hb => simp only [ask_face, hb, true_and]

theorem Inner.sent (h : Inner n n') (q : Nat) : (n'.peer q).sent = (n.peer q).sent := by
  rw [h.peer]

theorem Inner.face (h : Inner n n') (q : Nat) : (n'.peer q).face = (n.peer q).face := by
  rw [h.peer]

theorem dropLoad_face (n : Network) (ref : LoadRef) (q : Nat) :
    ((n.dropLoad ref).peer q).face = (n.peer q).face :=
  (n.quiet_closeExchange (.load ref)).face q

theorem record_face (n : Network) (ref : LoadRef) (p : Nat) (w : Turn) (q : Nat) :
    ((n.record ref p w).peer q).face = (n.peer q).face := by
  cases w with
  | withheld =>
    rw [record]
    exact ((n.inner_note [.requestWithheld p]).trans (inner_finishLoad _ ref _)).face q
  | waits => rfl
  | ended result => exact (n.inner_concludeLoad ref p result).face q
  | died => exact n.dropLoad_face ref q

/-- A peer with a running load is not marked, so a task that has not run yet asks it. -/
theorem asks?_eq (hn : n.Orderly)
    (ht : (n.manager ref.manager).loader.tasks.get? ref.load = some t) :
    n.asks? ref = if t.begun then none else some t.key := by
  have hp : n.about ref.manager t.key = .pending ref.load :=
    (hn _).about_eq_pending.mpr ⟨t,ht,rfl,(hn _).live _ _ ht⟩
  have hmark : (n.manager ref.manager).marks.standing n.now t.key ≠ .marked := by
    intro hs
    obtain ⟨_,hu,_⟩ := (about_eq_unsupported hn).mp hs
    rw [hp] at hu
    cases hu
  obtain ⟨key,phase⟩ := t
  rw [asks?, ht]
  cases phase <;> simp [LoadTask.begun, hmark]

theorem asks?_eq_some (hn : n.Orderly) : n.asks? ref = some p ↔
    ∃ t, (n.manager ref.manager).loader.tasks.get? ref.load = some t ∧ t.begun = false ∧
      t.key = p := by
  cases ht : (n.manager ref.manager).loader.tasks.get? ref.load with
  | none => simp [asks?, ht]
  | some t =>
    rw [asks?_eq hn ht]
    cases hb : t.begun <;> simp [hb]

/-- A turn leaves the connections alone, except for the one that is asked. -/
theorem runLoad_face (hn : n.Orderly) (ref : LoadRef) (q : Nat) :
    ((n.runLoad ref).peer q).face =
      if n.asks? ref = some q ∧ q < n.peers.length then
        (requested (n.peer q) (n.manager ref.manager)).face
      else (n.peer q).face := by
  cases ht : (n.manager ref.manager).loader.tasks.get? ref.load with
  | none => simp [runLoad_of_gone n ht, asks?, ht]
  | some t =>
    rw [runLoad_eq n ht, record_face, (n.work_worked ref t).face (arrive_of_sound (hn _) ht).1,
      asks?_eq hn ht]
    cases t.begun <;> simp

theorem runLoad_sent (hn : n.Orderly) (ref : LoadRef) (q : Nat) :
    ((n.runLoad ref).peer q).sent = (n.peer q).sent ++ n.sends q (.turn ref) := by
  change ((n.runLoad ref).peer q).face.sent = _
  rw [runLoad_face hn, sends]
  by_cases hq : n.asks? ref = some q ∧ q < n.peers.length
  · rw [if_pos hq]
    refine (requested_sent ..).trans ?_
    simp [hq]
  · rw [if_neg hq, if_neg fun h => hq ⟨h.1,h.2.1⟩, List.append_nil]
    rfl

/-- What is sent during an event of a manager. -/
theorem step_sent (hn : n.Orderly) {e : Event} (he : e.manager? = some m) (q : Nat) :
    ((n.step e).peer q).sent = (n.peer q).sent ++ n.sends q e := by
  have quiet : ∀ {l : List Message}, l = (n.peer q).sent → l = (n.peer q).sent ++ [] :=
    fun h => h.trans (List.append_nil _).symm
  cases e with
  | lookup m p => exact quiet ((n.inner_lookup m p).sent q)
  | isUnsupported m p => exact quiet ((n.inner_checkMark m p).sent q)
  | forget m p => exact quiet ((n.inner_forget m p).sent q)
  | observe ref => exact quiet ((n.inner_observe ref).sent q)
  | turn ref => exact runLoad_sent (n := n.called ref) hn ref q
  | die ref => exact quiet ((n.quiet_closeExchange (.load ref)).sent q)
  | _ => cases he

theorem sentSince_step (hn : n.Orderly) {e : Event} (he : e.manager? = some m) (q : Nat) :
    n.sentSince (n.step e) q = n.sends q e := by
  rw [sentSince, step_sent hn he, List.drop_left]

/-! ## During a run -/

theorem sends_elsewhere (hn : n.Orderly)
    (h : ∀ t, (n.manager ref.manager).loader.tasks.get? ref.load = some t → t.key ≠ p) :
    n.sends p (.turn ref) = [] := by
  cases ht : (n.manager ref.manager).loader.tasks.get? ref.load with
  | none => simp [sends, asks?, ht]
  | some t =>
    rw [sends, asks?_eq hn ht]
    cases t.begun <;> simp [h t ht]

theorem sends_of_not_pending (hn : n.Orderly) {e : Event} (he : e.manager? = some m)
    (h : ∀ id, n.about m p ≠ .pending id) : n.sends p e = [] := by
  cases e with
  | turn ref =>
    cases he
    apply sends_elsewhere hn
    rintro t ht rfl
    exact h ref.load ((hn _).about_eq_pending.mpr ⟨t,ht,rfl,(hn _).live _ _ ht⟩)
  | _ => rfl

/-- A manager sends nothing to a peer without a running load. -/
theorem sentBy_eq_nil (hn : n.Orderly) {es : List Event}
    (h : Always (fun n' _ => ∀ id, n'.about m p ≠ .pending id) n es) : n.sentBy m p es = [] := by
  induction es generalizing n with
  | nil => rfl
  | cons e es ih =>
    rw [sentBy, ih (hn.step e) h.2]
    split
    · next he => rw [sentSince_step hn he, sends_of_not_pending hn he h.1, List.append_nil]
    · rfl

theorem sentFor_append (n : Network) (ref : LoadRef) (p : Nat) (es es' : List Event) :
    n.sentFor ref p (es ++ es') = n.sentFor ref p es ++ (n.after es).sentFor ref p es' := by
  induction es generalizing n with
  | nil => rfl
  | cons e es ih => rw [List.cons_append, sentFor, ih, sentFor, List.append_assoc, after_cons]

theorem sentFor_of_not_mem (n : Network) {ref : LoadRef} (p : Nat) {es : List Event}
    (h : .turn ref ∉ es) : n.sentFor ref p es = [] := by
  induction es generalizing n with
  | nil => rfl
  | cons e es ih =>
    rw [List.mem_cons, not_or] at h
    rw [sentFor, if_neg (Ne.symm h.1), ih _ h.2, List.append_nil]

/-! ## The task of a load -/

def Spent (n : Network) (ref : LoadRef) : Prop :=
  ref.load < (n.manager ref.manager).loader.nextLoad ∧
  ∀ t, (n.manager ref.manager).loader.tasks.get? ref.load = some t → t.begun = true

theorem Spent.step (hn : n.Orderly) (hm : ref.manager < n.managers.length) (h : n.Spent ref)
    (e : Event) : (n.step e).Spent ref := by
  refine ⟨Nat.lt_of_lt_of_le h.1 (step_nextLoad_le hn hm e),?_⟩
  intro t ht
  rcases step_moved hn hm e with hl | ⟨d,_,hl⟩
  · rw [hl] at ht
    exact h.2 t ht
  · rcases hl.task ht with ht | ⟨_,hp,_⟩ | ⟨hid,_⟩
    · exact h.2 t ht
    · rw [LoadTask.begun, hp]
    · exact absurd hid (Nat.ne_of_lt h.1)

/-- A turn is about its own load, unless the task goes on waiting. -/
theorem turnDeed?_load (ht : (n.manager ref.manager).loader.tasks.get? ref.load = some t) :
    (∃ d, n.turnDeed? ref = some d ∧ d.load? = some ref.load) ∨
    (n.turnDeed? ref = none ∧ t.begun = true) := by
  rw [n.turnDeed?_eq ht]
  generalize (n.work ref t).1 = w
  cases w with
  | ended result => exact .inl ⟨_,rfl,rfl⟩
  | died => exact .inl ⟨_,rfl,rfl⟩
  | _ =>
    cases hb : t.begun with
    | true => exact .inr ⟨rfl,rfl⟩
    | false => exact .inl ⟨_,rfl,rfl⟩

/-- Who has had a turn has run. -/
theorem spent_turn (hn : n.Orderly) (hm : ref.manager < n.managers.length)
    (ht : (n.manager ref.manager).loader.tasks.get? ref.load = some t) :
    (n.step (.turn ref)).Spent ref := by
  have hid := (hn ref.manager).loader.numbered _ _ ht
  refine ⟨Nat.lt_of_lt_of_le hid (step_nextLoad_le hn hm _),?_⟩
  intro t' ht'
  rw [step_manager n hn _ hm] at ht'
  have hd : n.deed? ref.manager (.turn ref) =
      (n.called ref).turnDeed? ref := if_pos rfl
  rcases turnDeed?_load (n := n.called ref) ht with ⟨d,hd',hl⟩ | ⟨hd',hb⟩
  · rw [hd, hd', Option.elim_some] at ht'
    exact Manager.begun_of_act (hn _) (deed?_fits hn (hd.trans hd')) hl ht'
  · rw [hd, hd', Option.elim_none, ht] at ht'
    cases ht'
    exact hb

theorem sentFor_of_spent (hn : n.Orderly) (hm : ref.manager < n.managers.length)
    (h : n.Spent ref) (p : Nat) (es : List Event) : n.sentFor ref p es = [] := by
  induction es generalizing n with
  | nil => rfl
  | cons e es ih =>
    rw [sentFor, ih (hn.step e) (by rwa [n.step_managers_length e]) (h.step hn hm e)]
    split
    · next he =>
      subst he
      rw [sentSince_step hn rfl, sends]
      cases ht : (n.manager ref.manager).loader.tasks.get? ref.load with
      | none => simp [asks?, ht]
      | some t => simp [asks?_eq hn ht, h.2 t ht]
    · rfl

theorem Spent.after (hn : n.Orderly) (hm : ref.manager < n.managers.length) (h : n.Spent ref)
    (es : List Event) : (n.after es).Spent ref := by
  induction es generalizing n with
  | nil => exact h
  | cons e es ih => exact ih (hn.step e) (by rwa [n.step_managers_length e]) (h.step hn hm e)

/-- A load asks once. -/
theorem asks?_later (hn : n.Orderly) (hasks : n.asks? ref = some p) (es : List Event) :
    (n.after (.turn ref :: es)).asks? ref = none := by
  obtain ⟨t,ht,_⟩ := (asks?_eq_some hn).mp hasks
  have hm := lt_of_task ht
  have hspent := (spent_turn hn hm ht).after (hn.step _) (by rwa [n.step_managers_length _]) es
  cases ht' : ((n.after (.turn ref :: es)).manager ref.manager).loader.tasks.get? ref.load with
  | none => rw [asks?, ht']
  | some t' => rw [asks?_eq (hn.after _) ht', hspent.2 t' ht', if_pos rfl]

/-! ## A request is started -/

theorem mem_wake (n : Network) {ref ref' : LoadRef} :
    ref' ∈ (n.wake ref).ready ↔ ref' ∈ n.ready ∨ ref' = ref := by
  unfold wake
  split
  · next h =>
    have hmem : ref ∈ n.ready := by simpa using h
    constructor
    · exact .inl
    · rintro (h | rfl)
      · exact h
      · exact hmem
  · simp

theorem mem_wakeAll (n : Network) {refs : List LoadRef} {ref : LoadRef} :
    ref ∈ (n.wakeAll refs).ready ↔ ref ∈ n.ready ∨ ref ∈ refs := by
  induction refs generalizing n with
  | nil => simp [wakeAll]
  | cons r refs ih =>
    refine (ih (n.wake r)).trans ?_
    rw [mem_wake, List.mem_cons, or_assoc]

/-- The task of a load that nobody has touched still waits. -/
theorem waiting_after (hn : n.Orderly) (hm : ref.manager < n.managers.length)
    (ht : (n.manager ref.manager).loader.tasks.get? ref.load = some t) {es : List Event}
    (hturn : .turn ref ∉ es) (hdie : .die ref ∉ es) :
    ((n.after es).manager ref.manager).loader.tasks.get? ref.load = some t := by
  induction es generalizing n with
  | nil => exact ht
  | cons e es ih =>
    rw [List.mem_cons, not_or] at hturn hdie
    have hid := (hn ref.manager).loader.numbered _ _ ht
    have hkeep := step_other_load hn hm hid (Ne.symm hturn.1) (Ne.symm hdie.1)
    exact ih (hn.step e) (by rwa [n.step_managers_length e]) (hkeep.1.trans ht) hturn.2 hdie.2

/-- The task of a load sends one request, in its first turn. -/
theorem sentFor_eq (hn : n.Orderly) (hm : ref.manager < n.managers.length)
    (hp : p < n.peers.length)
    (ht : (n.manager ref.manager).loader.tasks.get? ref.load = some { key := p })
    {before : List Event} (hturn : .turn ref ∉ before) (hdie : .die ref ∉ before)
    (later : List Event) :
    n.sentFor ref p (before ++ .turn ref :: later) =
      if ((n.after before).peer p).connected then [request (n.manager ref.manager).config]
      else [] := by
  have hn' := hn.after before
  have hm' : ref.manager < (n.after before).managers.length := by rwa [after_managers_length]
  have ht' := waiting_after hn hm ht hturn hdie
  have hlater := sentFor_of_spent (hn'.step (.turn ref))
    (by rwa [(n.after before).step_managers_length _]) (spent_turn hn' hm' ht') p later
  rw [sentFor_append, sentFor_of_not_mem n p hturn, List.nil_append, sentFor, if_pos rfl,
    hlater, List.append_nil, sentSince_step hn' rfl, sends, asks?_eq hn' ht', after_config hn _ _,
    after_peers_length]
  simp [LoadTask.begun, hp]

/-- As long as a load of `p` goes on, what its manager sends to `p` is sent by its task. -/
theorem sentBy_eq_sentFor (hn : n.Orderly) (hm : ref.manager < n.managers.length)
    (hr : (n.manager ref.manager).loader.Running ref.load p) {es : List Event}
    (h : (n.after es).ending? ref = none) :
    n.sentBy ref.manager p es = n.sentFor ref p es := by
  induction es generalizing n with
  | nil => rfl
  | cons e es ih =>
    have hopen : (n.step e).ending? ref = none := by
      cases he : (n.step e).ending? ref with
      | none => rfl
      | some ending =>
        have hend := after_ending (hn.step e) es he
        rw [after_cons, hend] at h
        cases h
    have hr' := running_step hn hm hr e hopen
    rw [sentBy, sentFor, ih (hn.step e) (by rwa [n.step_managers_length e]) hr' h]
    by_cases he : e = .turn ref
    · subst he
      simp [Event.manager?]
    · rw [if_neg he]
      split
      · next hem =>
        rw [sentSince_step hn hem]
        -- any other task of this manager works for another peer
        cases e with
        | turn ref' =>
          obtain ⟨m',id'⟩ := ref'
          obtain rfl : m' = ref.manager := Option.some.inj hem
          rw [sends_elsewhere hn]
          rintro t ht rfl
          have hid := (hn _).loader.load_unique ⟨t,ht,rfl,(hn _).live _ _ ht⟩ hr
          exact he (congrArg (fun id => Event.turn ⟨ref.manager,id⟩) hid)
        | _ => rfl
      · rfl

theorem seek_ready (n : Network) (h : (n.seek m p).1 = .pending (n.nextRef m)) :
    n.nextRef m ∈ (n.seek m p).2.ready := by
  unfold seek at h ⊢
  dsimp only at h ⊢
  generalize (n.manager m).loader.lookup (Manager.staleness (n.manager m).config n.now) true p = r
    at h ⊢
  obtain ⟨a,l,notices⟩ := r
  cases a with
  | loading id =>
    obtain rfl : id = (n.manager m).loader.nextLoad := congrArg LoadRef.load
      (TokenLookup.pending.inj h)
    dsimp only
    rw [if_pos rfl]
    exact (mem_wake _).mpr (.inr rfl)
  | _ => cases h

/-- The task of a load that a lookup started waits for its first turn. -/
theorem lookup_task (hn : n.Orderly) (hm : m < n.managers.length)
    (h : (n.lookup m p).2.about m p = .pending (n.manager m).loader.nextLoad) :
    ((n.lookup m p).2.manager m).loader.tasks.get? (n.manager m).loader.nextLoad =
      some { key := p } := by
  obtain ⟨⟨key,phase⟩,ht,hk,_⟩ := (hn.step (.lookup m p) m).about_eq_pending.mp h
  have hmoved : Manager.Moved (n.manager m) n.now (.lookup p)
      ((n.step (.lookup m p)).manager m).loader := by
    rw [step_manager n hn _ hm, deed?, if_pos rfl]
    exact Manager.act_moved (hn m) trivial
  rcases hmoved.task ht with ht' | ⟨hd,_⟩ | ⟨_,hw,_⟩
  · rw [(hn m).loader.no_next_task] at ht'
    cases ht'
  · cases hd
  · cases hk
    cases hw
    exact ht

/-- The task of a load that a lookup started stands in line. -/
theorem lookup_ready (hn : n.Orderly) (hm : m < n.managers.length)
    (h : (n.lookup m p).2.about m p = .pending (n.manager m).loader.nextLoad) :
    n.nextRef m ∈ (n.lookup m p).2.ready := by
  have hgo : (n.manager m).marks.standing n.now p ≠ .marked := by
    intro hs
    obtain ⟨t,ht,hc⟩ := (about_eq_unsupported hn).mp hs
    rw [lookup_about hn hm, ht] at h
    simp [PeerState.lookedUp, PeerState.counts, hc] at h
  have hsame : (n.checkMark m p).2.nextRef m = n.nextRef m := by
    rw [nextRef, (n.checkMark_manager hm m p).2, if_pos rfl]
    rfl
  have ha := lookup_answer hn hm p
  rw [h] at ha
  rw [lookup_eq, if_neg hgo] at ha ⊢
  rw [← hsame]
  exact seek_ready _ (ha.trans (congrArg TokenLookup.pending hsame.symm))

theorem startsRequest (hn : n.Orderly) (hm : m < n.managers.length) (hp : p < n.peers.length)
    (h : (n.about m p).lookedUp (n.manager m).config n.now (n.manager m).loader.nextLoad =
      .pending (n.manager m).loader.nextLoad) : n.StartsRequest m p := by
  have hs := (hn m).loader
  have habout := (lookup_about hn hm p).trans h
  have hn' : (n.lookup m p).2.Orderly := hn.step (.lookup m p)
  have hm' : m < (n.lookup m p).2.managers.length := by rwa [(n.inner_lookup m p).length]
  have hp' : p < (n.lookup m p).2.peers.length := by rwa [(n.inner_lookup m p).peers]
  have hr := (hn' m).about_eq_pending.mp habout
  exact {
    answer := by rw [lookup_answer hn hm, habout]; rfl
    idle := by
      cases hl : (n.manager m).loader.loading.get? p with
      | none => rfl
      | some id =>
        have hid := Manager.about_of_loading hl
        rw [about, hid] at h
        cases h
        exact absurd (hs.registered_lt hl) (Nat.lt_irrefl _)
    fresh := ⟨hs.no_next_task,hs.no_next_ending⟩
    queued := lookup_ready hn hm habout
    request := by
      intro before later hturn hdie
      have hc : ((n.lookup m p).2.manager m).config = (n.manager m).config :=
        step_config hn (.lookup m p) m
      rw [← hc]
      exact sentFor_eq hn' hm' hp' (lookup_task hn hm habout) hturn hdie later
    alone := fun es hes => sentBy_eq_sentFor hn' hm' hr hes }

end

end Network
end ChatToken
